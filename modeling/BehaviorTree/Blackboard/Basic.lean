/-
# BehaviorTree.Blackboard.Basic — what the parts of a tree share

The blackboard holds two memories, the active path, notes for whoever looks for the reasons of a
decision, and the slots. Of the notes the last ones are kept.
-/
import BehaviorTree.Blackboard.Memory
import BehaviorTree.Blackboard.Path
import BehaviorTree.Blackboard.Slots
import BehaviorTree.Trace

namespace BehaviorTree

/-- The kinds of values in the slots of a blackboard: those of hosts, and the sink of trace events. -/
inductive SlotKind where
  | word
  | integer
  | flag
  | text
  | sink
  deriving DecidableEq

/-- The values of a kind. -/
abbrev SlotKind.Carrier : SlotKind → Type
  | .word => UInt32
  | .integer => Int
  | .flag => Bool
  | .text => String
  | .sink => Sink

/-- A key to a slot of a blackboard. -/
abbrev SlotKey (kind : SlotKind) := Slots.Key kind

/-- What the parts of a tree share. -/
structure Blackboard where
  seen : Memory := {}
  heard : Memory := {}
  suspicion : Float32 := 0
  path : Option ActivePath := none
  /-- The notes, oldest first. -/
  notes : List String := []
  slots : Slots SlotKind.Carrier := []

namespace Blackboard

/-! ## § The active path -/

/-- The current cell of the active path. -/
def pathNext (b : Blackboard) : Option Cell :=
  b.path.map ActivePath.next

/-- Starts a path; without cells there is no path then. -/
def setPath (b : Blackboard) (cells : List Cell) : Blackboard :=
  { b with path := ActivePath.start? cells }

/-- Goes on to the next cell of the path and returns it; at the end the path is taken away. -/
def advancePath (b : Blackboard) : Option Cell × Blackboard :=
  let path := b.path.bind ActivePath.advance?
  (path.map ActivePath.next, { b with path })

/-- Takes the path away. -/
def clearPath (b : Blackboard) : Blackboard :=
  { b with path := none }

/-! ## § Notes -/

/-- So many notes are kept. -/
def noteCapacity : Nat := 64

/-- Writes a note; the oldest one gives way if there are too many. -/
def note (b : Blackboard) (text : String) : Blackboard :=
  { b with notes := b.notes.drop (b.notes.length + 1 - noteCapacity) ++ [text] }

/-- Throws the notes away. -/
def clearNotes (b : Blackboard) : Blackboard :=
  { b with notes := [] }

/-- The last `n` notes, oldest first. -/
def lastNotes (b : Blackboard) (n : Nat) : List String :=
  b.notes.drop (b.notes.length - n)

/-! ## § Trace events -/

/-- The slot of the sink that takes the trace events on. -/
def sinkKey : SlotKey .sink := ⟨6780022789211422721⟩

/-- Puts a sink in place. -/
def installSink (b : Blackboard) (sink : Sink) : Blackboard :=
  { b with slots := b.slots.set sinkKey sink }

/-! ## § Debugging -/

/-- A blackboard as a debug line shows it; of the notes and the slots it shows the numbers. -/
def debug (b : Blackboard) : String :=
  Text.fields "Blackboard"
    [("seen_target", b.seen.debug), ("heard_noise", b.heard.debug),
      ("suspicion", Numeric.Spelling.log.single b.suspicion),
      ("path", Text.optional (b.path.map ActivePath.debug)),
      ("debug_notes", toString b.notes.length), ("extensions", toString b.slots.length)]

end Blackboard

end BehaviorTree
