/-
# BehaviorTree.Journal — what a program tells about its run

Everything that a run tells about itself goes into one journal, newest entry first. Nothing in the
program looks into the journal: it is written for the outside. From it come the records of the log
(`Journal.logged`), what a trace sink has taken on (`Journal.recorded`), and the remarks of a host's own
leaves (`Journal.remarks`).
-/
import BehaviorTree.Cell.Basic
import BehaviorTree.Status
import BehaviorTree.Trace

namespace BehaviorTree

/-- An entry of the journal. -/
inductive Entry where
  /-- A tree of so many nodes was loaded. -/
  | treeLoaded (nodes : Nat)
  /-- A path of so many cells was found from a cell. -/
  | newPath (length : Nat) (origin : Cell)
  /-- A controller put off samples because too many were due. -/
  | catchUpCapped (frame cap backlog : Nat)
  /-- The tree was ticked. -/
  | rootTicked (frame : Nat) (status : Status)
  /-- A sink took an event on. -/
  | traced (sink : Sink) (event : TraceEvent)
  /-- A frame of a simulation ended. -/
  | frameEnded (frame : Nat) (status : Status) (cell : Cell) (facing : Float32)
      (seen heard : Option Cell)
  /-- A remark of a host. -/
  | remark (text : String)

/-- The entries of a journal, newest first. -/
abbrev Journal := List Entry

/-! ## § The log -/

/-- How much a log record matters. -/
inductive Level where
  | trace
  | debug
  | warning
  deriving DecidableEq

/-- The name of a level. -/
def Level.text : Level → String
  | .trace => "TRACE"
  | .debug => "DEBUG"
  | .warning => "WARN"

/-- A value in a log record. -/
inductive LogValue where
  | count (n : Nat)
  | single (x : Float32)
  | text (s : String)

/-- A record of the log: what happened, and the values that belong to it by their names. -/
structure LogRecord where
  level : Level
  message : String
  values : List (String × LogValue)

/-- The log record of an entry; some entries are none of the log's business. -/
def Entry.logRecord? : Entry → Option LogRecord
  | .treeLoaded nodes => some ⟨.debug, "behavior tree loaded", [("nodes", .count nodes)]⟩
  | .newPath length origin =>
    some ⟨.debug, "move: new path", [("len", .count length), ("from", .text origin.text)]⟩
  | .catchUpCapped frame cap backlog =>
    some ⟨.warning, "sensor catch-up capped; deferring samples",
      [("frame", .count frame), ("cap", .count cap), ("backlog", .count backlog)]⟩
  | .rootTicked frame status =>
    some ⟨.trace, "root ticked", [("frame", .count frame), ("status", .text status.text)]⟩
  | .traced (.log agent) event =>
    some ⟨.debug, "decision",
      [("agent", .text agent), ("frame", .count event.frame), ("tag", .text event.tag),
        ("a", .count event.a), ("b", .count event.b)]⟩
  | .traced (.record _) _ => none
  | .frameEnded frame status cell facing seen heard =>
    some ⟨.debug, "frame",
      [("frame", .count frame), ("status", .text status.text), ("cell", .text cell.text),
        ("facing", .single facing), ("seen", .text (Cell.debugOptional seen)),
        ("heard", .text (Cell.debugOptional heard))]⟩
  | .remark _ => none

namespace Journal

/-- The records of the log, in order. -/
def logged (j : Journal) : List LogRecord :=
  j.reverse.filterMap Entry.logRecord?

/-- What the sink with that record has taken on, in order. -/
def recorded (j : Journal) (id : Nat) : List TraceEvent :=
  j.reverse.filterMap fun
    | .traced (.record i) event => if i = id then some event else none
    | _ => none

/-- The remarks, in order. -/
def remarks (j : Journal) : List String :=
  j.reverse.filterMap fun
    | .remark text => some text
    | _ => none

end Journal

end BehaviorTree
