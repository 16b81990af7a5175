/-
# BehaviorTree.Situation — what a leaf works on

A leaf of a tree sees the world, the agent's body and the blackboard, and it writes into the journal.
A situation is all of this together; every action takes a situation and returns the one that it leaves
behind.
-/
import BehaviorTree.Blackboard.Basic
import BehaviorTree.Body
import BehaviorTree.Journal

namespace BehaviorTree

/-- What a leaf works on. -/
structure Situation where
  world : World
  body : Body
  board : Blackboard := {}
  journal : Journal := []

instance : Inhabited Situation :=
  ⟨{ world := default, body := default }⟩

namespace Situation

/-- Asks for a move. -/
def request (s : Situation) (target : Cell) (speed : Float32) : Situation :=
  { s with body := s.body.request target speed }

/-- Aims at a cell. -/
def aimAt (s : Situation) (cell : Cell) : Situation :=
  { s with body := s.body.aimAt cell }

/-- Turns to a direction. -/
def face (s : Situation) (degrees : Float32) : Situation :=
  { s with body := { s.body with facing := degrees } }

/-- Draws from the agent's random stream. -/
def draw {α : Type} (s : Situation) (d : Random.SplitMix → α × Random.SplitMix) : α × Situation :=
  let (value, rng) := d s.body.rng
  (value, { s with body := { s.body with rng } })

/-- Writes a note on the blackboard. -/
def note (s : Situation) (text : String) : Situation :=
  { s with board := s.board.note text }

/-- Writes into the journal. -/
def tell (s : Situation) (entry : Entry) : Situation :=
  { s with journal := entry :: s.journal }

/-- **`Situation.emit`** — leaves a trace event behind: a note on the blackboard, and the event itself
with the sink, if there is one. The note is written even if the sink's slot holds something else. -/
def emit (s : Situation) (event : TraceEvent) : Except Fault Unit × Situation :=
  let s := s.note event.text
  match s.board.slots.get Blackboard.sinkKey with
  | .error fault => (.error fault, s)
  | .ok none => (.ok (), s)
  | .ok (some sink) => (.ok (), s.tell (.traced sink event))

end Situation

end BehaviorTree
