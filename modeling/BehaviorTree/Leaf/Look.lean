/-
# BehaviorTree.Leaf.Look — looking at the player or at a cell

While it is looking, an agent aims at its target in every tick. To look at the player fails when there
is no player.
-/
import BehaviorTree.Leaf.Timer
import BehaviorTree.Situation

namespace BehaviorTree

/-- What is looked at. -/
inductive Aim where
  | player
  | point (cell : Cell)
  deriving DecidableEq

/-- An aim as a debug line shows it. -/
def Aim.debug : Aim → String
  | .player => "Player"
  | .point cell => "Point(" ++ cell.debug ++ ")"

/-- The cell at which an aim is in a world. -/
def Aim.target? (aim : Aim) (world : World) : Option Cell :=
  match aim with
  | .player => world.player
  | .point cell => some cell

/-- The action of looking. -/
structure Look where
  aim : Aim
  timer : Timer

namespace Look

/-- Begins to look. -/
def enter (l : Look) : Look :=
  { l with timer := l.timer.restart }

/-- Looks on. -/
def tick (l : Look) (dt : Float32) (s : Situation) : Status × Look × Situation :=
  match l.aim.target? s.world with
  | none => (.failure, l, s)
  | some cell =>
    let (status, timer) := l.timer.pass dt
    (status, { l with timer }, s.aimAt cell)

end Look

end BehaviorTree
