/-
# BehaviorTree.World.Basic — what an agent can ask about its world

An agent sees its world only through these questions. The world stands still during a tick.
-/
import BehaviorTree.Cell.Basic

namespace BehaviorTree

/-- The answers to an agent's questions. -/
structure World where
  isWalkable : Cell → Bool
  hasLineOfSight : Cell → Cell → Bool
  /-- The cells next to a cell, in a fixed order. -/
  neighbors : Cell → List Cell
  /-- What the way from one cell to another is expected to cost. -/
  cost : Cell → Cell → Float32 := Cell.steps
  /-- The time. -/
  seconds : Float32
  player : Option Cell
  /-- Where a noise can be heard at the moment. -/
  noise : Option Cell

/-- An empty world without walkable cells. -/
instance : Inhabited World where
  default :=
    { isWalkable := fun _ => false
      hasLineOfSight := fun _ _ => false
      neighbors := fun _ => []
      seconds := 0
      player := none
      noise := none }

end BehaviorTree
