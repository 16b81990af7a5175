/-
# BehaviorTree.Leaf.Condition — what an agent knows

The conditions ask the memories: whether the player was seen lately, and whether a noise was heard
lately and nearby.
-/
import BehaviorTree.Situation

namespace BehaviorTree

/-- A condition. -/
inductive Condition where
  /-- The player was seen within that time. -/
  | playerVisible (within : Float32)
  /-- A noise was heard within that time, not more steps away than the radius. -/
  | noiseHeard (radius : Int) (within : Float32)

/-- Whether a condition holds. -/
def Condition.holds (k : Condition) (s : Situation) : Bool :=
  match k with
  | .playerVisible within => (s.board.seen.recent within).isSome
  | .noiseHeard radius within =>
    (s.board.heard.recent within).any fun noise => noise.manhattan s.body.cell ≤ radius

end BehaviorTree
