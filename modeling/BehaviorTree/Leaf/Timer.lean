/-
# BehaviorTree.Leaf.Timer — how long an action takes

Listening, looking and scanning take a fixed time. A run starts with the whole duration, every tick
takes its time away, and the action is running as long as something is left.
-/
import BehaviorTree.Status

namespace BehaviorTree

/-- What is left of a duration. -/
structure Timer where
  duration : Float32
  remaining : Float32

namespace Timer

/-- A timer with the whole duration left. -/
def full (duration : Float32) : Timer :=
  ⟨duration, duration⟩

/-- The timer at the beginning of a run. -/
def restart (t : Timer) : Timer :=
  full t.duration

/-- Lets time pass: running while something is left, success after that. -/
def pass (t : Timer) (dt : Float32) : Status × Timer :=
  let remaining := t.remaining - dt
  (if 0 < remaining then .running else .success, { t with remaining })

end Timer

end BehaviorTree
