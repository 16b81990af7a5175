/-
# BehaviorTree.Sampling — how many samples are due

Sensors are sampled at a constant rate, however long the frames are. The time of each frame is added to
an accumulator, and every round of samples takes one step out of it again. In one frame at most `cap`
rounds are made; what is due beyond that is put off to later frames.

The numbers may be of any type with addition, subtraction and comparison: the program counts time in
doubles, and the laws of counting can be studied on exact numbers.
-/

namespace BehaviorTree

/-- The time that has not been used yet, and the rounds made so far. -/
structure Sampling (τ : Type) where
  accumulator : τ
  samples : Nat := 0

namespace Sampling

variable {τ : Type}

/-- The time between two rounds at a rate, with `value` for what a single-precision number counts; none if
the rate is no positive number. -/
def step? [OfNat τ 1] [Div τ] (value : Float32 → τ) (hz : Float32) : Option τ :=
  if hz.isFinite ∧ 0 < hz then some (1 / value hz) else none

/-- The time of a frame that counts: nothing unless it is a positive number. -/
def counted [OfNat τ 0] (value : Float32 → τ) (dt : Float32) : τ :=
  if dt.isFinite ∧ 0 < dt then value dt else 0

/-- Makes rounds as long as a step is due, but not more than `limit`: how many were made, `taken` ones
from before included, and the time that is left. -/
def rounds [Sub τ] [LE τ] [DecidableLE τ] (step : τ) : (limit taken : Nat) → τ → Nat × τ
  | 0, taken, time => (taken, time)
  | limit + 1, taken, time =>
    if step ≤ time then rounds step limit (taken + 1) (time - step) else (taken, time)

/-- Lets time pass: the number of rounds to make now, and the state after them. -/
def advance [Add τ] [Sub τ] [LE τ] [DecidableLE τ] (c : Sampling τ) (step : τ) (cap : Nat)
    (elapsed : τ) : Nat × Sampling τ :=
  let (taken, accumulator) := rounds step cap 0 (c.accumulator + elapsed)
  (taken, { accumulator, samples := c.samples + taken })

/-- Whether a round is due. After a frame this says that rounds were put off. -/
def isBehind [LE τ] [DecidableLE τ] (c : Sampling τ) (step : τ) : Bool :=
  step ≤ c.accumulator

end Sampling

end BehaviorTree
