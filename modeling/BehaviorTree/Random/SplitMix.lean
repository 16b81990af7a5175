/-
# BehaviorTree.Random.SplitMix — the seeded stream of an agent

The stream adds a fixed odd number to its 64-bit state and scrambles the sum. The same scrambler
derives the seed of one agent from the seed of the whole run.
-/
import BehaviorTree.Random.Source

namespace BehaviorTree.Random

/-- Scrambles a word. -/
def mix64 (x : UInt64) : UInt64 :=
  let x := x ^^^ (x >>> 30)
  let x := x * 0xBF58476D1CE4E5B9
  let x := x ^^^ (x >>> 27)
  let x := x * 0x94D049BB133111EB
  x ^^^ (x >>> 31)

/-- What is added to the state for every word. -/
def increment : UInt64 := 0x9E3779B97F4A7C15

/-- The seed of one agent, from the seed of the run and the agent's number. -/
def deriveSeed (run agent : UInt64) : UInt64 :=
  mix64 (run ^^^ mix64 (agent + increment))

/-- A stream of random words. -/
structure SplitMix where
  state : UInt64
  deriving DecidableEq, Inhabited

instance : Source SplitMix where
  next g :=
    let state := g.state + increment
    (mix64 state, ⟨state⟩)

end BehaviorTree.Random
