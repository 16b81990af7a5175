/-
# BehaviorTree.Random.Source — sources of random words, and what is drawn from them

Everything random is drawn from a source of 64-bit words. A source is a pure value: a draw returns the
word together with the source that continues the stream, so that a run can be repeated and the number
of draws can be counted.

`shuffle` goes from the last place to the first, draws a place that is not behind it, and exchanges the
two items. For the first place there is nothing to draw.
-/

namespace BehaviorTree.Random

/-- A source of random 64-bit words. -/
class Source (γ : Type) where
  /-- The next word, and the source after it. -/
  next : γ → UInt64 × γ

variable {γ : Type} [Source γ]

/-- The next word. -/
def word (g : γ) : UInt64 × γ :=
  Source.next g

/-- The upper half of the next word. -/
def word32 (g : γ) : UInt32 × γ :=
  let (w, g) := word g
  ((w >>> 32).toUInt32, g)

/-- A number from 0 up to and without 1, one of `2^24` evenly spaced ones. -/
def unit (g : γ) : Float32 × γ :=
  let (w, g) := word32 g
  (Float32.ofNat (w >>> 8).toNat / Float32.ofNat 0x1000000, g)

/-- A coin toss: the lowest bit of the next word. -/
def flag (g : γ) : Bool × γ :=
  let (w, g) := word g
  (w &&& 1 == 1, g)

/-- The part of the range below `bound` into which a 32-bit draw falls, when the range of the draws is
stretched over it. -/
def scaled (draw : UInt32) (bound : Nat) : Nat :=
  ((draw.toUInt64 * bound.toUInt64) >>> 32).toNat

/-- A number below `bound`. For the bound zero nothing is drawn. -/
def below (bound : Nat) (g : γ) : Nat × γ :=
  if bound = 0 then (0, g)
  else
    let (draw, g) := word32 g
    (scaled draw bound, g)

/-! ## § Shuffling -/

/-- Exchanges the item at each of the places `last`, `last - 1`, …, `1` in turn with the one at a random
place that is not behind it. -/
def shuffleFrom {α : Type} : Nat → Array α → γ → Array α × γ
  | 0, items, g => (items, g)
  | last + 1, items, g =>
    let (j, g) := below (last + 2) g
    shuffleFrom last (items.swapIfInBounds (last + 1) j) g

/-- **`shuffle items g`** — the items in random order. -/
def shuffle {α : Type} (items : List α) (g : γ) : List α × γ :=
  let (items, g) := shuffleFrom (items.length - 1) items.toArray g
  (items.toList, g)

end BehaviorTree.Random
