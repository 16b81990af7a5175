/-
# BehaviorTree.Numeric.Shortest — the fewest decimal digits that read back

A binary number `m · 2^e` is the nearest one to every real in an interval around it; a decimal in
that interval reads back as the number. `shortest` walks the decimal grids from coarse to fine and
takes the first grid with a point in the interval: the coarsest grid gives the fewest digits, and of
two points of one grid the nearer is taken. Two points may be equally near, and a `Tie` says which of
them is taken then. All comparisons are exact, on natural numbers.
-/

namespace BehaviorTree.Numeric

/-- Which of two neighbours is taken when a value lies exactly in the middle of them. -/
inductive Tie where
  /-- The even one. -/
  | toEven
  /-- The one that is farther from zero. -/
  | fromZero
  deriving DecidableEq, Repr

/-- Whether a tie between `n` and `n + 1` goes to `n`. -/
def Tie.goesDown : Tie → Nat → Bool
  | .toEven, n => n % 2 == 0
  | .fromZero, _ => false

/-- A decimal number `digits · 10^exponent`. -/
structure Decimal where
  digits : Nat
  exponent : Int
  deriving DecidableEq, Repr

/-- The reals that round to `value`, in quarters of the last binary place: from `low` to `high`,
times `2^exponent`; the ends belong to it when `closed`. -/
structure Interval where
  low : Nat
  value : Nat
  high : Nat
  exponent : Int
  closed : Bool

/-- The interval of `m · 2^e`. Just above a power of two the numbers below lie twice as dense, so
that the lower end is twice as near (`narrow`). Ties go to the even mantissa, so the ends belong to
the interval of an even `m`. -/
def Interval.around (m : Nat) (e : Int) (narrow : Bool) : Interval where
  low := 4 * m - (if narrow then 1 else 2)
  value := 4 * m
  high := 4 * m + 2
  exponent := e - 2
  closed := m % 2 == 0

/-- The end or the middle of an interval, and a grid point, as natural numbers on one scale: the grid
point `c · 10^k` becomes `c * gridUnit`, the point `x · 2^exponent` becomes `x * pointUnit`. -/
def Interval.pointUnit (i : Interval) (k : Int) : Nat :=
  Nat.pow 2 i.exponent.toNat * Nat.pow 10 (-k).toNat

@[inherit_doc Interval.pointUnit]
def Interval.gridUnit (i : Interval) (k : Int) : Nat :=
  Nat.pow 2 (-i.exponent).toNat * Nat.pow 10 k.toNat

/-- Whether the grid point `c · 10^k` lies in the interval. -/
def Interval.holds (i : Interval) (k : Int) (c : Nat) : Bool :=
  let point := c * i.gridUnit k
  let low := i.low * i.pointUnit k
  let high := i.high * i.pointUnit k
  if i.closed then low ≤ point && point ≤ high else low < point && point < high

/-- The point of the grid `10^k` that lies in the interval, the nearer one of two, and of two equally
near the one that `tie` names. Only the two neighbours of the value can be that point. -/
def Interval.onGrid? (i : Interval) (tie : Tie) (k : Int) : Option Nat :=
  let value := i.value * i.pointUnit k
  let below := value / i.gridUnit k
  let downward := value - below * i.gridUnit k
  let upward := (below + 1) * i.gridUnit k - value
  match i.holds k below, i.holds k (below + 1) with
  | true, true =>
    some (if downward < upward || (downward == upward && tie.goesDown below) then below else below + 1)
  | true, false => some below
  | false, true => some (below + 1)
  | false, false => none

/-- The first hit on the grids `10^k`, `10^(k-1)`, …, at most `n` of them. -/
def Interval.firstHit? (i : Interval) (tie : Tie) : Nat → Int → Option Decimal
  | 0, _ => none
  | n + 1, k =>
    match i.onGrid? tie k with
    | some c => some ⟨c, k⟩
    | none => i.firstHit? tie n (k - 1)

/-- `m · 2^e` written out in full. -/
def Decimal.exact (m : Nat) (e : Int) : Decimal :=
  if e < 0 then ⟨m * Nat.pow 5 (-e).toNat, e⟩ else ⟨m * Nat.pow 2 e.toNat, 0⟩

/-- **`shortest tie m e narrow`** — the decimal with the fewest digits among those that read back as
`m · 2^e`, and the nearest of these. The walk starts at a grid that is coarser than the number itself; after 24 grids every
format in use has hit its 17 digits, and the full expansion would be the answer otherwise. -/
def shortest (tie : Tie) (m : Nat) (e : Int) (narrow : Bool) : Decimal :=
  let top := ((m.log2 : Int) + 1 + e) * 30103 / 100000 + 2
  ((Interval.around m e narrow).firstHit? tie 24 top).getD (.exact m e)

end BehaviorTree.Numeric
