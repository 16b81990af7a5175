/-
# BehaviorTree.Numeric.Words — words of 32 bits, and what fits in them

Sizes are unsigned words of 32 bits and coordinates are signed ones. A conversion from one kind to another
answers nothing if the number is not one of the other kind. The product of two words answers nothing if it is no
word, where the plain product would go around.
-/

namespace BehaviorTree.Numeric

/-- The number as an unsigned word. -/
def word? (n : Nat) : Option UInt32 :=
  if n < UInt32.size then some (.ofNat n) else none

/-- The product of two words, unless the multiplication overflows. -/
def product? (a b : UInt32) : Option UInt32 :=
  if a.toBitVec.umulOverflow b.toBitVec then none else some (a * b)

/-- The same number as a signed word. The upper half of the unsigned words is out of its range. -/
def signed? (w : UInt32) : Option Int32 :=
  if w ≤ 0x7FFFFFFF then some w.toInt32 else none

/-- The same number as a number of places in a table. -/
def places? (n : Int32) : Option Nat :=
  if 0 ≤ n then some n.toInt.toNat else none

end BehaviorTree.Numeric
