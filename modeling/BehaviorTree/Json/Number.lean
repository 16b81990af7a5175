/-
# BehaviorTree.Json.Number — how the text of a number is read

A number without point and exponent is a whole number if it fits a 64-bit word (negative ones a
signed word); `-0` is the double `-0`. Every other number is a double, got in two roundings: the
digits are collected into a 64-bit significand until the next digit would not fit, further digits
count only by their place, and the significand is then multiplied or divided by a power of ten.
The result can differ from the nearest double in its last place. A number too large for a double is
refused; one too small becomes zero.
-/
import BehaviorTree.Json.Basic

namespace BehaviorTree.Json

/-- The digits of a significand, and the power of ten that goes with it. -/
structure Significand where
  digits : Nat
  exponent : Int
  /-- Whether some digit found no room any more. -/
  full : Bool

/-- The largest significand that is collected. -/
def significandLimit : Nat :=
  0xFFFFFFFFFFFFFFFF

/-- The value of a decimal digit. -/
def digitValue (c : Char) : Nat :=
  c.toNat - '0'.toNat

/-- One more digit before the point. Once a digit has found no room, each further one counts as a
power of ten. -/
def Significand.pushWhole (s : Significand) (c : Char) : Significand :=
  if s.full || significandLimit < 10 * s.digits + digitValue c then
    { s with exponent := s.exponent + 1, full := true }
  else { s with digits := 10 * s.digits + digitValue c }

/-- The digits behind the point: each lowers the power of ten, up to the first one that finds no room;
it and all after it are passed over. -/
def Significand.pushFraction (s : Significand) : List Char → Significand
  | [] => s
  | c :: cs =>
    if significandLimit < 10 * s.digits + digitValue c then s
    else Significand.pushFraction
      { s with digits := 10 * s.digits + digitValue c, exponent := s.exponent - 1 } cs

/-- `10^n` as the nearest double. -/
def powerOfTen (n : Nat) : Float :=
  Float.ofScientific 1 false n

/-- A number divided by `10^n`. Beyond the range of powers it is divided by `10^308` as often as
needed, until nothing is left of it. -/
def divideByPower (x : Float) (n : Nat) : Float :=
  if n ≤ 308 then x / powerOfTen n
  else if x == 0 then x
  else divideByPower (x / powerOfTen 308) (n - 308)
termination_by n

/-- The double that a significand stands for; `none` if it is too large. -/
def Significand.toFloat? (s : Significand) : Option Float :=
  let x := s.digits.toFloat
  if s.exponent < 0 then some (divideByPower x s.exponent.natAbs)
  else if 308 < s.exponent then (if x == 0 then some x else none)
  else
    let y := x * powerOfTen s.exponent.natAbs
    if y.isInf then none else some y

/-- A scanned number: its sign, the digits before and behind the point, and the power of ten. A part
that the text lacks is `none`. -/
structure NumberText where
  negative : Bool
  whole : List Char
  fraction : Option (List Char)
  power : Option Int

/-- The power of ten of a number; a sign may stand before its digits. -/
def scanPower? (cs : List Char) : Option Int :=
  let (negative, digits) := match cs with
    | '-' :: cs => (true, cs)
    | '+' :: cs => (false, cs)
    | cs => (false, cs)
  if digits.isEmpty || !digits.all Char.isDigit then none
  else
    let n : Nat := digits.foldl (fun n c => 10 * n + digitValue c) 0
    some (if negative then -n else n)

/-- What may follow the digits before the point: a fraction, a power of ten, both or neither. -/
def scanTail? (negative : Bool) (whole : List Char) : List Char → Option NumberText
  | [] => some ⟨negative, whole, none, none⟩
  | '.' :: cs =>
    let fraction := cs.takeWhile Char.isDigit
    if fraction.isEmpty then none
    else match cs.dropWhile Char.isDigit with
      | [] => some ⟨negative, whole, some fraction, none⟩
      | c :: cs =>
        if c == 'e' || c == 'E' then
          (scanPower? cs).map fun power => ⟨negative, whole, some fraction, some power⟩
        else none
  | c :: cs =>
    if c == 'e' || c == 'E' then
      (scanPower? cs).map fun power => ⟨negative, whole, none, some power⟩
    else none

/-- Takes the text of a number apart: an optional minus sign, digits without a leading zero, and what
may follow them. -/
def NumberText.scan? (cs : List Char) : Option NumberText :=
  let (negative, cs) := match cs with
    | '-' :: cs => (true, cs)
    | cs => (false, cs)
  let whole := cs.takeWhile Char.isDigit
  if whole.isEmpty || (whole.head? == some '0' && 1 < whole.length) then none
  else scanTail? negative whole (cs.dropWhile Char.isDigit)

/-- The largest power of ten that is told apart from larger ones. -/
def powerLimit : Int :=
  0x7FFFFFFF

/-- **`NumberText.value?`** — the number that a scanned text stands for; `none` if it is too large. -/
def NumberText.value? (t : NumberText) : Option Number :=
  let sign (x : Float) : Float := if t.negative then -x else x
  let whole := t.whole.foldl Significand.pushWhole ⟨0, 0, false⟩
  match t.fraction, t.power with
  | none, none =>
    if whole.full then (Significand.toFloat? whole).map (.real ∘ sign)
    else if !t.negative then some (.whole whole.digits)
    else if whole.digits = 0 || 0x8000000000000000 < whole.digits then some (.real (-whole.digits.toFloat))
    else some (.whole (-whole.digits))
  | fraction, power =>
    let s := whole.pushFraction (fraction.getD [])
    let power := power.getD 0
    if powerLimit < power.natAbs then
      if 0 < power && s.digits != 0 then none else some (.real (sign 0))
    else (Significand.toFloat? { s with exponent := s.exponent + power }).map (.real ∘ sign)

end BehaviorTree.Json
