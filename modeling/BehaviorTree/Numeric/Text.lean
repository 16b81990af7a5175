/-
# BehaviorTree.Numeric.Text — how numbers are written and read

Three spellings of floating-point numbers occur in the program's output, and each is one `Spelling`:
log and debug lines, JSON text, and messages for the user. They share the rule for the digits (the
fewest that read back, `Numeric.Shortest`) and differ in which of two equally near decimals is taken,
in where positional notation ends, in whether a whole number keeps a `.0`, and in whether a power of
ten above zero carries a plus sign. `twoPlaces` writes a number with exactly two places, and `readSingle` reads the
numbers that a user types.
-/
import BehaviorTree.Numeric.Single
import BehaviorTree.Numeric.Shortest

namespace BehaviorTree.Numeric

open Float.Model (UnpackedFloat Format)

/-- Which numbers are written positionally, and how. The power of ten of the first digit decides:
from `smallest` to `largest` the number is written positionally, else with an exponent. -/
structure Spelling where
  smallest : Option Int
  largest : Option Int
  /-- Whether a whole number written positionally ends in `.0`. -/
  pointed : Bool
  /-- Whether a power of ten above zero carries a plus sign. -/
  plus : Bool
  /-- Which of two equally near decimals is written. -/
  tie : Tie

/-- Log and debug lines: positional from `1e-4` up to and without `1e16`, at least one place, no plus
sign, and a tie goes to the decimal that is farther from zero. -/
def Spelling.log : Spelling := ⟨some (-4), some 15, true, false, .fromZero⟩

/-- JSON text: positional from `1e-5` up to and without `1e16`, at least one place, a plus sign before
a power above zero, and a tie goes to the even decimal. -/
def Spelling.json : Spelling := ⟨some (-5), some 15, true, true, .toEven⟩

/-- Messages: always positional, no point after a whole number, and a tie goes to the decimal that is
farther from zero. -/
def Spelling.message : Spelling := ⟨none, none, false, false, .fromZero⟩

/-- `n` zeros. -/
def zeros (n : Nat) : String :=
  String.ofList (List.replicate n '0')

/-- A decimal without an exponent: the point goes into the digits, or zeros go on either side. -/
def Decimal.positional (d : Decimal) (pointed : Bool) : String :=
  let digits := toString d.digits
  let point : Int := digits.length + d.exponent
  if 0 ≤ d.exponent then digits ++ zeros d.exponent.toNat ++ (if pointed then ".0" else "")
  else if 0 < point then
    String.ofList (digits.toList.take point.toNat) ++ "." ++
      String.ofList (digits.toList.drop point.toNat)
  else "0." ++ zeros (-point).toNat ++ digits

/-- A decimal with one digit before the point and the power of ten behind an `e`; with `plus`, a power
above zero has its sign. -/
def Decimal.scientific (d : Decimal) (plus : Bool) : String :=
  let digits := (toString d.digits).toList
  let power : Int := digits.length - 1 + d.exponent
  let fraction := digits.drop 1
  String.ofList (digits.take 1) ++ (if fraction.isEmpty then "" else "." ++ String.ofList fraction)
    ++ (if plus && 0 < power then "e+" else "e") ++ toString power

/-- A positive decimal as the spelling has it. -/
def Spelling.decimal (sp : Spelling) (d : Decimal) : String :=
  let power : Int := (toString d.digits).length - 1 + d.exponent
  if sp.smallest.all (· ≤ power) && sp.largest.all (power ≤ ·) then d.positional sp.pointed
  else d.scientific sp.plus

/-- A value of a binary format as the spelling has it. -/
def Spelling.unpacked (sp : Spelling) (format : Format) : UnpackedFloat → String
  | .notANumber => "NaN"
  | .infinity s => (if s == .negative then "-" else "") ++ "inf"
  | .zero s => (if s == .negative then "-" else "") ++ (if sp.pointed then "0.0" else "0")
  | .finite s m e _ =>
    let narrow := m == Nat.pow 2 format.mantissaBitsWithoutImplicit && e != format.minExponent
    (if s == .negative then "-" else "") ++ sp.decimal (shortest sp.tie m e narrow)

/-- A single-precision number as the spelling has it. -/
def Spelling.single (sp : Spelling) (x : Float32) : String :=
  sp.unpacked Format.binary32 (unpack x)

/-- A double as the spelling has it. -/
def Spelling.double (sp : Spelling) (x : Float) : String :=
  sp.unpacked Format.binary64 x.toModel.unpack

/-! ## § Two places -/

/-- The whole number nearest to `n / d`, a tie going to the even one. -/
def roundQuotient (n d : Nat) : Nat :=
  let q := n / d
  let twice := 2 * (n % d)
  if twice < d || (twice == d && Tie.toEven.goesDown q) then q else q + 1

/-- **`twoPlaces x`** — `x` rounded to hundredths, by its exact value. -/
def twoPlaces (x : Float32) : String :=
  let hundredths (n : Nat) : String :=
    let rest := toString (n % 100)
    toString (n / 100) ++ "." ++ zeros (2 - rest.length) ++ rest
  match unpack x with
  | .notANumber => "NaN"
  | .infinity s => (if s == .negative then "-" else "") ++ "inf"
  | .zero s => (if s == .negative then "-" else "") ++ "0.00"
  | .finite s m e _ => (if s == .negative then "-" else "") ++
      hundredths (roundQuotient (m * Nat.pow 2 e.toNat * 100) (Nat.pow 2 (-e).toNat))

/-! ## § Reading what a user types -/

/-- The number that a list of decimal digits stands for. -/
def ofDigits (cs : List Char) : Nat :=
  cs.foldl (fun n c => 10 * n + (c.toNat - '0'.toNat)) 0

/-- The single-precision number nearest to `digits · 10^exponent`. What is beyond the range by many
powers of ten is decided without writing the power out. -/
def nearestSingle (digits : Nat) (exponent : Int) : Float32 :=
  if digits = 0 then 0
  else
    let power : Int := (toString digits).length + exponent
    if 60 < power then round (.infinity .positive)
    else if power < -60 then 0
    else Float32.ofScientific digits (exponent < 0) exponent.natAbs

/-- A sign, if there is one, and the rest. -/
def splitSign : List Char → Bool × List Char
  | '-' :: cs => (true, cs)
  | '+' :: cs => (false, cs)
  | cs => (false, cs)

/-- The power of ten behind an `e` or `E`; no text at all stands for the power zero. -/
def readPower? : List Char → Option Int
  | [] => some 0
  | c :: cs =>
    let (negative, digits) := splitSign cs
    if (c == 'e' || c == 'E') && !digits.isEmpty && digits.all Char.isDigit then
      some (if negative then -(ofDigits digits : Int) else ofDigits digits)
    else none

/-- An unsigned number: digits with at most one point among or beside them, then a power of ten; or
one of the words for infinity and NaN, in any case. -/
def readUnsigned? (cs : List Char) : Option Float32 :=
  let word := String.ofList (cs.map Char.toLower)
  if word == "inf" || word == "infinity" then some (round (.infinity .positive))
  else if word == "nan" then some (round .notANumber)
  else
    let whole := cs.takeWhile Char.isDigit
    let rest := cs.dropWhile Char.isDigit
    let (fraction, rest) := match rest with
      | '.' :: rest => (rest.takeWhile Char.isDigit, rest.dropWhile Char.isDigit)
      | _ => ([], rest)
    if whole.isEmpty && fraction.isEmpty then none
    else (readPower? rest).map fun power =>
      nearestSingle (ofDigits (whole ++ fraction)) (power - fraction.length)

/-- **`readSingle? text`** — the single-precision number nearest to the number that the text names;
`none` if it names none. -/
def readSingle? (text : String) : Option Float32 :=
  let (negative, rest) := splitSign text.toList
  (readUnsigned? rest).map fun x => if negative then -x else x

/-- **`readNatural? text`** — an unsigned 64-bit number: digits, perhaps behind a plus sign. -/
def readNatural? (text : String) : Option UInt64 :=
  let digits := match text.toList with
    | '+' :: cs => cs
    | cs => cs
  let n := ofDigits digits
  if !digits.isEmpty && digits.all Char.isDigit && n < 0x10000000000000000 then some n.toUInt64 else none

end BehaviorTree.Numeric
