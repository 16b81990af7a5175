/-
# BehaviorTree.Numeric.Single — the single-precision operations that the agents' arithmetic needs

Speeds, angles, timers and costs are single-precision numbers, and the sampling clock alone is a
double. Addition, subtraction, multiplication, division and comparison are `Float32`'s own. This
module adds what the type does not bring along, each operation by its exact rule on the unpacked
value (sign, mantissa, exponent), so that nothing here leaves the logic:

* `toSingle` / `toDouble` — the two conversions;
* `remainder` and `wrap` — the exact remainder, and the remainder moved to the non-negative side;
* `larger` — the greater of two numbers, where a NaN gives way;
* `totalKey` — the integer by which all numbers, NaN and the two zeros included, are ordered.
-/

namespace BehaviorTree.Numeric

open Float.Model (UnpackedFloat Format)

/-- The value of a single-precision number, taken apart. -/
def unpack (x : Float32) : UnpackedFloat :=
  x.toModel.unpack

/-- The single-precision number nearest to an unpacked value; halfway cases go to the even mantissa
and what is too large becomes infinite. -/
def round : UnpackedFloat → Float32
  | .finite s m e _ => .ofModel (.pack (.round Format.binary32 s m e))
  | special => .ofModel (.pack special)

/-- **`toSingle x`** — the single-precision number nearest to the double `x`. -/
def toSingle (x : Float) : Float32 :=
  round x.toModel.unpack

/-- **`toDouble x`** — `x` as a double; the conversion is exact. -/
def toDouble (x : Float32) : Float :=
  .ofModel (.pack (match unpack x with
    | .finite s m e _ => .round Format.binary64 s m e
    | special => special))

/-- The number above all others. -/
def infinite : Float32 :=
  1 / 0

/-- **`remainder x y`** — what is left of `x` after taking away a whole number of `y`s towards zero.
The result is exact and has the sign of `x`; there is none (NaN) for an infinite `x` or a zero `y`. -/
def remainder (x y : Float32) : Float32 :=
  match unpack x, unpack y with
  | .notANumber, _ | _, .notANumber | .infinity _, _ | _, .zero _ => round .notANumber
  | .zero _, _ | _, .infinity _ => x
  | .finite s m e _, .finite _ n f _ =>
    let low := min e f
    let rest := (m <<< (e - low).toNat) % (n <<< (f - low).toNat)
    if h : rest = 0 then round (.zero s) else round (.finite s rest low (Nat.pos_of_ne_zero h))

/-- **`wrap x y`** — the remainder of `x` by `y`, with `|y|` added when it came out negative. Angles
are brought into `[0, 360)` this way; a tiny negative angle may round up to `360` itself. -/
def wrap (x y : Float32) : Float32 :=
  let rest := remainder x y
  if rest < 0 then rest + y.abs else rest

/-- **`larger a b`** — the greater of the two; a NaN is passed over, and of two equal numbers the
second is taken, so that `larger x 0` is never the negative zero. -/
def larger (a b : Float32) : Float32 :=
  if a.isNaN then b else if b.isNaN then a else if b < a then a else b

/-- **`totalKey x`** — the place of `x` in the total order of bit patterns: below zero the order of
the magnitudes is reversed, and `-0` comes just before `0`. -/
def totalKey (x : Float32) : Int :=
  let bits := x.toBits.toNat
  if bits < 0x80000000 then bits else (0x7FFFFFFF : Int) - bits

/-- An angle in degrees, given in radians. -/
def degrees (radians : Float32) : Float32 :=
  radians * 57.2957795130823208767981548141051703

/-- An angle in radians, given in degrees. -/
def radians (degrees : Float32) : Float32 :=
  degrees * (3.14159265358979323846264338327950288 / 180)

end BehaviorTree.Numeric
