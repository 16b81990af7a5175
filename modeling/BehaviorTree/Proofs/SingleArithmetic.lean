/-
# BehaviorTree.Proofs.SingleArithmetic — what is used of single-precision numbers

Timers subtract and memories add. Three facts about single-precision numbers carry what is said of them:

* a number less a finite one is a number again (`Numeric.isNaN_sub`);
* a number is below zero or it is not (`Numeric.nonneg_iff`), which is not so for what is no number;
* a positive number added to one that is not negative makes a positive number (`Numeric.add_pos`). Nothing that is
  added is so small that the sum is rounded to zero.

The last one is about rounding. The mantissa and the exponent of a finite number are bounded (`Numeric.Fits`), and
within these bounds rounding never takes the last digit away from a mantissa that was not zero
(`Numeric.round_fits`), nor does packing (`Numeric.pack_pos`).
-/
import BehaviorTree.Numeric.Single
import Mathlib

namespace BehaviorTree.Numeric

open Float.Model (UnpackedFloat Format totalExponent)
open Float.Model.UnpackedFloat

/-! ## § Comparisons -/

theorem le_iff {x y : Float32} : x ≤ y ↔ (unpack x).le (unpack y) = true :=
  ⟨of_decide_eq_true, fun h => decide_eq_true (p := x.toModel ≤ y.toModel) h⟩

theorem lt_iff {x y : Float32} : x < y ↔ (unpack x).lt (unpack y) = true :=
  ⟨of_decide_eq_true, fun h => decide_eq_true (p := x.toModel < y.toModel) h⟩

theorem le_of_lt {x y : Float32} (h : x < y) : x ≤ y := by
  rw [lt_iff, UnpackedFloat.lt, beq_iff_eq] at h
  rw [le_iff, UnpackedFloat.le, h]
  rfl

/-- What is no number is not below anything. -/
theorem isNaN_of_le {x y : Float32} (h : x ≤ y) : x.isNaN = false := by
  rw [le_iff] at h
  show (unpack x).isNaN = false
  match unpack x, h with
  | .zero _, _ | .infinity _, _ | .finite .., _ => rfl

theorem unpack_zero : unpack 0 = .zero .positive := rfl

/-- **`Numeric.nonneg_iff`** — a number is not negative exactly if it is not below zero. -/
theorem nonneg_iff {x : Float32} (hx : x.isNaN = false) : 0 ≤ x ↔ ¬x < 0 := by
  replace hx : (unpack x).isNaN = false := hx
  rw [le_iff, lt_iff, unpack_zero]
  match unpack x, hx with
  | .zero _, _ => simp [UnpackedFloat.le, UnpackedFloat.lt, UnpackedFloat.compare]
  | .infinity s, _ | .finite s .., _ =>
    cases s <;> simp [UnpackedFloat.le, UnpackedFloat.lt, UnpackedFloat.compare]

/-- The positive numbers. -/
theorem pos_iff {x : Float32} :
    0 < x ↔ unpack x = .infinity .positive ∨ ∃ m e hm, unpack x = .finite .positive m e hm := by
  rw [lt_iff, unpack_zero]
  match unpack x with
  | .notANumber | .zero _ => simp [UnpackedFloat.lt, UnpackedFloat.compare]
  | .infinity s => cases s <;> simp [UnpackedFloat.lt, UnpackedFloat.compare]
  | .finite s _ _ hm => cases s <;> simp [UnpackedFloat.lt, UnpackedFloat.compare, hm]

/-- The numbers that are not negative. -/
theorem nonneg_cases {x : Float32} (hx : 0 ≤ x) : (∃ s, unpack x = .zero s) ∨ 0 < x := by
  rw [pos_iff]
  rw [le_iff, unpack_zero] at hx
  match unpack x, hx with
  | .zero s, _ => exact Or.inl ⟨s, rfl⟩
  | .infinity .positive, _ => exact Or.inr (Or.inl rfl)
  | .finite .positive m e hm, _ => exact Or.inr (Or.inr ⟨m, e, hm, rfl⟩)

theorem ne_zero_of_pos {x : Float32} (hx : 0 < x) : x ≠ 0 := by
  rintro rfl
  exact absurd hx (by decide +kernel)

/-! ## § Packing -/

/-- A number does not get the pattern of what is no number: the largest exponent with a mantissa. -/
theorem number_pack {value : UnpackedFloat} (h : value.isNaN = false) :
    unpackExponent (UnpackedFloat.pack Format.binary32 value) ≠ -1#_ ∨
      unpackMantissa (UnpackedFloat.pack Format.binary32 value) = 0#_ := by
  fun_cases UnpackedFloat.pack Format.binary32 value with
  | case1 => cases h
  | case2 s | case3 s => simp [packedInfinity, packedZero]
  | case4 s m e hm biased hover => simp [packedInfinity]
  | case5 s m e hm _ biased hover hnormal =>
    -- the largest exponent is that of the infinite numbers, and this one has not overflowed
    refine Or.inl ?_
    rw [unpackExponent_packComponents]
    intro hmax
    have hbiased : biased % 256 = 255 := congrArg BitVec.toNat hmax
    replace hover : ¬256 ≤ biased + 1 := hover
    omega
  | case6 s m e hm _ biased hover hsubnormal => simp

/-- A number is still a number when it is packed. -/
theorem isNaN_pack {value : UnpackedFloat} (h : value.isNaN = false) :
    (Float32.ofModel (.pack value)).isNaN = false := by
  show (UnpackedFloat.unpack Format.binary32 (UnpackedFloat.pack Format.binary32 value)).isNaN = false
  have hnumber := number_pack h
  generalize UnpackedFloat.pack Format.binary32 value = bits at hnumber
  unfold UnpackedFloat.unpack
  dsimp only
  split
  · next hmax =>
    rw [if_pos (hnumber.resolve_left (not_not_intro hmax))]
    rfl
  · split
    · split <;> rfl
    · rfl

/-- A number that is packed with a positive sign is positive unless all its other bits are zero. -/
theorem pos_of_bits {value : UnpackedFloat} (h : value.isNaN = false)
    (hsign : unpackSign (UnpackedFloat.pack Format.binary32 value) = Sign.positive.toBitVec)
    (hne : unpackExponent (UnpackedFloat.pack Format.binary32 value) ≠ 0#_ ∨
      unpackMantissa (UnpackedFloat.pack Format.binary32 value) ≠ 0#_) :
    0 < Float32.ofModel (.pack value) := by
  rw [lt_iff, unpack_zero]
  show (UnpackedFloat.zero .positive).lt
    (UnpackedFloat.unpack Format.binary32 (UnpackedFloat.pack Format.binary32 value)) = true
  have hnumber := number_pack h
  have hpositive : Sign.ofBitVec Sign.positive.toBitVec = .positive := rfl
  generalize UnpackedFloat.pack Format.binary32 value = bits at hnumber hsign hne
  unfold UnpackedFloat.unpack
  dsimp only
  rw [hsign, hpositive]
  split
  · next hmax =>
    rw [if_pos (hnumber.resolve_left (not_not_intro hmax))]
    rfl
  · split
    · next hzero =>
      rw [dif_neg (hne.resolve_left (not_not_intro hzero))]
      rfl
    · rfl

/-! ## § Rounding -/

/-- **`Numeric.Fits`** — bounds of the mantissa and the exponent of a finite number. -/
def Fits (mantissa : Nat) (exponent : Int) : Prop :=
  mantissa < 0x1000000 ∧ -149 ≤ exponent

theorem fits_of_unpack {x : Float32} {s : Sign} {m : Nat} {e : Int} {hm : 0 < m}
    (h : unpack x = .finite s m e hm) : Fits m e := by
  replace h : UnpackedFloat.unpack Format.binary32 x.toModel.toBits.toBitVec = .finite s m e hm := h
  have hbias : (Format.binary32.exponentBias : Int) = 127 := rfl
  unfold UnpackedFloat.unpack at h
  dsimp only at h
  rw [hbias] at h
  unfold Fits
  split at h
  · split at h <;> cases h
  · split at h
    · split at h <;> cases h
      have hlt := (@unpackMantissa Format.binary32 x.toModel.toBits.toBitVec).isLt
      simp only at hlt
      omega
    · next hzero =>
      cases h
      have hlt := (1#1 ++ @unpackMantissa Format.binary32 x.toModel.toBits.toBitVec).isLt
      have hne : (@unpackExponent Format.binary32 x.toModel.toBits.toBitVec).toNat ≠ 0 :=
        fun h => hzero (BitVec.eq_of_toNat_eq h)
      simp only at hlt
      omega

/-- **`Numeric.pack_pos`** — a positive number within the bounds stays positive when it is packed. -/
theorem pack_pos {m : Nat} {e : Int} (hm : 0 < m) (hfits : Fits m e) :
    0 < Float32.ofModel (.pack (.finite .positive m e hm)) := by
  obtain ⟨hmantissa, hexponent⟩ := hfits
  refine pos_of_bits rfl ?sign ?nonzero
  case sign =>
    unfold UnpackedFloat.pack packedInfinity
    dsimp only
    split
    · exact unpackSign_packComponents ..
    · split <;> exact unpackSign_packComponents ..
  case nonzero =>
    have hbias : (Format.binary32.exponentBias : Int) = 127 := rfl
    unfold UnpackedFloat.pack packedInfinity
    dsimp only
    rw [hbias]
    split
    · simp
    · next hover =>
      split
      -- the exponent is not the one of zero
      · refine Or.inl ?_
        rw [unpackExponent_packComponents]
        intro hzero
        have hbiased : (e + 127 + 23).toNat % 256 = 0 := congrArg BitVec.toNat hzero
        replace hover : ¬256 ≤ (e + 127 + 23).toNat + 1 := hover
        omega
      -- the mantissa has no digit that is left out
      · next hsubnormal =>
        refine Or.inr ?_
        rw [unpackMantissa_packComponents]
        intro hzero
        replace hzero : m % 0x800000 = 0 := congrArg BitVec.toNat hzero
        replace hsubnormal : ¬m.log2 + 1 = 24 := hsubnormal
        have hwidth : m.log2 < 24 := (Nat.log2_lt hm.ne').mpr hmantissa
        have hlt : m < 2 ^ 23 := (Nat.log2_lt hm.ne').mp (by omega)
        omega

theorem shiftRight_mantissa (em : ExtendedMantissa) (n : Nat) : (em >>> n).mantissa = em.mantissa / 2 ^ n := by
  show (n.repeat ExtendedMantissa.shiftRightOne em).mantissa = em.mantissa / 2 ^ n
  induction n with
  | zero => simp [Nat.repeat]
  | succ n ih =>
    rw [Nat.repeat, Nat.pow_succ, ← Nat.div_div_eq_div_mul, ← ih]
    rfl

/-- A mantissa is never rounded down. -/
theorem mantissa_le_rounded (em : ExtendedMantissa) : em.mantissa ≤ em.roundedMantissa := by
  rcases em with ⟨m, _ | _, _ | _⟩ <;>
    simp [ExtendedMantissa.roundedMantissa, ExtendedMantissa.accuracy, Accuracy.roundToNearestEven]

theorem targetExponent_eq (m : Nat) (e : Int) :
    Format.binary32.targetExponent (totalExponent m e) = max (m.log2 + 1 + e - 24) (-149) := rfl

/-- To shift a mantissa to its exponent takes no more away than what is above the bound. -/
theorem shift_fits {m : Nat} (hm : 0 < m) {e : Int} (he : -149 ≤ e) :
    0 < (shiftToTargetExponent Format.binary32 m e .exact).1.mantissa ∧
      Fits (shiftToTargetExponent Format.binary32 m e .exact).1.mantissa
        (shiftToTargetExponent Format.binary32 m e .exact).2 := by
  have hlow := Nat.log2_self_le hm.ne'
  have hhigh := @Nat.lt_log2_self m
  have hshift : (Format.binary32.targetExponent (totalExponent m e) - e).toNat = m.log2 - 23 := by
    rw [targetExponent_eq]
    omega
  simp only [shiftToTargetExponent, shiftToExponent, hshift, shiftRight_mantissa,
    ExtendedMantissa.ofMantissaAndAccuracy]
  refine ⟨Nat.div_pos ?_ (Nat.two_pow_pos _), ?_, by omega⟩
  · exact (Nat.pow_le_pow_right Nat.two_pos (Nat.sub_le _ _)).trans hlow
  · rw [Nat.div_lt_iff_lt_mul (Nat.two_pow_pos _)]
    calc m < 2 ^ (m.log2 + 1) := hhigh
      _ ≤ 2 ^ (24 + (m.log2 - 23)) := Nat.pow_le_pow_right Nat.two_pos (by omega)
      _ = 0x1000000 * 2 ^ (m.log2 - 23) := Nat.pow_add 2 24 _

/-- **`Numeric.round_fits`** — a finite number that is not zero is not rounded to zero, as long as it is a multiple of
the smallest one. -/
theorem round_fits (s : Sign) {m : Nat} (hm : 0 < m) {e : Int} (he : -149 ≤ e) :
    ∃ m' e' h, UnpackedFloat.round Format.binary32 s m e = .finite s m' e' h ∧ Fits m' e' := by
  unfold UnpackedFloat.round decreaseExponent roundWithAccuracy
  rw [targetExponent_eq]
  dsimp only
  generalize hlow : (e - max (m.log2 + 1 + e - 24) (-149)).toNat = low
  have hshifted : 0 < m <<< low := by
    rw [Nat.shiftLeft_eq]
    exact Nat.mul_pos hm (Nat.two_pow_pos _)
  have hfirst := shift_fits hshifted (e := e - low) (by omega)
  generalize shiftToTargetExponent Format.binary32 (m <<< low) (e - low) .exact = first at hfirst
  have hsecond := shift_fits (hfirst.1.trans_le (mantissa_le_rounded first.1)) hfirst.2.2
  rw [dif_neg hsecond.1.ne']
  exact ⟨_, _, _, rfl, hsecond.2⟩

/-! ## § Differences and sums -/

theorem isNaN_normalize (m e : Int) (s : Sign) : (UnpackedFloat.normalize Format.binary32 m e s).isNaN = false := by
  unfold UnpackedFloat.normalize UnpackedFloat.round roundWithAccuracy
  dsimp only
  split
  · split <;> rfl
  · rfl
  · split <;> rfl

/-- **`Numeric.isNaN_sub`** — a number less a finite one is a number. -/
theorem isNaN_sub {x y : Float32} (hx : x.isNaN = false) (hy : y.isFinite = true) : (x - y).isNaN = false := by
  show (Float32.ofModel (.pack (UnpackedFloat.sub Format.binary32 (unpack x) (unpack y)))).isNaN = false
  refine isNaN_pack ?_
  replace hx : (unpack x).isNaN = false := hx
  replace hy : (unpack y).isFinite = true := hy
  match unpack x, unpack y, hx, hy with
  | .infinity _, .zero _, _, _ | .infinity _, .finite .., _, _ | .zero _, .finite .., _, _
  | .finite .., .zero _, _, _ => rfl
  | .zero s, .zero t, _, _ => cases s <;> cases t <;> rfl
  | .finite .., .finite .., _, _ => exact isNaN_normalize _ _ _

/-- A positive number of units, none smaller than the smallest number, is positive after rounding. -/
theorem normalize_pos {m e : Int} (hm : 0 < m) (he : -149 ≤ e) (s : Sign) :
    0 < Float32.ofModel (.pack (UnpackedFloat.normalize Format.binary32 m e s)) := by
  unfold UnpackedFloat.normalize
  rw [Int.compare_eq_gt.mpr hm]
  obtain ⟨m', e', hm', hround, hfits⟩ := round_fits .positive (m := m.toNat) (by omega) he
  show 0 < Float32.ofModel (.pack (UnpackedFloat.round Format.binary32 .positive m.toNat e))
  rw [hround]
  exact pack_pos hm' hfits

/-- **`Numeric.add_pos`** — a positive number added to one that is not negative makes a positive number. -/
theorem add_pos {x y : Float32} (hx : 0 ≤ x) (hy : 0 < y) : 0 < x + y := by
  have hinfinite : 0 < Float32.ofModel (.pack (.infinity .positive)) := by decide +kernel
  show 0 < Float32.ofModel (.pack (UnpackedFloat.add Format.binary32 (unpack x) (unpack y)))
  rcases nonneg_cases hx with ⟨s, hx⟩ | hx
  · rw [hx]
    rcases pos_iff.mp hy with hy | ⟨n, f, hn, hy⟩
    · rw [hy]
      exact hinfinite
    · rw [hy]
      exact pack_pos hn (fits_of_unpack hy)
  · rcases pos_iff.mp hx with hx | ⟨m, e, hm, hx⟩ <;> rcases pos_iff.mp hy with hy | ⟨n, f, hn, hy⟩ <;>
      rw [hx, hy]
    · exact hinfinite
    · exact hinfinite
    · exact hinfinite
    · have hexponents : -149 ≤ min e f := Int.le_min.mpr ⟨(fits_of_unpack hx).2, (fits_of_unpack hy).2⟩
      refine normalize_pos ?_ hexponents .positive
      have hleft : 0 < m <<< (e - min e f).toNat := by
        rw [Nat.shiftLeft_eq]
        exact Nat.mul_pos hm (Nat.two_pow_pos _)
      exact Int.add_pos_of_pos_of_nonneg (Int.natCast_pos.mpr hleft) (Int.natCast_nonneg _)

end BehaviorTree.Numeric
