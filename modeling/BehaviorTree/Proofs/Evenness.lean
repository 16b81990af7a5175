/-
# BehaviorTree.Proofs.Evenness — a number below a bound, drawn as evenly as a word allows

A number below a bound `b` is drawn by stretching the `2^32` possible draws over the range below `b`: the draw `r`
falls on `r * b / 2^32` (`Random.scaled_eq`). The product fits into a word, so nothing is lost.

The draws that fall on a number `v` are therefore the ones from `v * 2^32 / b` up to and without
`(v + 1) * 2^32 / b`, both rounded up (`Random.scaled_eq_iff`). How many these are depends on `v` by the rounding
alone: as `2^32` is not a multiple of every `b`, some numbers get one draw more than others, and none more than that
(`Random.below_even`).

A coin toss has no such remainder (`Random.flag_even`).
-/
import BehaviorTree.Random.Tape
import Mathlib.Algebra.Order.Floor.Div
import Mathlib.Data.Set.Card
import Mathlib.Order.Interval.Finset.Nat
import Mathlib.Tactic.Linarith

namespace BehaviorTree.Random

variable {γ : Type} [Source γ]

/-! ## § What is drawn -/

/-- The source after one word. -/
def skip (g : γ) : γ :=
  (word g).2

/-- **`later n g`** — the source after `n` words. -/
def later (n : Nat) (g : γ) : γ :=
  skip^[n] g

@[simp] theorem later_zero (g : γ) : later 0 g = g :=
  rfl

theorem later_succ (n : Nat) (g : γ) : later (n + 1) g = later n (skip g) :=
  rfl

/-- For a bound other than zero one word is drawn. -/
theorem below_eq {bound : Nat} (h : bound ≠ 0) (g : γ) :
    below bound g = (scaled (word32 g).1 bound, skip g) := by
  unfold below
  rw [if_neg h]
  rfl

theorem below_snd {bound : Nat} (h : bound ≠ 0) (g : γ) : (below bound g).2 = skip g := by
  rw [below_eq h]

/-! ## § Stretching the draws -/

variable {bound v : Nat} (draw : UInt32)

/-- The product does not overflow. -/
theorem toNat_product (hbound : bound ≤ 2 ^ 32) :
    (draw.toUInt64 * bound.toUInt64).toNat = draw.toNat * bound := by
  have hdraw := draw.toNat_lt
  have hproduct : draw.toNat * bound < 2 ^ 64 := by
    calc draw.toNat * bound ≤ draw.toNat * 2 ^ 32 := Nat.mul_le_mul_left _ hbound
      _ < 2 ^ 32 * 2 ^ 32 := Nat.mul_lt_mul_of_pos_right hdraw (by decide)
      _ = 2 ^ 64 := by decide
  have hword : bound.toUInt64.toNat = bound := UInt64.toNat_ofNat_of_lt' (Nat.lt_of_le_of_lt hbound (by decide))
  rw [UInt64.toNat_mul, UInt32.toNat_toUInt64, hword, Nat.mod_eq_of_lt hproduct]

/-- The shift leaves the upper half of the word. -/
theorem scaled_eq_div (bound : Nat) : scaled draw bound = (draw.toUInt64 * bound.toUInt64).toNat / 2 ^ 32 := by
  unfold scaled
  rw [UInt64.toNat_shiftRight, Nat.shiftRight_eq_div_pow]
  rfl

/-- **`Random.scaled_eq`** — the draw is stretched over the range below the bound. -/
theorem scaled_eq (hbound : bound ≤ 2 ^ 32) : scaled draw bound = draw.toNat * bound / 2 ^ 32 := by
  rw [scaled_eq_div, toNat_product draw hbound]

/-- The result is below the bound, whatever the bound is. -/
theorem scaled_lt (hpos : 0 < bound) : scaled draw bound < bound := by
  rcases Nat.lt_or_ge (2 ^ 32) bound with hlarge | hbound
  · -- the product may overflow then, but the upper half of a word is never greater than this
    have hword := (draw.toUInt64 * bound.toUInt64).toNat_lt
    rw [scaled_eq_div]
    omega
  · rw [scaled_eq draw hbound]
    refine Nat.div_lt_of_lt_mul ?_
    exact Nat.mul_lt_mul_of_pos_right draw.toNat_lt hpos

theorem below_lt (hpos : 0 < bound) (g : γ) : (below bound g).1 < bound := by
  rw [below_eq (by omega)]
  exact scaled_lt _ hpos

theorem scaled_mono (hbound : bound ≤ 2 ^ 32) {draw draw' : UInt32} (h : draw ≤ draw') :
    scaled draw bound ≤ scaled draw' bound := by
  rw [scaled_eq _ hbound, scaled_eq _ hbound]
  have hle : draw.toNat ≤ draw'.toNat := UInt32.le_iff_toNat_le.mp h
  gcongr

/-! ## § The share of a number -/

/-- The first draw that falls on a number. -/
def firstDraw (bound v : Nat) : Nat :=
  (v * 2 ^ 32) ⌈/⌉ bound

theorem firstDraw_le_iff (hpos : 0 < bound) {r : Nat} : firstDraw bound v ≤ r ↔ v * 2 ^ 32 ≤ r * bound := by
  rw [firstDraw, ceilDiv_le_iff_le_mul hpos, Nat.mul_comm r]

/-- It is less than one draw behind its exact place. -/
theorem firstDraw_near (v : Nat) (hpos : 0 < bound) :
    v * 2 ^ 32 ≤ firstDraw bound v * bound ∧ firstDraw bound v * bound < v * 2 ^ 32 + bound := by
  refine ⟨(firstDraw_le_iff hpos).mp (Nat.le_refl _), ?_⟩
  rcases Nat.eq_zero_or_pos (firstDraw bound v) with hzero | hsome
  · rw [hzero, Nat.zero_mul]
    omega
  · have hbefore : ¬ firstDraw bound v ≤ firstDraw bound v - 1 := by omega
    rw [firstDraw_le_iff hpos, Nat.sub_mul] at hbefore
    omega

/-- **`Random.scaled_eq_iff`** — the draws that fall on a number are the ones from its first draw to that of the next
number. -/
theorem scaled_eq_iff (hpos : 0 < bound) (hbound : bound ≤ 2 ^ 32) :
    scaled draw bound = v ↔ firstDraw bound v ≤ draw.toNat ∧ draw.toNat < firstDraw bound (v + 1) := by
  rw [scaled_eq draw hbound, ← Nat.not_le, firstDraw_le_iff hpos, firstDraw_le_iff hpos]
  omega

/-- The number of draws that fall on a number. -/
noncomputable def share (bound v : Nat) : Nat :=
  {draw : UInt32 | scaled draw bound = v}.ncard

theorem share_eq (hpos : 0 < bound) (hbound : bound ≤ 2 ^ 32) (hv : v < bound) :
    share bound v = firstDraw bound (v + 1) - firstDraw bound v := by
  have himage : UInt32.toNat '' {draw | scaled draw bound = v} =
      Finset.Ico (firstDraw bound v) (firstDraw bound (v + 1)) := by
    ext r
    simp only [Set.mem_image, Set.mem_ofPred_eq, Finset.coe_Ico, Set.mem_Ico, scaled_eq_iff _ hpos hbound]
    constructor
    · rintro ⟨draw, hdraw, rfl⟩
      exact hdraw
    · rintro ⟨hfirst, hnext⟩
      -- the last number has no draws beyond the last one
      have hend : firstDraw bound (v + 1) ≤ 2 ^ 32 := by
        rw [firstDraw_le_iff hpos, Nat.mul_comm]
        exact Nat.mul_le_mul_left _ hv
      have hr : (UInt32.ofNat r).toNat = r := UInt32.toNat_ofNat_of_lt' (Nat.lt_of_lt_of_le hnext hend)
      exact ⟨UInt32.ofNat r, by rw [hr]; exact ⟨hfirst, hnext⟩, hr⟩
  have hinjective : Function.Injective UInt32.toNat := fun _ _ h => UInt32.toNat_inj.mp h
  rw [share, ← Set.ncard_image_of_injective _ hinjective, himage, Set.ncard_coe_finset, Nat.card_Ico]

/-- **`Random.share_near`** — the share of a number is less than one draw off the even share. -/
theorem share_near (hpos : 0 < bound) (hbound : bound ≤ 2 ^ 32) (hv : v < bound) :
    2 ^ 32 < share bound v * bound + bound ∧ share bound v * bound < 2 ^ 32 + bound := by
  rw [share_eq hpos hbound hv, Nat.sub_mul]
  -- both ends are less than one draw behind their exact places, which are `2 ^ 32 / bound` apart
  obtain ⟨hfirst, hfirst'⟩ := firstDraw_near v hpos
  obtain ⟨hnext, hnext'⟩ := firstDraw_near (v + 1) hpos
  omega

/-- So it is the even share, rounded down or up. -/
theorem share_eq_or (hpos : 0 < bound) (hbound : bound ≤ 2 ^ 32) (hv : v < bound) :
    share bound v = 2 ^ 32 / bound ∨ share bound v = 2 ^ 32 ⌈/⌉ bound := by
  obtain ⟨hless, hmore⟩ := share_near hpos hbound hv
  have hfloor : 2 ^ 32 / bound ≤ share bound v := by
    refine Nat.le_of_lt_succ ((Nat.div_lt_iff_lt_mul hpos).mpr ?_)
    rwa [Nat.succ_mul]
  have hceil : share bound v ≤ 2 ^ 32 ⌈/⌉ bound := by
    have hup : 2 ^ 32 ≤ bound * (2 ^ 32 ⌈/⌉ bound) := (ceilDiv_le_iff_le_mul hpos).mp (Nat.le_refl _)
    refine Nat.le_of_lt_succ (Nat.lt_of_mul_lt_mul_left (a := bound) ?_)
    rw [Nat.mul_succ, Nat.mul_comm]
    omega
  rcases Nat.lt_or_eq_of_le hfloor with hlt | heq
  · refine Or.inr (Nat.le_antisymm hceil ((ceilDiv_le_iff_le_mul hpos).mpr ?_))
    have hdown : 2 ^ 32 < bound * (2 ^ 32 / bound + 1) := Nat.lt_mul_div_succ _ hpos
    exact hdown.le.trans (Nat.mul_le_mul_left _ hlt)
  · exact Or.inl heq.symm

/-- No number is without draws. -/
theorem share_pos (hpos : 0 < bound) (hbound : bound ≤ 2 ^ 32) (hv : v < bound) : 0 < share bound v := by
  obtain ⟨hless, -⟩ := share_near hpos hbound hv
  refine Nat.pos_of_ne_zero fun hzero => ?_
  rw [hzero] at hless
  omega

/-- No number has more than one draw more than another. -/
theorem share_le_succ (hpos : 0 < bound) (hbound : bound ≤ 2 ^ 32) (hv : v < bound) {w : Nat} (hw : w < bound) :
    share bound v ≤ share bound w + 1 := by
  obtain ⟨-, hmore⟩ := share_near hpos hbound hv
  obtain ⟨hless, -⟩ := share_near hpos hbound hw
  refine Nat.le_of_lt_succ (Nat.lt_of_mul_lt_mul_right (a := bound) ?_)
  rw [Nat.succ_mul, Nat.succ_mul]
  omega

/-! ## § The drawn number -/

/-- **`Random.below_even`** — numbers are drawn below a bound, other than zero and of at most `2^32`.
* One word is drawn, and its upper half is stretched over the range below the bound.
* The product of the draw and the bound does not overflow, the result is below the bound, and a greater draw does not
  give a smaller result.
* The share of each number in the `2^32` draws is the even share rounded down or up. So no number is without draws,
  and none has more than one draw more than any other.
* For the bound zero the result is zero, and nothing is drawn. -/
theorem below_even {bound : Nat} (hpos : 1 ≤ bound) (hbound : bound ≤ 2 ^ 32) :
    (∀ g : γ, below bound g = (scaled (word32 g).1 bound, skip g)) ∧
    (∀ draw : UInt32, (draw.toUInt64 * bound.toUInt64).toNat = draw.toNat * bound ∧ scaled draw bound < bound) ∧
    (∀ draw draw' : UInt32, draw ≤ draw' → scaled draw bound ≤ scaled draw' bound) ∧
    (∀ v < bound, 0 < share bound v ∧
      (share bound v = 2 ^ 32 / bound ∨ share bound v = 2 ^ 32 ⌈/⌉ bound)) ∧
    (∀ v < bound, ∀ w < bound, share bound v ≤ share bound w + 1) ∧
    (∀ g : γ, below 0 g = (0, g)) := by
  refine ⟨below_eq (by omega), ?_, ?_, ?_, ?_, fun _ => rfl⟩
  · exact fun draw => ⟨toNat_product draw hbound, scaled_lt draw hpos⟩
  · exact fun draw draw' h => scaled_mono hbound h
  · exact fun v hv => ⟨share_pos hpos hbound hv, share_eq_or hpos hbound hv⟩
  · exact fun v hv w hw => share_le_succ hpos hbound hv hw

/-- Below three, each number gets `0x55555555` draws or one more; the greatest draw gives a two. -/
theorem below_three :
    1 ≤ 3 ∧ 3 ≤ 2 ^ 32 ∧
      (∀ v < 3, 0 < share 3 v ∧ (share 3 v = 0x55555555 ∨ share 3 v = 0x55555556)) ∧
      below 3 (⟨#[0xFFFFFFFF00000000], 0⟩ : Tape) = (2, ⟨#[0xFFFFFFFF00000000], 1⟩) := by
  obtain ⟨hbelow, -, -, hshare, -⟩ := below_even (γ := Tape) (show 1 ≤ 3 by decide) (by decide)
  refine ⟨by decide, by decide, hshare, ?_⟩
  rw [hbelow]
  rfl

/-! ## § Coin tosses -/

/-- The side of the coin that a word stands for. -/
def toss (w : UInt64) : Bool :=
  decide (w.toNat % 2 = 1)

/-- For a coin toss one word is drawn. -/
theorem flag_eq (g : γ) : flag g = (toss (word g).1, skip g) := by
  have hlowest : ∀ w : UInt64, (w &&& 1 == 1) = toss w := by
    intro w
    rw [Bool.eq_iff_iff, beq_iff_eq, toss, decide_eq_true_iff, ← UInt64.toNat_inj, UInt64.toNat_and]
    exact Eq.congr_left (Nat.and_one_is_mod w.toNat)
  exact Prod.ext (hlowest _) rfl

/-- **`Random.flag_even`** — each side of the coin comes up for half of the words. -/
theorem flag_even (side : Bool) : {w : UInt64 | toss w = side}.ncard = 2 ^ 63 := by
  have himage : UInt64.toNat '' {w | toss w = side} =
      (fun i => 2 * i + side.toNat) '' (Finset.range (2 ^ 63) : Set Nat) := by
    ext n
    simp only [Set.mem_image, Set.mem_ofPred_eq, Finset.coe_range, Set.mem_Iio]
    constructor
    · rintro ⟨w, rfl, rfl⟩
      have hword := w.toNat_lt
      refine ⟨w.toNat / 2, by omega, ?_⟩
      by_cases hodd : w.toNat % 2 = 1 <;> simp [toss, hodd] <;> omega
    · rintro ⟨i, hi, rfl⟩
      have hside : side.toNat ≤ 1 := side.toNat_le
      have hword : (UInt64.ofNat (2 * i + side.toNat)).toNat = 2 * i + side.toNat :=
        UInt64.toNat_ofNat_of_lt' (show 2 * i + side.toNat < 2 ^ 64 by omega)
      refine ⟨_, ?_, hword⟩
      rw [toss, hword]
      cases side <;> simp
  have hinjective : Function.Injective UInt64.toNat := fun _ _ h => UInt64.toNat_inj.mp h
  have hdouble : Function.Injective fun i => 2 * i + side.toNat := fun i j h => by dsimp only at h; omega
  rw [← Set.ncard_image_of_injective _ hinjective, himage, Set.ncard_image_of_injective _ hdouble,
    Set.ncard_coe_finset, Finset.card_range]

end BehaviorTree.Random
