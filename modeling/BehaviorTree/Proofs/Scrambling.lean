/-
# BehaviorTree.Proofs.Scrambling — no two seeds and no two words of a period collide

The scrambler is made of two kinds of steps. A word is xored with itself, shifted to the right: its upper bits are
still there, and each bit can be read off the result and the bits above it (`Random.xorShift_injective`). Or it is
multiplied by an odd word (`Random.mul_injective_of_odd`). Neither loses anything, so the scrambler is a permutation
of the words, and so are the derivations of seeds, in either of their arguments.

The state of a stream grows by an odd number with every word. So it takes all values before it comes back to the
first one (`Random.later_eq`), and the words of the stream are these values, scrambled (`Random.nth_injective`).
`Random.seeds_distinct` puts it together.
-/
import BehaviorTree.Proofs.Evenness
import BehaviorTree.Random.SplitMix
import Mathlib.Data.Fintype.EquivFin
import Mathlib.Data.Nat.ModEq
import Mathlib.Data.Nat.Prime.Basic

namespace BehaviorTree.Random

/-! ## § The steps of the scrambler -/

/-- Each bit can be read off the result and the bits above it. -/
theorem getLsbD_eq_of_xorShift {w shift : Nat} (hshift : 0 < shift) {x y : BitVec w}
    (h : x ^^^ (x >>> shift) = y ^^^ (y >>> shift)) (i : Nat) : x.getLsbD i = y.getLsbD i := by
  -- from the highest bit down: the bit that has been shifted here stands higher
  rcases Nat.lt_or_ge i w with hi | hi
  · have habove := getLsbD_eq_of_xorShift hshift h (i + shift)
    have hbit := congrArg (fun z => BitVec.getLsbD z i) h
    simp only [BitVec.getLsbD_xor, BitVec.getLsbD_ushiftRight, Nat.add_comm shift, habove] at hbit
    exact Bool.xor_left_inj.mp hbit
  · rw [BitVec.getLsbD_of_ge _ _ hi, BitVec.getLsbD_of_ge _ _ hi]
termination_by w - i

/-- **`Random.xorShift_injective`** — nothing is lost when a word is xored with itself, shifted to the right. -/
theorem xorShift_injective {shift : UInt64} (hshift : 0 < shift.toNat % 64) :
    Function.Injective fun x : UInt64 => x ^^^ (x >>> shift) := by
  intro x y h
  have hbits := congrArg UInt64.toBitVec h
  simp only [UInt64.toBitVec_xor, UInt64.toBitVec_shiftRight, BitVec.ushiftRight_eq'] at hbits
  refine UInt64.toBitVec_inj.mp (BitVec.eq_of_getLsbD_eq fun i _ => ?_)
  exact getLsbD_eq_of_xorShift (by simpa using hshift) hbits i

/-- **`Random.mul_injective_of_odd`** — nothing is lost when a word is multiplied by an odd one. -/
theorem mul_injective_of_odd {c : UInt64} (hodd : c.toNat % 2 = 1) : Function.Injective fun x : UInt64 => x * c := by
  intro x y h
  have hproducts := congrArg UInt64.toNat h
  simp only [UInt64.toNat_mul] at hproducts
  have hcoprime : Nat.Coprime (2 ^ 64) c.toNat :=
    Nat.Coprime.pow_left 64 (Nat.coprime_two_left.mpr (Nat.odd_iff.mpr hodd))
  have hequal : x.toNat ≡ y.toNat [MOD 2 ^ 64] := Nat.ModEq.cancel_right_of_coprime hcoprime hproducts
  exact UInt64.toNat_inj.mp (hequal.eq_of_lt_of_lt x.toNat_lt y.toNat_lt)

theorem mix64_injective : Function.Injective mix64 :=
  (xorShift_injective (by decide)).comp <| (mul_injective_of_odd (by decide)).comp <|
    (xorShift_injective (by decide)).comp <| (mul_injective_of_odd (by decide)).comp <|
      xorShift_injective (by decide)

/-- There are finitely many words, so what loses nothing reaches all of them. -/
instance finite_word : Finite UInt64 :=
  Finite.of_injective UInt64.toFin fun _ _ h => UInt64.toFin_inj.mp h

/-! ## § Seeds -/

theorem deriveSeed_injective_agent (run : UInt64) : Function.Injective (deriveSeed run) := by
  intro agent agent' h
  have hinner := mix64_injective ((UInt64.xor_right_inj _).mp (mix64_injective h))
  exact (UInt64.add_left_inj _).mp hinner

theorem deriveSeed_injective_run (agent : UInt64) : Function.Injective fun run => deriveSeed run agent := by
  intro run run' h
  exact (UInt64.xor_left_inj _).mp (mix64_injective h)

/-! ## § Streams -/

/-- **`nth n g`** — the word number `n` of a source, counted from zero. -/
def nth {γ : Type} [Source γ] (n : Nat) (g : γ) : UInt64 :=
  (word (later n g)).1

/-- **`Random.later_eq`** — with every word the increment is added to the state of a stream. -/
theorem later_eq (n : Nat) (g : SplitMix) : later n g = ⟨g.state + UInt64.ofNat n * increment⟩ := by
  induction n generalizing g with
  | zero => simp
  | succ n ih =>
    have hskip : skip g = ⟨g.state + increment⟩ := rfl
    rw [later_succ, hskip, ih, UInt64.ofNat_add, UInt64.add_mul, UInt64.add_assoc,
      UInt64.add_comm increment, UInt64.ofNat_one, UInt64.one_mul]

theorem nth_eq (n : Nat) (g : SplitMix) :
    nth n g = mix64 (g.state + UInt64.ofNat n * increment + increment) := by
  rw [nth, later_eq]
  rfl

/-- **`Random.nth_injective`** — the words of a period are different. -/
theorem nth_injective (g : SplitMix) : Function.Injective fun n : UInt64 => nth n.toNat g := by
  intro m n h
  simp only [nth_eq, UInt64.ofNat_toNat] at h
  have hstates := (UInt64.add_right_inj _).mp ((UInt64.add_left_inj _).mp (mix64_injective h))
  exact mul_injective_of_odd (by decide) hstates

theorem nth_inj {g : SplitMix} {i j : Nat} (hi : i < 2 ^ 64) (hj : j < 2 ^ 64) (h : nth i g = nth j g) : i = j := by
  have hi' : (UInt64.ofNat i).toNat = i := UInt64.toNat_ofNat_of_lt' hi
  have hj' : (UInt64.ofNat j).toNat = j := UInt64.toNat_ofNat_of_lt' hj
  have hwords : UInt64.ofNat i = UInt64.ofNat j := nth_injective g (by simpa only [hi', hj'] using h)
  rw [← hi', hwords, hj']

/-- **`Random.seeds_distinct`** — seeds and words do not collide.
* The scrambler is a permutation of the words.
* The seeds of two agents in one run are different, and so are those of one agent in two runs.
* The first `2^64` words of a stream are different, and each word occurs exactly once among them; then the stream
  begins again. -/
theorem seeds_distinct :
    Function.Bijective mix64 ∧
    (∀ run, Function.Injective (deriveSeed run)) ∧
    (∀ agent, Function.Injective fun run => deriveSeed run agent) ∧
    (∀ (g : SplitMix) (i j : Nat), i < j → j < 2 ^ 64 → nth i g ≠ nth j g) ∧
    (∀ (g : SplitMix) (w : UInt64), ∃! n, n < 2 ^ 64 ∧ nth n g = w) ∧
    (∀ g : SplitMix, later (2 ^ 64) g = g) := by
  refine ⟨Finite.injective_iff_bijective.mp mix64_injective, deriveSeed_injective_agent, deriveSeed_injective_run,
    ?different, ?once, ?again⟩
  case different =>
    intro g i j hij hj h
    have hequal := nth_inj (hij.trans hj) hj h
    omega
  case once =>
    intro g w
    obtain ⟨n, hn⟩ := Finite.surjective_of_injective (nth_injective g) w
    exact ⟨n.toNat, ⟨n.toNat_lt, hn⟩, fun m ⟨hm, hw⟩ => nth_inj hm n.toNat_lt (hw.trans hn.symm)⟩
  case again =>
    intro g
    have hzero : UInt64.ofNat (2 ^ 64) = 0 := rfl
    rw [later_eq, hzero, UInt64.zero_mul, UInt64.add_zero]

/-- Two agents in the run with the seed seven, and the first and the last word of a period of its stream. -/
theorem seven_distinct :
    deriveSeed 7 0 ≠ deriveSeed 7 1 ∧ (0 < 0xFFFFFFFFFFFFFFFF ∧ 0xFFFFFFFFFFFFFFFF < 2 ^ 64) ∧
      nth 0 (⟨7⟩ : SplitMix) ≠ nth 0xFFFFFFFFFFFFFFFF (⟨7⟩ : SplitMix) := by
  obtain ⟨-, hagents, -, hwords, -, -⟩ := seeds_distinct
  exact ⟨(hagents 7).ne (by decide), by omega, hwords ⟨7⟩ 0 _ (by omega) (by omega)⟩

end BehaviorTree.Random
