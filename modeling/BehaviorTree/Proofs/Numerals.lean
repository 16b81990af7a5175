/-
# BehaviorTree.Proofs.Numerals — numbers at the ends of a line

A number in a text is its decimal digits, as many as there are. It has one spelling, without needless zeros. So whoever
meets it at one end of a line can tell where it stops, and which number it is, if only the line goes on with something
else than a digit. `Text.front?_eq_some_iff` and `Text.back?_eq_some_iff` say this for the two ends of a line, in both
directions: what is read there has been written there, and what has been written there is read.
-/
import Mathlib.Data.List.DropRight

namespace BehaviorTree.Text

variable {digits line rest before : List Char} {n : Nat}

/-! ## § Spellings -/

/-- **`Text.numeral?`** — the number that is spelled with these digits, without needless zeros. -/
def numeral? (digits : List Char) : Option Nat :=
  if Nat.toDigits 10 (Nat.ofDigitChars 10 digits 0) = digits then some (Nat.ofDigitChars 10 digits 0) else none

theorem numeral?_eq_some_iff : numeral? digits = some n ↔ digits = Nat.toDigits 10 n := by
  unfold numeral?
  constructor
  · intro h
    split at h
    · next hspelled =>
      obtain rfl := Option.some.inj h
      exact hspelled.symm
    · cases h
  · rintro rfl
    rw [Nat.ofDigitChars_ten_toDigits]
    exact if_pos rfl

theorem isDigit_toDigits (n : Nat) : ∀ c ∈ Nat.toDigits 10 n, c.isDigit = true :=
  fun _ hc => Nat.isDigit_of_mem_toDigits (by decide) (by decide) hc

/-! ## § Ends of a line -/

/-- Digits in a line go on until there is something else. -/
theorem span_digits (hdigits : ∀ c ∈ digits, c.isDigit = true) (hrest : ∀ c ∈ rest.head?, c.isDigit = false) :
    (digits ++ rest).takeWhile Char.isDigit = digits ∧ (digits ++ rest).dropWhile Char.isDigit = rest := by
  have hstop : rest.takeWhile Char.isDigit = [] ∧ rest.dropWhile Char.isDigit = rest := by
    cases rest with
    | nil => exact ⟨rfl, rfl⟩
    | cons c rest => simp [hrest c rfl]
  rw [List.takeWhile_append_of_pos hdigits, List.dropWhile_append_of_pos hdigits, hstop.1, hstop.2, List.append_nil]
  exact ⟨rfl, rfl⟩

theorem isDigit_head?_dropWhile (line : List Char) :
    ∀ c ∈ (line.dropWhile Char.isDigit).head?, c.isDigit = false := by
  intro c hc
  have hstop := List.head?_dropWhile_not Char.isDigit line
  rw [Option.mem_def.mp hc] at hstop
  exact hstop

/-- The number in front of a line, and the rest of the line. -/
def front? (line : List Char) : Option (Nat × List Char) :=
  (numeral? (line.takeWhile Char.isDigit)).map fun n => (n, line.dropWhile Char.isDigit)

/-- **`Text.front?_eq_some_iff`** — the number in front of a line is spelled there, and goes on as far as there are
digits. -/
theorem front?_eq_some_iff :
    front? line = some (n, rest) ↔ line = Nat.toDigits 10 n ++ rest ∧ ∀ c ∈ rest.head?, c.isDigit = false := by
  unfold front?
  constructor
  · intro h
    obtain ⟨m, hm, hpair⟩ := Option.map_eq_some_iff.mp h
    obtain ⟨rfl, rfl⟩ := Prod.mk.inj hpair
    refine ⟨?_, isDigit_head?_dropWhile line⟩
    rw [← numeral?_eq_some_iff.mp hm, List.takeWhile_append_dropWhile]
  · rintro ⟨rfl, hrest⟩
    obtain ⟨htake, hdrop⟩ := span_digits (isDigit_toDigits n) hrest
    rw [htake, hdrop, numeral?_eq_some_iff.mpr rfl, Option.map_some]

/-- The number at the end of a line, and the line before it. -/
def back? (line : List Char) : Option (List Char × Nat) :=
  (numeral? (line.rtakeWhile Char.isDigit)).map fun n => (line.rdropWhile Char.isDigit, n)

/-- **`Text.back?_eq_some_iff`** — the number at the end of a line is spelled there, from where the last digits begin. -/
theorem back?_eq_some_iff :
    back? line = some (before, n) ↔
      line = before ++ Nat.toDigits 10 n ∧ ∀ c ∈ before.getLast?, c.isDigit = false := by
  unfold back?
  constructor
  · intro h
    obtain ⟨m, hm, hpair⟩ := Option.map_eq_some_iff.mp h
    obtain ⟨rfl, rfl⟩ := Prod.mk.inj hpair
    constructor
    · rw [← numeral?_eq_some_iff.mp hm, List.rdropWhile_append_rtakeWhile]
    · rw [List.rdropWhile, List.getLast?_reverse]
      exact isDigit_head?_dropWhile line.reverse
  · rintro ⟨rfl, hbefore⟩
    rw [← List.head?_reverse] at hbefore
    have hdigits : ∀ c ∈ (Nat.toDigits 10 n).reverse, c.isDigit = true := fun c hc =>
      isDigit_toDigits n c (List.mem_reverse.mp hc)
    obtain ⟨htake, hdrop⟩ := span_digits hdigits hbefore
    rw [List.rtakeWhile, List.rdropWhile, List.reverse_append, htake, hdrop, List.reverse_reverse, List.reverse_reverse,
      numeral?_eq_some_iff.mpr rfl, Option.map_some]

end BehaviorTree.Text
