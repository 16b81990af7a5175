/-
# BehaviorTree.Proofs.Steps — series of steps

A wait, an action and a tree are all called again and again, and each call leaves a record of what it did. `Steps` is
a series of such calls with its records, for any kind of step. What is claimed of every call, in view of the records
before it, is proved for one step together with an invariant, and then holds all along (`Steps.each`).
-/
import Mathlib.Data.List.Basic

namespace BehaviorTree

variable {σ τ : Type}

/-- **`Steps`** — a series of steps from `start`, with their records. -/
inductive Steps (step : σ → τ → σ → Prop) (start : σ) : List τ → σ → Prop
  | nil : Steps step start [] start
  | snoc {records : List τ} {record : τ} {s s' : σ} :
      Steps step start records s → step s record s' → Steps step start (records ++ [record]) s'

namespace Steps

variable {step : σ → τ → σ → Prop} {start s : σ} {records : List τ}

/-- A record of a series with one more record is the new one or one of the others. -/
theorem split_concat {before after : List τ} {record last : τ} (h : records ++ [last] = before ++ record :: after) :
    (records = before ∧ last = record) ∨ ∃ rest, records = before ++ record :: rest := by
  rcases List.eq_nil_or_concat' after with rfl | ⟨rest, last', rfl⟩
  · obtain ⟨hrecords, hlast⟩ := List.append_inj' h rfl
    exact Or.inl ⟨hrecords, List.singleton_inj.mp hlast⟩
  · rw [← List.cons_append, ← List.append_assoc] at h
    exact Or.inr ⟨rest, (List.append_inj' h rfl).1⟩

/-- **`Steps.each`** — an invariant in view of the records, and what it says of every step, in view of the records
before the step. That the state has been reached by those records may be used. -/
theorem each (Inv : List τ → σ → Prop) {Law : List τ → τ → Prop} (hstart : Inv [] start)
    (hstep : ∀ {records record s s'}, Steps step start records s → Inv records s → step s record s' →
      Law records record ∧ Inv (records ++ [record]) s')
    (h : Steps step start records s) :
    Inv records s ∧ ∀ before record after, records = before ++ record :: after → Law before record := by
  induction h with
  | nil => exact ⟨hstart, fun before record after h => by simp at h⟩
  | snoc hsteps hlast ih =>
    obtain ⟨hinv, hlaw⟩ := ih
    refine ⟨(hstep hsteps hinv hlast).2, ?_⟩
    intro before record after hsplit
    rcases split_concat hsplit with ⟨rfl, rfl⟩ | ⟨rest, rfl⟩
    · exact (hstep hsteps hinv hlast).1
    · exact hlaw before record rest rfl

end Steps

end BehaviorTree
