/-
# BehaviorTree.Proofs.ShortCircuit — a finished run is one short-circuit evaluation

A run of a tree may take many ticks. Its leaves are stateful, the world changes between the ticks, and
the tree takes up its work wherever it was suspended. All the same, once the run is finished, what has
happened is one evaluation of the tree as a boolean formula, from left to right and with short circuit:
the leaves that came to an end are the leaves at which this evaluation looks, each of them once and in
the same order, and the status is its value.

The record of a run grows tick by tick (`Run.ready`). When the last tick ends the run, the whole record
is an evaluation (`Node.tick_progress`), and a record that is an evaluation is the only one that fits
its outcomes (`Formula.Evaluates.correct`).
-/
import BehaviorTree.Proofs.Recording

namespace BehaviorTree

variable {α κ ω φ : Type}

/-! ## § What a tick completes -/

/-- Leaves that have ended are completed with their outcomes. -/
@[simp] theorem Tally.filterMap_answers (tally : Tally) :
    (answers tally : List (Nat × Except φ Status)).filterMap LeafLog.outcome? = tally := by
  simp [answers, List.filterMap_map, Function.comp_def, LeafLog.outcome?]

namespace Progress

variable {first : Nat} {tally : Tally} {log : LeafLog φ} {tree' : Node α κ} {status : Status}

/-- After a tick that answers running, the record has grown by what the tick has completed. The leaf at
which the tree is suspended is not part of it. -/
theorem ready (h : Progress first tally (LeafLog.visits log) tree' status)
    (hrunning : status = .running) : tree'.Ready first (tally ++ LeafLog.completions log) := by
  cases h with
  | suspended learned hvisits hsuspended =>
    have hcompleted : LeafLog.completions log = learned := by
      simp [LeafLog.completions, hvisits, LeafLog.outcome?]
    rw [hcompleted]
    exact .suspended hsuspended
  | finished => exact absurd hrunning (Status.ofBool_ne_running _)

/-- After a tick that ends the run, the record is an evaluation of the tree. -/
theorem evaluates (h : Progress first tally (LeafLog.visits log) tree' status)
    (hended : status ≠ .running) : ∃ b, status = .ofBool b ∧
      Formula.Evaluates first tree'.formula (tally ++ LeafLog.completions log) b := by
  cases h with
  | suspended => exact absurd rfl hended
  | @finished learned b hvisits _ hevaluates =>
    have hcompleted : LeafLog.completions log = learned := by
      unfold LeafLog.completions
      rw [hvisits, learned.filterMap_answers]
    rw [hcompleted]
    exact ⟨b, rfl, hevaluates⟩

end Progress

/-! ## § The record of a run -/

/-- **`Run.ready`** — as long as all ticks answer running, the tree is ready after all that has been
completed so far. -/
theorem Run.ready {kit : Leaves α κ ω φ} {start tree : Node α κ} {turns : List (Turn φ)}
    (hrest : start.AtRest) (hrun : Run kit start turns tree)
    (hrunning : ∀ turn ∈ turns, ∃ log, turn = .ticked .running log) :
    tree.Ready 0 (LeafLog.completions (turns.flatMap Turn.log)) := by
  induction hrun with
  | nil => exact .rest hrest
  | @snoc turns turn tree tree' _ hstep ih =>
    have hready := ih fun earlier hearlier => hrunning earlier (List.mem_append_left _ hearlier)
    obtain ⟨log, rfl⟩ := hrunning turn (List.mem_append_right _ List.mem_cons_self)
    have hprogress := hstep.progress hready
    rw [List.flatMap_append, List.flatMap_singleton, LeafLog.completions_append]
    exact hprogress.ready rfl

/-- **`Run.short_circuit`** — a series of ticks from a tree at rest, all of which but the last answer
running. The leaves that it completes are the leaves at which one evaluation of the tree's formula
looks, under any assignment of the logged outcomes, each once and in the order of the evaluation; and
the last status is the value. The logs are what the leaves of the tree write down in such a series, as far
as they can. -/
theorem Run.short_circuit {kit : Leaves α κ ω φ} {start tree tree' : Node α κ}
    {turns : List (Turn φ)} {status : Status} {log : LeafLog φ} (hrest : start.AtRest)
    (hrun : Run kit start turns tree)
    (hrunning : ∀ turn ∈ turns, ∃ log, turn = .ticked .running log)
    (hlast : Step kit tree (.ticked status log) tree') (hended : status ≠ .running) :
    let tally := LeafLog.completions (turns.flatMap Turn.log ++ log)
    (tally.map Prod.fst).Nodup ∧ (∃ value, Formula.Agrees value tally) ∧
      (∀ value, Formula.Agrees value tally →
        start.formula.consulted value 0 = tally.map Prod.fst ∧
        status = .ofBool (start.formula.holds value 0)) ∧
    RecordedRun kit (start.numbered 0) ((turns ++ [Turn.ticked status log]).map Turn.audible) (tree'.numbered 0) := by
  intro tally
  have hrecorded := (hrun.snoc hlast).recorded
  have hprogress := hlast.progress (hrun.ready hrest hrunning)
  obtain ⟨b, rfl, hevaluates⟩ := hprogress.evaluates hended
  -- calls of the root do not change the shape, so this is the formula of the tree at the start
  have htree : tree'.formula = start.formula := hlast.formula_eq.trans hrun.formula_eq
  rw [htree, ← LeafLog.completions_append] at hevaluates
  have hnodup : (tally.map Prod.fst).Nodup := hevaluates.ordered.increasing.imp Nat.ne_of_lt
  refine ⟨hnodup, Formula.exists_agrees hnodup, ?_, hrecorded⟩
  intro value hagrees
  obtain ⟨hholds, hconsulted⟩ := hevaluates.correct hagrees
  exact ⟨hconsulted, congrArg Status.ofBool hholds.symm⟩

/-- Three ticks of the guard are one evaluation of its formula: someone is near, the chase fails and the
rest succeeds. -/
theorem Node.guard_evaluation :
    Node.guard.formula.consulted (· != 1) 0 = [0, 1, 2] ∧
      Status.success = .ofBool (Node.guard.formula.holds (· != 1) 0) := by
  have hrun := (Run.nil.snoc Node.guard_step).snoc Node.guardChasing_step
  have hagrees : Formula.Agrees (· != 1) [(0, true), (1, false), (2, true)] := by
    simp [Formula.Agrees]
  obtain ⟨-, -, hevaluation, -⟩ := Run.short_circuit Node.guard_fresh.atRest hrun (by simp)
    Node.guardResting_step (by simp)
  exact hevaluation (· != 1) hagrees

end BehaviorTree
