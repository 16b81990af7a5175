/-
# BehaviorTree.Proofs.ActionRun — ticks and aborts of one action

An action in a tree is ticked and aborted by its owner, and from one turn to the next everything around it may change.
An `ActionTurn` is the record of a turn, with the leaf that it leaves behind. What counts for an action are the turns
since it was entered (`ActionTurn.underway`): the ticks behind the last turn that ended a run. It is entered exactly if
there are any (`ActionNode.entered_iff`), so the tick that enters it is the one with no turns under way before.

`ActionNode.Made` lists all that a turn can come to, in terms of the leaf.
-/
import BehaviorTree.Proofs.Run
import BehaviorTree.Proofs.Steps
import Mathlib.Data.List.DropRight

namespace BehaviorTree

variable {α κ ω φ : Type}

/-! ## § Turns of an action -/

/-- **`ActionTurn`** — a tick of an action with its time, or an abort. Each is recorded with what the action was given
to work on, the answer to a tick, the leaf afterwards and what was left behind. -/
inductive ActionTurn (α ω φ : Type) where
  | ticked (dt : Float32) (before : ω) (answer : Except φ Status) (leaf : α) (after : ω)
  | aborted (before : ω) (leaf : α) (after : ω)

namespace ActionTurn

/-- What was given to work on. -/
def before : ActionTurn α ω φ → ω
  | .ticked _ s .. | .aborted s .. => s

/-- What was left behind. -/
def after : ActionTurn α ω φ → ω
  | .ticked _ _ _ _ s | .aborted _ _ s => s

/-- The time of a tick. -/
def time? : ActionTurn α ω φ → Option Float32
  | .ticked dt .. => some dt
  | .aborted .. => none

/-- A tick without an outcome leaves a run open. -/
def isOpen : ActionTurn α ω φ → Bool
  | .ticked _ _ answer .. => goesOn answer
  | .aborted .. => false

/-- **`ActionTurn.underway`** — the turns since the action was entered. -/
def underway (turns : List (ActionTurn α ω φ)) : List (ActionTurn α ω φ) :=
  turns.rtakeWhile isOpen

variable {turns : List (ActionTurn α ω φ)} {turn : ActionTurn α ω φ}

@[simp] theorem underway_nil : underway ([] : List (ActionTurn α ω φ)) = [] :=
  rfl

theorem underway_of_isOpen (h : turn.isOpen = true) : underway (turns ++ [turn]) = underway turns ++ [turn] :=
  List.rtakeWhile_concat_pos _ _ _ h

theorem underway_of_closed (h : turn.isOpen = false) : underway (turns ++ [turn]) = [] :=
  List.rtakeWhile_concat_neg _ _ _ (by simp [h])

end ActionTurn

/-! ## § What a turn comes to -/

namespace ActionNode

/-- **`ActionNode.Step`** — one turn of an action, on anything. -/
inductive Step (kit : Leaves α κ ω φ) (n : ActionNode α) : ActionTurn α ω φ → ActionNode α → Prop
  | tick (dt : Float32) (s : ω) :
      Step kit n (.ticked dt s (n.tick kit dt s).1 (n.tick kit dt s).2.1.leaf (n.tick kit dt s).2.2)
        (n.tick kit dt s).2.1
  | abort (s : ω) : Step kit n (.aborted s (n.abort kit s).1.leaf (n.abort kit s).2) (n.abort kit s).1

/-- What a tick goes on with: the leaf, which is entered now unless it was entered before. -/
def begun (kit : Leaves α κ ω φ) (n : ActionNode α) (s : ω) : α × ω :=
  if n.entered then (n.leaf, s) else kit.enter n.leaf s

variable {kit : Leaves α κ ω φ} {start n n' : ActionNode α} {turn : ActionTurn α ω φ}
  {turns : List (ActionTurn α ω φ)}

theorem begun_of_entered (h : n.entered = true) (s : ω) : n.begun kit s = (n.leaf, s) :=
  if_pos h

theorem begun_of_idle (h : n.entered = false) (s : ω) : n.begun kit s = kit.enter n.leaf s :=
  if_neg (by simp [h])

/-- **`ActionNode.Made`** — all that a turn can come to. A tick is a tick of the leaf, and the leaf is left unless the
run goes on. An abort leaves the leaf if it was entered, and does nothing otherwise. -/
inductive Made (kit : Leaves α κ ω φ) (n : ActionNode α) : ActionTurn α ω φ → ActionNode α → Prop
  | onward {dt : Float32} {s s' : ω} {answer : Except φ Status} {leaf : α}
      (ticked : kit.tick (n.begun kit s).1 dt (n.begun kit s).2 = (answer, leaf, s')) (goes : goesOn answer = true) :
      Made kit n (.ticked dt s answer leaf s') ⟨n.name, true, leaf⟩
  | ended {dt : Float32} {s s' : ω} {answer : Except φ Status} {leaf : α}
      (ticked : kit.tick (n.begun kit s).1 dt (n.begun kit s).2 = (answer, leaf, s')) (ends : goesOn answer = false) :
      Made kit n (.ticked dt s answer (kit.exit leaf s').1 (kit.exit leaf s').2) ⟨n.name, false, (kit.exit leaf s').1⟩
  | left (entered : n.entered = true) (s : ω) :
      Made kit n (.aborted s (kit.exit n.leaf s).1 (kit.exit n.leaf s).2) ⟨n.name, false, (kit.exit n.leaf s).1⟩
  | idle (resting : n.entered = false) (s : ω) : Made kit n (.aborted s n.leaf s) n

theorem Step.made (h : Step kit n turn n') : Made kit n turn n' := by
  cases h with
  | tick dt s =>
    have hbegun : (if n.entered then (n.leaf, s) else kit.enter n.leaf s) = n.begun kit s := rfl
    rcases ht : kit.tick (n.begun kit s).1 dt (n.begun kit s).2 with ⟨answer, leaf, s'⟩
    rcases answer with fault | status
    · simp only [ActionNode.tick, hbegun, ht]
      exact .onward ht rfl
    · cases status with
      | running =>
        simp only [ActionNode.tick, hbegun, ht]
        exact .onward ht rfl
      | success | failure =>
        simp only [ActionNode.tick, hbegun, ht]
        exact .ended ht rfl
  | abort s =>
    unfold ActionNode.abort
    split
    · next hentered => exact .left hentered s
    · next hentered => exact .idle (by simpa using hentered) s

/-- An action is entered after the turns that leave a run open. -/
theorem Step.entered_eq (h : Step kit n turn n') : n'.entered = turn.isOpen := by
  cases h.made with
  | onward _ hgoes => exact hgoes.symm
  | ended _ hends => exact hends.symm
  | left => rfl
  | idle hidle => exact hidle

/-- **`ActionNode.entered_iff`** — an action that was not entered at the beginning is entered exactly if turns
are under way. -/
theorem entered_iff (hstart : start.entered = false) (h : Steps (Step kit) start turns n) :
    n.entered = true ↔ ActionTurn.underway turns ≠ [] := by
  cases h with
  | nil => simp [hstart]
  | @snoc _ turn _ _ _ hstep =>
    rw [hstep.entered_eq]
    cases hopen : turn.isOpen
    · simp [ActionTurn.underway_of_closed hopen]
    · simp [ActionTurn.underway_of_isOpen hopen]

end ActionNode

end BehaviorTree
