/-
# BehaviorTree.Proofs.Composite — selectors and sequences are one walk

A selector and a sequence differ in the outcome over which they pass on and in nothing else. This module
makes that a principle of proof. `Composite.node` builds either of them, `Node.induction` has one case
for both, and `Composite.tick_cases` says once what a tick of either can do: the walk through the
children ends in one of four ways, and the way it ends fixes the answer and the next cursor.

A sequence that has not begun stands at its first child and a selector that has not begun stands
nowhere. Both are `Composite.node kind none`.
-/
import BehaviorTree.Tree.Node

namespace BehaviorTree

variable {α κ ω φ : Type}

/-! ## § Statuses as outcomes -/

namespace Status

@[simp] theorem ofBool_false : ofBool false = .failure := rfl

@[simp] theorem ofBool_true : ofBool true = .success := rfl

@[simp] theorem outcome_ofBool (b : Bool) : (ofBool b).outcome = some b := by
  cases b <;> rfl

@[simp] theorem outcome_running : Status.running.outcome = none := rfl

@[simp] theorem ofBool_ne_running (b : Bool) : ofBool b ≠ .running := by
  cases b <;> simp

theorem ofBool_injective {b c : Bool} (h : ofBool b = ofBool c) : b = c := by
  simpa using congrArg outcome h

/-- A status is running or the outcome of a run. -/
theorem running_or_ofBool (status : Status) : status = .running ∨ ∃ b, status = ofBool b := by
  cases status with
  | running => exact Or.inl rfl
  | success => exact Or.inr ⟨true, rfl⟩
  | failure => exact Or.inr ⟨false, rfl⟩

end Status

/-! ## § The two kinds -/

/-- The kinds of inner nodes. -/
inductive Composite where
  | selector
  | sequence

namespace Composite

/-- **`Composite.node`** — the inner node of that kind. Its next tick begins at the child `cursor`, or
at the first one if there is no cursor. -/
def node : Composite → Option Nat → List (Node α κ) → Node α κ
  | .selector, cursor, children => .selector cursor children
  | .sequence, cursor, children => .sequence (cursor.getD 0) children

/-- The outcome of a child over which the walk passes on. It is the outcome of the whole if all
children are passed. -/
def onward : Composite → Bool
  | .selector => false
  | .sequence => true

@[simp] theorem node_children (kind : Composite) (cursor : Option Nat) (children : List (Node α κ)) :
    (kind.node cursor children).children = children := by
  cases kind <;> rfl

end Composite

/-- **`Node.induction`** — induction over a tree: one case for inner nodes, with the statement for
every child, and one for each kind of leaf. -/
@[elab_as_elim]
theorem Node.induction {motive : Node α κ → Prop}
    (composite : ∀ (kind : Composite) (cursor : Option Nat) (children : List (Node α κ)),
      (∀ child ∈ children, motive child) → motive (kind.node cursor children))
    (action : ∀ node, motive (.action node))
    (condition : ∀ name leaf, motive (.condition name leaf))
    (wait : ∀ timer, motive (.wait timer)) (tree : Node α κ) : motive tree := by
  -- the statement about a list of children is the statement about each of them
  refine @Node.rec α κ motive (fun children => ∀ child ∈ children, motive child)
    ?selector ?sequence action condition wait ?nil ?cons tree
  case selector => exact fun running children ih => composite .selector running children ih
  case sequence => exact fun index children ih => composite .sequence (some index) children ih
  case nil => exact fun child hchild => absurd hchild List.not_mem_nil
  case cons =>
    intro child rest hchild hrest other hother
    rcases List.mem_cons.mp hother with rfl | hother
    · exact hchild
    · exact hrest other hother

/-! ## § Ticks and aborts of a composite -/

/-- The stop is no fault. -/
def Node.Stop.Sound (stop : Node.Stop φ) : Prop :=
  ∀ i fault, stop ≠ some (i, .error fault)

theorem Node.Stop.Sound.of_shift {stop : Node.Stop φ} (h : stop.shift.Sound) : stop.Sound :=
  fun i fault hstop => h (i + 1) fault (by rw [hstop]; rfl)

namespace Composite

/-- What a composite answers after a walk, and its next cursor. -/
def settle : Composite → Option Nat → Node.Stop φ → Except φ Status × Option Nat
  | .selector, cursor, stop => Node.selected cursor stop
  | .sequence, _, stop => ((Node.sequenced stop).1, some (Node.sequenced stop).2)

/-- A tick of a composite walks from the cursor through the children and settles the end of the walk. -/
theorem tick_eq (kit : Leaves α κ ω φ) (dt : Float32) (kind : Composite) (cursor : Option Nat)
    (children : List (Node α κ)) (s : ω) :
    (kind.node cursor children).tick kit dt s =
      let r := Node.tickFrom kit dt (.ofBool kind.onward) (cursor.getD 0) children s
      ((kind.settle cursor r.1).1, kind.node (kind.settle cursor r.1).2 r.2.1, r.2.2) := by
  cases kind <;> rfl

/-- The ways in which a walk ends, each with the answer of the composite and its next cursor. After a
fault the cursor of a selector and that of a sequence differ; nothing here depends on it. -/
inductive Settles (kind : Composite) : Node.Stop φ → Except φ Status → Option Nat → Prop
  | through : Settles kind none (.ok (.ofBool kind.onward)) none
  | decided {i : Nat} {status : Status} :
      status ≠ .running → Settles kind (some (i, .ok status)) (.ok status) none
  | suspended {i : Nat} : Settles kind (some (i, .ok .running)) (.ok .running) (some i)
  | faulted {i : Nat} {fault : φ} {cursor : Option Nat} :
      Settles kind (some (i, .error fault)) (.error fault) cursor

/-- Settling is one of these ways; the first child of a sequence counts as no cursor. -/
theorem settles (kind : Composite) (cursor : Option Nat) (stop : Node.Stop φ)
    (children : List (Node α κ)) :
    ∃ next, kind.Settles stop (kind.settle cursor stop).1 next ∧
      kind.node (kind.settle cursor stop).2 children = kind.node next children := by
  match kind, stop with
  | .selector, none | .sequence, none => exact ⟨none, .through, rfl⟩
  | .selector, some (i, .ok .running) | .sequence, some (i, .ok .running) =>
    exact ⟨some i, .suspended, rfl⟩
  | .selector, some (i, .ok .success) | .sequence, some (i, .ok .success) =>
    exact ⟨none, .decided (by simp), rfl⟩
  | .selector, some (i, .ok .failure) | .sequence, some (i, .ok .failure) =>
    exact ⟨none, .decided (by simp), rfl⟩
  | .selector, some (i, .error fault) => exact ⟨cursor, .faulted, rfl⟩
  | .sequence, some (i, .error fault) => exact ⟨some i, .faulted, rfl⟩

/-- A composite that answers has met no fault. -/
theorem settle_sound {kind : Composite} {cursor : Option Nat} {stop : Node.Stop φ} {status : Status}
    (h : (kind.settle cursor stop).1 = .ok status) : stop.Sound := by
  rintro i fault rfl
  cases kind <;> cases h

/-- **`Composite.tick_cases`** — all that a tick of a composite can do. -/
theorem tick_cases {kit : Leaves α κ ω φ} {dt : Float32} {kind : Composite} {cursor : Option Nat}
    {children : List (Node α κ)} {s s' : ω} {answer : Except φ Status} {tree' : Node α κ}
    (h : (kind.node cursor children).tick kit dt s = (answer, tree', s')) :
    ∃ stop children' next,
      Node.tickFrom kit dt (.ofBool kind.onward) (cursor.getD 0) children s = (stop, children', s') ∧
        kind.Settles stop answer next ∧ tree' = kind.node next children' := by
  rcases hw : Node.tickFrom kit dt (.ofBool kind.onward) (cursor.getD 0) children s with
    ⟨stop, children', s₁⟩
  rw [tick_eq, hw] at h
  simp only [Prod.mk.injEq] at h
  obtain ⟨rfl, rfl, rfl⟩ := h
  obtain ⟨next, hsettles, hnode⟩ := kind.settles cursor stop children'
  exact ⟨stop, children', next, rfl, hsettles, hnode⟩

/-- An abort of a composite aborts the children and forgets the cursor. -/
theorem abort_eq (kit : Leaves α κ ω φ) (kind : Composite) (cursor : Option Nat)
    (children : List (Node α κ)) (s : ω) :
    (kind.node cursor children).abort kit s =
      (kind.node none (Node.abortAll kit children s).1, (Node.abortAll kit children s).2) := by
  cases kind <;> rfl

end Composite

end BehaviorTree
