/-
# BehaviorTree.Proofs.Likeness — trees that answer alike

When do two trees do the same, call by call? It is enough to give a relation between them and a relation
between the states on which they work, such that every tick of related trees answers alike, calls the same
leaves, and leaves related trees and states behind (`Node.TicksLike`), and every abort does so too. This is
a `Likeness`. Related trees have the same leaves under the same numbers, and the same actions are entered,
but they may be of different shapes and their leaves may have different states.

Nothing is asked of the trees after a fault. A selector that a fault interrupts still points to the child
from which its walk began, so two trees of different shapes may be at different places then.

The step through an inner node is the same for all such relations: composites of one kind that stand at
the same child tick alike if their children do, one by one (`Node.ticksLike_composite`).
-/
import BehaviorTree.Proofs.Drive
import Mathlib.Data.List.Forall2

namespace BehaviorTree

variable {α κ ω φ : Type}

/-! ## § Ticks -/

namespace Node

/-- **`Node.TicksLike`** — in related states, a tick of the second tree answers as one of the first does,
with the same calls of leaves, and leaves a related state; unless it is a fault, it also leaves a related
tree. -/
def TicksLike (kit : Leaves α κ ω φ) (S : ω → ω → Prop) (R : Node α κ → Node α κ → Prop) (dt : Float32)
    (tree other : Node α κ) : Prop :=
  ∀ (first : Nat) {s s' t : ω} {answer : Except φ Status} {tree' : Node α κ}, S s s' →
    tree.tick kit dt s = (answer, tree', t) →
    ∃ other' t', other.tick kit dt s' = (answer, other', t') ∧
      other.calls kit dt first s' = tree.calls kit dt first s ∧ S t t' ∧
      ∀ status, answer = .ok status → R tree' other'

/-- The trees are related, have the same number of leaves, and tick alike. -/
structure TickAlike (kit : Leaves α κ ω φ) (S : ω → ω → Prop) (R : Node α κ → Node α κ → Prop)
    (dt : Float32) (tree other : Node α κ) : Prop where
  related : R tree other
  leaves : other.leaves = tree.leaves
  ticks : TicksLike kit S R dt tree other

end Node

section Ticks

variable {kit : Leaves α κ ω φ} {S : ω → ω → Prop} {R : Node α κ → Node α κ → Prop} {dt : Float32}

/-- Through children that tick alike, the same walk goes. -/
theorem Walk.alike {onward : Status} {first skip : Nat} {children children' : List (Node α κ)}
    {s s' t : ω} {log : LeafLog φ} {stop : Node.Stop φ}
    (h : Walk kit dt onward first skip children s log stop children' t) {others : List (Node α κ)}
    (hothers : List.Forall₂ (Node.TickAlike kit S R dt) children others) (hs : S s s') :
    ∃ others' t', Walk kit dt onward first skip others s' log stop others' t' ∧ S t t' ∧
      (stop.Sound → List.Forall₂ R children' others') := by
  induction h generalizing others s' with
  | through =>
    cases hothers
    exact ⟨[], s', .through, hs, fun _ => .nil⟩
  | skip _ ih =>
    cases hothers with
    | @cons _ other _ _ hother hrest =>
      obtain ⟨others', t', hwalk, ht, hrelated⟩ := ih hrest hs
      rw [← hother.leaves] at hwalk
      exact ⟨other :: others', t', .skip hwalk, ht,
        fun hsound => .cons hother.related (hrelated hsound.of_shift)⟩
  | @pass first _ _ _ _ _ _ _ _ _ htick _ ih =>
    cases hothers with
    | cons hother hrest =>
      obtain ⟨other', t₁, htick', hcalls, hs₁, hchild⟩ := hother.ticks first hs htick
      obtain ⟨others', t', hwalk, ht, hrelated⟩ := ih hrest hs₁
      rw [← hother.leaves] at hwalk
      rw [← hcalls]
      exact ⟨other' :: others', t', .pass htick' hwalk, ht,
        fun hsound => .cons (hchild _ rfl) (hrelated hsound.of_shift)⟩
  | @stop first _ _ _ _ _ answer htick hne =>
    cases hothers with
    | cons hother hrest =>
      obtain ⟨other', t', htick', hcalls, ht, hchild⟩ := hother.ticks first hs htick
      rw [← hcalls]
      refine ⟨_, t', .stop htick' hne, ht, ?_⟩
      intro hsound
      -- only after a sound stop is the child known to be related again
      cases answer with
      | error fault => exact absurd rfl (hsound 0 fault)
      | ok status => exact .cons (hchild status rfl) (hrest.imp fun _ _ h => h.related)

/-- A walk through its children is a tick of the composite, with the same log. -/
theorem Walk.tick_eq {kind : Composite} {cursor : Option Nat} {first : Nat}
    {children children' : List (Node α κ)} {s t : ω} {log : LeafLog φ} {stop : Node.Stop φ}
    (h : Walk kit dt (.ofBool kind.onward) first (cursor.getD 0) children s log stop children' t) :
    (kind.node cursor children).tick kit dt s =
        ((kind.settle cursor stop).1, kind.node (kind.settle cursor stop).2 children', t) ∧
      (kind.node cursor children).calls kit dt first s = log := by
  obtain ⟨htick, hcalls⟩ := h.eq_tickFrom
  rw [Composite.tick_eq, Node.calls_composite, htick, hcalls]
  exact ⟨rfl, rfl⟩

/-- **`Node.ticksLike_composite`** — composites of one kind that stand at the same child tick alike if
their children do, as far as the relation follows from the children. -/
theorem Node.ticksLike_composite {kind : Composite} {cursor : Option Nat}
    {children others : List (Node α κ)}
    (hchildren : List.Forall₂ (Node.TickAlike kit S R dt) children others)
    (hR : ∀ {next : Option Nat} {children' others' : List (Node α κ)},
      List.Forall₂ R children' others' → R (kind.node next children') (kind.node next others')) :
    Node.TicksLike kit S R dt (kind.node cursor children) (kind.node cursor others) := by
  intro first s s' t answer tree' hs htick
  have hgraph := Walk.of_tickFrom kit dt (.ofBool kind.onward) children first (cursor.getD 0) s
  obtain ⟨htree, hlog⟩ := hgraph.tick_eq
  rw [htree, Prod.mk.injEq, Prod.mk.injEq] at htick
  obtain ⟨rfl, rfl, rfl⟩ := htick
  obtain ⟨others', t', hwalk, ht, hrelated⟩ := hgraph.alike hchildren hs
  obtain ⟨hother, hlog'⟩ := hwalk.tick_eq
  refine ⟨_, t', hother, hlog'.trans hlog.symm, ht, ?_⟩
  intro status hstatus
  exact hR (hrelated (Composite.settle_sound hstatus))

end Ticks

/-! ## § Aborts -/

namespace Node

/-- Children that are aborted alike, one by one, are aborted alike. -/
theorem abortAll_alike {kit : Leaves α κ ω φ} {R : Node α κ → Node α κ → Prop}
    {children others : List (Node α κ)}
    (h : List.Forall₂ (fun child other => ∀ s, R (child.abort kit s).1 (other.abort kit s).1 ∧
      (child.abort kit s).2 = (other.abort kit s).2) children others) (s : ω) :
    List.Forall₂ R (abortAll kit children s).1 (abortAll kit others s).1 ∧
      (abortAll kit children s).2 = (abortAll kit others s).2 := by
  induction h generalizing s with
  | nil => exact ⟨.nil, rfl⟩
  | @cons child other _ _ hchild _ ih =>
    obtain ⟨hrelated, hstate⟩ := hchild s
    obtain ⟨hrest, hstate'⟩ := ih (child.abort kit s).2
    simp only [abortAll, ← hstate]
    exact ⟨.cons hrelated hrest, hstate'⟩

/-- Children with as many leaves, one by one, have as many leaves. -/
theorem leavesAll_alike {children others : List (Node α κ)}
    (h : List.Forall₂ (fun child other => other.leaves = child.leaves) children others) :
    leavesAll others = leavesAll children := by
  induction h with
  | nil => rfl
  | cons hchild _ ih => rw [leavesAll_cons, leavesAll_cons, hchild, ih]

/-- If in each of several children the same actions are entered, so it is in all of them. -/
theorem heldAll_alike {children others : List (Node α κ)}
    (h : List.Forall₂ (fun child other => other.leaves = child.leaves ∧
      ∀ first, other.held first = child.held first) children others) (first : Nat) :
    heldAll first others = heldAll first children := by
  induction h generalizing first with
  | nil => rfl
  | cons hchild _ ih => rw [heldAll, heldAll, hchild.2, hchild.1, ih]

end Node

/-! ## § Calls of the root -/

/-- **`Likeness`** — whatever call is made of two related trees in related states, it is answered alike and
leaves related trees and states behind. -/
structure Likeness (kit : Leaves α κ ω φ) (S : ω → ω → Prop) (R : Node α κ → Node α κ → Prop) : Prop where
  held : ∀ {tree other}, R tree other → ∀ first, other.held first = tree.held first
  tick : ∀ {tree other}, R tree other → ∀ dt, tree.TicksLike kit S R dt other
  abort : ∀ {tree other}, R tree other → ∀ {s s'}, S s s' →
    R (tree.abort kit s).1 (other.abort kit s').1 ∧ S (tree.abort kit s).2 (other.abort kit s').2

/-- **`Likeness.drive_eq`** — trees that are alike in all states cannot be told apart by any calls. -/
theorem Likeness.drive_eq {kit : Leaves α κ ω φ} {R : Node α κ → Node α κ → Prop}
    (hlike : Likeness kit Eq R) {tree other : Node α κ} (h : R tree other) (calls : List (Call ω)) (s : ω) :
    other.drive kit calls s = tree.drive kit calls s := by
  have hlockstep : Lockstep kit kit id R := by
    refine ⟨fun _ => rfl, ?_⟩
    intro tree other h call s
    match call with
    | .change f => exact ⟨rfl, .some h⟩
    | .abort =>
      obtain ⟨hrelated, hstate⟩ := hlike.abort h (rfl : s = s)
      simp only [Node.respond, Node.exits, hlike.held h, ← hstate]
      exact ⟨rfl, .some hrelated⟩
    | .tick dt =>
      rcases ht : tree.tick kit dt s with ⟨answer, tree', t⟩
      obtain ⟨other', _, ht', hcalls, rfl, hrelated⟩ := hlike.tick h dt 0 rfl ht
      cases answer with
      | ok status =>
        simp only [Node.respond, ht, ht', hcalls]
        exact ⟨rfl, .some (hrelated status rfl)⟩
      | error fault =>
        simp only [Node.respond, ht, ht', hcalls]
        exact ⟨rfl, .none⟩
  have hdrive := hlockstep.drive_eq calls h s
  rwa [List.map_id] at hdrive

end BehaviorTree
