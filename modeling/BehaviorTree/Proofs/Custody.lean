/-
# BehaviorTree.Proofs.Custody — one action at a time holds what all of them share

Actions of a tree share a part of the state, such as the active path on the blackboard. While an action is
running this part may be its own, and when it has ended nobody must be left to hold it. A `Custody` says what
that means: which actions hold the part in its present state, which have let it go, and when it is free.

It is a matter of the leaves. If each call of a leaf, from holding the part or from finding it free, leads to
holding it as long as the leaf is running and lets it go when the leaf has ended (`Leaves.Pass`), then so
does every tick of a tree (`Custody.tick`): while the tree is running its running leaf holds the part, and all
other leaves have let it go; when the tree has ended the part is free.
-/
import BehaviorTree.Proofs.ActivePath
import BehaviorTree.Proofs.Coupling

namespace BehaviorTree

variable {α κ ν ω φ : Type}

/-- **`Custody`** — who holds the shared part of a state; `ν` are the values of this part. -/
structure Custody (α ν : Type) where
  /-- The action holds the part, which has that value. -/
  on : α → ν → Prop
  /-- The action has let the part go. -/
  off : α → Prop
  /-- Nobody holds a part of that value. -/
  free : ν → Prop

namespace Custody

/-- An action that has answered with that status holds the part if it is running, and has let it go if not. -/
def Answered (C : Custody α ν) (a : α) (v : ν) : Status → Prop
  | .running => C.on a v
  | .success | .failure => C.off a ∧ C.free v

end Custody

/-- **`Leaves.Pass`** — the leaves of the kit take the part only where it is free, hold it while they are
running, and let it go when they have ended. -/
structure Leaves.Pass (kit : Leaves α κ ω φ) (C : Custody α ν) (view : ω → ν) : Prop where
  enter : ∀ {a s}, C.off a → C.free (view s) →
    C.off (kit.enter a s).1 ∧ C.free (view (kit.enter a s).2)
  tick : ∀ {a s dt status a' s'}, C.off a ∧ C.free (view s) ∨ C.on a (view s) →
    kit.tick a dt s = (.ok status, a', s') → C.Answered a' (view s') status
  exit : ∀ {a s}, C.off a → C.free (view s) → C.off (kit.exit a s).1 ∧ C.free (view (kit.exit a s).2)
  test : ∀ leaf {s}, C.free (view s) → C.free (view (kit.test leaf s).2)

namespace Custody

variable {C : Custody α ν} {v : ν}

/-! ## § Trees between two ticks -/

/-- **`Custody.Released`** — nothing has begun in the tree, and all its actions have let the part go. -/
def Released (C : Custody α ν) (tree : Node α κ) : Prop :=
  tree.AtRest ∧ tree.EveryAction C.off

mutual

/-- **`Custody.Held`** — the tree is in the middle of a run. If its running leaf is an action, that holds the
part, and if it is a wait, nobody does; the rest of the tree has let it go. -/
def Held (C : Custody α ν) (v : ν) : Node α κ → Prop
  | .selector none _ => False
  | .selector (some i) children => HeldAt C v i children
  | .sequence i children => HeldAt C v i children
  | .action n => n.entered = true ∧ C.on n.leaf v
  | .condition .. => False
  | .wait _ => C.free v

/-- The same for children, of which the one with that index is in the middle of a run. -/
def HeldAt (C : Custody α ν) (v : ν) : Nat → List (Node α κ) → Prop
  | _, [] => False
  | 0, child :: rest => Held C v child ∧ ∀ other ∈ rest, C.Released other
  | i + 1, child :: rest => C.Released child ∧ HeldAt C v i rest

end

/-- How a tree stands to the part after a tick that has answered with that status. -/
def Stands (C : Custody α ν) (tree : Node α κ) (v : ν) : Status → Prop
  | .running => C.Held v tree
  | .success | .failure => C.Released tree ∧ C.free v

/-- How a tree may stand to the part before a tick. -/
def Ready (C : Custody α ν) (tree : Node α κ) (v : ν) : Prop :=
  C.Released tree ∧ C.free v ∨ C.Held v tree

theorem Stands.ready {tree : Node α κ} {status : Status} (h : C.Stands tree v status) : C.Ready tree v := by
  cases status with
  | running => exact Or.inr h
  | success | failure => exact Or.inl h

theorem stands_of_released {tree : Node α κ} {status : Status} (h : C.Released tree) (hfree : C.free v)
    (hne : status ≠ .running) : C.Stands tree v status := by
  cases status with
  | running => exact absurd rfl hne
  | success | failure => exact ⟨h, hfree⟩

theorem released_composite {kind : Composite} {children : List (Node α κ)} :
    C.Released (kind.node none children) ↔ ∀ child ∈ children, C.Released child := by
  unfold Released
  rw [Node.atRest_composite, Node.everyAction_composite]
  exact forall₂_and.symm

theorem held_composite {kind : Composite} {i : Nat} {children : List (Node α κ)} :
    C.Held v (kind.node (some i) children) ↔ C.HeldAt v i children := by
  cases kind <;> rfl

/-- A composite in the middle of a run has its cursor at the child that is. -/
theorem Held.cursor {kind : Composite} {cursor : Option Nat} {children : List (Node α κ)}
    (h : C.Held v (kind.node cursor children)) :
    C.HeldAt v (cursor.getD 0) children ∧
      (kind.node cursor children).cursor? = some (cursor.getD 0) := by
  match kind, cursor with
  | .selector, some i => exact ⟨h, rfl⟩
  | .selector, none => exact h.elim
  | .sequence, some i | .sequence, none => exact ⟨h, rfl⟩

theorem released_condition {name : String} {leaf : κ} : C.Released (.condition name leaf : Node α κ) := by
  refine ⟨Node.atRest_condition name leaf, (Node.everywhere_leaf rfl).mpr ?_⟩
  intro n hn
  cases hn

theorem released_wait {timer : Wait} : C.Released (.wait timer : Node α κ) := by
  refine ⟨Node.atRest_wait timer, (Node.everywhere_leaf rfl).mpr ?_⟩
  intro n hn
  cases hn

theorem released_action {n : ActionNode α} :
    C.Released (.action n : Node α κ) ↔ n.entered = false ∧ C.off n.leaf := by
  unfold Released
  rw [Node.atRest_action, Node.everyAction_action]

/-! ## § The running leaf -/

/-- The child that is in the middle of a run; the others have let the part go. -/
theorem HeldAt.child {i : Nat} {children : List (Node α κ)} (h : C.HeldAt v i children) :
    ∃ child, children[i]? = some child ∧ C.Held v child ∧
      ∀ j other, children[j]? = some other → j ≠ i → C.Released other := by
  induction children generalizing i with
  | nil => exact h.elim
  | cons child rest ih =>
    cases i with
    | zero =>
      refine ⟨child, rfl, h.1, ?_⟩
      intro j other hother hne
      obtain ⟨j, rfl⟩ := Nat.exists_eq_succ_of_ne_zero hne
      exact h.2 other (List.mem_of_getElem? hother)
    | succ i =>
      obtain ⟨found, hfound, hheld, hothers⟩ := ih h.2
      refine ⟨found, hfound, hheld, ?_⟩
      intro j other hother hne
      cases j with
      | zero =>
        obtain rfl : child = other := Option.some.inj hother
        exact h.1
      | succ j => exact hothers j other hother fun heq => hne (congrArg Nat.succ heq)

/-- **`Custody.Held.exists_activePath`** — a tree in the middle of a run has an active path, and the leaf at
its end is the one that holds the part, if it is an action. -/
theorem Held.exists_activePath {tree : Node α κ} (h : C.Held v tree) :
    ∃ way leaf, tree.ActivePath way leaf ∧ C.Held v leaf := by
  induction tree using Node.induction with
  | composite kind cursor children ih =>
    obtain ⟨hat, hcursor⟩ := h.cursor
    obtain ⟨child, hchild, hheld, hothers⟩ := hat.child
    obtain ⟨way, leaf, hactive, hleaf⟩ := ih child (List.mem_of_getElem? hchild) hheld
    exact ⟨_, leaf, hactive.down hcursor hchild fun j other hother hne => (hothers j other hother hne).1, hleaf⟩
  | action n => exact ⟨[], _, Node.Busy.activePath trivial (Or.inl h.1), h⟩
  | condition name leaf => exact h.elim
  | wait timer => exact ⟨[], _, Node.Busy.activePath trivial (Or.inr ⟨timer, rfl⟩), h⟩

/-- **`Custody.Held.runner`** — the running leaf is an action that holds the part, or it is a wait, and nobody
does. -/
theorem Held.runner {tree : Node α κ} (h : C.Held v tree) :
    ∃ way, (∃ n, tree.ActivePath way (.action n) ∧ C.on n.leaf v) ∨
      ∃ timer, tree.ActivePath way (.wait timer) ∧ C.free v := by
  obtain ⟨way, leaf, hactive, hheld⟩ := h.exists_activePath
  rcases hactive.busy with hentered | ⟨timer, rfl⟩
  · cases leaf with
    | selector | sequence | condition | wait => exact hentered.elim
    | action n => exact ⟨way, Or.inl ⟨n, hactive, hheld.2⟩⟩
  · exact ⟨way, Or.inr ⟨timer, hactive, hheld⟩⟩

/-- What is true of the actions that hold the part and of those that have let it go is true of all. -/
theorem Ready.everyAction {P : α → Prop} (hoff : ∀ a, C.off a → P a) (hon : ∀ a v, C.on a v → P a)
    {tree : Node α κ} (h : C.Ready tree v) : tree.EveryAction P := by
  rcases h with ⟨hreleased, -⟩ | hheld
  · exact hreleased.2.imp fun _ hnode n hn => hoff _ (hnode n hn)
  · induction tree using Node.induction with
    | composite kind cursor children ih =>
      obtain ⟨child, hchild, hchildHeld, hothers⟩ := hheld.cursor.1.child
      refine Node.everyAction_composite.mpr ?_
      intro other hother
      obtain ⟨j, hj⟩ := List.getElem?_of_mem hother
      by_cases hji : j = cursor.getD 0
      · subst hji
        obtain rfl := Option.some.inj (hj.symm.trans hchild)
        exact ih other hother hchildHeld
      · exact (hothers j other hj hji).2.imp fun _ hnode n hn => hoff _ (hnode n hn)
    | action n => exact Node.everyAction_action.mpr (hon _ _ hheld.2)
    | condition name leaf => exact hheld.elim
    | wait timer => exact released_wait (C := C).2.imp fun _ hnode n hn => hoff _ (hnode n hn)

/-! ## § Ticks -/

variable {kit : BehaviorTree.Leaves α κ ω φ} {view : ω → ν}

/-- One tick of an action. -/
theorem tick_action (hkit : kit.Pass C view) {dt : Float32} {n n' : ActionNode α} {s s' : ω}
    {status : Status} (h : C.Ready (.action n : Node α κ) (view s))
    (htick : n.tick kit dt s = (.ok status, n', s')) :
    C.Stands (.action n' : Node α κ) (view s') status := by
  obtain ⟨name, entered, a⟩ := n
  rcases hb : (if entered then (a, s) else kit.enter a s) with ⟨a₁, s₁⟩
  have hbegun : C.off a₁ ∧ C.free (view s₁) ∨ C.on a₁ (view s₁) := by
    rcases h with ⟨hreleased, hfree⟩ | ⟨hentered, hon⟩
    · obtain ⟨hentered, hoff⟩ := released_action.mp hreleased
      obtain rfl : entered = false := hentered
      have henter := hkit.enter hoff hfree
      rw [show kit.enter a s = (a₁, s₁) from hb] at henter
      exact Or.inl henter
    · obtain rfl : entered = true := hentered
      obtain ⟨rfl, rfl⟩ := Prod.mk.inj hb
      exact Or.inr hon
  rcases ht : kit.tick a₁ dt s₁ with ⟨answer, a₂, s₂⟩
  simp only [ActionNode.tick, hb, ht] at htick
  cases answer with
  | error fault => simp at htick
  | ok answer =>
    have hticked := hkit.tick hbegun ht
    cases answer with
    | running =>
      cases htick
      exact ⟨rfl, hticked⟩
    | success | failure =>
      have hexit := hkit.exit hticked.1 hticked.2
      cases htick
      exact ⟨released_action.mpr ⟨rfl, hexit.1⟩, hexit.2⟩

/-- Children as a walk meets them that skips some: the skipped ones have let the part go, the next one is
ready, and the others have let the part go too. -/
def Lined (C : Custody α ν) (v : ν) : Nat → List (Node α κ) → Prop
  | _, [] => C.free v
  | 0, child :: rest => C.Ready child v ∧ ∀ other ∈ rest, C.Released other
  | skip + 1, child :: rest => C.Released child ∧ Lined C v skip rest

theorem lined_of_released {children : List (Node α κ)} (h : ∀ child ∈ children, C.Released child)
    (hfree : C.free v) : C.Lined v 0 children := by
  cases children with
  | nil => exact hfree
  | cons child rest =>
    exact ⟨Or.inl ⟨h child List.mem_cons_self, hfree⟩, fun other hother => h other (.tail _ hother)⟩

theorem HeldAt.lined {i : Nat} {children : List (Node α κ)} (h : C.HeldAt v i children) :
    C.Lined v i children := by
  induction children generalizing i with
  | nil => exact h.elim
  | cons child rest ih =>
    cases i with
    | zero => exact ⟨Or.inr h.1, h.2⟩
    | succ i => exact ⟨h.1, ih h.2⟩

/-- How children stand to the part after a walk that has come to that stop; a fault leaves them anyhow. -/
def Walked (C : Custody α ν) (children : List (Node α κ)) (v : ν) : Node.Stop φ → Prop
  | some (i, .ok .running) => C.HeldAt v i children
  | some (_, .error _) => True
  | _ => (∀ child ∈ children, C.Released child) ∧ C.free v

theorem Walked.cons {child : Node α κ} {rest : List (Node α κ)} {stop : Node.Stop φ}
    (h : C.Walked rest v stop) (hchild : C.Released child) : C.Walked (child :: rest) v stop.shift := by
  match stop with
  | none => exact ⟨List.forall_mem_cons.mpr ⟨hchild, h.1⟩, h.2⟩
  | some (_, .ok .running) => exact ⟨hchild, h⟩
  | some (_, .ok .success) | some (_, .ok .failure) =>
    exact ⟨List.forall_mem_cons.mpr ⟨hchild, h.1⟩, h.2⟩
  | some (_, .error _) => trivial

/-- A walk takes the part from child to child. -/
theorem walk {dt : Float32} {onward : Status} {first skip : Nat} {children children' : List (Node α κ)}
    {s s' : ω} {log : LeafLog φ} {stop : Node.Stop φ}
    (h : Walk kit dt onward first skip children s log stop children' s') (honward : onward ≠ .running)
    (ih : ∀ child ∈ children, ∀ {child' : Node α κ} {s s' : ω} {status : Status},
      C.Ready child (view s) → child.tick kit dt s = (.ok status, child', s') →
      C.Stands child' (view s') status)
    (hlined : C.Lined (view s) skip children) : C.Walked children' (view s') stop := by
  induction h with
  | @through _ skip s =>
    have hfree : C.free (view s) := by cases skip <;> exact hlined
    exact ⟨fun child hchild => absurd hchild List.not_mem_nil, hfree⟩
  | skip _ ihrest =>
    exact (ihrest (fun c hc => ih c (.tail _ hc)) hlined.2).cons hlined.1
  | @pass _ child child' rest _ _ s₁ _ _ _ htick _ ihrest =>
    have hstands := ih child List.mem_cons_self hlined.1 htick
    have hpassed : C.Released child' ∧ C.free (view s₁) := by
      cases onward with
      | running => exact absurd rfl honward
      | success | failure => exact hstands
    exact (ihrest (fun c hc => ih c (.tail _ hc)) (lined_of_released hlined.2 hpassed.2)).cons hpassed.1
  | @stop _ child _ _ _ _ answer htick hne =>
    match answer with
    | .error _ => trivial
    | .ok .running => exact ⟨ih child List.mem_cons_self hlined.1 htick, hlined.2⟩
    | .ok .success | .ok .failure =>
      obtain ⟨hreleased, hfree⟩ := ih child List.mem_cons_self hlined.1 htick
      exact ⟨List.forall_mem_cons.mpr ⟨hreleased, hlined.2⟩, hfree⟩

/-- **`Custody.tick`** — if the leaves pass the part on, a tick that answers leaves it with the running leaf
if the tree is running, and free if not. -/
theorem tick (hkit : kit.Pass C view) {dt : Float32} {tree tree' : Node α κ} {s s' : ω} {status : Status}
    (h : C.Ready tree (view s)) (htick : tree.tick kit dt s = (.ok status, tree', s')) :
    C.Stands tree' (view s') status := by
  induction tree using Node.induction generalizing s s' status tree' with
  | composite kind cursor children ih =>
    obtain ⟨stop, children', next, hwalk, hsettles, rfl⟩ := Node.walk_of_tick 0 htick
    have hlined : C.Lined (view s) (cursor.getD 0) children := by
      rcases h with ⟨⟨hrest, hoff⟩, hfree⟩ | hheld
      · obtain ⟨hcursor, hchildren⟩ := hrest.cursor
        rw [hcursor]
        exact lined_of_released (fun child hchild =>
          ⟨hchildren child hchild, Node.everyAction_composite.mp hoff child hchild⟩) hfree
      · exact hheld.cursor.1.lined
    have hwalked := walk hwalk (Status.ofBool_ne_running _) ih hlined
    cases hsettles with
    | through =>
      exact stands_of_released (released_composite.mpr hwalked.1) hwalked.2 (Status.ofBool_ne_running _)
    | decided hne =>
      cases status with
      | running => exact absurd rfl hne
      | success | failure => exact ⟨released_composite.mpr hwalked.1, hwalked.2⟩
    | suspended => exact held_composite.mpr hwalked
  | action n =>
    rcases ht : n.tick kit dt s with ⟨answer, n', s₁⟩
    simp only [Node.tick, ht, Prod.mk.injEq] at htick
    obtain ⟨rfl, rfl, rfl⟩ := htick
    exact tick_action hkit h ht
  | condition name leaf =>
    have hfree : C.free (view s) := h.elim And.right False.elim
    have htested := hkit.test leaf hfree
    rcases ht : kit.test leaf s with ⟨holds, s₁⟩
    rw [ht] at htested
    simp only [Node.tick, ht, Prod.mk.injEq] at htick
    obtain ⟨hanswer, rfl, rfl⟩ := htick
    cases holds with
    | error fault => cases hanswer
    | ok holds =>
      obtain rfl : Status.ofBool holds = status := Except.ok.inj hanswer
      exact stands_of_released released_condition htested (Status.ofBool_ne_running holds)
  | wait timer =>
    have hfree : C.free (view s) := h.elim And.right id
    simp only [Node.tick, Prod.mk.injEq] at htick
    obtain ⟨-, rfl, rfl⟩ := htick
    cases status with
    | running => exact hfree
    | success | failure => exact ⟨released_wait, hfree⟩

end Custody

end BehaviorTree
