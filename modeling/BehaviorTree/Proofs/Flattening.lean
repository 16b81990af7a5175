/-
# BehaviorTree.Proofs.Flattening — composites of one kind within each other

A selector among the children of a selector is not needed: its children may stand in its place. The same
goes for a sequence among the children of a sequence, and it goes at any depth and also if the inner
composite has no children. `Node.Flattens` is this change of a tree, and `Node.drive_flattened` says that
nobody can tell: whatever calls are made of both trees, they answer the same, call the same leaves in the
same order and have the same effects.

While a run is suspended, the nested tree keeps two cursors and the flat one keeps one. They belong
together in one of three ways (`Place`): the run is at a child before the inner composite, within it, or
behind it. `Walk.joint` leads from one such place to the next. The two walks are put together from the
same three pieces, through the children before, through the inner children and through those behind, so
that all that remains to be seen is where each of them stops.
-/
import BehaviorTree.Proofs.Likeness
import BehaviorTree.Proofs.Run
import Mathlib.Logic.Relation

namespace BehaviorTree

variable {α κ ω φ : Type}

/-! ## § Flat trees -/

/-- **`Node.Flattens`** — the tree with one inner composite less: somewhere below, a composite that stands
among the children of a composite of its kind is replaced by its own children. Both trees are as they are
before the first call. -/
inductive Node.Flattens : Node α κ → Node α κ → Prop
  | here (kind : Composite) (before inner after : List (Node α κ)) :
      Flattens (kind.node none (before ++ kind.node none inner :: after))
        (kind.node none (before ++ inner ++ after))
  | deeper (kind : Composite) (before after : List (Node α κ)) {child child' : Node α κ} :
      Flattens child child' →
      Flattens (kind.node none (before ++ child :: after)) (kind.node none (before ++ child' :: after))

/-! ## § Walks through lists that are put together -/

/-- A stop, counted from `n` children earlier. -/
def Node.Stop.shiftBy (n : Nat) (stop : Node.Stop φ) : Node.Stop φ :=
  stop.map fun (i, answer) => (i + n, answer)

theorem Node.Stop.shiftBy_zero (stop : Node.Stop φ) : stop.shiftBy 0 = stop := by
  cases stop <;> rfl

theorem Node.Stop.shift_shiftBy (n : Nat) (stop : Node.Stop φ) :
    (stop.shiftBy n).shift = stop.shiftBy (n + 1) := by
  cases stop <;> rfl

theorem Node.leavesAll_append (xs ys : List (Node α κ)) :
    leavesAll (xs ++ ys) = leavesAll xs + leavesAll ys := by
  induction xs with
  | nil => exact (Nat.zero_add _).symm
  | cons x xs ih => rw [List.cons_append, leavesAll_cons, leavesAll_cons, ih, Nat.add_assoc]

namespace Walk

variable {kit : Leaves α κ ω φ} {dt : Float32} {onward : Status} {first skip : Nat}
  {children children' : List (Node α κ)} {s s' : ω} {log : LeafLog φ} {stop : Node.Stop φ}

/-- From everywhere there is a walk. -/
theorem exists_walk (kit : Leaves α κ ω φ) (dt : Float32) (onward : Status) (first skip : Nat)
    (children : List (Node α κ)) (s : ω) :
    ∃ log stop children' s', Walk kit dt onward first skip children s log stop children' s' :=
  ⟨_, _, _, _, of_tickFrom kit dt onward children first skip s⟩

theorem length_eq (h : Walk kit dt onward first skip children s log stop children' s') :
    children'.length = children.length := by
  induction h with
  | through | stop => rfl
  | skip _ ih | pass _ _ ih => rw [List.length_cons, List.length_cons, ih]

/-- A walk that skips all children passes through and does nothing. -/
theorem skipped (kit : Leaves α κ ω φ) (dt : Float32) (onward : Status) (first : Nat) {skip : Nat}
    {children : List (Node α κ)} (s : ω) (h : children.length ≤ skip) :
    Walk kit dt onward first skip children s [] none children s := by
  induction children generalizing first skip with
  | nil => exact .through
  | cons child rest ih =>
    obtain ⟨skip, rfl⟩ := Nat.exists_eq_add_of_le' (Nat.le_trans (Nat.succ_pos _) h)
    exact .skip (ih _ (Nat.le_of_succ_le_succ h))

/-- A walk stops at one of the children, for another answer than that over which it passes on. -/
theorem of_stop (h : Walk kit dt onward first skip children s log stop children' s') {i : Nat}
    {answer : Except φ Status} (hstop : stop = some (i, answer)) :
    i < children.length ∧ answer ≠ .ok onward := by
  induction h generalizing i with
  | through => simp at hstop
  | skip _ ih | pass _ _ ih =>
    obtain ⟨⟨j, _⟩, hrest, hshift⟩ := Option.map_eq_some_iff.mp hstop
    obtain ⟨rfl, rfl⟩ := Prod.mk.inj hshift
    exact ⟨Nat.succ_lt_succ (ih hrest).1, (ih hrest).2⟩
  | stop _ hne =>
    obtain ⟨rfl, rfl⟩ := Prod.mk.inj (Option.some.inj hstop)
    exact ⟨Nat.succ_pos _, hne⟩

/-- Where a walk stops, it does not matter what comes behind. -/
theorem append_stop (h : Walk kit dt onward first skip children s log stop children' s')
    (hstop : stop ≠ none) (more : List (Node α κ)) :
    Walk kit dt onward first skip (children ++ more) s log stop (children' ++ more) s' := by
  induction h with
  | through => exact absurd rfl hstop
  | skip _ ih => exact .skip (ih fun hnone => hstop (by rw [hnone]; rfl))
  | pass htick _ ih => exact .pass htick (ih fun hnone => hstop (by rw [hnone]; rfl))
  | stop htick hne => exact .stop htick hne

/-- A walk that passes through goes on with what comes behind. -/
theorem append_through {s₁ : ω} {skip' : Nat} {more more' : List (Node α κ)} {log' : LeafLog φ}
    {stop' : Node.Stop φ} (h : Walk kit dt onward first skip children s log stop children' s₁)
    (hstop : stop = none) (hskip : skip - children.length = skip')
    (hmore : Walk kit dt onward (first + Node.leavesAll children) skip' more s₁ log' stop' more' s') :
    Walk kit dt onward first skip (children ++ more) s (log ++ log') (stop'.shiftBy children.length)
      (children' ++ more') s' := by
  subst hskip
  induction h with
  | through =>
    rw [List.length_nil, Node.Stop.shiftBy_zero]
    exact hmore
  | skip _ ih =>
    rw [Node.leavesAll_cons, ← Nat.add_assoc, List.length_cons, Nat.add_sub_add_right] at hmore
    rw [List.length_cons, ← Node.Stop.shift_shiftBy]
    exact .skip (ih (Option.map_eq_none_iff.mp hstop) hmore)
  | pass htick _ ih =>
    rw [Node.leavesAll_cons, ← Nat.add_assoc, Nat.zero_sub] at hmore
    rw [List.length_cons, ← Node.Stop.shift_shiftBy, List.append_assoc]
    exact .pass htick (ih (Option.map_eq_none_iff.mp hstop) (by rwa [Nat.zero_sub]))
  | stop => simp at hstop

end Walk

/-! ## § Places -/

/-- **`Place`** — where a run is, with `before` children before the inner composite and `inner` children in
it: the cursor of the outer composite, that of the inner one, and that of the flat one. -/
inductive Place (before inner : Nat) : Nat → Nat → Nat → Prop
  | before {i : Nat} : i < before → Place before inner i 0 i
  | inside {i : Nat} : i ≤ inner → Place before inner before i (before + i)
  | behind {i : Nat} : Place before inner (before + 1 + i) 0 (before + inner + i)

/-- The place of a run that has not begun. -/
theorem Place.start (before inner : Nat) : Place before inner 0 0 0 := by
  cases before with
  | zero => exact .inside (Nat.zero_le inner)
  | succ n => exact .before (Nat.succ_pos n)

/-- **`Meets`** — where the two walks have stopped, with the cursor of the inner composite after it: both
have passed through, or both have met the same answer. If it is running, they are at one place; any other
answer leaves the inner composite at its beginning, as far as it is no fault. -/
inductive Meets (before inner : Nat) : Node.Stop φ → Nat → Node.Stop φ → Prop
  | through : Meets before inner none 0 none
  | running {i j k : Nat} : Place before inner i j k →
      Meets before inner (some (i, .ok .running)) j (some (k, .ok .running))
  | decided {i k : Nat} {status : Status} : status ≠ .running →
      Meets before inner (some (i, .ok status)) 0 (some (k, .ok status))
  | faulted {i j k : Nat} {fault : φ} :
      Meets before inner (some (i, .error fault)) j (some (k, .error fault))

/-- More children before the place. -/
theorem Meets.shiftBy {inner j : Nat} {stop stop' : Node.Stop φ} (h : Meets 0 inner stop j stop')
    (before : Nat) : Meets before inner (stop.shiftBy before) j (stop'.shiftBy before) := by
  cases h with
  | through => exact .through
  | decided hne => exact .decided hne
  | faulted => exact .faulted
  | running hplace =>
    refine .running ?_
    cases hplace with
    | before hlt => exact absurd hlt (Nat.not_lt_zero _)
    | inside hle =>
      rw [Nat.zero_add, Nat.zero_add, Nat.add_comm j before]
      exact .inside hle
    | @behind i =>
      have hplace : Place before inner (before + 1 + i) 0 (before + inner + i) := .behind
      rwa [show 0 + 1 + i + before = before + 1 + i by omega,
        show 0 + inner + i + before = before + inner + i by omega]

/-- Before the inner composite both walks stop at the same child. -/
theorem Meets.before {before i j : Nat} (inner : Nat) (answer : Except φ Status) (h : i < before)
    (hj : j = 0) : Meets before inner (some (i, answer)) j (some (i, answer)) := by
  subst hj
  match answer with
  | .error _ => exact .faulted
  | .ok .success | .ok .failure => exact .decided (by simp)
  | .ok .running => exact .running (.before h)

/-- Behind it they stop at the same child too, but they count it differently. -/
theorem Meets.behind {j : Nat} (inner : Nat) (stop : Node.Stop φ) (hj : j = 0) :
    Meets 0 inner stop.shift j (stop.shiftBy inner) := by
  subst hj
  match stop with
  | none => exact .through
  | some (_, .error _) => exact .faulted
  | some (_, .ok .success) | some (_, .ok .failure) => exact .decided (by simp)
  | some (i, .ok .running) =>
    have hplace : Place 0 inner (0 + 1 + i) 0 (0 + inner + i) := .behind
    rw [Nat.zero_add, Nat.zero_add, Nat.add_comm 1, Nat.add_comm inner] at hplace
    exact .running hplace

/-- **`Meets.settle`** — after two walks that meet, the outer composite and the flat one answer alike, and
unless there was a fault, they are at one place. -/
theorem Meets.settle {before inner j : Nat} {stop stop' : Node.Stop φ} (h : Meets before inner stop j stop')
    (kind : Composite) (outer flat : Option Nat) :
    (kind.settle flat stop').1 = (kind.settle outer stop).1 ∧
      ∀ status, (kind.settle outer stop).1 = .ok status →
        Place before inner ((kind.settle outer stop).2.getD 0) j ((kind.settle flat stop').2.getD 0) := by
  cases h with
  | through => cases kind <;> exact ⟨rfl, fun _ _ => .start before inner⟩
  | running hplace => cases kind <;> exact ⟨rfl, fun _ _ => hplace⟩
  | faulted => cases kind <;> exact ⟨rfl, nofun⟩
  | @decided _ _ status hne =>
    cases status with
    | running => exact absurd rfl hne
    | success | failure => cases kind <;> exact ⟨rfl, fun _ _ => .start before inner⟩

/-- Where the walk through its children stops, the composite answers as the child does. -/
theorem Composite.Settles.meets {kind : Composite} {i inner : Nat} {answer answer' : Except φ Status}
    {next : Option Nat} (h : kind.Settles (some (i, answer)) answer' next) (hi : i ≤ inner) :
    answer' = answer ∧ Meets 0 inner (some (0, answer')) (next.getD 0) (some (i, answer)) := by
  cases h with
  | decided hne => exact ⟨rfl, .decided hne⟩
  | faulted => exact ⟨rfl, .faulted⟩
  | suspended =>
    have hplace : Place 0 inner 0 i (0 + i) := .inside hi
    rw [Nat.zero_add] at hplace
    exact ⟨rfl, .running hplace⟩

/-! ## § Two walks from three pieces -/

/-- **`Walk.Joint`** — the walk through the nested children from `i` and the walk through the flat ones from
`k` are the same calls of leaves, and they stop where they meet. -/
inductive Walk.Joint (kit : Leaves α κ ω φ) (dt : Float32) (kind : Composite) (first i k : Nat)
    (before : List (Node α κ)) (cursor : Option Nat) (inner after : List (Node α κ)) (s : ω) : Prop
  | intro (before' : List (Node α κ)) {inner' after' : List (Node α κ)} {log : LeafLog φ}
      {stop stop' : Node.Stop φ} {next : Option Nat} {t : ω} :
      Walk kit dt (.ofBool kind.onward) first i (before ++ kind.node cursor inner :: after) s log stop
        (before' ++ kind.node next inner' :: after') t →
      Walk kit dt (.ofBool kind.onward) first k (before ++ (inner ++ after)) s log stop'
        (before' ++ (inner' ++ after')) t →
      before'.length = before.length → inner'.length = inner.length →
      Meets before.length inner.length stop (next.getD 0) stop' →
      Joint kit dt kind first i k before cursor inner after s

namespace Walk

variable {kit : Leaves α κ ω φ} {dt : Float32} {kind : Composite} {cursor : Option Nat}
  {before inner : List (Node α κ)}

/-- Within the inner composite. -/
theorem joint_inside (hcursor : cursor.getD 0 ≤ inner.length) (after : List (Node α κ)) (first : Nat)
    (s : ω) : Joint kit dt kind first 0 (cursor.getD 0) [] cursor inner after s := by
  obtain ⟨log, stop, inner', s₁, hinner⟩ :=
    exists_walk kit dt (.ofBool kind.onward) first (cursor.getD 0) inner s
  obtain ⟨htick, hlog⟩ := hinner.tick_eq
  obtain ⟨next, hsettles, hnode⟩ := kind.settles cursor stop inner'
  rw [hnode] at htick
  cases stop with
  -- the inner composite is passed, and both walks go on behind it
  | none =>
    generalize (kind.settle cursor none).1 = answer at htick hsettles
    cases hsettles
    obtain ⟨log', stop', after', t, hafter⟩ :=
      exists_walk kit dt (.ofBool kind.onward) (first + Node.leavesAll inner) 0 after s₁
    have hflat := hinner.append_through rfl (Nat.sub_eq_zero_of_le hcursor) hafter
    rw [← Node.leaves_composite kind cursor] at hafter
    have hnested := Walk.pass htick hafter
    rw [hlog] at hnested
    exact .intro [] hnested hflat rfl hinner.length_eq (.behind _ stop' rfl)
  -- both walks stop in it
  | some stop =>
    obtain ⟨i, answer⟩ := stop
    obtain ⟨hi, hne⟩ := hinner.of_stop rfl
    obtain ⟨hanswer, hmeets⟩ := hsettles.meets (Nat.le_of_lt hi)
    have hnested : Walk kit dt (.ofBool kind.onward) first 0 (kind.node cursor inner :: after) s _ _
        (kind.node next inner' :: after) s₁ := .stop htick (hanswer.trans_ne hne)
    rw [hlog] at hnested
    exact .intro [] hnested (hinner.append_stop (by simp) after) rfl hinner.length_eq hmeets

/-- Behind it. -/
theorem joint_behind (hcursor : cursor.getD 0 = 0) (after : List (Node α κ)) (first i : Nat) (s : ω) :
    Joint kit dt kind first (i + 1) (inner.length + i) [] cursor inner after s := by
  obtain ⟨log, stop, after', t, hafter⟩ :=
    exists_walk kit dt (.ofBool kind.onward) (first + Node.leavesAll inner) i after s
  have hinner := skipped kit dt (.ofBool kind.onward) first s (Nat.le_add_right inner.length i)
  have hflat := hinner.append_through rfl (Nat.add_sub_cancel_left _ _) hafter
  rw [← Node.leaves_composite kind cursor] at hafter
  exact .intro [] (.skip hafter) hflat rfl rfl (.behind _ stop hcursor)

/-- Before all that, through the children before the inner composite. -/
theorem Joint.prepend {first i k i' k' : Nat} {before' after : List (Node α κ)} {log : LeafLog φ}
    {s s₁ : ω} (hi : Walk kit dt (.ofBool kind.onward) first i before s log none before' s₁)
    (hk : Walk kit dt (.ofBool kind.onward) first k before s log none before' s₁)
    (hi' : i - before.length = i') (hk' : k - before.length = k')
    (h : Joint kit dt kind (first + Node.leavesAll before) i' k' [] cursor inner after s₁) :
    Joint kit dt kind first i k before cursor inner after s := by
  obtain ⟨_, hnested, hflat, hlength, hinner, hmeets⟩ := h
  obtain rfl := List.eq_nil_of_length_eq_zero hlength
  exact .intro _ (hi.append_through rfl hi' hnested) (hk.append_through rfl hk' hflat) hi.length_eq hinner
    (hmeets.shiftBy before.length)

/-- **`Walk.joint`** — from every place of a run the two walks are joint. -/
theorem joint (kit : Leaves α κ ω φ) (dt : Float32) (kind : Composite) {i k : Nat}
    (hplace : Place before.length inner.length i (cursor.getD 0) k)
    (after : List (Node α κ)) (first : Nat) (s : ω) :
    Joint kit dt kind first i k before cursor inner after s := by
  have hskipped : ∀ {skip}, before.length ≤ skip →
      Walk kit dt (.ofBool kind.onward) first skip before s [] none before s :=
    fun hle => skipped kit dt (.ofBool kind.onward) first s hle
  generalize hcursor : cursor.getD 0 = j at hplace
  cases hplace with
  | before hlt =>
    obtain ⟨log, stop, before', s₁, hbefore⟩ :=
      exists_walk kit dt (.ofBool kind.onward) first i before s
    -- a child before the inner composite may stop both walks, and then it is out of reach
    cases stop with
    | some stop =>
      obtain ⟨m, answer⟩ := stop
      exact .intro _ (hbefore.append_stop (by simp) _) (hbefore.append_stop (by simp) _) hbefore.length_eq
        rfl (.before _ answer (hbefore.of_stop rfl).1 hcursor)
    | none =>
      have hi : i - before.length = 0 := Nat.sub_eq_zero_of_le (Nat.le_of_lt hlt)
      have hle : cursor.getD 0 ≤ inner.length := Nat.le_trans (Nat.le_of_eq hcursor) (Nat.zero_le _)
      exact (joint_inside hle after _ s₁).prepend hbefore hbefore hi (hi.trans hcursor.symm)
  | inside hle =>
    rw [← hcursor] at hle ⊢
    exact (joint_inside hle after _ s).prepend (hskipped (Nat.le_refl _)) (hskipped (Nat.le_add_right _ _))
      (Nat.sub_self _) (Nat.add_sub_cancel_left _ _)
  | @behind m =>
    exact (joint_behind hcursor after _ m s).prepend (hskipped (by omega)) (hskipped (by omega)) (by omega)
      (by omega)

end Walk

/-! ## § The nested tree and the flat one -/

namespace Node

/-- **`Node.Nested`** — a tree in the middle of a run and the same tree with some inner composites less:
the outer composite and the flat one may stand at different children, but at one place. -/
inductive Nested : Node α κ → Node α κ → Prop
  | refl (tree : Node α κ) : Nested tree tree
  | here (kind : Composite) {before inner after : List (Node α κ)} {outer next flat : Option Nat} :
      Place before.length inner.length (outer.getD 0) (next.getD 0) (flat.getD 0) →
      Nested (kind.node outer (before ++ kind.node next inner :: after))
        (kind.node flat (before ++ (inner ++ after)))
  | deeper (kind : Composite) {cursor : Option Nat} {children others : List (Node α κ)} :
      List.Forall₂ Nested children others →
      Nested (kind.node cursor children) (kind.node cursor others)

/-- Induction over two trees one of which is nested, with the statement for every child. -/
@[elab_as_elim]
theorem Nested.induction {motive : Node α κ → Node α κ → Prop} {tree other : Node α κ}
    (h : Nested tree other) (refl : ∀ tree, motive tree tree)
    (here : ∀ (kind : Composite) (before inner after : List (Node α κ)) (outer next flat : Option Nat),
      Place before.length inner.length (outer.getD 0) (next.getD 0) (flat.getD 0) →
      motive (kind.node outer (before ++ kind.node next inner :: after))
        (kind.node flat (before ++ (inner ++ after))))
    (deeper : ∀ (kind : Composite) (cursor : Option Nat) (children others : List (Node α κ)),
      List.Forall₂ (fun child other => Nested child other ∧ motive child other) children others →
      motive (kind.node cursor children) (kind.node cursor others)) : motive tree other := by
  refine @Nested.rec α κ (fun tree other _ => motive tree other)
    (fun children others _ =>
      List.Forall₂ (fun child other => Nested child other ∧ motive child other) children others)
    refl ?here ?deeper .nil ?cons tree other h
  case here => exact fun kind _ _ _ _ _ _ hplace => here kind _ _ _ _ _ _ hplace
  case deeper => exact fun kind _ _ _ _ ih => deeper kind _ _ _ ih
  case cons => exact fun hchild _ ih ihrest => .cons ⟨hchild, ih⟩ ihrest

/-- Before the first call, the tree with an inner composite less is the flat one. -/
theorem Flattens.nested {tree flat : Node α κ} (h : tree.Flattens flat) : tree.Nested flat := by
  induction h with
  | here kind before inner after =>
    rw [List.append_assoc]
    exact .here kind (Place.start _ _)
  | deeper kind before after _ ih =>
    have hrefl : ∀ trees : List (Node α κ), List.Forall₂ Nested trees trees :=
      fun trees => List.forall₂_same.mpr fun tree _ => .refl tree
    exact .deeper kind (List.rel_append (hrefl before) (.cons ih (hrefl after)))

theorem Nested.leaves_eq {tree other : Node α κ} (h : Nested tree other) : other.leaves = tree.leaves := by
  refine h.induction (fun _ => rfl) ?here ?deeper
  case here =>
    intro kind before inner after _ _ _ _
    simp only [leaves_composite, leavesAll_append, leavesAll_cons]
  case deeper =>
    intro kind cursor children others hchildren
    rw [leaves_composite, leaves_composite]
    exact leavesAll_alike (hchildren.imp fun _ _ hchild => hchild.2)

/-! ## § Ticks and aborts -/

/-- **`Node.Nested.ticksLike`** — a nested tree and the flat one tick alike. -/
theorem Nested.ticksLike {tree other : Node α κ} (h : Nested tree other) (kit : Leaves α κ ω φ)
    (dt : Float32) : TicksLike kit Eq Nested dt tree other := by
  refine h.induction ?refl ?here ?deeper
  case refl =>
    rintro tree first s _ t answer tree' rfl htick
    exact ⟨tree', t, htick, rfl, rfl, fun _ _ => .refl tree'⟩
  case here =>
    rintro kind before inner after outer next flat hplace first s _ t answer tree' rfl htick
    obtain ⟨_, hnested, hflat, hbefore, hinner, hmeets⟩ := Walk.joint kit dt kind hplace after first s
    obtain ⟨htree, hlog⟩ := hnested.tick_eq
    obtain ⟨hother, hlog'⟩ := hflat.tick_eq
    obtain ⟨hanswer, hplace'⟩ := hmeets.settle kind outer flat
    rw [htree, Prod.mk.injEq, Prod.mk.injEq] at htick
    obtain ⟨rfl, rfl, rfl⟩ := htick
    rw [hanswer] at hother
    refine ⟨_, _, hother, hlog'.trans hlog.symm, rfl, ?_⟩
    intro status hstatus
    -- a walk leaves as many children behind as there were, so the place is one in the new trees
    have hplace' := hplace' status hstatus
    rw [← hbefore, ← hinner] at hplace'
    exact .here kind hplace'
  case deeper =>
    intro kind cursor children others hchildren
    refine ticksLike_composite ?_ fun hrelated => .deeper kind hrelated
    exact hchildren.imp fun child other hchild => ⟨hchild.1, hchild.1.leaves_eq, hchild.2⟩

theorem heldAll_append (first : Nat) (xs ys : List (Node α κ)) :
    heldAll first (xs ++ ys) = heldAll first xs ++ heldAll (first + leavesAll xs) ys := by
  induction xs generalizing first with
  | nil => rfl
  | cons x xs ih =>
    rw [List.cons_append, heldAll, heldAll, ih, leavesAll_cons, List.append_assoc, Nat.add_assoc]

/-- In a nested tree and in the flat one the same actions are entered. -/
theorem Nested.held_eq {tree other : Node α κ} (h : Nested tree other) (first : Nat) :
    other.held first = tree.held first := by
  revert first
  refine h.induction (fun _ _ => rfl) ?here ?deeper
  case here =>
    intro kind before inner after _ _ _ _ first
    rw [held_composite, held_composite, heldAll_append, heldAll_append, heldAll_append, heldAll,
      held_composite, leaves_composite]
  case deeper =>
    intro kind cursor children others hchildren first
    rw [held_composite, held_composite]
    exact heldAll_alike (hchildren.imp fun _ _ hchild => ⟨hchild.1.leaves_eq, hchild.2⟩) first

theorem abortAll_append (kit : Leaves α κ ω φ) (xs ys : List (Node α κ)) (s : ω) :
    abortAll kit (xs ++ ys) s =
      ((abortAll kit xs s).1 ++ (abortAll kit ys (abortAll kit xs s).2).1,
        (abortAll kit ys (abortAll kit xs s).2).2) := by
  induction xs generalizing s with
  | nil => rfl
  | cons x xs ih => simp only [List.cons_append, abortAll, ih]

/-- **`Node.Nested.abort`** — a nested tree and the flat one are aborted alike. -/
theorem Nested.abort {tree other : Node α κ} (h : Nested tree other) (kit : Leaves α κ ω φ) (s : ω) :
    Nested (tree.abort kit s).1 (other.abort kit s).1 ∧ (tree.abort kit s).2 = (other.abort kit s).2 := by
  revert s
  refine h.induction (fun _ _ => ⟨.refl _, rfl⟩) ?here ?deeper
  case here =>
    intro kind before inner after _ _ _ _ s
    rw [Composite.abort_eq, Composite.abort_eq]
    simp only [abortAll_append, abortAll, Composite.abort_eq, and_true]
    exact .here kind (Place.start _ _)
  case deeper =>
    intro kind cursor children others hchildren s
    obtain ⟨hrelated, hstate⟩ := abortAll_alike (hchildren.imp fun _ _ hchild => hchild.2) s
    rw [Composite.abort_eq, Composite.abort_eq]
    exact ⟨.deeper kind hrelated, hstate⟩

/-- A nested tree and the flat one are alike. -/
theorem nested_likeness (kit : Leaves α κ ω φ) : Likeness kit Eq Nested where
  held h := h.held_eq
  tick h dt := h.ticksLike kit dt
  abort := by
    rintro tree other h s _ rfl
    exact h.abort kit s

/-! ## § Trees as they are built -/

theorem fresh_composite_iff (kind : Composite) (children : List (Node α κ)) :
    (kind.node none children).Fresh ↔ ∀ child ∈ children, child.Fresh := by
  refine ⟨fun h => ?_, fresh_composite⟩
  have hbelow := ((everywhere_iff _ _).mp h).2
  rwa [Composite.node_children] at hbelow

/-- If the tree is as it was built, so is the flat one. -/
theorem Flattens.fresh {tree flat : Node α κ} (h : tree.Flattens flat) (hfresh : tree.Fresh) :
    flat.Fresh := by
  induction h with
  | here kind before inner after =>
    rw [fresh_composite_iff] at hfresh ⊢
    obtain ⟨hbefore, hrest⟩ := List.forall_mem_append.mp hfresh
    obtain ⟨hnode, hafter⟩ := List.forall_mem_cons.mp hrest
    rw [fresh_composite_iff] at hnode
    exact List.forall_mem_append.mpr ⟨List.forall_mem_append.mpr ⟨hbefore, hnode⟩, hafter⟩
  | deeper kind before after _ ih =>
    rw [fresh_composite_iff] at hfresh ⊢
    obtain ⟨hbefore, hrest⟩ := List.forall_mem_append.mp hfresh
    obtain ⟨hchild, hafter⟩ := List.forall_mem_cons.mp hrest
    exact List.forall_mem_append.mpr ⟨hbefore, List.forall_mem_cons.mpr ⟨ih hchild, hafter⟩⟩

/-- **`Node.drive_flattened`** — composites of one kind within each other may be flattened. If an inner
composite of a tree is replaced by its own children, whatever calls are made of both trees from the same
state, and whatever their leaves do: the two answer the same, make the same calls of the same leaves in the
same order, and leave the same states. This is so for every inner composite at any depth, also for one
without children, and for any number of them one after the other. If the tree is as it was built, so is
the flat one. -/
theorem drive_flattened (kit : Leaves α κ ω φ) {tree flat : Node α κ}
    (h : Relation.ReflTransGen Flattens tree flat) :
    (tree.Fresh → flat.Fresh) ∧
      ∀ (calls : List (Call ω)) (s : ω), flat.drive kit calls s = tree.drive kit calls s := by
  induction h with
  | refl => exact ⟨id, fun _ _ => rfl⟩
  | tail _ hstep ih =>
    refine ⟨fun hfresh => hstep.fresh (ih.1 hfresh), fun calls s => ?_⟩
    rw [← ih.2 calls s]
    exact (nested_likeness kit).drive_eq hstep.nested calls s

/-- A guard whose parts are nested: the chase is a sequence that begins with a sequence, and the chase is
the only child of a selector in a selector. -/
def nestedGuard : Node (List Status) Bool :=
  .selector none
    [.selector none
      [.sequence 0
        [.sequence 0 [.condition "near" true], .action ⟨"chase", false, [.running, .failure]⟩]],
      .action ⟨"rest", false, [.running, .success]⟩]

/-- Flattened twice, it is the guard. -/
theorem nestedGuard_flattens : Relation.ReflTransGen Flattens nestedGuard guard := by
  have hinner : Flattens nestedGuard (.selector none
      [.selector none
        [.sequence 0 [.condition "near" true, .action ⟨"chase", false, [.running, .failure]⟩]],
        .action ⟨"rest", false, [.running, .success]⟩]) :=
    .deeper .selector [] _ (.deeper .selector [] [] (.here .sequence [] _ _))
  exact (Relation.ReflTransGen.single hinner).tail (.here .selector [] _ _)

/-- It gives up the chase for the rest, is interrupted there and begins again, as the guard does. -/
theorem nestedGuard_drive :
    Relation.ReflTransGen Flattens nestedGuard guard ∧ nestedGuard.Fresh ∧ guard.Fresh ∧
      (nestedGuard.drive .scripted [.tick 0, .tick 0, .abort, .tick 0] ()).map (·.answer) =
        [some (.ok .running), some (.ok .running), none, some (.ok .success)] ∧
      guard.drive .scripted [.tick 0, .tick 0, .abort, .tick 0] () =
        nestedGuard.drive .scripted [.tick 0, .tick 0, .abort, .tick 0] () := by
  have hfresh : nestedGuard.Fresh := by
    have hnear : (Node.condition "near" true : Node (List Status) Bool).Fresh :=
      (everywhere_leaf rfl).mpr trivial
    have haction : ∀ (name : String) (script : List Status),
        (Node.action ⟨name, false, script⟩ : Node (List Status) Bool).Fresh :=
      fun _ _ => (everywhere_leaf rfl).mpr rfl
    have hlook : (Node.sequence 0 [.condition "near" true] : Node (List Status) Bool).Fresh :=
      (fresh_composite_iff .sequence _).mpr (by simp [hnear])
    have hhunt : (Node.sequence 0 [.sequence 0 [.condition "near" true],
        .action ⟨"chase", false, [.running, .failure]⟩] : Node (List Status) Bool).Fresh :=
      (fresh_composite_iff .sequence _).mpr (by simp [hlook, haction])
    have honly : (Node.selector none [.sequence 0 [.sequence 0 [.condition "near" true],
        .action ⟨"chase", false, [.running, .failure]⟩]] : Node (List Status) Bool).Fresh :=
      (fresh_composite_iff .selector _).mpr (by simp [hhunt])
    exact (fresh_composite_iff .selector _).mpr (by simp [honly, haction])
  obtain ⟨hflat, hdrive⟩ := drive_flattened Leaves.scripted nestedGuard_flattens
  exact ⟨nestedGuard_flattens, hfresh, hflat hfresh, rfl, hdrive _ ()⟩

end Node

end BehaviorTree
