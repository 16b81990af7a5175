/-
# BehaviorTree.Proofs.Entered — one action at a time

Which actions of a tree are entered (`Node.held`)? At rest none, and suspended at most one, the leaf at
which the tree is suspended. So an abort leaves at most one action.

Inside a tick the same holds from call to call. `Solo` reads a log as the story of the one action that
is entered: it must be left before another one is entered, only it is ticked, and no condition or wait
has a turn as long as it is entered. `Node.tick_solo` proves it for the log of every tick, `Run.solo` for
the whole log of a run.
-/
import BehaviorTree.Proofs.Run

namespace BehaviorTree

variable {α κ ω φ : Type}

/-! ## § The entered actions of a tree -/

namespace Node

theorem heldAll_of_held {children : List (Node α κ)}
    (h : ∀ child ∈ children, ∀ first, child.held first = []) (first : Nat) :
    heldAll first children = [] := by
  induction children generalizing first with
  | nil => rfl
  | cons child rest ih =>
    rw [heldAll, h child List.mem_cons_self, ih (fun c hc => h c (.tail _ hc)), List.append_nil]

/-- No action of a tree at rest is entered. -/
theorem AtRest.held_eq {tree : Node α κ} (h : tree.AtRest) (first : Nat) : tree.held first = [] := by
  induction tree using Node.induction generalizing first with
  | composite kind cursor children ih =>
    rw [held_composite]
    exact heldAll_of_held (fun child hchild => ih child hchild (h.cursor.2 child hchild)) first
  | action node =>
    have hentered := (atRest_action node).mp h
    simp [held, hentered]
  | condition name leaf => rfl
  | wait timer => rfl

theorem heldAll_of_atRest {children : List (Node α κ)} (h : ∀ child ∈ children, child.AtRest)
    (first : Nat) : heldAll first children = [] :=
  heldAll_of_held (fun child hchild => (h child hchild).held_eq) first

/-- If the suspended child holds at most the leaf at which it is suspended, so do all children. -/
theorem SuspendedAt.held_eq {onward : Bool} {leaf : Nat} {children : List (Node α κ)}
    (ih : ∀ child ∈ children, ∀ {first : Nat} {tally : Tally}, child.Suspended first tally leaf →
      child.held first = [] ∨ child.held first = [leaf]) :
    ∀ {first : Nat} {tally : Tally} {i : Nat}, SuspendedAt onward first tally leaf i children →
      heldAll first children = [] ∨ heldAll first children = [leaf] := by
  induction children with
  | nil => exact fun h => h.elim
  | cons child rest ihrest =>
    intro first tally i h
    cases i with
    | zero =>
      rw [heldAll, heldAll_of_atRest h.2, List.append_nil]
      exact ih child List.mem_cons_self h.1
    | succ i =>
      obtain ⟨hrest, seen, more, -, -, hmore⟩ := h
      rw [heldAll, hrest.held_eq, List.nil_append]
      exact ihrest (fun c hc => ih c (.tail _ hc)) hmore

/-- Of a suspended tree at most the action at which it is suspended is entered. -/
theorem Suspended.held_eq {tree : Node α κ} {first : Nat} {tally : Tally} {leaf : Nat}
    (h : tree.Suspended first tally leaf) : tree.held first = [] ∨ tree.held first = [leaf] := by
  induction tree using Node.induction generalizing first tally with
  | composite kind cursor children ih =>
    rw [held_composite]
    exact SuspendedAt.held_eq (fun child hchild => ih child hchild) h.cursor
  | action node =>
    obtain ⟨hentered, -, rfl⟩ := h
    exact Or.inr (by simp [held, hentered])
  | condition name leaf => exact h.elim
  | wait timer => exact Or.inl rfl

end Node

/-- However a tree stands between two calls, at most one of its actions is entered. -/
theorem Stands.held {tree : Node α κ} {last : Option (Turn φ)} (h : Stands tree last) :
    tree.held 0 = [] ∨ ∃ leaf, tree.held 0 = [leaf] := by
  cases h with
  | suspended _ hsuspended => exact hsuspended.held_eq.imp_right fun hheld => ⟨_, hheld⟩
  | rest _ hrest => exact Or.inl (hrest.held_eq 0)

/-! ## § Logs that keep to one action -/

/-- **`Solo`** — the log leads from one entered action, if any, to another one, and at every moment in
between at most one action is entered. -/
inductive Solo : Option Nat → LeafLog φ → Option Nat → Prop
  | nil {held : Option Nat} : Solo held [] held
  | enter {leaf : Nat} {log : LeafLog φ} {held' : Option Nat} :
      Solo (some leaf) log held' → Solo none ((leaf, .enter) :: log) held'
  | tick {leaf : Nat} {answer : Except φ Status} {log : LeafLog φ} {held' : Option Nat} :
      Solo (some leaf) log held' → Solo (some leaf) ((leaf, .tick answer) :: log) held'
  | exit {leaf : Nat} {log : LeafLog φ} {held' : Option Nat} :
      Solo none log held' → Solo (some leaf) ((leaf, .exit) :: log) held'
  | test {leaf : Nat} {answer : Except φ Bool} {log : LeafLog φ} {held' : Option Nat} :
      Solo none log held' → Solo none ((leaf, .test answer) :: log) held'
  | wait {leaf : Nat} {status : Status} {log : LeafLog φ} {held' : Option Nat} :
      Solo none log held' → Solo none ((leaf, .wait status) :: log) held'

theorem Solo.append {held held₁ held' : Option Nat} {log more : LeafLog φ} (h : Solo held log held₁)
    (hmore : Solo held₁ more held') : Solo held (log ++ more) held' := by
  induction h with
  | nil => exact hmore
  | enter _ ih => exact .enter (ih hmore)
  | tick _ ih => exact .tick (ih hmore)
  | exit _ ih => exact .exit (ih hmore)
  | test _ ih => exact .test (ih hmore)
  | wait _ ih => exact .wait (ih hmore)

/-- The calls of one tick of an action, from entered or not to entered or not. -/
theorem ActionNode.calls_solo {kit : Leaves α κ ω φ} {dt : Float32} {n n' : ActionNode α} {s s' : ω}
    {answer : Except φ Status} (h : n.tick kit dt s = (answer, n', s')) (i : Nat) :
    Solo ((Node.action n : Node α κ).held i).head? ((n.calls kit dt s).map (i, ·))
      ((Node.action n' : Node α κ).held i).head? := by
  obtain ⟨hentered', hcalls⟩ := tick_spec h
  rw [hcalls]
  unfold LeafCall.ofTick
  simp only [Node.held, hentered']
  cases n.entered <;> cases goesOn answer
  · exact .enter (.tick (.exit .nil))
  · exact .enter (.tick .nil)
  · exact .tick (.exit .nil)
  · exact .tick .nil

/-- A walk keeps to one action if the ticks of the children do. -/
theorem Walk.solo {kit : Leaves α κ ω φ} {dt : Float32} {onward : Bool} {first skip : Nat}
    {children children' : List (Node α κ)} {s s' : ω} {log : LeafLog φ} {stop : Node.Stop φ}
    (h : Walk kit dt (.ofBool onward) first skip children s log stop children' s')
    (ih : ∀ child ∈ children, ∀ {first : Nat} {tally : Tally} {s s' : ω} {answer : Except φ Status}
      {child' : Node α κ}, Node.Ready first child tally → child.tick kit dt s = (answer, child', s') →
      Solo (child.held first).head? (child.calls kit dt first s) (child'.held first).head?)
    {tally : Tally} (hlined : Node.Lined onward first tally skip children) :
    Solo (Node.heldAll first children).head? log (Node.heldAll first children').head? := by
  induction h generalizing tally with
  | through => exact .nil
  | skip _ ihrest =>
    obtain ⟨hrest, seen, more, rfl, -, hmore⟩ := hlined
    simp only [Node.heldAll, hrest.held_eq, List.nil_append]
    exact ihrest (fun c hc => ih c (.tail _ hc)) hmore
  | @pass first child child' rest rest' s s₁ s' log stop ht _ ihrest =>
    obtain ⟨hready, hrest⟩ := hlined
    -- the child was passed, so it is at rest again and holds nothing
    have hrested : child'.AtRest := by
      generalize hstatus : Status.ofBool onward = status at ht
      cases Node.tick_progress hready ht with
      | suspended => exact absurd hstatus (Status.ofBool_ne_running onward)
      | finished _ _ hrested _ => exact hrested
    have hchild := ih child List.mem_cons_self hready ht
    have hothers := ihrest (fun c hc => ih c (.tail _ hc)) (Node.lined_of_atRest hrest)
    rw [hrested.held_eq] at hchild
    rw [Node.heldAll_of_atRest hrest, ← Node.tick_leaves ht] at hothers
    simp only [Node.heldAll, hrested.held_eq, List.nil_append, Node.heldAll_of_atRest hrest,
      List.append_nil]
    exact hchild.append hothers
  | stop ht _ =>
    obtain ⟨hready, hrest⟩ := hlined
    simp only [Node.heldAll, Node.heldAll_of_atRest hrest, List.append_nil]
    exact ih _ List.mem_cons_self hready ht

/-- **`Node.tick_solo`** — in the course of a tick, also of one that ends by a fault, at most one action
is entered at any moment. -/
theorem Node.tick_solo {kit : Leaves α κ ω φ} {dt : Float32} {tree tree' : Node α κ} {first : Nat}
    {tally : Tally} {s s' : ω} {answer : Except φ Status} (hready : Ready first tree tally)
    (h : tree.tick kit dt s = (answer, tree', s')) :
    Solo (tree.held first).head? (tree.calls kit dt first s) (tree'.held first).head? := by
  induction tree using Node.induction generalizing first tally s s' answer tree' with
  | composite kind cursor children ih =>
    obtain ⟨stop, children', next, hwalk, -, rfl⟩ := walk_of_tick first h
    rw [held_composite, held_composite]
    exact hwalk.solo (fun child hchild => ih child hchild) hready.lined
  | action node =>
    rcases ht : node.tick kit dt s with ⟨answer, node', s₁⟩
    simp only [tick, ht, Prod.mk.injEq] at h
    obtain ⟨-, rfl, -⟩ := h
    exact ActionNode.calls_solo ht first
  | condition name leaf =>
    simp only [tick, Prod.mk.injEq] at h
    obtain ⟨-, rfl, -⟩ := h
    exact .test .nil
  | wait timer =>
    simp only [tick, Prod.mk.injEq] at h
    obtain ⟨-, rfl, -⟩ := h
    exact .wait .nil

/-- An abort leaves the action that is entered. -/
theorem Stands.exits_solo {tree : Node α κ} {last : Option (Turn φ)} (h : Stands tree last) :
    Solo (tree.held 0).head? (tree.exits 0 : LeafLog φ) none := by
  rcases h.held with hheld | ⟨leaf, hheld⟩ <;> rw [Node.exits, hheld]
  · exact .nil
  · exact .exit .nil

/-- **`Run.solo`** — at every moment of a run, also in the middle of a tick, at most one action of the
tree is entered. -/
theorem Run.solo {kit : Leaves α κ ω φ} {start tree : Node α κ} {turns : List (Turn φ)}
    (hrun : Run kit start turns tree) (hstart : start.AtRest) :
    Solo none (turns.flatMap Turn.log) (tree.held 0).head? := by
  induction hrun with
  | nil =>
    rw [hstart.held_eq]
    exact .nil
  | snoc hrun hstep ih =>
    rw [List.flatMap_append, List.flatMap_singleton]
    refine ih.append ?_
    have hstands := hrun.stands hstart
    cases hstep with
    | tick htick =>
      obtain ⟨tally, hready⟩ := hstands.ready
      exact Node.tick_solo hready htick
    | abort =>
      rw [(Node.abort_atRest kit _ _).held_eq]
      exact hstands.exits_solo

end BehaviorTree
