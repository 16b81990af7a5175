/-
# BehaviorTree.Proofs.Duality — selectors and sequences are dual

A selector is an `or` and a sequence is an `and`. So they should be exchanged if all leaves are negated, and
so they are, over any number of ticks and aborts: the dual of a tree answers the negated statuses, makes
the same calls of the same leaves in the same order, and leaves the same state behind
(`Node.drive_dual`). A tree with waits has no dual: a wait can only end with success, and there is none
that ends with failure.

A selector that has not begun stands nowhere and a sequence that has not begun stands at its first child;
a selector that is running at its first child stands there as well. So a tree and its dual do not
determine each other while they are running. `Node.Duals` is the relation between them: up to where a
cursor counts from, they stand at the same child.
-/
import BehaviorTree.Proofs.Drive
import BehaviorTree.Proofs.Run
import Mathlib.Data.List.Forall2

namespace BehaviorTree

variable {α κ ω φ : Type}

/-! ## § Negation -/

/-- Success and failure exchanged. -/
def Status.negated : Status → Status
  | .running => .running
  | .success => .failure
  | .failure => .success

theorem Status.negated_injective : Function.Injective Status.negated := by
  intro status other h
  cases status <;> cases other <;> first | rfl | cases h

/-- Only the opposite of an answer is the opposite of a status. -/
theorem Status.map_negated_ne {answer : Except φ Status} {status : Status} (h : answer ≠ .ok status) :
    answer.map Status.negated ≠ .ok status.negated := by
  cases answer with
  | error fault => simp [Except.map]
  | ok other => simpa [Except.map, negated_injective.eq_iff] using h

/-- **`Leaves.negated`** — the same leaves with the opposite answers: actions do the same and end with the
other outcome, conditions hold when they did not. -/
def Leaves.negated (kit : Leaves α κ ω φ) : Leaves α κ ω φ where
  enter := kit.enter
  tick leaf dt s :=
    let (answer, leaf, s) := kit.tick leaf dt s
    (answer.map Status.negated, leaf, s)
  exit := kit.exit
  test leaf s :=
    let (holds, s) := kit.test leaf s
    (holds.map not, s)

/-- The same call with the opposite answer. -/
def LeafCall.negated : LeafCall φ → LeafCall φ
  | .enter => .enter
  | .tick answer => .tick (answer.map Status.negated)
  | .test answer => .test (answer.map not)
  | .wait status => .wait status.negated
  | .exit => .exit

/-- The same calls of the same leaves with the opposite answers. -/
def LeafLog.negated (log : LeafLog φ) : LeafLog φ :=
  log.map fun (leaf, call) => (leaf, call.negated)

theorem LeafLog.negated_append (log more : LeafLog φ) :
    negated (log ++ more) = negated log ++ negated more :=
  List.map_append

/-- **`Event.negated`** — the same calls of leaves with the same effects, and the opposite answers. -/
def Event.negated (event : Event ω φ) : Event ω φ where
  answer := event.answer.map (·.map Status.negated)
  log := event.log.negated
  state := event.state

/-- A walk that stops at the same child with the opposite answer. -/
def Node.Stop.negated (stop : Node.Stop φ) : Node.Stop φ :=
  stop.map fun (i, answer) => (i, answer.map Status.negated)

theorem Node.Stop.negated_shift (stop : Node.Stop φ) : stop.shift.negated = stop.negated.shift := by
  cases stop <;> rfl

/-- The other kind. -/
def Composite.dual : Composite → Composite
  | .selector => .sequence
  | .sequence => .selector

/-! ## § Duals -/

namespace Node

mutual

/-- **`Node.dual`** — the tree with selectors and sequences exchanged, each at the same child. -/
def dual : Node α κ → Node α κ
  | .selector running children => .sequence (running.getD 0) (dualAll children)
  | .sequence index children => .selector (if index = 0 then none else some index) (dualAll children)
  | leaf => leaf

/-- The duals of several trees. -/
def dualAll : List (Node α κ) → List (Node α κ)
  | [] => []
  | node :: rest => dual node :: dualAll rest

end

theorem dual_composite (kind : Composite) (cursor : Option Nat) (children : List (Node α κ)) :
    (kind.node cursor children).dual =
      kind.dual.node (if cursor.getD 0 = 0 then none else some (cursor.getD 0)) (dualAll children) := by
  cases kind with
  | selector =>
    show sequence (cursor.getD 0) _ = sequence (Option.getD (if _ then _ else _) 0) _
    split <;> simp_all
  | sequence => rfl

/-- There are no waits in the tree. -/
def Waitless (tree : Node α κ) : Prop :=
  tree.Everywhere fun node => ∀ timer, node ≠ .wait timer

theorem waitless_composite (kind : Composite) (cursor : Option Nat) (children : List (Node α κ)) :
    (kind.node cursor children).Waitless ↔ ∀ child ∈ children, child.Waitless := by
  rw [Waitless, everywhere_iff, Composite.node_children]
  exact and_iff_right (by cases kind <;> exact fun _ => nofun)

/-- **`Node.Duals`** — trees that are dual to each other, up to where their cursors count from. -/
inductive Duals : Node α κ → Node α κ → Prop
  | composite (kind : Composite) {cursor cursor' : Option Nat} {children others : List (Node α κ)} :
      cursor'.getD 0 = cursor.getD 0 → List.Forall₂ Duals children others →
      Duals (kind.node cursor children) (kind.dual.node cursor' others)
  | action (node : ActionNode α) : Duals (.action node) (.action node)
  | condition (name : String) (leaf : κ) : Duals (.condition name leaf) (.condition name leaf)

/-- Induction over two dual trees, with the statement for every child and its dual. -/
@[elab_as_elim]
theorem Duals.induction {motive : Node α κ → Node α κ → Prop} {tree other : Node α κ}
    (h : Duals tree other)
    (composite : ∀ (kind : Composite) (cursor cursor' : Option Nat) (children others : List (Node α κ)),
      cursor'.getD 0 = cursor.getD 0 →
      List.Forall₂ (fun child other => Duals child other ∧ motive child other) children others →
      motive (kind.node cursor children) (kind.dual.node cursor' others))
    (action : ∀ node, motive (.action node) (.action node))
    (condition : ∀ name leaf, motive (.condition name leaf) (.condition name leaf)) :
    motive tree other := by
  refine @Duals.rec α κ (fun tree other _ => motive tree other)
    (fun children others _ =>
      List.Forall₂ (fun child other => Duals child other ∧ motive child other) children others)
    ?composite action condition .nil ?cons tree other h
  case composite => exact fun kind _ _ _ _ hcursor _ ih => composite kind _ _ _ _ hcursor ih
  case cons => exact fun hchild _ ih ihrest => .cons ⟨hchild, ih⟩ ihrest

theorem Duals.leaves_eq {tree other : Node α κ} (h : Duals tree other) : other.leaves = tree.leaves := by
  refine h.induction ?composite (fun _ => rfl) (fun _ _ => rfl)
  case composite =>
    intro kind cursor cursor' children others _ hchildren
    rw [leaves_composite, leaves_composite]
    induction hchildren with
    | nil => rfl
    | cons hchild _ ih => rw [leavesAll_cons, leavesAll_cons, hchild.2, ih]

/-- **`Node.duals_dual`** — a tree without waits and its dual are dual to each other. -/
theorem duals_dual {tree : Node α κ} (h : tree.Waitless) : Duals tree tree.dual := by
  induction tree using Node.induction with
  | composite kind cursor children ih =>
    rw [waitless_composite] at h
    have hall : List.Forall₂ Duals children (dualAll children) := by
      induction children with
      | nil => exact .nil
      | cons child rest ihrest =>
        obtain ⟨hchild, hrest⟩ := List.forall_mem_cons.mp h
        exact .cons (ih child List.mem_cons_self hchild)
          (ihrest (fun c hc => ih c (.tail _ hc)) hrest)
    rw [dual_composite]
    refine .composite kind ?_ hall
    split <;> simp_all
  | action node => exact .action node
  | condition name leaf => exact .condition name leaf
  | wait timer => exact absurd rfl ((everywhere_leaf rfl).mp h timer)

end Node

/-! ## § Ticks -/

theorem goesOn_negated (answer : Except φ Status) :
    goesOn (answer.map Status.negated) = goesOn answer := by
  rcases answer with _ | status
  · rfl
  · cases status <;> rfl

/-- A tick of an action with the opposite answers does the same and answers the opposite. -/
theorem ActionNode.tick_negated (kit : Leaves α κ ω φ) (dt : Float32) (n : ActionNode α) (s : ω) :
    n.tick kit.negated dt s = ((n.tick kit dt s).1.map Status.negated, (n.tick kit dt s).2) ∧
      n.calls kit.negated dt s = (n.calls kit dt s).map LeafCall.negated := by
  rcases hb : (if n.entered then (n.leaf, s) else kit.enter n.leaf s) with ⟨leaf, s₁⟩
  have hb' : (if n.entered then (n.leaf, s) else kit.negated.enter n.leaf s) = (leaf, s₁) := hb
  rcases ht : kit.tick leaf dt s₁ with ⟨answer, leaf', s₂⟩
  have ht' : kit.negated.tick leaf dt s₁ = (answer.map Status.negated, leaf', s₂) := by
    simp only [Leaves.negated, ht]
  constructor
  · simp only [tick, hb, hb', ht, ht']
    rcases answer with _ | status
    · rfl
    · cases status <;> rfl
  · simp only [calls, hb, hb', ht, ht', LeafCall.ofTick, goesOn_negated]
    cases n.entered <;> cases goesOn answer <;> rfl

/-- **`Node.TickedAlike`** — a tick of the second tree with the opposite answers makes the same calls of
leaves, leaves the same state, and answers the opposite; unless it is a fault, the trees are dual again. -/
def Node.TickedAlike (kit : Leaves α κ ω φ) (dt : Float32) (tree other : Node α κ) : Prop :=
  ∀ (first : Nat) {s s' : ω} {answer : Except φ Status} {tree' : Node α κ},
    tree.tick kit dt s = (answer, tree', s') →
    ∃ other', other.tick kit.negated dt s = (answer.map Status.negated, other', s') ∧
      other.calls kit.negated dt first s = (tree.calls kit dt first s).negated ∧
      ∀ status, answer = .ok status → Node.Duals tree' other'

/-- A walk through the duals of children stops where the walk through the children does. -/
theorem Walk.negated {kit : Leaves α κ ω φ} {dt : Float32} {onward : Status} {first skip : Nat}
    {children children' : List (Node α κ)} {s s' : ω} {log : LeafLog φ} {stop : Node.Stop φ}
    (h : Walk kit dt onward first skip children s log stop children' s') {others : List (Node α κ)}
    (hothers : List.Forall₂ (fun child other => child.Duals other ∧ child.TickedAlike kit dt other)
      children others) :
    ∃ others',
      Walk kit.negated dt onward.negated first skip others s log.negated stop.negated others' s' ∧
        (stop.Sound → List.Forall₂ Node.Duals children' others') := by
  induction h generalizing others with
  | through =>
    cases hothers
    exact ⟨[], .through, fun _ => .nil⟩
  | skip _ ih =>
    cases hothers with
    | @cons _ other _ _ hother hrest =>
      obtain ⟨others', hwalk, hduals⟩ := ih hrest
      rw [← hother.1.leaves_eq] at hwalk
      rw [Node.Stop.negated_shift]
      exact ⟨other :: others', .skip hwalk, fun hsound => .cons hother.1 (hduals hsound.of_shift)⟩
  | @pass first _ _ _ _ _ _ _ _ _ ht _ ih =>
    cases hothers with
    | cons hother hrest =>
      obtain ⟨other', htick, hcalls, hdual⟩ := hother.2 first ht
      obtain ⟨others', hwalk, hduals⟩ := ih hrest
      rw [← hother.1.leaves_eq] at hwalk
      rw [Node.Stop.negated_shift, LeafLog.negated_append, ← hcalls]
      exact ⟨other' :: others', .pass htick hwalk,
        fun hsound => .cons (hdual _ rfl) (hduals hsound.of_shift)⟩
  | @stop first _ _ _ _ _ answer ht hne =>
    cases hothers with
    | cons hother hrest =>
      obtain ⟨other', htick, hcalls, hdual⟩ := hother.2 first ht
      rw [← hcalls]
      refine ⟨_, .stop htick (Status.map_negated_ne hne), ?_⟩
      intro hsound
      -- after a fault the child and its dual may stand at different places
      cases answer with
      | error fault => exact absurd rfl (hsound 0 fault)
      | ok status => exact .cons (hdual status rfl) (hrest.imp fun _ _ h => h.1)

/-- The dual settles the walk as the composite does: with the opposite answer, and unless there was a fault
at the same child. -/
theorem Composite.settle_dual (kind : Composite) (cursor cursor' : Option Nat) (stop : Node.Stop φ) :
    (kind.dual.settle cursor' stop.negated).1 = (kind.settle cursor stop).1.map Status.negated ∧
      ∀ status, (kind.settle cursor stop).1 = .ok status → stop.Sound ∧
        (kind.dual.settle cursor' stop.negated).2.getD 0 = (kind.settle cursor stop).2.getD 0 := by
  match kind, stop with
  | .selector, none | .sequence, none => exact ⟨rfl, fun _ _ => ⟨nofun, rfl⟩⟩
  | .selector, some (i, .ok .running) | .sequence, some (i, .ok .running)
  | .selector, some (i, .ok .success) | .sequence, some (i, .ok .success)
  | .selector, some (i, .ok .failure) | .sequence, some (i, .ok .failure) =>
    exact ⟨rfl, fun _ _ => ⟨nofun, rfl⟩⟩
  | .selector, some (i, .error fault) | .sequence, some (i, .error fault) => exact ⟨rfl, nofun⟩

theorem Composite.onward_dual (kind : Composite) :
    Status.ofBool kind.dual.onward = (Status.ofBool kind.onward).negated := by
  cases kind <;> rfl

namespace Node

/-- **`Node.Duals.tickedAlike`** — dual trees are ticked alike. -/
theorem Duals.tickedAlike {tree other : Node α κ} (h : Duals tree other) (kit : Leaves α κ ω φ)
    (dt : Float32) : tree.TickedAlike kit dt other := by
  refine h.induction ?composite ?action ?condition
  case composite =>
    intro kind cursor cursor' children others hcursor hchildren first s s' answer tree' ht
    have hgraph := Walk.of_tickFrom kit dt (.ofBool kind.onward) children first (cursor.getD 0) s
    rcases hw : tickFrom kit dt (.ofBool kind.onward) (cursor.getD 0) children s with
      ⟨stop, children', s₁⟩
    rw [Composite.tick_eq, hw, Prod.mk.injEq, Prod.mk.injEq] at ht
    obtain ⟨rfl, rfl, rfl⟩ := ht
    rw [hw] at hgraph
    obtain ⟨others', hwalk, hduals⟩ := hgraph.negated hchildren
    obtain ⟨htick, hcalls⟩ := hwalk.eq_tickFrom
    obtain ⟨hanswer, hgoeson⟩ := kind.settle_dual cursor cursor' stop
    refine ⟨kind.dual.node (kind.dual.settle cursor' stop.negated).2 others', ?_, ?_, ?_⟩
    · rw [Composite.tick_eq, kind.onward_dual, hcursor, htick, ← hanswer]
    · rw [calls_composite, calls_composite, kind.onward_dual, hcursor, hcalls]
    · intro status hstatus
      obtain ⟨hsound, hnext⟩ := hgoeson status hstatus
      exact .composite kind hnext (hduals hsound)
  case action =>
    intro node first s s' answer tree' ht
    obtain ⟨htick, hcalls⟩ := node.tick_negated kit dt s
    rcases hn : node.tick kit dt s with ⟨answer', node', s₁⟩
    simp only [tick, hn, Prod.mk.injEq] at ht
    obtain ⟨rfl, rfl, rfl⟩ := ht
    refine ⟨.action node', by simp only [tick, htick, hn], ?_, fun _ _ => .action node'⟩
    simp only [calls, hcalls, LeafLog.negated, List.map_map, Function.comp_def]
  case condition =>
    intro name leaf first s s' answer tree' ht
    obtain ⟨rfl, rfl, rfl⟩ := ht
    refine ⟨_, ?_, rfl, fun _ _ => .condition name leaf⟩
    rcases ht : kit.test leaf s with ⟨holds, s'⟩
    rcases holds with _ | holds
    · simp [tick, Leaves.negated, ht, Except.map]
    · cases holds <;> simp [tick, Leaves.negated, ht, Except.map, Status.negated]

/-! ## § Aborts -/

/-- In dual trees the same actions are entered. -/
theorem Duals.held_eq {tree other : Node α κ} (h : Duals tree other) (first : Nat) :
    other.held first = tree.held first := by
  revert first
  refine h.induction ?composite (fun _ _ => rfl) (fun _ _ _ => rfl)
  case composite =>
    intro kind cursor cursor' children others _ hchildren first
    rw [held_composite, held_composite]
    induction hchildren generalizing first with
    | nil => rfl
    | cons hchild _ ih => rw [heldAll, heldAll, hchild.2, hchild.1.leaves_eq, ih]

/-- **`Node.Duals.abort`** — dual trees are aborted alike. -/
theorem Duals.abort {tree other : Node α κ} (h : Duals tree other) (kit : Leaves α κ ω φ) (s : ω) :
    ∃ other', other.abort kit.negated s = (other', (tree.abort kit s).2) ∧
      Duals (tree.abort kit s).1 other' := by
  revert s
  refine h.induction ?composite ?action ?condition
  case composite =>
    intro kind cursor cursor' children others _ hchildren s
    have hall : ∃ others', abortAll kit.negated others s = (others', (abortAll kit children s).2) ∧
        List.Forall₂ Duals (abortAll kit children s).1 others' := by
      induction hchildren generalizing s with
      | nil => exact ⟨[], rfl, .nil⟩
      | @cons child other rest more hchild _ ih =>
        obtain ⟨other', habort, hdual⟩ := hchild.2 s
        obtain ⟨others', hrest, hduals⟩ := ih (child.abort kit s).2
        exact ⟨other' :: others', by simp only [abortAll, habort, hrest], .cons hdual hduals⟩
    obtain ⟨others', habort, hduals⟩ := hall
    rw [Composite.abort_eq, Composite.abort_eq, habort]
    exact ⟨_, rfl, .composite kind rfl hduals⟩
  case action => exact fun node s => ⟨.action (node.abort kit s).1, rfl, .action _⟩
  case condition => exact fun name leaf s => ⟨.condition name leaf, rfl, .condition name leaf⟩

/-! ## § Calls of dual trees -/

/-- **`Node.duals_lockstep`** — whatever call is made of dual trees, the dual does the same with the
opposite answers. -/
theorem duals_lockstep (kit : Leaves α κ ω φ) : Lockstep kit kit.negated Event.negated Duals where
  state_eq event := rfl
  respond := by
    intro tree other h call s
    match call with
    | .change f => exact ⟨rfl, .some h⟩
    | .abort =>
      obtain ⟨other', habort, hdual⟩ := h.abort kit s
      simp only [respond, habort]
      refine ⟨?_, .some hdual⟩
      simp only [Event.negated, exits, h.held_eq, LeafLog.negated, List.map_map]
      rfl
    | .tick dt =>
      rcases ht : tree.tick kit dt s with ⟨answer, tree', s'⟩
      obtain ⟨other', htick, hcalls, hdual⟩ := h.tickedAlike kit dt 0 ht
      cases answer with
      | ok status =>
        simp only [Except.map] at htick
        simp only [respond, ht, htick, hcalls]
        exact ⟨rfl, .some (hdual status rfl)⟩
      | error fault =>
        simp only [Except.map] at htick
        simp only [respond, ht, htick, hcalls]
        exact ⟨rfl, .none⟩

/-- The dual of a tree as it was built is a tree as it was built. -/
theorem Fresh.dual {tree : Node α κ} (h : tree.Fresh) : tree.dual.Fresh := by
  induction tree using Node.induction with
  | composite kind cursor children ih =>
    obtain ⟨hcursor, -⟩ := h.atRest.cursor
    obtain ⟨-, hbelow⟩ := (everywhere_iff _ _).mp h
    rw [Composite.node_children] at hbelow
    rw [dual_composite, hcursor, if_pos rfl]
    refine fresh_composite ?_
    clear h
    induction children with
    | nil => exact fun child hchild => absurd hchild List.not_mem_nil
    | cons child rest ihrest =>
      obtain ⟨hchild, hrest⟩ := List.forall_mem_cons.mp hbelow
      exact List.forall_mem_cons.mpr ⟨ih child List.mem_cons_self hchild,
        ihrest (fun c hc => ih c (.tail _ hc)) hrest⟩
  | action | condition | wait => exact h

/-- **`Node.drive_dual`** — selectors and sequences are dual: if a tree without waits and its dual, whose
leaves are negated, start from the same state, then whatever calls are made of both, the dual makes the
same calls of the same leaves in the same order, with the same effects, and answers the opposite. The dual
of a tree as it was built is one as it was built. -/
theorem drive_dual (kit : Leaves α κ ω φ) {tree : Node α κ} (hwaitless : tree.Waitless) :
    (tree.Fresh → tree.dual.Fresh) ∧ ∀ (calls : List (Call ω)) (s : ω),
      tree.dual.drive kit.negated calls s = (tree.drive kit calls s).map Event.negated :=
  ⟨Fresh.dual, fun calls s => (duals_lockstep kit).drive_eq calls (duals_dual hwaitless) s⟩

theorem guard_waitless : guard.Waitless := by
  have hnear : (Node.condition "near" true : Node (List Status) Bool).Waitless :=
    (everywhere_leaf rfl).mpr fun _ => nofun
  have haction : ∀ (name : String) (script : List Status),
      (Node.action ⟨name, false, script⟩ : Node (List Status) Bool).Waitless :=
    fun _ _ => (everywhere_leaf rfl).mpr fun _ => nofun
  have hhunt : (Node.sequence 0 [.condition "near" true,
      .action ⟨"chase", false, [.running, .failure]⟩] : Node (List Status) Bool).Waitless :=
    (waitless_composite .sequence none _).mpr (by simp [hnear, haction])
  exact (waitless_composite .selector none _).mpr (by simp [hhunt, haction])

/-- The guard gives up the chase for the rest, is interrupted there and begins again. Where the guard
succeeds, its dual fails. -/
theorem guard_drive_dual :
    guard.Waitless ∧ guard.Fresh ∧ guard.dual.Fresh ∧
      (guard.drive .scripted [.tick 0, .tick 0, .abort, .tick 0] ()).map (·.answer) =
        [some (.ok .running), some (.ok .running), none, some (.ok .success)] ∧
      (guard.dual.drive Leaves.scripted.negated [.tick 0, .tick 0, .abort, .tick 0] ()).map (·.answer) =
        [some (.ok .running), some (.ok .running), none, some (.ok .failure)] ∧
      guard.dual.drive Leaves.scripted.negated [.tick 0, .tick 0, .abort, .tick 0] () =
        (guard.drive .scripted [.tick 0, .tick 0, .abort, .tick 0] ()).map Event.negated :=
  ⟨guard_waitless, guard_fresh, (drive_dual Leaves.scripted guard_waitless).1 guard_fresh, rfl, rfl,
    (drive_dual Leaves.scripted guard_waitless).2 _ ()⟩

end Node

end BehaviorTree
