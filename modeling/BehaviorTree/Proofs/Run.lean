/-
# BehaviorTree.Proofs.Run — runs of a tree

Whoever owns a tree ticks its root and aborts it, in any order, with any time step and with whatever the
leaves work on at that moment: between two calls the world and the blackboard may have changed, so every
call brings its own state. `Run` is a sequence of such calls, each with what it did (`Turn`).

A call belongs to a run if it returns. A tick that ends by a fault does not: it leaves no status behind,
and nothing is promised about the tree after it. But a tick ends by a fault only if one of its leaves
does (`Node.tick_fault`).

`Run.stands` is the invariant of runs: after a tick that answered running, the tree is suspended at the
leaf that was visited last; at any other moment it is at rest.
-/
import BehaviorTree.Proofs.Suspension

namespace BehaviorTree

variable {α κ ω φ : Type}

/-! ## § Calls of the root -/

/-- What a call of the root did: a tick with its status or an abort, and the calls of leaves. -/
inductive Turn (φ : Type) where
  | ticked (status : Status) (log : LeafLog φ)
  | aborted (log : LeafLog φ)

/-- The calls of leaves in a turn. -/
def Turn.log : Turn φ → LeafLog φ
  | .ticked _ log | .aborted log => log

/-- **`Step`** — one call of the root that returns. -/
inductive Step (kit : Leaves α κ ω φ) : Node α κ → Turn φ → Node α κ → Prop
  | tick {dt : Float32} {tree tree' : Node α κ} {s s' : ω} {status : Status} :
      tree.tick kit dt s = (.ok status, tree', s') →
      Step kit tree (.ticked status (tree.calls kit dt 0 s)) tree'
  | abort {tree : Node α κ} {s : ω} :
      Step kit tree (.aborted (tree.exits 0)) (tree.abort kit s).1

/-- **`Run`** — calls of the root, one after the other. -/
inductive Run (kit : Leaves α κ ω φ) (start : Node α κ) : List (Turn φ) → Node α κ → Prop
  | nil : Run kit start [] start
  | snoc {turns : List (Turn φ)} {turn : Turn φ} {tree tree' : Node α κ} :
      Run kit start turns tree → Step kit tree turn tree' → Run kit start (turns ++ [turn]) tree'

namespace Node

/-- Nothing has begun at this node, and if it is a wait, it has spent nothing. -/
def Untouched : Node α κ → Prop
  | .wait timer => timer = Wait.full timer.seconds
  | node => node.Idle

/-- **`Node.Fresh`** — the tree as it was built. -/
def Fresh (tree : Node α κ) : Prop :=
  tree.Everywhere Untouched

theorem Untouched.idle {node : Node α κ} (h : node.Untouched) : node.Idle := by
  cases node with
  | wait => trivial
  | selector | sequence | action | condition => exact h

theorem Fresh.atRest {tree : Node α κ} (h : tree.Fresh) : tree.AtRest :=
  h.imp fun _ => Untouched.idle

/-- A composite is fresh if it has not begun and its children are fresh. -/
theorem fresh_composite {kind : Composite} {children : List (Node α κ)}
    (h : ∀ child ∈ children, child.Fresh) : (kind.node none children).Fresh := by
  refine (everywhere_iff _ _).mpr ⟨by cases kind <;> rfl, ?_⟩
  rwa [Composite.node_children]

end Node

/-- A tick of the root continues the run of a tree that is ready. -/
theorem Step.progress {kit : Leaves α κ ω φ} {tree tree' : Node α κ} {status : Status}
    {log : LeafLog φ} {tally : Tally} (hready : tree.Ready 0 tally)
    (h : Step kit tree (.ticked status log) tree') :
    Progress 0 tally (LeafLog.visits log) tree' status := by
  cases h with
  | tick htick => exact Node.tick_progress hready htick

/-- A call of the root leaves the shape of the tree as it is. -/
theorem Step.formula_eq {kit : Leaves α κ ω φ} {tree tree' : Node α κ} {turn : Turn φ}
    (h : Step kit tree turn tree') : tree'.formula = tree.formula := by
  cases h with
  | @tick dt _ _ s _ _ htick =>
    have hformula := Node.tick_formula kit dt tree s
    rwa [htick] at hformula
  | abort => exact Node.abort_formula kit tree _

/-- So does a run. -/
theorem Run.formula_eq {kit : Leaves α κ ω φ} {start tree : Node α κ} {turns : List (Turn φ)}
    (h : Run kit start turns tree) : tree.formula = start.formula := by
  induction h with
  | nil => rfl
  | snoc _ hstep ih => rw [hstep.formula_eq, ih]

/-! ## § Faults -/

/-- A walk that ends by a fault has visited last the leaf of which the fault is, if this is so for the
ticks of the children. -/
theorem Walk.fault {kit : Leaves α κ ω φ} {dt : Float32} {onward : Status} {first skip : Nat}
    {children children' : List (Node α κ)} {s s' : ω} {log : LeafLog φ} {stop : Node.Stop φ}
    (h : Walk kit dt onward first skip children s log stop children' s')
    (ih : ∀ child ∈ children, ∀ (first : Nat) {s s' : ω} {fault : φ} {child' : Node α κ},
      child.tick kit dt s = (.error fault, child', s') →
      ∃ leaf, (LeafLog.visits (child.calls kit dt first s)).getLast? = some (leaf, .error fault))
    {i : Nat} {fault : φ} (hstop : stop = some (i, .error fault)) :
    ∃ leaf, log.visits.getLast? = some (leaf, .error fault) := by
  induction h generalizing i with
  | through => simp at hstop
  | skip _ ihrest =>
    obtain ⟨⟨j, answer⟩, hrest, hshift⟩ := Option.map_eq_some_iff.mp hstop
    obtain ⟨-, rfl⟩ := Prod.mk.inj hshift
    exact ihrest (fun c hc => ih c (.tail _ hc)) hrest
  | pass _ _ ihrest =>
    obtain ⟨⟨j, answer⟩, hrest, hshift⟩ := Option.map_eq_some_iff.mp hstop
    obtain ⟨-, rfl⟩ := Prod.mk.inj hshift
    obtain ⟨leaf, hlast⟩ := ihrest (fun c hc => ih c (.tail _ hc)) hrest
    rw [LeafLog.visits_append, List.getLast?_append, hlast]
    exact ⟨leaf, rfl⟩
  | @stop first _ _ _ _ _ _ ht _ =>
    obtain ⟨-, rfl⟩ := Prod.mk.inj (Option.some.inj hstop)
    exact ih _ List.mem_cons_self first ht

/-- **`Node.tick_fault`** — a fault by which a tick ends is the answer of the leaf visited last. -/
theorem Node.tick_fault {kit : Leaves α κ ω φ} {dt : Float32} {tree tree' : Node α κ} (first : Nat)
    {s s' : ω} {fault : φ} (h : tree.tick kit dt s = (.error fault, tree', s')) :
    ∃ leaf, (LeafLog.visits (tree.calls kit dt first s)).getLast? = some (leaf, .error fault) := by
  induction tree using Node.induction generalizing first s s' fault tree' with
  | composite kind cursor children ih =>
    obtain ⟨stop, children', next, hwalk, hsettles, rfl⟩ := walk_of_tick first h
    cases hsettles with
    | faulted => exact hwalk.fault (fun child hchild first _ _ _ _ => ih child hchild first) rfl
  | action node =>
    rcases ht : node.tick kit dt s with ⟨answer, node', s₁⟩
    simp only [tick, ht, Prod.mk.injEq] at h
    obtain ⟨rfl, rfl, rfl⟩ := h
    obtain ⟨-, hcalls⟩ := ActionNode.tick_spec ht
    rw [calls, hcalls, LeafLog.visits_ofTick]
    exact ⟨first, rfl⟩
  | condition name leaf =>
    rcases ht : kit.test leaf s with ⟨holds, s₁⟩
    simp only [tick, ht, Prod.mk.injEq] at h
    obtain ⟨hanswer, rfl, rfl⟩ := h
    refine ⟨first, ?_⟩
    simp [calls, ht, LeafLog.visits, LeafCall.answer?, hanswer]
  | wait timer => simp [tick] at h

/-! ## § Aborts -/

theorem ActionNode.abort_entered (kit : Leaves α κ ω φ) (n : ActionNode α) (s : ω) :
    (n.abort kit s).1.entered = false := by
  cases h : n.entered <;> simp [abort, h]

namespace Node

theorem abortAll_atRest {kit : Leaves α κ ω φ} {children : List (Node α κ)}
    (ih : ∀ child ∈ children, ∀ s, (child.abort kit s).1.AtRest) (s : ω) :
    ∀ child ∈ (abortAll kit children s).1, child.AtRest := by
  induction children generalizing s with
  | nil => exact fun child hchild => absurd hchild List.not_mem_nil
  | cons child rest ihrest =>
    exact List.forall_mem_cons.mpr
      ⟨ih child List.mem_cons_self s, ihrest (fun c hc => ih c (.tail _ hc)) _⟩

/-- **`Node.abort_atRest`** — an abort brings any tree to rest, also one that a fault has left behind. -/
theorem abort_atRest (kit : Leaves α κ ω φ) (tree : Node α κ) (s : ω) :
    (tree.abort kit s).1.AtRest := by
  induction tree using Node.induction generalizing s with
  | composite kind cursor children ih =>
    rw [Composite.abort_eq, atRest_composite]
    exact abortAll_atRest ih s
  | action node =>
    exact (atRest_action _).mpr (ActionNode.abort_entered kit node s)
  | condition name leaf => exact atRest_condition name leaf
  | wait timer => exact atRest_wait timer

end Node

/-! ## § The invariant of runs -/

/-- **`Stands`** — how a tree stands after a call: suspended at the leaf visited last if that was a tick
that answered running, at rest otherwise. -/
inductive Stands (tree : Node α κ) : Option (Turn φ) → Prop
  | suspended {log : LeafLog φ} {tally : Tally} {leaf : Nat} :
      (LeafLog.visits log).getLast? = some (leaf, .ok .running) → tree.Suspended 0 tally leaf →
      Stands tree (some (.ticked .running log))
  | rest {last : Option (Turn φ)} :
      (∀ log, last ≠ some (.ticked .running log)) → tree.AtRest → Stands tree last

/-- However it stands, the tree is ready for the next tick. -/
theorem Stands.ready {tree : Node α κ} {last : Option (Turn φ)} (h : Stands tree last) :
    ∃ tally, Node.Ready 0 tree tally := by
  cases h with
  | suspended _ hsuspended => exact ⟨_, .suspended hsuspended⟩
  | rest _ hrest => exact ⟨[], .rest hrest⟩

theorem Stands.step {kit : Leaves α κ ω φ} {tree tree' : Node α κ} {last : Option (Turn φ)}
    {turn : Turn φ} (h : Stands tree last) (hstep : Step kit tree turn tree') :
    Stands tree' (some turn) := by
  cases hstep with
  | abort => exact .rest (by simp) (Node.abort_atRest kit tree _)
  | tick htick =>
    obtain ⟨tally, hready⟩ := h.ready
    cases Node.tick_progress hready htick with
    | suspended _ hvisits hsuspended => exact .suspended (by simp [hvisits]) hsuspended
    | finished _ _ hrest _ => exact .rest (by simp) hrest

/-- **`Run.stands`** — the invariant of runs. -/
theorem Run.stands {kit : Leaves α κ ω φ} {start tree : Node α κ} {turns : List (Turn φ)}
    (hrun : Run kit start turns tree) (hstart : start.AtRest) : Stands tree turns.getLast? := by
  induction hrun with
  | nil => exact .rest (by simp) hstart
  | snoc _ hstep ih =>
    rw [List.getLast?_concat]
    exact ih.step hstep

/-! ## § A run of scripted leaves -/

/-- Leaves that know beforehand what they will answer: an action plays back its statuses and repeats the
last one, a condition has a fixed value. Runs of such leaves show that what is said of all runs is said
of some. -/
def Leaves.scripted : Leaves (List Status) Bool Unit Empty where
  enter script s := (script, s)
  tick
    | [], _, s => (.ok .failure, [], s)
    | [status], _, s => (.ok status, [status], s)
    | status :: next :: script, _, s => (.ok status, next :: script, s)
  exit script s := (script, s)
  test value s := (.ok value, s)

namespace Node

/-- A guard that chases whoever is near, and has a rest if the chase fails. -/
def guard : Node (List Status) Bool :=
  .selector none
    [.sequence 0 [.condition "near" true, .action ⟨"chase", false, [.running, .failure]⟩],
      .action ⟨"rest", false, [.running, .success]⟩]

/-- The guard in the middle of the chase. -/
def guardChasing : Node (List Status) Bool :=
  .selector (some 0)
    [.sequence 1 [.condition "near" true, .action ⟨"chase", true, [.failure]⟩],
      .action ⟨"rest", false, [.running, .success]⟩]

/-- The guard in the middle of the rest. -/
def guardResting : Node (List Status) Bool :=
  .selector (some 1)
    [.sequence 0 [.condition "near" true, .action ⟨"chase", false, [.failure]⟩],
      .action ⟨"rest", true, [.success]⟩]

/-- The guard after the rest. -/
def guardRested : Node (List Status) Bool :=
  .selector none
    [.sequence 0 [.condition "near" true, .action ⟨"chase", false, [.failure]⟩],
      .action ⟨"rest", false, [.success]⟩]

theorem guard_fresh : guard.Fresh := by
  have hnear : (Node.condition "near" true : Node (List Status) Bool).Fresh :=
    (everywhere_leaf rfl).mpr trivial
  have haction : ∀ (name : String) (script : List Status),
      (Node.action ⟨name, false, script⟩ : Node (List Status) Bool).Fresh :=
    fun _ _ => (everywhere_leaf rfl).mpr rfl
  have hhunt : (Node.sequence 0 [.condition "near" true,
      .action ⟨"chase", false, [.running, .failure]⟩] : Node (List Status) Bool).Fresh :=
    @fresh_composite _ _ .sequence _ (by simp [hnear, haction])
  exact @fresh_composite _ _ .selector _ (by simp [hhunt, haction])

theorem guard_step : Step .scripted guard
    (.ticked .running [(0, .test (.ok true)), (1, .enter), (1, .tick (.ok .running))]) guardChasing :=
  .tick (show guard.tick .scripted 0 () = (.ok .running, guardChasing, ()) from rfl)

theorem guardChasing_step : Step .scripted guardChasing
    (.ticked .running
      [(1, .tick (.ok .failure)), (1, .exit), (2, .enter), (2, .tick (.ok .running))]) guardResting :=
  .tick (show guardChasing.tick .scripted 0 () = (.ok .running, guardResting, ()) from rfl)

theorem guardResting_step : Step .scripted guardResting
    (.ticked .success [(2, .tick (.ok .success)), (2, .exit)]) guardRested :=
  .tick (show guardResting.tick .scripted 0 () = (.ok .success, guardRested, ()) from rfl)

end Node

end BehaviorTree
