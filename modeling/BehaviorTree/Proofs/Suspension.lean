/-
# BehaviorTree.Proofs.Suspension — what a tree remembers between two ticks

Between two ticks a tree is at rest, or it is suspended. At rest, nothing in it has begun. Suspended,
its cursors lead down to one leaf, an action that is entered or a wait; the children before a cursor
have been passed, and everything off the way is at rest.

`Node.Suspended` is this invariant, with the record of what the run has learned so far: the outcomes of
the leaves before the running one, which are the evaluations of the children that were passed. The main
statement is `Node.tick_progress`: a tick that answers takes a tree that is at rest or suspended to a
tree that is suspended (if the answer is running) or at rest (if not), and the visits of its log
continue the record. Invariants of runs, the order of visits and the value of a run all follow from it.
-/
import BehaviorTree.Proofs.LeafLog

namespace BehaviorTree

variable {α κ ω φ : Type}

/-! ## § Trees at rest -/

namespace Node

/-- **`Node.below?`** — the node at an address: the child numbers on the way down to it. -/
def below? : Node α κ → List Nat → Option (Node α κ)
  | node, [] => some node
  | node, i :: address => node.children[i]?.bind fun child => child.below? address

/-- Nothing has begun at this node itself. -/
def Idle : Node α κ → Prop
  | .selector running _ => running = none
  | .sequence index _ => index = 0
  | .action node => node.entered = false
  | .condition .. | .wait _ => True

/-- **`Node.Everywhere`** — the property holds of every node of the tree. -/
def Everywhere (P : Node α κ → Prop) (tree : Node α κ) : Prop :=
  ∀ address node, tree.below? address = some node → P node

/-- **`Node.AtRest`** — nothing has begun anywhere in the tree. -/
def AtRest (tree : Node α κ) : Prop :=
  tree.Everywhere Idle

theorem below?_cons {tree child : Node α κ} {i : Nat} (h : tree.children[i]? = some child)
    (address : List Nat) : tree.below? (i :: address) = child.below? address := by
  simp [below?, h]

/-- A property holds everywhere if it holds of the root and everywhere below the children. -/
theorem everywhere_iff (P : Node α κ → Prop) (tree : Node α κ) :
    tree.Everywhere P ↔ P tree ∧ ∀ child ∈ tree.children, child.Everywhere P := by
  constructor
  · intro h
    refine ⟨h [] tree rfl, ?_⟩
    intro child hchild address node hnode
    obtain ⟨i, hi⟩ := List.getElem?_of_mem hchild
    exact h (i :: address) node (by rw [below?_cons hi, hnode])
  · rintro ⟨hroot, hchildren⟩ address node hnode
    cases address with
    | nil =>
      obtain rfl : tree = node := Option.some.inj hnode
      exact hroot
    | cons i address =>
      obtain ⟨child, hchild, hbelow⟩ := Option.bind_eq_some_iff.mp hnode
      exact hchildren child (List.mem_of_getElem? hchild) address node hbelow

/-- A property that implies another one everywhere may be replaced by it. -/
theorem Everywhere.imp {P Q : Node α κ → Prop} {tree : Node α κ} (h : tree.Everywhere P)
    (himp : ∀ node, P node → Q node) : tree.Everywhere Q :=
  fun address node hnode => himp node (h address node hnode)

/-- At a leaf, everywhere is there. -/
theorem everywhere_leaf {P : Node α κ → Prop} {leaf : Node α κ} (h : leaf.children = []) :
    leaf.Everywhere P ↔ P leaf := by
  rw [everywhere_iff, h]
  exact and_iff_left (fun child hchild => absurd hchild List.not_mem_nil)

theorem atRest_iff (tree : Node α κ) :
    tree.AtRest ↔ tree.Idle ∧ ∀ child ∈ tree.children, child.AtRest :=
  everywhere_iff Idle tree

/-- A composite that has not begun is at rest if its children are. -/
theorem atRest_composite (kind : Composite) (children : List (Node α κ)) :
    (kind.node none children).AtRest ↔ ∀ child ∈ children, child.AtRest := by
  rw [atRest_iff, Composite.node_children]
  exact and_iff_right (by cases kind <;> rfl)

/-- A composite at rest begins at its first child. -/
theorem AtRest.cursor {kind : Composite} {cursor : Option Nat} {children : List (Node α κ)}
    (h : (kind.node cursor children).AtRest) :
    cursor.getD 0 = 0 ∧ ∀ child ∈ children, child.AtRest := by
  rw [atRest_iff, Composite.node_children] at h
  refine ⟨?_, h.2⟩
  have hidle := h.1
  cases kind with
  | selector =>
    obtain rfl : cursor = none := hidle
    rfl
  | sequence => exact hidle

theorem atRest_action (node : ActionNode α) :
    (Node.action node : Node α κ).AtRest ↔ node.entered = false :=
  everywhere_leaf rfl

theorem atRest_condition (name : String) (leaf : κ) :
    (Node.condition name leaf : Node α κ).AtRest :=
  (everywhere_leaf rfl).mpr trivial

theorem atRest_wait (timer : Wait) : (Node.wait timer : Node α κ).AtRest :=
  (everywhere_leaf rfl).mpr trivial

/-! ## § Suspended trees -/

mutual

/-- **`Node.Suspended`** — a tree whose first leaf has the number `first` waits for its next tick at the
leaf `leaf`, and before it the run has learned `tally`. -/
def Suspended (first : Nat) (tally : Tally) (leaf : Nat) : Node α κ → Prop
  | .selector none _ => False
  | .selector (some i) children => SuspendedAt false first tally leaf i children
  | .sequence i children => SuspendedAt true first tally leaf i children
  | .action node => node.entered = true ∧ tally = [] ∧ leaf = first
  | .condition .. => False
  | .wait _ => tally = [] ∧ leaf = first

/-- The same for children, of which the one with that index is suspended: those before it have been
passed with the outcome `onward`, and all others are at rest. -/
def SuspendedAt (onward : Bool) (first : Nat) (tally : Tally) (leaf : Nat) :
    Nat → List (Node α κ) → Prop
  | _, [] => False
  | 0, child :: rest => Suspended first tally leaf child ∧ ∀ other ∈ rest, other.AtRest
  | i + 1, child :: rest =>
    child.AtRest ∧ ∃ seen more, tally = seen ++ more ∧
      Formula.Evaluates first child.formula seen onward ∧
      SuspendedAt onward (first + child.leaves) more leaf i rest

end

theorem suspended_composite {first : Nat} {tally : Tally} {leaf : Nat} {kind : Composite} {i : Nat}
    {children : List (Node α κ)} :
    (kind.node (some i) children).Suspended first tally leaf ↔
      SuspendedAt kind.onward first tally leaf i children := by
  cases kind <;> rfl

/-- A suspended composite is suspended at the child where its next tick begins. -/
theorem Suspended.cursor {first : Nat} {tally : Tally} {leaf : Nat} {kind : Composite}
    {cursor : Option Nat} {children : List (Node α κ)}
    (h : (kind.node cursor children).Suspended first tally leaf) :
    SuspendedAt kind.onward first tally leaf (cursor.getD 0) children := by
  match kind, cursor with
  | .selector, some i => exact h
  | .sequence, some i => exact h
  | .sequence, none => exact h

/-- If the suspended child has its record and its leaf in document order, so have the children. -/
theorem SuspendedAt.ordered {onward : Bool} {leaf : Nat} {children : List (Node α κ)}
    (ih : ∀ child ∈ children, ∀ {first : Nat} {tally : Tally}, child.Suspended first tally leaf →
      Formula.Ordered first (first + child.leaves) (tally.map Prod.fst ++ [leaf])) :
    ∀ {first : Nat} {tally : Tally} {i : Nat}, SuspendedAt onward first tally leaf i children →
      Formula.Ordered first (first + leavesAll children) (tally.map Prod.fst ++ [leaf]) := by
  induction children with
  | nil => exact fun h => h.elim
  | cons child rest ihrest =>
    intro first tally i h
    rw [leavesAll_cons, ← Nat.add_assoc]
    cases i with
    | zero => exact (ih child List.mem_cons_self h.1).mono (Nat.le_add_right _ _)
    | succ i =>
      obtain ⟨-, seen, more, rfl, hseen, hmore⟩ := h
      have hrest := ihrest (fun c hc => ih c (.tail _ hc)) hmore
      rw [List.map_append, List.append_assoc]
      exact hseen.ordered.append (Nat.le_add_right _ _) (Nat.le_add_right _ _) hrest

/-- **`Suspended.ordered`** — the leaf at which a tree is suspended comes after all leaves of the
record. -/
theorem Suspended.ordered {tree : Node α κ} {first : Nat} {tally : Tally} {leaf : Nat}
    (h : tree.Suspended first tally leaf) :
    Formula.Ordered first (first + tree.leaves) (tally.map Prod.fst ++ [leaf]) := by
  induction tree using Node.induction generalizing first tally with
  | composite kind cursor children ih =>
    rw [leaves_composite]
    exact SuspendedAt.ordered (fun child hchild => ih child hchild) h.cursor
  | action node =>
    obtain ⟨-, rfl, rfl⟩ := h
    exact Formula.Ordered.singleton ⟨Nat.le_refl leaf, Nat.lt_succ_self leaf⟩
  | condition name leaf => exact h.elim
  | wait timer =>
    obtain ⟨rfl, rfl⟩ := h
    exact Formula.Ordered.singleton ⟨Nat.le_refl leaf, Nat.lt_succ_self leaf⟩

/-- **`Node.Ready`** — the tree is at rest and nothing is learned, or it is suspended after `tally`. -/
inductive Ready (first : Nat) (tree : Node α κ) : Tally → Prop
  | rest : tree.AtRest → Ready first tree []
  | suspended {tally : Tally} {leaf : Nat} :
      tree.Suspended first tally leaf → Ready first tree tally

/-- Children as a walk meets them that skips some: the skipped ones have been passed, the next one is
ready and the others are at rest. -/
def Lined (onward : Bool) (first : Nat) (tally : Tally) : Nat → List (Node α κ) → Prop
  | _, [] => tally = []
  | 0, child :: rest => Ready first child tally ∧ ∀ other ∈ rest, other.AtRest
  | skip + 1, child :: rest =>
    child.AtRest ∧ ∃ seen more, tally = seen ++ more ∧
      Formula.Evaluates first child.formula seen onward ∧
      Lined onward (first + child.leaves) more skip rest

theorem lined_of_atRest {onward : Bool} {first : Nat} {children : List (Node α κ)}
    (h : ∀ child ∈ children, child.AtRest) : Lined onward first [] 0 children := by
  cases children with
  | nil => rfl
  | cons child rest =>
    exact ⟨.rest (h child List.mem_cons_self), fun other hother => h other (.tail _ hother)⟩

theorem SuspendedAt.lined {onward : Bool} {leaf : Nat} {children : List (Node α κ)} :
    ∀ {first : Nat} {tally : Tally} {i : Nat}, SuspendedAt onward first tally leaf i children →
      Lined onward first tally i children := by
  induction children with
  | nil => exact fun h => h.elim
  | cons child rest ih =>
    intro first tally i h
    cases i with
    | zero => exact ⟨.suspended h.1, h.2⟩
    | succ i =>
      obtain ⟨hrest, seen, more, htally, hevaluates, hmore⟩ := h
      exact ⟨hrest, seen, more, htally, hevaluates, ih hmore⟩

/-- A composite that is ready has its children lined up for the walk from its cursor. -/
theorem Ready.lined {first : Nat} {tally : Tally} {kind : Composite} {cursor : Option Nat}
    {children : List (Node α κ)} (h : Ready first (kind.node cursor children) tally) :
    Lined kind.onward first tally (cursor.getD 0) children := by
  cases h with
  | rest h =>
    rw [h.cursor.1]
    exact lined_of_atRest h.cursor.2
  | suspended h => exact h.cursor.lined

end Node

/-! ## § Progress -/

/-- Leaves and outcomes as visits. -/
def Tally.answers (tally : Tally) : List (Nat × Except φ Status) :=
  tally.map fun (leaf, b) => (leaf, .ok (.ofBool b))

namespace Tally

@[simp] theorem answers_append (tally more : Tally) :
    (answers (tally ++ more) : List (Nat × Except φ Status)) = answers tally ++ answers more :=
  List.map_append

@[simp] theorem answers_leaves (tally : Tally) :
    (answers tally : List (Nat × Except φ Status)).map Prod.fst = tally.map Prod.fst := by
  simp [answers, Function.comp_def]

/-- Leaves that have ended have answered success or failure. -/
theorem mem_answers {tally : Tally} {visit : Nat × Except φ Status} (h : visit ∈ tally.answers) :
    ∃ b, visit.2 = .ok (.ofBool b) := by
  obtain ⟨entry, -, rfl⟩ := List.mem_map.mp h
  exact ⟨entry.2, rfl⟩

end Tally

/-- **`Progress`** — what a tick with that answer has done to a run that had learned `tally`: the visits
of its log show what it has learned in addition, and the tree is suspended or at rest. -/
inductive Progress (first : Nat) (tally : Tally) (visits : List (Nat × Except φ Status))
    (tree' : Node α κ) : Status → Prop
  | suspended (learned : Tally) {leaf : Nat} :
      visits = learned.answers ++ [(leaf, .ok .running)] →
      tree'.Suspended first (tally ++ learned) leaf →
      Progress first tally visits tree' .running
  | finished (learned : Tally) {b : Bool} :
      visits = learned.answers → tree'.AtRest →
      Formula.Evaluates first tree'.formula (tally ++ learned) b →
      Progress first tally visits tree' (.ofBool b)

/-- In a tick that answers, every leaf that is visited answers. -/
theorem Progress.answered {first : Nat} {tally : Tally} {visits : List (Nat × Except φ Status)}
    {tree' : Node α κ} {status : Status} (h : Progress first tally visits tree' status) :
    ∀ visit ∈ visits, ∃ status, visit.2 = .ok status := by
  intro visit hvisit
  cases h with
  | suspended learned hvisits _ =>
    rw [hvisits] at hvisit
    rcases List.mem_append.mp hvisit with hvisit | hvisit
    · obtain ⟨b, hb⟩ := Tally.mem_answers hvisit
      exact ⟨.ofBool b, hb⟩
    · obtain rfl := List.mem_singleton.mp hvisit
      exact ⟨.running, rfl⟩
  | finished learned hvisits _ _ =>
    rw [hvisits] at hvisit
    obtain ⟨b, hb⟩ := Tally.mem_answers hvisit
    exact ⟨.ofBool b, hb⟩

/-- The same for a walk: by its stop, all children were passed, or one has decided, or one is
suspended. A fault promises nothing. -/
inductive WalkProgress (onward : Bool) (first : Nat) (tally : Tally)
    (visits : List (Nat × Except φ Status)) (children' : List (Node α κ)) : Node.Stop φ → Prop
  | through (learned : Tally) :
      visits = learned.answers → (∀ child ∈ children', child.AtRest) →
      Formula.EvaluatesFrom onward first (Node.formulaAll children') (tally ++ learned) onward →
      WalkProgress onward first tally visits children' none
  | decided (learned : Tally) {i : Nat} {b : Bool} {status : Status} :
      status = .ofBool b → visits = learned.answers → (∀ child ∈ children', child.AtRest) →
      Formula.EvaluatesFrom onward first (Node.formulaAll children') (tally ++ learned) b →
      WalkProgress onward first tally visits children' (some (i, .ok status))
  | suspended (learned : Tally) {i leaf : Nat} :
      visits = learned.answers ++ [(leaf, .ok .running)] →
      Node.SuspendedAt onward first (tally ++ learned) leaf i children' →
      WalkProgress onward first tally visits children' (some (i, .ok .running))
  | faulted {i : Nat} {fault : φ} :
      WalkProgress onward first tally visits children' (some (i, .error fault))

/-- A child that was passed stands in front of the progress of the others. Its own record `own` may be
older than the tick (then it is part of `tally`) or end with it. -/
theorem WalkProgress.cons {onward : Bool} {first : Nat} {tally more own : Tally} (learned : Tally)
    {visits : List (Nat × Except φ Status)} {child : Node α κ} {rest' : List (Node α κ)}
    {stop : Node.Stop φ}
    (h : WalkProgress onward (first + child.leaves) more visits rest' stop) (hrest : child.AtRest)
    (howned : Formula.Evaluates first child.formula own onward)
    (hrecord : own ++ more = tally ++ learned) :
    WalkProgress onward first tally (learned.answers ++ visits) (child :: rest') stop.shift := by
  have hall : (∀ other ∈ rest', other.AtRest) → ∀ other ∈ child :: rest', other.AtRest :=
    fun h => List.forall_mem_cons.mpr ⟨hrest, h⟩
  -- what is learned later comes after the record of the child
  have hsplit : ∀ later : Tally, tally ++ (learned ++ later) = own ++ (more ++ later) := by
    intro later
    rw [← List.append_assoc, ← hrecord, List.append_assoc]
  cases h with
  | through later hvisits hrest' hevaluates =>
    refine .through (learned ++ later) ?_ (hall hrest') ?_
    · rw [hvisits, Tally.answers_append]
    · rw [hsplit]
      exact Or.inl ⟨own, _, rfl, howned, hevaluates⟩
  | decided later hstatus hvisits hrest' hevaluates =>
    refine .decided (learned ++ later) hstatus ?_ (hall hrest') ?_
    · rw [hvisits, Tally.answers_append]
    · rw [hsplit]
      exact Or.inl ⟨own, _, rfl, howned, hevaluates⟩
  | @suspended later i leaf hvisits hsuspended =>
    have hshown : learned.answers ++ visits
        = (learned ++ later).answers ++ [(leaf, .ok .running)] := by
      rw [hvisits, Tally.answers_append, List.append_assoc]
    refine .suspended (learned ++ later) hshown ?_
    rw [hsplit]
    exact ⟨hrest, own, _, rfl, howned, hsuspended⟩
  | faulted => exact .faulted

/-- The end of a walk, settled, is the progress of the composite. -/
theorem WalkProgress.settle {kind : Composite} {first : Nat} {tally : Tally}
    {visits : List (Nat × Except φ Status)} {children' : List (Node α κ)} {stop : Node.Stop φ}
    {status : Status} {next : Option Nat}
    (h : WalkProgress kind.onward first tally visits children' stop)
    (hsettles : kind.Settles stop (.ok status) next) :
    Progress first tally visits (kind.node next children') status := by
  have hfinished : ∀ (learned : Tally) {b : Bool}, visits = learned.answers →
      (∀ child ∈ children', child.AtRest) →
      Formula.EvaluatesFrom kind.onward first (Node.formulaAll children') (tally ++ learned) b →
      Progress first tally visits (kind.node none children') (.ofBool b) := by
    intro learned b hvisits hrest hevaluates
    refine .finished learned hvisits ((Node.atRest_composite kind children').mpr hrest) ?_
    rwa [Node.formula_composite, Formula.evaluates_composite]
  cases hsettles with
  | through =>
    cases h with
    | through learned hvisits hrest hevaluates => exact hfinished learned hvisits hrest hevaluates
  | decided hne =>
    cases h with
    | decided learned hstatus hvisits hrest hevaluates =>
      rw [hstatus]
      exact hfinished learned hvisits hrest hevaluates
    | suspended => exact absurd rfl hne
  | suspended =>
    cases h with
    | decided _ hstatus => exact absurd hstatus.symm (Status.ofBool_ne_running _)
    | suspended learned hvisits hsuspended =>
      exact .suspended learned hvisits (Node.suspended_composite.mpr hsuspended)

/-- The progress of a walk, from the progress of the children's ticks. -/
theorem Walk.progress {kit : Leaves α κ ω φ} {dt : Float32} {onward : Bool} {first skip : Nat}
    {children children' : List (Node α κ)} {s s' : ω} {log : LeafLog φ} {stop : Node.Stop φ}
    (h : Walk kit dt (.ofBool onward) first skip children s log stop children' s')
    (ih : ∀ child ∈ children, ∀ {first : Nat} {tally : Tally} {s s' : ω} {status : Status}
      {child' : Node α κ}, Node.Ready first child tally →
      child.tick kit dt s = (.ok status, child', s') →
      Progress first tally (LeafLog.visits (child.calls kit dt first s)) child' status)
    {tally : Tally} (hlined : Node.Lined onward first tally skip children) :
    WalkProgress onward first tally (LeafLog.visits log) children' stop := by
  induction h generalizing tally with
  | through =>
    obtain rfl : tally = [] := by simpa [Node.Lined] using hlined
    exact .through [] rfl (by simp) ⟨rfl, rfl⟩
  -- a child that is skipped was passed by an earlier tick, which has learned its record
  | skip _ ihrest =>
    obtain ⟨hrest, seen, more, rfl, hseen, hmore⟩ := hlined
    have hprogress := ihrest (fun c hc => ih c (.tail _ hc)) hmore
    exact hprogress.cons [] hrest hseen (List.append_nil _).symm
  -- a child that is passed now has ended, so its record is complete
  | @pass first child child' rest rest' s s₁ s' log stop ht _ ihrest =>
    obtain ⟨hready, hrest⟩ := hlined
    have hprogress := ihrest (fun c hc => ih c (.tail _ hc)) (Node.lined_of_atRest hrest)
    rw [← Node.tick_leaves ht] at hprogress
    have hchild := ih child List.mem_cons_self hready ht
    generalize hstatus : Status.ofBool onward = status at hchild
    cases hchild with
    | suspended => exact absurd hstatus (Status.ofBool_ne_running onward)
    | finished learned hvisits hrested hevaluates =>
      obtain rfl := Status.ofBool_injective hstatus
      rw [LeafLog.visits_append, hvisits]
      exact hprogress.cons learned hrested hevaluates (List.append_nil _)
  | @stop first child child' rest s s' answer ht hne =>
    obtain ⟨hready, hrest⟩ := hlined
    cases answer with
    | error fault => exact .faulted
    | ok status =>
      have hchild := ih child List.mem_cons_self hready ht
      cases hchild with
      | suspended learned hvisits hsuspended => exact .suspended learned hvisits ⟨hsuspended, hrest⟩
      | @finished learned b hvisits hrested hevaluates =>
        have hb : b = !onward := by
          rw [Bool.eq_not]
          exact fun heq => hne (congrArg (Except.ok ∘ Status.ofBool) heq)
        exact .decided learned rfl hvisits (List.forall_mem_cons.mpr ⟨hrested, hrest⟩)
          (Or.inr ⟨hb, hevaluates⟩)

namespace Node

/-- The progress of an action: its run ends or goes on. -/
theorem action_progress {kit : Leaves α κ ω φ} {dt : Float32} {first : Nat} {tally : Tally}
    {node node' : ActionNode α} {s s' : ω} {status : Status}
    (hready : Ready first (.action node : Node α κ) tally)
    (h : node.tick kit dt s = (.ok status, node', s')) :
    Progress first tally (LeafLog.visits ((node.calls kit dt s).map (first, ·)))
      (.action node' : Node α κ) status := by
  have htally : tally = [] := by
    cases hready with
    | rest => rfl
    | suspended h => exact h.2.1
  subst htally
  obtain ⟨hentered, hcalls⟩ := ActionNode.tick_spec h
  rw [hcalls, LeafLog.visits_ofTick]
  rcases status.running_or_ofBool with rfl | ⟨b, rfl⟩
  · exact .suspended [] rfl ⟨hentered, rfl, rfl⟩
  · refine .finished [(first, b)] rfl ?_ rfl
    rw [atRest_action, hentered]
    cases b <;> rfl

/-- **`Node.tick_progress`** — a tick that answers continues the run of a tree that is ready. -/
theorem tick_progress {kit : Leaves α κ ω φ} {dt : Float32} {tree tree' : Node α κ} {first : Nat}
    {tally : Tally} {s s' : ω} {status : Status} (hready : Ready first tree tally)
    (h : tree.tick kit dt s = (.ok status, tree', s')) :
    Progress first tally (LeafLog.visits (tree.calls kit dt first s)) tree' status := by
  induction tree using Node.induction generalizing first tally s s' status tree' with
  | composite kind cursor children ih =>
    obtain ⟨stop, children', next, hwalk, hsettles, rfl⟩ := walk_of_tick first h
    have hprogress := hwalk.progress (fun child hchild => ih child hchild) hready.lined
    exact hprogress.settle hsettles
  | action node =>
    rcases ht : node.tick kit dt s with ⟨answer, node', s₁⟩
    simp only [tick, ht, Prod.mk.injEq] at h
    obtain ⟨rfl, rfl, rfl⟩ := h
    exact action_progress hready ht
  | condition name leaf =>
    rcases ht : kit.test leaf s with ⟨holds, s₁⟩
    simp only [tick, ht, Prod.mk.injEq] at h
    obtain ⟨hanswer, rfl, rfl⟩ := h
    cases hready with
    | suspended h => exact h.elim
    | rest =>
      cases holds with
      | error fault => simp [Except.map] at hanswer
      | ok b =>
        obtain rfl : Status.ofBool b = status := Except.ok.inj hanswer
        refine .finished [(first, b)] ?_ (atRest_condition name leaf) rfl
        simp [calls, ht, LeafLog.visits, LeafCall.answer?, Tally.answers, Except.map]
  | wait timer =>
    rcases ht : timer.tick dt with ⟨answer, timer'⟩
    simp only [tick, ht, Prod.mk.injEq] at h
    obtain ⟨hanswer, rfl, rfl⟩ := h
    obtain rfl : answer = status := Except.ok.inj hanswer
    have htally : tally = [] := by
      cases hready with
      | rest => rfl
      | suspended h => exact h.1
    subst htally
    have hvisits : LeafLog.visits ((Node.wait timer).calls kit dt first s) = [(first, .ok answer)] := by
      simp [calls, ht, LeafLog.visits, LeafCall.answer?]
    rw [hvisits]
    rcases answer.running_or_ofBool with rfl | ⟨b, rfl⟩
    · exact .suspended [] rfl ⟨rfl, rfl⟩
    · exact .finished [(first, b)] rfl (atRest_wait timer') rfl

end Node

end BehaviorTree
