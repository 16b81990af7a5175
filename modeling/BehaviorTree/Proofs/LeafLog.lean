/-
# BehaviorTree.Proofs.LeafLog — the calls that a tree makes of its leaves

A tick calls some of the leaves: it enters actions, ticks and exits them, tests conditions and ticks
waits. `Node.calls` is the log of these calls, with every leaf named by its number in document order,
and `Node.exits` is the log of an abort.

The log is no second program: it is what the leaves themselves would write down (`Proofs.Recording`).

`Walk` is the graph of a walk through children together with its log. Later proofs about ticks are
inductions over it.
-/
import BehaviorTree.Proofs.Formula

namespace BehaviorTree

variable {α κ ω φ : Type}

/-! ## § Calls and logs -/

/-- A call of a leaf, with what the leaf answered. -/
inductive LeafCall (φ : Type) where
  | enter
  | tick (answer : Except φ Status)
  | test (answer : Except φ Bool)
  | wait (status : Status)
  | exit

/-- Calls in the order in which they were made, each with the number of the leaf. -/
abbrev LeafLog (φ : Type) := List (Nat × LeafCall φ)

/-- The answer of a leaf that was visited: an action ticked, a condition tested or a wait ticked. -/
def LeafCall.answer? : LeafCall φ → Option (Except φ Status)
  | .tick answer => some answer
  | .test answer => some (answer.map Status.ofBool)
  | .wait status => some (.ok status)
  | .enter | .exit => none

namespace LeafLog

/-- The visits of a log: the leaves that were ticked or tested, and what they answered. -/
def visits (log : LeafLog φ) : List (Nat × Except φ Status) :=
  log.filterMap fun (leaf, call) => call.answer?.map (leaf, ·)

/-- The outcome of a visit, unless the leaf is still running or has ended by a fault. -/
def outcome? : Nat × Except φ Status → Option (Nat × Bool)
  | (leaf, .ok status) => status.outcome.map (leaf, ·)
  | (_, .error _) => none

/-- The leaves of a log that came to an end with success or failure, and with which. -/
def completions (log : LeafLog φ) : Tally :=
  (visits log).filterMap outcome?

/-- The calls of one leaf. -/
def ofLeaf (leaf : Nat) (log : LeafLog φ) : List (LeafCall φ) :=
  log.filterMap fun (other, call) => if other = leaf then some call else none

@[simp] theorem visits_append (log more : LeafLog φ) :
    visits (log ++ more) = visits log ++ visits more :=
  List.filterMap_append

@[simp] theorem completions_append (log more : LeafLog φ) :
    completions (log ++ more) = completions log ++ completions more := by
  simp [completions]

@[simp] theorem ofLeaf_append (leaf : Nat) (log more : LeafLog φ) :
    ofLeaf leaf (log ++ more) = ofLeaf leaf log ++ ofLeaf leaf more :=
  List.filterMap_append

/-- All calls of a log are calls of the leaf by which they are named. -/
theorem ofLeaf_named (leaf : Nat) (calls : List (LeafCall φ)) :
    ofLeaf leaf (calls.map (leaf, ·)) = calls := by
  unfold ofLeaf
  rw [List.filterMap_map]
  show calls.filterMap (fun call => if leaf = leaf then some call else none) = calls
  simp

/-- A leaf has no calls in a log that does not name it. -/
theorem ofLeaf_eq_nil {leaf : Nat} {log : LeafLog φ} (h : ∀ entry ∈ log, entry.1 ≠ leaf) :
    ofLeaf leaf log = [] := by
  refine List.filterMap_eq_nil_iff.mpr ?_
  intro entry hentry
  exact if_neg (h entry hentry)

end LeafLog

/-! ## § The log of a tick -/

/-- A run that a fault interrupts or that is running goes on; any other answer ends it. -/
def goesOn : Except φ Status → Bool
  | .ok .running | .error _ => true
  | .ok _ => false

/-- The calls of an action in a tick with that answer: an enter if it was not entered before, the tick,
and an exit if the run does not go on. -/
def LeafCall.ofTick (entered : Bool) (answer : Except φ Status) : List (LeafCall φ) :=
  (if entered then [] else [.enter]) ++ .tick answer :: if goesOn answer then [] else [.exit]

/-- In one tick an action is visited once. -/
theorem LeafLog.visits_ofTick (leaf : Nat) (entered : Bool) (answer : Except φ Status) :
    visits ((LeafCall.ofTick entered answer).map (leaf, ·)) = [(leaf, answer)] := by
  unfold LeafCall.ofTick
  cases entered <;> cases goesOn answer <;> rfl

/-- The calls that one tick of an action makes of its leaf. -/
def ActionNode.calls (kit : Leaves α κ ω φ) (dt : Float32) (n : ActionNode α) (s : ω) :
    List (LeafCall φ) :=
  let (leaf, s) := if n.entered then (n.leaf, s) else kit.enter n.leaf s
  LeafCall.ofTick n.entered (kit.tick leaf dt s).1

namespace Node

mutual

/-- **`Node.calls`** — the calls of leaves in one tick of a tree whose first leaf has the number
`first`. -/
def calls (kit : Leaves α κ ω φ) (dt : Float32) : Nat → Node α κ → ω → LeafLog φ
  | first, .selector running children, s =>
    callsFrom kit dt .failure first (running.getD 0) children s
  | first, .sequence index children, s => callsFrom kit dt .success first index children s
  | first, .action node, s => (node.calls kit dt s).map (first, ·)
  | first, .condition _ leaf, s => [(first, .test (kit.test leaf s).1)]
  | first, .wait timer, _ => [(first, .wait (timer.tick dt).1)]

/-- The calls of leaves in a walk through children. -/
def callsFrom (kit : Leaves α κ ω φ) (dt : Float32) (onward : Status) :
    Nat → Nat → List (Node α κ) → ω → LeafLog φ
  | _, _, [], _ => []
  | first, skip + 1, child :: rest, s => callsFrom kit dt onward (first + child.leaves) skip rest s
  | first, 0, child :: rest, s =>
    calls kit dt first child s ++
      match tick kit dt child s with
      | (.ok status, _, s) =>
        if status = onward then callsFrom kit dt onward (first + child.leaves) 0 rest s else []
      | (.error _, _, _) => []

end

mutual

/-- The actions of a tree that are entered, in document order. -/
def held : Nat → Node α κ → List Nat
  | first, .selector _ children | first, .sequence _ children => heldAll first children
  | first, .action node => if node.entered then [first] else []
  | _, .condition .. | _, .wait _ => []

/-- The actions of several trees that are entered. -/
def heldAll : Nat → List (Node α κ) → List Nat
  | _, [] => []
  | first, node :: rest => held first node ++ heldAll (first + node.leaves) rest

end

/-- **`Node.exits`** — the calls of leaves in an abort: every action that is entered is left. -/
def exits (first : Nat) (tree : Node α κ) : LeafLog φ :=
  (held first tree).map (·, .exit)

/-- The calls of leaves in an abort of several trees. -/
def exitsAll (first : Nat) (trees : List (Node α κ)) : LeafLog φ :=
  (heldAll first trees).map (·, .exit)

theorem exitsAll_cons (first : Nat) (node : Node α κ) (rest : List (Node α κ)) :
    (exitsAll first (node :: rest) : LeafLog φ) =
      exits first node ++ exitsAll (first + node.leaves) rest := by
  unfold exitsAll exits
  rw [heldAll, List.map_append]

theorem calls_composite (kit : Leaves α κ ω φ) (dt : Float32) (first : Nat) (kind : Composite)
    (cursor : Option Nat) (children : List (Node α κ)) (s : ω) :
    (kind.node cursor children).calls kit dt first s =
      callsFrom kit dt (.ofBool kind.onward) first (cursor.getD 0) children s := by
  cases kind <;> rfl

@[simp] theorem held_composite (first : Nat) (kind : Composite) (cursor : Option Nat)
    (children : List (Node α κ)) :
    (kind.node cursor children).held first = heldAll first children := by
  cases kind <;> rfl

theorem exits_composite (first : Nat) (kind : Composite) (cursor : Option Nat)
    (children : List (Node α κ)) :
    ((kind.node cursor children).exits first : LeafLog φ) = exitsAll first children := by
  unfold exits exitsAll
  rw [held_composite]

end Node

/-- **`ActionNode.tick_spec`** — one tick of an action: it is entered afterwards if the run goes on, and
its calls depend on the answer and on whether it was entered before. -/
theorem ActionNode.tick_spec {kit : Leaves α κ ω φ} {dt : Float32} {n n' : ActionNode α} {s s' : ω}
    {answer : Except φ Status} (h : n.tick kit dt s = (answer, n', s')) :
    n'.entered = goesOn answer ∧ n.calls kit dt s = LeafCall.ofTick n.entered answer := by
  rcases hb : (if n.entered then (n.leaf, s) else kit.enter n.leaf s) with ⟨leaf, s₁⟩
  rcases ht : kit.tick leaf dt s₁ with ⟨leafAnswer, leaf', s₂⟩
  have hanswer : leafAnswer = answer ∧ n'.entered = goesOn answer := by
    simp only [tick, hb, ht] at h
    match leafAnswer with
    | .error fault | .ok .running | .ok .success | .ok .failure =>
      simp only [Prod.mk.injEq] at h
      obtain ⟨rfl, rfl, -⟩ := h
      exact ⟨rfl, rfl⟩
  refine ⟨hanswer.2, ?_⟩
  simp only [calls, hb, ht, hanswer.1]

/-! ## § Walks -/

/-- **`Walk`** — the graph of `Node.tickFrom` and `Node.callsFrom`: from where, after how many skipped
children, through which children and in which state the walk goes; then its log, its stop, the children
and the state that it leaves behind. -/
inductive Walk (kit : Leaves α κ ω φ) (dt : Float32) (onward : Status) :
    Nat → Nat → List (Node α κ) → ω → LeafLog φ → Node.Stop φ → List (Node α κ) → ω → Prop
  | through {first skip : Nat} {s : ω} : Walk kit dt onward first skip [] s [] none [] s
  | skip {first skip : Nat} {child : Node α κ} {rest rest' : List (Node α κ)} {s s' : ω}
      {log : LeafLog φ} {stop : Node.Stop φ} :
      Walk kit dt onward (first + child.leaves) skip rest s log stop rest' s' →
      Walk kit dt onward first (skip + 1) (child :: rest) s log stop.shift (child :: rest') s'
  | pass {first : Nat} {child child' : Node α κ} {rest rest' : List (Node α κ)} {s s₁ s' : ω}
      {log : LeafLog φ} {stop : Node.Stop φ} :
      child.tick kit dt s = (.ok onward, child', s₁) →
      Walk kit dt onward (first + child.leaves) 0 rest s₁ log stop rest' s' →
      Walk kit dt onward first 0 (child :: rest) s (child.calls kit dt first s ++ log) stop.shift
        (child' :: rest') s'
  | stop {first : Nat} {child child' : Node α κ} {rest : List (Node α κ)} {s s' : ω}
      {answer : Except φ Status} :
      child.tick kit dt s = (answer, child', s') → answer ≠ .ok onward →
      Walk kit dt onward first 0 (child :: rest) s (child.calls kit dt first s) (some (0, answer))
        (child' :: rest) s'

namespace Walk

variable {kit : Leaves α κ ω φ} {dt : Float32} {onward : Status}

/-- Every walk is in the graph. -/
theorem of_tickFrom (kit : Leaves α κ ω φ) (dt : Float32) (onward : Status) :
    ∀ (children : List (Node α κ)) (first skip : Nat) (s : ω), Walk kit dt onward first skip children s
      (Node.callsFrom kit dt onward first skip children s)
      (Node.tickFrom kit dt onward skip children s).1
      (Node.tickFrom kit dt onward skip children s).2.1
      (Node.tickFrom kit dt onward skip children s).2.2 := by
  intro children
  induction children with
  | nil =>
    intro first skip s
    cases skip <;> exact .through
  | cons child rest ih =>
    intro first skip s
    cases skip with
    | succ skip => exact .skip (ih (first + child.leaves) skip s)
    | zero =>
      rcases ht : child.tick kit dt s with ⟨answer, child', s₁⟩
      simp only [Node.tickFrom, Node.callsFrom, ht]
      cases answer with
      | error fault =>
        rw [List.append_nil]
        exact .stop ht (by simp)
      | ok status =>
        by_cases hon : status = onward
        · subst hon
          simp only [if_true]
          exact .pass ht (ih (first + child.leaves) 0 s₁)
        · simp only [if_neg hon, List.append_nil]
          exact .stop ht (by simpa using hon)

/-- And nothing else is. -/
theorem eq_tickFrom {first skip : Nat} {children children' : List (Node α κ)} {s s' : ω}
    {log : LeafLog φ} {stop : Node.Stop φ}
    (h : Walk kit dt onward first skip children s log stop children' s') :
    Node.tickFrom kit dt onward skip children s = (stop, children', s') ∧
      Node.callsFrom kit dt onward first skip children s = log := by
  induction h with
  | @through _ skip => cases skip <;> exact ⟨rfl, rfl⟩
  | skip _ ih => simp [Node.tickFrom, Node.callsFrom, ih]
  | pass ht _ ih => simp [Node.tickFrom, Node.callsFrom, ht, ih]
  | @stop _ _ _ _ _ _ answer ht hne =>
    cases answer with
    | error fault => simp [Node.tickFrom, Node.callsFrom, ht]
    | ok status =>
      have hon : status ≠ onward := fun heq => hne (heq ▸ rfl)
      simp [Node.tickFrom, Node.callsFrom, ht, hon]

end Walk

/-- **`Node.walk_of_tick`** — a tick of a composite is a walk from its cursor, with the same log, whose
end it settles. -/
theorem Node.walk_of_tick {kit : Leaves α κ ω φ} {dt : Float32} {kind : Composite}
    {cursor : Option Nat} {children : List (Node α κ)} {s s' : ω} {answer : Except φ Status}
    {tree' : Node α κ} (first : Nat)
    (h : (kind.node cursor children).tick kit dt s = (answer, tree', s')) :
    ∃ stop children' next,
      Walk kit dt (.ofBool kind.onward) first (cursor.getD 0) children s
        ((kind.node cursor children).calls kit dt first s) stop children' s' ∧
      kind.Settles stop answer next ∧ tree' = kind.node next children' := by
  obtain ⟨stop, children', next, hwalk, hsettles, hnode⟩ := Composite.tick_cases h
  refine ⟨stop, children', next, ?_, hsettles, hnode⟩
  have hgraph := Walk.of_tickFrom kit dt (.ofBool kind.onward) children first (cursor.getD 0) s
  rwa [hwalk, ← Node.calls_composite] at hgraph

/-! ## § A tick calls leaves of its own tree only -/

/-- All calls of the log are calls of leaves between two numbers. -/
def LeafLog.Within (first last : Nat) (log : LeafLog φ) : Prop :=
  ∀ entry ∈ log, first ≤ entry.1 ∧ entry.1 < last

theorem LeafLog.Within.mono {first last first' last' : Nat} {log : LeafLog φ}
    (h : Within first last log) (hfirst : first' ≤ first) (hlast : last ≤ last') :
    Within first' last' log := by
  intro entry hentry
  have hwithin := h entry hentry
  omega

/-- A walk calls leaves of the children if their ticks do. -/
theorem Walk.within {kit : Leaves α κ ω φ} {dt : Float32} {onward : Status} {first skip : Nat}
    {children children' : List (Node α κ)} {s s' : ω} {log : LeafLog φ} {stop : Node.Stop φ}
    (h : Walk kit dt onward first skip children s log stop children' s')
    (ih : ∀ child ∈ children, ∀ (first : Nat) (s : ω),
      (child.calls kit dt first s).Within first (first + child.leaves)) :
    log.Within first (first + Node.leavesAll children) := by
  induction h with
  | through => exact fun entry hentry => absurd hentry List.not_mem_nil
  | skip _ ihrest =>
    have hrest := ihrest (fun c hc => ih c (List.mem_cons_of_mem _ hc))
    rw [Node.leavesAll_cons]
    exact hrest.mono (by omega) (by omega)
  | @pass first child _ _ _ s _ _ _ _ _ _ ihrest =>
    have hchild := ih child List.mem_cons_self first s
    have hrest := ihrest (fun c hc => ih c (List.mem_cons_of_mem _ hc))
    rw [Node.leavesAll_cons]
    refine List.forall_mem_append.mpr ⟨?_, ?_⟩
    · exact hchild.mono (by omega) (by omega)
    · exact hrest.mono (by omega) (by omega)
  | @stop first child _ _ s _ _ _ _ =>
    have hchild := ih child List.mem_cons_self first s
    rw [Node.leavesAll_cons]
    exact hchild.mono (by omega) (by omega)

/-- **`Node.calls_within`** — the calls of a tick are calls of leaves of the tree. -/
theorem Node.calls_within (kit : Leaves α κ ω φ) (dt : Float32) (tree : Node α κ) (first : Nat)
    (s : ω) : (tree.calls kit dt first s).Within first (first + tree.leaves) := by
  induction tree using Node.induction generalizing first s with
  | composite kind cursor children ih =>
    have hwalk := Walk.of_tickFrom kit dt (.ofBool kind.onward) children first (cursor.getD 0) s
    rw [calls_composite, leaves_composite]
    exact hwalk.within ih
  | action node =>
    intro entry hentry
    obtain ⟨call, -, rfl⟩ := List.mem_map.mp hentry
    exact ⟨Nat.le_refl first, Nat.lt_succ_self first⟩
  | condition name leaf =>
    intro entry hentry
    obtain rfl := List.mem_singleton.mp hentry
    exact ⟨Nat.le_refl first, Nat.lt_succ_self first⟩
  | wait timer =>
    intro entry hentry
    obtain rfl := List.mem_singleton.mp hentry
    exact ⟨Nat.le_refl first, Nat.lt_succ_self first⟩

theorem Node.exitsAll_within {children : List (Node α κ)}
    (ih : ∀ child ∈ children, ∀ first : Nat,
      (child.exits first : LeafLog φ).Within first (first + child.leaves)) (first : Nat) :
    (exitsAll first children : LeafLog φ).Within first (first + leavesAll children) := by
  induction children generalizing first with
  | nil => exact fun entry hentry => absurd hentry List.not_mem_nil
  | cons child rest ihrest =>
    have hchild := ih child List.mem_cons_self first
    have hrest := ihrest (fun c hc => ih c (List.mem_cons_of_mem _ hc)) (first + child.leaves)
    rw [exitsAll_cons, leavesAll_cons]
    refine List.forall_mem_append.mpr ⟨?_, ?_⟩
    · exact hchild.mono (by omega) (by omega)
    · exact hrest.mono (by omega) (by omega)

/-- **`Node.exits_within`** — so are the calls of an abort. -/
theorem Node.exits_within (tree : Node α κ) (first : Nat) :
    (tree.exits first : LeafLog φ).Within first (first + tree.leaves) := by
  induction tree using Node.induction generalizing first with
  | composite kind cursor children ih =>
    rw [exits_composite, leaves_composite]
    exact exitsAll_within ih first
  | action node =>
    intro entry hentry
    obtain ⟨leaf, hleaf, rfl⟩ := List.mem_map.mp hentry
    obtain rfl : leaf = first := by simp [held] at hleaf; exact hleaf.2
    exact ⟨Nat.le_refl leaf, Nat.lt_succ_self leaf⟩
  | condition name leaf => exact fun entry hentry => absurd hentry List.not_mem_nil
  | wait timer => exact fun entry hentry => absurd hentry List.not_mem_nil

/-! ## § Ticks and aborts keep the shape -/

namespace Walk

variable {kit : Leaves α κ ω φ} {dt : Float32} {onward : Status}

/-- A walk keeps the shape of the children if their ticks do. -/
theorem formulaAll_eq {first skip : Nat} {children children' : List (Node α κ)} {s s' : ω}
    {log : LeafLog φ} {stop : Node.Stop φ}
    (h : Walk kit dt onward first skip children s log stop children' s')
    (ih : ∀ child ∈ children, ∀ s, (child.tick kit dt s).2.1.formula = child.formula) :
    Node.formulaAll children' = Node.formulaAll children := by
  induction h with
  | through => rfl
  | skip _ ihrest =>
    simp only [Node.formulaAll, ihrest (fun c hc => ih c (List.mem_cons_of_mem _ hc))]
  | @pass _ child child' _ _ s _ _ _ _ ht _ ihrest =>
    have hchild := ih child List.mem_cons_self s
    rw [ht] at hchild
    simp only [Node.formulaAll, hchild, ihrest (fun c hc => ih c (List.mem_cons_of_mem _ hc))]
  | @stop _ child child' _ s _ _ ht _ =>
    have hchild := ih child List.mem_cons_self s
    rw [ht] at hchild
    simp only [Node.formulaAll, hchild]

end Walk

namespace Node

/-- **`Node.tick_formula`** — a tick leaves the shape of the tree as it is. -/
theorem tick_formula (kit : Leaves α κ ω φ) (dt : Float32) (tree : Node α κ) (s : ω) :
    (tree.tick kit dt s).2.1.formula = tree.formula := by
  induction tree using Node.induction generalizing s with
  | composite kind cursor children ih =>
    rcases ht : (kind.node cursor children).tick kit dt s with ⟨answer, tree', s'⟩
    obtain ⟨stop, children', next, hwalk, -, rfl⟩ := Node.walk_of_tick 0 ht
    rw [formula_composite, formula_composite, hwalk.formulaAll_eq ih]
  | action node => rfl
  | condition name leaf => rfl
  | wait timer => rfl

theorem tick_leaves {kit : Leaves α κ ω φ} {dt : Float32} {tree tree' : Node α κ} {s s' : ω}
    {answer : Except φ Status} (h : tree.tick kit dt s = (answer, tree', s')) :
    tree'.leaves = tree.leaves := by
  have hformula := tick_formula kit dt tree s
  rw [h] at hformula
  exact congrArg Formula.leaves hformula

theorem abortAll_formula {kit : Leaves α κ ω φ} {children : List (Node α κ)}
    (ih : ∀ child ∈ children, ∀ s, (child.abort kit s).1.formula = child.formula) (s : ω) :
    formulaAll (abortAll kit children s).1 = formulaAll children := by
  induction children generalizing s with
  | nil => rfl
  | cons child rest ihrest =>
    simp only [abortAll, formulaAll, ih child List.mem_cons_self,
      ihrest (fun c hc => ih c (List.mem_cons_of_mem _ hc))]

/-- **`Node.abort_formula`** — so does an abort. -/
theorem abort_formula (kit : Leaves α κ ω φ) (tree : Node α κ) (s : ω) :
    (tree.abort kit s).1.formula = tree.formula := by
  induction tree using Node.induction generalizing s with
  | composite kind cursor children ih =>
    rw [Composite.abort_eq, formula_composite, formula_composite, abortAll_formula ih]
  | action node => rfl
  | condition name leaf => rfl
  | wait timer => rfl

end Node

end BehaviorTree
