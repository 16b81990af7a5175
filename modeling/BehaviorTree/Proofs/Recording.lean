/-
# BehaviorTree.Proofs.Recording — the log of a tree is what its leaves write down

`Node.calls` and `Node.exits` say which calls a tick and an abort make. This module checks them against
the tick and the abort themselves. `Leaves.recording` are the same leaves, but each of them carries a
number and writes down every call that it receives. In a tree of such leaves, numbered in document
order, an ordinary tick leaves exactly the log of the tick behind (`Node.tick_recording`), and an abort
the log of the abort (`Node.abort_recording`). Waits cannot write anything down, so their calls are left
out here; that the log is right about them shows in what a tick does to each leaf (`Proofs.Fringe`).

`RecordedRun` is a run of such a tree: its turns are what the leaves have written down, and nothing is
said in it about what a tick or an abort should call. Every run is recorded (`Run.recorded`), and every
recorded run is the record of a run (`RecordedRun.plain`).
-/
import BehaviorTree.Proofs.Fringe

namespace BehaviorTree

variable {α κ ω φ : Type}

/-! ## § Leaves that write down their calls -/

/-- **`Leaves.recording`** — the same leaves, each with a number under which it writes down every call
at the end of a log that the calls share. -/
def Leaves.recording (kit : Leaves α κ ω φ) :
    Leaves (Nat × α) (Nat × κ) (ω × LeafLog φ) φ where
  enter := fun (i, leaf) (s, log) =>
    let (leaf, s) := kit.enter leaf s
    ((i, leaf), s, log ++ [(i, .enter)])
  tick := fun (i, leaf) dt (s, log) =>
    let (answer, leaf, s) := kit.tick leaf dt s
    (answer, (i, leaf), s, log ++ [(i, .tick answer)])
  exit := fun (i, leaf) (s, log) =>
    let (leaf, s) := kit.exit leaf s
    ((i, leaf), s, log ++ [(i, .exit)])
  test := fun (i, leaf) (s, log) =>
    let (answer, s) := kit.test leaf s
    (answer, s, log ++ [(i, .test answer)])

/-- Whether a call can be written down: all can but those of waits. -/
def LeafCall.audible : LeafCall φ → Bool
  | .wait _ => false
  | _ => true

/-- The calls that can be written down. -/
def LeafLog.audible (log : LeafLog φ) : LeafLog φ :=
  log.filter fun (_, call) => call.audible

theorem LeafLog.audible_append (log more : LeafLog φ) :
    audible (log ++ more) = audible log ++ audible more :=
  List.filter_append _ _

/-- The calls of one leaf that can be written down. -/
theorem LeafLog.ofLeaf_audible (leaf : Nat) (log : LeafLog φ) :
    ofLeaf leaf (audible log) = (ofLeaf leaf log).filter LeafCall.audible := by
  induction log with
  | nil => rfl
  | cons entry rest ih =>
    obtain ⟨other, call⟩ := entry
    unfold audible ofLeaf at ih ⊢
    by_cases hleaf : other = leaf <;> cases hcall : call.audible <;> simp [hleaf, hcall, ih]

/-- A fault is never the answer of a wait. -/
theorem LeafLog.mem_visits_audible {leaf : Nat} {fault : φ} {log : LeafLog φ}
    (h : (leaf, .error fault) ∈ visits log) : (leaf, .error fault) ∈ visits (audible log) := by
  obtain ⟨⟨other, call⟩, hentry, hvisit⟩ := List.mem_filterMap.mp h
  refine List.mem_filterMap.mpr ⟨(other, call), List.mem_filter.mpr ⟨hentry, ?_⟩, hvisit⟩
  cases call with
  | wait status => simp [LeafCall.answer?] at hvisit
  | enter | tick | test | exit => rfl

namespace Node

mutual

/-- The tree with its leaves numbered in document order, from `first` on. -/
def numbered : Nat → Node α κ → Node (Nat × α) (Nat × κ)
  | first, .selector running children => .selector running (numberedAll first children)
  | first, .sequence index children => .sequence index (numberedAll first children)
  | first, .action node => .action ⟨node.name, node.entered, (first, node.leaf)⟩
  | first, .condition name leaf => .condition name (first, leaf)
  | _, .wait timer => .wait timer

/-- Several trees with their leaves numbered. -/
def numberedAll : Nat → List (Node α κ) → List (Node (Nat × α) (Nat × κ))
  | _, [] => []
  | first, node :: rest => numbered first node :: numberedAll (first + node.leaves) rest

end

theorem numbered_composite (first : Nat) (kind : Composite) (cursor : Option Nat)
    (children : List (Node α κ)) :
    numbered first (kind.node cursor children) = kind.node cursor (numberedAll first children) := by
  cases kind <;> rfl

end Node

/-- One tick of a recording action leaves the calls of that action behind. -/
theorem ActionNode.tick_recording (kit : Leaves α κ ω φ) (dt : Float32) (i : Nat) (n : ActionNode α)
    (s : ω) (log : LeafLog φ) :
    ActionNode.tick kit.recording dt ⟨n.name, n.entered, (i, n.leaf)⟩ (s, log) =
      let r := n.tick kit dt s
      (r.1, ⟨r.2.1.name, r.2.1.entered, (i, r.2.1.leaf)⟩, r.2.2,
        log ++ LeafLog.audible ((n.calls kit dt s).map (i, ·))) := by
  obtain ⟨name, entered, leaf⟩ := n
  cases entered with
  | true =>
    rcases ht : kit.tick leaf dt s with ⟨answer, leaf', s'⟩
    rcases answer with fault | status
    · simp [ActionNode.tick, ActionNode.calls, LeafCall.ofTick, Leaves.recording, LeafLog.audible,
        LeafCall.audible, goesOn, ht]
    · cases status <;>
        simp [ActionNode.tick, ActionNode.calls, LeafCall.ofTick, Leaves.recording, LeafLog.audible,
          LeafCall.audible, goesOn, ht]
  | false =>
    rcases he : kit.enter leaf s with ⟨leaf₁, s₁⟩
    rcases ht : kit.tick leaf₁ dt s₁ with ⟨answer, leaf', s'⟩
    rcases answer with fault | status
    · simp [ActionNode.tick, ActionNode.calls, LeafCall.ofTick, Leaves.recording, LeafLog.audible,
        LeafCall.audible, goesOn, he, ht]
    · cases status <;>
        simp [ActionNode.tick, ActionNode.calls, LeafCall.ofTick, Leaves.recording, LeafLog.audible,
          LeafCall.audible, goesOn, he, ht]

/-- A walk through recording children leaves the log of the walk behind if their ticks do. -/
theorem Walk.recording {kit : Leaves α κ ω φ} {dt : Float32} {onward : Status} {first skip : Nat}
    {children children' : List (Node α κ)} {s s' : ω} {log : LeafLog φ} {stop : Node.Stop φ}
    (h : Walk kit dt onward first skip children s log stop children' s')
    (ih : ∀ child ∈ children, ∀ (first : Nat) (s : ω) (before : LeafLog φ),
      (child.numbered first).tick kit.recording dt (s, before) =
        let r := child.tick kit dt s
        (r.1, r.2.1.numbered first, r.2.2,
          before ++ LeafLog.audible (child.calls kit dt first s)))
    (before : LeafLog φ) :
    Node.tickFrom kit.recording dt onward skip (Node.numberedAll first children) (s, before) =
      (stop, Node.numberedAll first children', s', before ++ LeafLog.audible log) := by
  induction h generalizing before with
  | @through first skip s =>
    cases skip <;> simp [Node.tickFrom, Node.numberedAll, LeafLog.audible]
  | skip _ ihrest =>
    simp only [Node.numberedAll, Node.tickFrom,
      ihrest (fun c hc => ih c (List.mem_cons_of_mem _ hc))]
  | pass ht _ ihrest =>
    simp only [Node.numberedAll, Node.tickFrom, ih _ List.mem_cons_self, ht, Node.tick_leaves ht,
      ihrest (fun c hc => ih c (List.mem_cons_of_mem _ hc)), LeafLog.audible_append,
      List.append_assoc, if_true]
  | @stop _ _ _ _ _ _ answer ht hne =>
    cases answer with
    | error fault =>
      simp only [Node.numberedAll, Node.tickFrom, ih _ List.mem_cons_self, ht, Node.tick_leaves ht]
    | ok status =>
      have hon : status ≠ onward := fun heq => hne (heq ▸ rfl)
      simp only [Node.numberedAll, Node.tickFrom, ih _ List.mem_cons_self, ht, Node.tick_leaves ht,
        if_neg hon]

/-- **`Node.tick_recording`** — the log of a tick is what numbered leaves write down during it, and
writing it down changes nothing else. -/
theorem Node.tick_recording (kit : Leaves α κ ω φ) (dt : Float32) (tree : Node α κ) (first : Nat)
    (s : ω) (before : LeafLog φ) :
    (tree.numbered first).tick kit.recording dt (s, before) =
      let r := tree.tick kit dt s
      (r.1, r.2.1.numbered first, r.2.2, before ++ LeafLog.audible (tree.calls kit dt first s)) := by
  induction tree using Node.induction generalizing first s before with
  | composite kind cursor children ih =>
    have hwalk := Walk.of_tickFrom kit dt (.ofBool kind.onward) children first (cursor.getD 0) s
    have hrecorded := hwalk.recording ih before
    rw [numbered_composite, Composite.tick_eq, Composite.tick_eq, hrecorded, calls_composite]
    simp only [numbered_composite]
  | action node =>
    simp only [numbered, tick, calls, ActionNode.tick_recording]
  | condition name leaf =>
    simp [numbered, tick, calls, Leaves.recording, LeafLog.audible, LeafCall.audible]
  | wait timer =>
    simp [numbered, tick, calls, LeafLog.audible, LeafCall.audible]

/-- **`Node.abort_recording`** — the log of an abort is what numbered leaves write down during it. -/
theorem Node.abort_recording (kit : Leaves α κ ω φ) (tree : Node α κ) (first : Nat) (s : ω)
    (before : LeafLog φ) :
    (tree.numbered first).abort kit.recording (s, before) =
      let r := tree.abort kit s
      (r.1.numbered first, r.2, before ++ exits first tree) := by
  induction tree using Node.induction generalizing first s before with
  | composite kind cursor children ih =>
    have hall : ∀ (first : Nat) (s : ω) (before : LeafLog φ),
        abortAll kit.recording (numberedAll first children) (s, before) =
          (numberedAll first (abortAll kit children s).1, (abortAll kit children s).2,
            before ++ exitsAll first children) := by
      clear cursor
      induction children with
      | nil => simp [numberedAll, abortAll, exitsAll, heldAll]
      | cons child rest ihrest =>
        intro first s before
        have hleaves : (child.abort kit s).1.leaves = child.leaves :=
          congrArg Formula.leaves (abort_formula kit child s)
        simp only [numberedAll, abortAll, exitsAll_cons, ih child List.mem_cons_self, hleaves,
          ihrest (fun c hc => ih c (List.mem_cons_of_mem _ hc)), List.append_assoc]
    rw [numbered_composite, Composite.abort_eq, Composite.abort_eq, hall, exits_composite]
    simp only [numbered_composite]
  | action node =>
    obtain ⟨name, entered, leaf⟩ := node
    cases entered <;> simp [numbered, abort, exits, held, ActionNode.abort, Leaves.recording]
  | condition name leaf => simp [numbered, abort, exits, held]
  | wait timer => simp [numbered, abort, exits, held]

/-! ## § The leaves of a numbered tree -/

namespace Node

theorem leaves_numbered (tree : Node α κ) (first : Nat) : (tree.numbered first).leaves = tree.leaves := by
  induction tree using Node.induction generalizing first with
  | composite kind cursor children ih =>
    rw [numbered_composite, leaves_composite, leaves_composite]
    clear cursor
    induction children generalizing first with
    | nil => rfl
    | cons child rest ihrest =>
      rw [numberedAll, leavesAll_cons, leavesAll_cons, ih child List.mem_cons_self,
        ihrest (fun c hc => ih c (.tail _ hc))]
  | action node => rfl
  | condition name leaf => rfl
  | wait timer => rfl

/-- The leaf at each place carries the number of its place. -/
theorem fringe_numbered {tree leaf : Node α κ} {i : Nat} (first : Nat) (h : tree.fringe[i]? = some leaf) :
    (tree.numbered first).fringe[i]? = some (leaf.numbered (first + i)) := by
  induction tree using Node.induction generalizing first i with
  | composite kind cursor children ih =>
    rw [fringe_composite] at h
    rw [numbered_composite, fringe_composite]
    clear cursor
    induction children generalizing first i with
    | nil => cases h
    | cons child rest ihrest =>
      rcases child.lt_or_eq_add i with hi | ⟨j, rfl⟩
      · rw [fringeAll_left hi] at h
        rw [numberedAll, fringeAll_left (by rwa [leaves_numbered])]
        exact ih child List.mem_cons_self first h
      · rw [fringeAll_right] at h
        have hrest := ihrest (fun c hc => ih c (.tail _ hc)) (first + child.leaves) h
        rw [numberedAll, ← child.leaves_numbered first, fringeAll_right, leaves_numbered, ← Nat.add_assoc]
        exact hrest
  | action node =>
    obtain ⟨rfl, rfl⟩ := only_leaf h
    rfl
  | condition name leaf =>
    obtain ⟨rfl, rfl⟩ := only_leaf h
    rfl
  | wait timer =>
    obtain ⟨rfl, rfl⟩ := only_leaf h
    rfl

end Node

/-! ## § Recorded runs -/

/-- What can be written down of a turn. -/
def Turn.audible : Turn φ → Turn φ
  | .ticked status log => .ticked status log.audible
  | .aborted log => .aborted log.audible

/-- **`RecordedStep`** — one call of the root of a tree of recording leaves that returns. The turn has what the
leaves have written down during the call, and nothing else. -/
inductive RecordedStep (kit : Leaves α κ ω φ) :
    Node (Nat × α) (Nat × κ) → Turn φ → Node (Nat × α) (Nat × κ) → Prop
  | tick {dt : Float32} {tree tree' : Node (Nat × α) (Nat × κ)} {s s' : ω} {status : Status} {written : LeafLog φ} :
      tree.tick kit.recording dt (s, []) = (.ok status, tree', s', written) →
      RecordedStep kit tree (.ticked status written) tree'
  | abort {tree tree' : Node (Nat × α) (Nat × κ)} {s s' : ω} {written : LeafLog φ} :
      tree.abort kit.recording (s, []) = (tree', s', written) →
      RecordedStep kit tree (.aborted written) tree'

/-- **`RecordedRun`** — calls of the root of a tree of recording leaves, one after the other. -/
inductive RecordedRun (kit : Leaves α κ ω φ) (start : Node (Nat × α) (Nat × κ)) :
    List (Turn φ) → Node (Nat × α) (Nat × κ) → Prop
  | nil : RecordedRun kit start [] start
  | snoc {turns : List (Turn φ)} {turn : Turn φ} {tree tree' : Node (Nat × α) (Nat × κ)} :
      RecordedRun kit start turns tree → RecordedStep kit tree turn tree' →
      RecordedRun kit start (turns ++ [turn]) tree'

variable {kit : Leaves α κ ω φ} {start tree tree' : Node α κ} {turn : Turn φ} {turns : List (Turn φ)}

/-- An abort ticks no wait. -/
theorem LeafLog.audible_exits (tree : Node α κ) (first : Nat) :
    audible (tree.exits first : LeafLog φ) = tree.exits first := by
  refine List.filter_eq_self.mpr fun entry hentry => ?_
  obtain ⟨leaf, -, rfl⟩ := List.mem_map.mp hentry
  rfl

/-- A call of the root is recorded by its leaves. -/
theorem Step.recorded (h : Step kit tree turn tree') :
    RecordedStep kit (tree.numbered 0) turn.audible (tree'.numbered 0) := by
  cases h with
  | @tick dt _ _ s s' status htick =>
    have hrecorded := Node.tick_recording kit dt tree 0 s []
    rw [htick] at hrecorded
    exact .tick hrecorded
  | @abort _ s =>
    rw [Turn.audible, LeafLog.audible_exits]
    exact .abort (Node.abort_recording kit tree 0 s [])

/-- What is recorded is a call of the root. -/
theorem RecordedStep.plain {tree' : Node (Nat × α) (Nat × κ)} (h : RecordedStep kit (tree.numbered 0) turn tree') :
    ∃ full after, Step kit tree full after ∧ turn = full.audible ∧ tree' = after.numbered 0 := by
  generalize htree : tree.numbered 0 = numbered at h
  cases h with
  | @tick dt _ _ s s' status written htick =>
    subst htree
    rw [Node.tick_recording] at htick
    rcases hplain : tree.tick kit dt s with ⟨answer, after, s₁⟩
    rw [hplain] at htick
    cases htick
    exact ⟨_, after, .tick hplain, rfl, rfl⟩
  | @abort _ _ s s' written habort =>
    subst htree
    rw [Node.abort_recording] at habort
    cases habort
    refine ⟨_, _, .abort, ?_, rfl⟩
    rw [Turn.audible, LeafLog.audible_exits]
    rfl

/-- What is recorded of an abort is that every action that is entered is left. -/
theorem RecordedStep.written_eq {tree' : Node (Nat × α) (Nat × κ)} {written : LeafLog φ}
    (h : RecordedStep kit (tree.numbered 0) (.aborted written) tree') : written = tree.exits 0 := by
  cases h with
  | abort habort =>
    rw [Node.abort_recording] at habort
    cases habort
    rfl

/-- So an action writes down that it is left exactly if it was entered, and it is not entered afterwards. -/
theorem RecordedStep.leaves_action {tree' : Node (Nat × α) (Nat × κ)} {written : LeafLog φ}
    (h : RecordedStep kit (tree.numbered 0) (.aborted written) tree') {i : Nat} {node : ActionNode α}
    (hleaf : tree.fringe[i]? = some (.action node)) :
    LeafLog.ofLeaf i written = (if node.entered then [.exit] else []) ∧
      ∃ node', tree'.fringe[i]? = some (.action node') ∧ node'.entered = false := by
  obtain rfl := h.written_eq
  cases h with
  | @abort _ _ s _ _ habort =>
    rw [Node.abort_recording] at habort
    cases habort
    obtain ⟨s₁, hleft, hcalls⟩ := Node.abort_leaf kit tree 0 s hleaf
    rw [Nat.zero_add] at hcalls
    refine ⟨?_, _, Node.fringe_numbered 0 hleft, ActionNode.abort_entered kit node s₁⟩
    rw [hcalls]
    cases hentered : node.entered <;> simp [Node.exits, Node.held, hentered]

/-- **`Run.recorded`** — every run is recorded by its leaves. -/
theorem Run.recorded (h : Run kit start turns tree) :
    RecordedRun kit (start.numbered 0) (turns.map Turn.audible) (tree.numbered 0) := by
  induction h with
  | nil => exact .nil
  | snoc _ hstep ih =>
    rw [List.map_append]
    exact ih.snoc hstep.recorded

/-- **`RecordedRun.plain`** — every recorded run is the record of a run. -/
theorem RecordedRun.plain {tree : Node (Nat × α) (Nat × κ)} (h : RecordedRun kit (start.numbered 0) turns tree) :
    ∃ full after, Run kit start full after ∧ turns = full.map Turn.audible ∧ tree = after.numbered 0 := by
  induction h with
  | nil => exact ⟨[], start, .nil, rfl, rfl⟩
  | snoc _ hstep ih =>
    obtain ⟨full, after, hrun, rfl, rfl⟩ := ih
    obtain ⟨turn, after', hplain, rfl, rfl⟩ := hstep.plain
    exact ⟨full ++ [turn], after', hrun.snoc hplain, by simp, rfl⟩

end BehaviorTree
