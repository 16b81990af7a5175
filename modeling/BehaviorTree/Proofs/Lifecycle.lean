/-
# BehaviorTree.Proofs.Lifecycle — activations of actions

An action is entered, ticked once or several times, and left. This is an activation. It ends in one of
two ways: a tick answers with success or failure, and the action is left at once; or all ticks so far
have answered running, and an abort leaves the action.

`Lifecycle` is the language of all calls of one action: activations in a row, the last of which may
still be open. Calls are taken together with the cause by which they were made (`Cause`), a tick or an
abort of the root.

That the log of every run is in the language is an induction over the run (`Run.activations`).
`RecordedRun.lifecycle` says it of the calls that the leaves themselves have written down, and that the
flag of an action tells whether the last activation is open.
-/
import BehaviorTree.Proofs.Entered
import BehaviorTree.Proofs.Recording

namespace BehaviorTree

variable {α κ ω φ : Type}

/-! ## § The language of activations -/

/-- What the owner of the tree does when a leaf is called. -/
inductive Cause where
  | ticking
  | aborting

/-- The calls of one leaf, with their causes. -/
abbrev History (φ : Type) := List (Cause × LeafCall φ)

/-- The calls of a leaf in a turn, with their cause. -/
def Turn.ofLeaf (leaf : Nat) : Turn φ → History φ
  | .ticked _ log => (log.ofLeaf leaf).map (.ticking, ·)
  | .aborted log => (log.ofLeaf leaf).map (.aborting, ·)

/-- An activation that has ended: finished by a tick with that outcome after `n` ticks that answered
running, or aborted after `n + 1` such ticks. -/
inductive Activation where
  | finished (n : Nat) (outcome : Bool)
  | aborted (n : Nat)

/-- The action is entered and ticked `n` times, and it is still running. -/
def History.begun (n : Nat) : History φ :=
  (.ticking, .enter) :: List.replicate n (.ticking, .tick (.ok .running))

/-- The calls of an activation. -/
def Activation.calls : Activation → History φ
  | .finished n outcome =>
    History.begun n ++ [(.ticking, .tick (.ok (.ofBool outcome))), (.ticking, .exit)]
  | .aborted n => History.begun (n + 1) ++ [(.aborting, .exit)]

/-- **`Lifecycle`** — activations in a row, and whether the last one is open. An open one has been ticked
at least once, and every tick has answered running. -/
inductive Lifecycle : History φ → Bool → Prop
  | closed (past : List Activation) : Lifecycle (past.flatMap Activation.calls) false
  | opened (past : List Activation) (n : Nat) :
      Lifecycle (past.flatMap Activation.calls ++ History.begun (n + 1)) true

namespace History

/-- How many calls of a history are of that kind. -/
def count (p : LeafCall φ → Bool) (history : History φ) : Nat :=
  history.countP fun (_, call) => p call

theorem count_append (p : LeafCall φ → Bool) (history more : History φ) :
    count p (history ++ more) = count p history + count p more :=
  List.countP_append

theorem begun_succ (n : Nat) :
    (begun (n + 1) : History φ) = begun n ++ [(.ticking, .tick (.ok .running))] := by
  unfold begun
  rw [List.replicate_succ', List.cons_append]

end History

/-! ## § Enters and exits are paired -/

/-- A call of `enter`. -/
def LeafCall.isEnter : LeafCall φ → Bool
  | .enter => true
  | _ => false

/-- A call of `exit`. -/
def LeafCall.isExit : LeafCall φ → Bool
  | .exit => true
  | _ => false

theorem History.count_begun (n : Nat) :
    count LeafCall.isEnter (begun n : History φ) = 1 ∧
      count LeafCall.isExit (begun n : History φ) = 0 := by
  simp [count, begun, List.countP_replicate, LeafCall.isEnter, LeafCall.isExit]

/-- In activations that have ended, there are as many enters as exits. -/
theorem Activation.paired (past : List Activation) :
    History.count LeafCall.isEnter (past.flatMap Activation.calls : History φ) =
      History.count LeafCall.isExit (past.flatMap Activation.calls : History φ) := by
  induction past with
  | nil => rfl
  | cons activation past ih =>
    have hone : History.count LeafCall.isEnter (activation.calls : History φ) = 1 ∧
        History.count LeafCall.isExit (activation.calls : History φ) = 1 := by
      cases activation with
      | finished n outcome =>
        rw [calls, History.count_append, History.count_append, (History.count_begun n).1,
          (History.count_begun n).2]
        exact ⟨rfl, rfl⟩
      | aborted n =>
        rw [calls, History.count_append, History.count_append, (History.count_begun (n + 1)).1,
          (History.count_begun (n + 1)).2]
        exact ⟨rfl, rfl⟩
    rw [List.flatMap_cons, History.count_append, History.count_append, ih, hone.1, hone.2]

namespace Lifecycle

/-- **`Lifecycle.paired`** — the leaf has been entered once more than left if the last activation is
open, and equally often if not. -/
theorem paired {history : History φ} {entered : Bool} (h : Lifecycle history entered) :
    history.count LeafCall.isEnter = history.count LeafCall.isExit + entered.toNat := by
  cases h with
  | closed past => exact Activation.paired past
  | opened past n =>
    obtain ⟨henter, hexit⟩ := History.count_begun (φ := φ) (n + 1)
    rw [History.count_append, History.count_append, Activation.paired past, henter, hexit]
    rfl

/-! ## § Steps of an action -/

/-- The next activation has ended. -/
theorem concat (past : List Activation) (last : Activation) :
    Lifecycle (past.flatMap Activation.calls ++ last.calls : History φ) false := by
  have hclosed : Lifecycle ((past ++ [last]).flatMap Activation.calls : History φ) false := .closed _
  rwa [List.flatMap_append, List.flatMap_singleton] at hclosed

/-- A tick begins an activation or goes on with the open one, and it ends the activation unless it
answers running. -/
theorem tick {history : History φ} {entered : Bool} (h : Lifecycle history entered) (status : Status) :
    Lifecycle (history ++ (LeafCall.ofTick entered (.ok status)).map (.ticking, ·))
      (goesOn (.ok status : Except φ Status)) := by
  cases h with
  -- the tick enters the action
  | closed past =>
    rcases status.running_or_ofBool with rfl | ⟨b, rfl⟩
    · exact .opened past 0
    · have hended : goesOn (.ok (.ofBool b) : Except φ Status) = false := by cases b <;> rfl
      unfold LeafCall.ofTick
      rw [hended]
      exact concat past (.finished 0 b)
  -- the action goes on where the last tick has left it
  | opened past n =>
    rcases status.running_or_ofBool with rfl | ⟨b, rfl⟩
    · have hopened : Lifecycle (past.flatMap Activation.calls ++ History.begun (n + 2) : History φ)
          true := .opened past (n + 1)
      rwa [History.begun_succ, ← List.append_assoc] at hopened
    · have hended : goesOn (.ok (.ofBool b) : Except φ Status) = false := by cases b <;> rfl
      unfold LeafCall.ofTick
      rw [hended, List.append_assoc]
      exact concat past (.finished (n + 1) b)

/-- An abort ends the open activation, if there is one. -/
theorem abort {history : History φ} {entered : Bool} (h : Lifecycle history entered) :
    Lifecycle (history ++ if entered then [(.aborting, .exit)] else []) false := by
  cases h with
  | closed past =>
    rw [if_neg Bool.false_ne_true, List.append_nil]
    exact .closed past
  | opened past n =>
    rw [if_pos rfl, List.append_assoc]
    exact concat past (.aborted n)

end Lifecycle

/-! ## § Actions in a tree -/

/-- A tick that a leaf shows in a log is a visit of the log. -/
theorem LeafLog.mem_visits {leaf : Nat} {answer : Except φ Status} {log : LeafLog φ}
    (h : .tick answer ∈ log.ofLeaf leaf) : (leaf, answer) ∈ log.visits := by
  obtain ⟨⟨other, call⟩, hentry, hcall⟩ := List.mem_filterMap.mp h
  obtain ⟨rfl, rfl⟩ : other = leaf ∧ call = .tick answer := by simpa using hcall
  exact List.mem_filterMap.mpr ⟨(other, .tick answer), hentry, rfl⟩

/-- A tick of the tree leaves an action alone, or it is one tick of the action. -/
theorem Node.LeafTick.action {kit : Leaves α κ ω φ} {dt : Float32} {node : ActionNode α}
    {calls : List (LeafCall φ)} {leaf' : Node α κ}
    (h : (Node.action node).LeafTick kit dt calls leaf') :
    (calls = [] ∧ leaf' = .action node) ∨ ∃ answer node', calls = LeafCall.ofTick node.entered answer ∧
      leaf' = .action node' ∧ node'.entered = goesOn answer := by
  cases h with
  | spared => exact Or.inl ⟨rfl, rfl⟩
  | ticked s =>
    rcases ht : node.tick kit dt s with ⟨answer, node', s'⟩
    obtain ⟨hentered, hcalls⟩ := ActionNode.tick_spec ht
    refine Or.inr ⟨answer, node', ?_, ?_, hentered⟩
    · simp [Node.calls, hcalls, Function.comp_def]
    · simp only [Node.tick, ht]

/-- **`Step.activations`** — a call of the root continues the lifecycle of every action. -/
theorem Step.activations {kit : Leaves α κ ω φ} {tree tree' : Node α κ} {turn : Turn φ} {tally : Tally}
    (hready : tree.Ready 0 tally) (hstep : Step kit tree turn tree') {i : Nat} {node : ActionNode α}
    (hleaf : tree.fringe[i]? = some (.action node)) {history : History φ}
    (h : Lifecycle history node.entered) :
    ∃ node', tree'.fringe[i]? = some (.action node') ∧
      Lifecycle (history ++ turn.ofLeaf i) node'.entered := by
  cases hstep with
  | @tick dt _ _ s s' status htick =>
    obtain ⟨leaf', hleaf', hticked⟩ := Node.tick_leaf kit dt tree 0 s hleaf
    rw [htick] at hleaf'
    rw [Nat.zero_add] at hticked
    show ∃ node', tree'.fringe[i]? = some (.action node') ∧
      Lifecycle (history ++ (LeafLog.ofLeaf i (tree.calls kit dt 0 s)).map (.ticking, ·)) node'.entered
    rcases hticked.action with ⟨hcalls, rfl⟩ | ⟨answer, node', hcalls, rfl, hentered⟩
    · refine ⟨node, hleaf', ?_⟩
      rw [hcalls, List.map_nil, List.append_nil]
      exact h
    · -- the tick of the tree answers, so the action has answered too
      have hmem : LeafCall.tick answer ∈ LeafLog.ofLeaf i (tree.calls kit dt 0 s) := by
        rw [hcalls]
        simp [LeafCall.ofTick]
      obtain ⟨status, hstatus⟩ := (Node.tick_progress hready htick).answered _ (LeafLog.mem_visits hmem)
      obtain rfl : answer = .ok status := hstatus
      refine ⟨node', hleaf', ?_⟩
      rw [hcalls, hentered]
      exact h.tick status
  | @abort _ s =>
    obtain ⟨s₁, hleaf', hcalls⟩ := Node.abort_leaf kit tree 0 s hleaf
    rw [Nat.zero_add] at hcalls
    refine ⟨(node.abort kit s₁).1, hleaf', ?_⟩
    show Lifecycle (history ++ (LeafLog.ofLeaf i (tree.exits 0)).map (.aborting, ·))
      (node.abort kit s₁).1.entered
    rw [hcalls, ActionNode.abort_entered]
    have haborted := h.abort
    cases hentered : node.entered <;> simpa [Node.exits, Node.held, hentered] using haborted

/-! ## § Runs -/

/-- The calls of an action in a run are activations in a row. -/
theorem Run.activations {kit : Leaves α κ ω φ} {start tree : Node α κ} {turns : List (Turn φ)}
    (hrun : Run kit start turns tree) (hstart : start.AtRest) {i : Nat} {node : ActionNode α}
    (hleaf : start.fringe[i]? = some (.action node)) :
    ∃ node', tree.fringe[i]? = some (.action node') ∧
      Lifecycle (turns.flatMap (Turn.ofLeaf i)) node'.entered := by
  induction hrun with
  | nil =>
    have hidle : node.entered = false := hstart.fringe _ (List.mem_of_getElem? hleaf)
    refine ⟨node, hleaf, ?_⟩
    rw [hidle]
    exact .closed []
  | snoc hrun hstep ih =>
    obtain ⟨node', hleaf', hlifecycle⟩ := ih
    obtain ⟨tally, hready⟩ := (hrun.stands hstart).ready
    rw [List.flatMap_append, List.flatMap_singleton]
    exact hstep.activations hready hleaf' hlifecycle

/-- An abort leaves the action that is entered, if there is one, and calls nothing else. -/
theorem Stands.exits {tree : Node α κ} {last : Option (Turn φ)} (h : Stands tree last) :
    (tree.exits 0 : LeafLog φ) = [] ∨ ∃ leaf, (tree.exits 0 : LeafLog φ) = [(leaf, .exit)] := by
  rcases h.held with hheld | ⟨leaf, hheld⟩ <;> rw [Node.exits, hheld]
  · exact Or.inl rfl
  · exact Or.inr ⟨leaf, rfl⟩

/-- The language has no call that cannot be written down. -/
theorem Lifecycle.audible {history : History φ} {entered : Bool} (h : Lifecycle history entered) :
    ∀ entry ∈ history, entry.2.audible = true := by
  have hbegun : ∀ n, ∀ entry ∈ (History.begun n : History φ), entry.2.audible = true := by
    intro n entry hentry
    rcases List.mem_cons.mp hentry with rfl | hentry
    · rfl
    · obtain rfl := List.eq_of_mem_replicate hentry
      rfl
  have hcalls : ∀ activation : Activation, ∀ entry ∈ (activation.calls : History φ), entry.2.audible = true := by
    intro activation
    cases activation with
    | finished n outcome => exact List.forall_mem_append.mpr ⟨hbegun n, by simp [LeafCall.audible]⟩
    | aborted n => exact List.forall_mem_append.mpr ⟨hbegun (n + 1), by simp [LeafCall.audible]⟩
  have hpast : ∀ past : List Activation, ∀ entry ∈ (past.flatMap Activation.calls : History φ),
      entry.2.audible = true := by
    intro past entry hentry
    obtain ⟨activation, -, hentry⟩ := List.mem_flatMap.mp hentry
    exact hcalls activation entry hentry
  cases h with
  | closed past => exact hpast past
  | opened past n => exact List.forall_mem_append.mpr ⟨hpast past, hbegun (n + 1)⟩

/-- What is written down of the calls of a leaf. -/
theorem Turn.ofLeaf_audible (leaf : Nat) (turn : Turn φ) :
    turn.audible.ofLeaf leaf = (turn.ofLeaf leaf).filter fun entry => entry.2.audible := by
  cases turn with
  | ticked status log | aborted log =>
    simp only [audible, ofLeaf, LeafLog.ofLeaf_audible, List.filter_map, Function.comp_def]

/-- **`RecordedRun.lifecycle`** — take a tree that was built fresh, with leaves that write down their calls, and any
run of it.
* The calls of every action are activations in a row, of which the last one is open exactly if the action is entered;
  and the action has been entered once more than left if it is entered, and equally often if not.
* If the tree is aborted then, the action is left if it is entered, and else not called; and it is not entered
  afterwards. In the whole tree this is one call at most, and a second abort in a row calls none.
* If a tick does not return then, one of its leaves has ended it by a fault. -/
theorem RecordedRun.lifecycle {kit : Leaves α κ ω φ} {start : Node α κ} {tree : Node (Nat × α) (Nat × κ)}
    {turns : List (Turn φ)} (hfresh : start.Fresh) (hrun : RecordedRun kit (start.numbered 0) turns tree) :
    (∀ i node, start.fringe[i]? = some (.action node) →
      ∃ node', tree.fringe[i]? = some (.action node') ∧ node'.leaf.1 = i ∧
        Lifecycle (turns.flatMap (Turn.ofLeaf i)) node'.entered ∧
        History.count LeafCall.isEnter (turns.flatMap (Turn.ofLeaf i)) =
          History.count LeafCall.isExit (turns.flatMap (Turn.ofLeaf i)) + node'.entered.toNat ∧
        ∀ written tree', RecordedStep kit tree (.aborted written) tree' →
          LeafLog.ofLeaf i written = (if node'.entered then [.exit] else []) ∧
            ∃ left, tree'.fringe[i]? = some (.action left) ∧ left.entered = false) ∧
    (∀ written tree', RecordedStep kit tree (.aborted written) tree' →
      (written = [] ∨ ∃ leaf, written = [(leaf, .exit)]) ∧
        ∀ before, turns.getLast? = some (.aborted before) → written = []) ∧
    ∀ dt s fault tree' s' written, tree.tick kit.recording dt (s, []) = (.error fault, tree', s', written) →
      ∃ leaf, (leaf, .error fault) ∈ LeafLog.visits written := by
  obtain ⟨full, after, hplain, rfl, rfl⟩ := hrun.plain
  refine ⟨?actions, ?aborts, ?faults⟩
  case actions =>
    intro i node hleaf
    obtain ⟨node', hleaf', hlifecycle⟩ := hplain.activations hfresh.atRest hleaf
    -- nothing is lost of the calls of an action when they are written down
    have hwritten : (full.map Turn.audible).flatMap (Turn.ofLeaf i) = full.flatMap (Turn.ofLeaf i) := by
      rw [List.flatMap_map, funext (Turn.ofLeaf_audible (φ := φ) i), ← List.filter_flatMap]
      exact List.filter_eq_self.mpr hlifecycle.audible
    rw [hwritten]
    exact ⟨_, after.fringe_numbered 0 hleaf', Nat.zero_add i, hlifecycle, hlifecycle.paired,
      fun written tree' hstep => hstep.leaves_action hleaf'⟩
  case aborts =>
    intro written tree' hstep
    have hstands := hplain.stands hfresh.atRest
    rw [hstep.written_eq]
    refine ⟨hstands.exits, ?_⟩
    intro before hbefore
    rw [List.getLast?_map, Option.map_eq_some_iff] at hbefore
    obtain ⟨last, hlast, hbefore⟩ := hbefore
    rw [hlast] at hstands
    cases last with
    | ticked => cases hbefore
    | aborted log =>
      cases hstands with
      | rest _ hrest => rw [Node.exits, hrest.held_eq, List.map_nil]
  case faults =>
    intro dt s fault tree' s' written htick
    rw [Node.tick_recording] at htick
    rcases hfault : after.tick kit dt s with ⟨answer, after', s₁⟩
    rw [hfault] at htick
    cases htick
    obtain ⟨leaf, hlast⟩ := Node.tick_fault 0 hfault
    exact ⟨leaf, LeafLog.mem_visits_audible (List.mem_of_getLast? hlast)⟩

/-- The guard is called back from its chase: the chase has been activated once, and it is left. -/
theorem Node.guard_lifecycle :
    Lifecycle [(.ticking, .enter), (.ticking, .tick (.ok .running)),
      (.aborting, (.exit : LeafCall Empty))] false := by
  have hrun := (Run.nil.snoc Node.guard_step).snoc (.abort (s := ()))
  obtain ⟨hactions, -⟩ := RecordedRun.lifecycle Node.guard_fresh hrun.recorded
  obtain ⟨node, hnode, -, hlifecycle, -⟩ := hactions 1 _ rfl
  have hchase : some (Node.action ⟨"chase", false, (1, [.failure])⟩) = some (Node.action node) := hnode
  obtain rfl := Node.action.inj (Option.some.inj hchase)
  exact hlifecycle

end BehaviorTree
