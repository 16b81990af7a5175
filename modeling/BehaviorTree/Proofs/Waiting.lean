/-
# BehaviorTree.Proofs.Waiting — a wait is ticked down once

A wait is reached in some ticks of the root and not in others, and around it everything is set back time and again:
by failures, by successes, by aborts. None of this gives a wait any of its time back. Its time is its seconds less
the times of the ticks that have reached it, in turn, up to the first one that succeeded (`Wait.left`); from that tick
on it is spent and succeeds at once.

The wait alone is a small machine with one rule (`Wait.Keeps.tick`). In a tree it is ticked now and then, at most once
in each tick of the root, and nothing else is done to it (`TimedStep.wait`).
-/
import BehaviorTree.Proofs.Fringe
import BehaviorTree.Proofs.SingleArithmetic
import BehaviorTree.Proofs.Steps

namespace BehaviorTree

variable {α κ ω φ : Type}

/-! ## § What is left of a wait -/

namespace Wait

/-- A time that counts is a positive number. -/
def counts (dt : Float32) : Bool :=
  dt.isFinite ∧ 0 < dt

/-- What is left of a time after a tick. -/
def less (time dt : Float32) : Float32 :=
  if counts dt then time - dt else time

theorem isNaN_less {time : Float32} (h : time.isNaN = false) (dt : Float32) : (less time dt).isNaN = false := by
  unfold less
  split
  · next hcounts => exact Numeric.isNaN_sub h (of_decide_eq_true hcounts).1
  · exact h

/-- The times up to the first tick that succeeded. -/
def untilSuccess : List (Float32 × Status) → List Float32
  | [] => []
  | (dt, status) :: later => dt :: if status = .success then [] else untilSuccess later

/-- The times of the ticks that have found the wait unspent. A wait without a length is spent from the beginning. -/
def unspent (seconds : Float32) (ticks : List (Float32 × Status)) : List Float32 :=
  if seconds ≤ 0 then [] else untilSuccess ticks

/-- **`Wait.left`** — the seconds of a wait less the times that count, of the ticks that have found it unspent, one
after the other. -/
def left (seconds : Float32) (ticks : List (Float32 × Status)) : Float32 :=
  ((unspent seconds ticks).filter counts).foldl (· - ·) seconds

/-- A wait without a length is spent from the beginning, any other one after a tick that succeeded. -/
def Spent (seconds : Float32) (ticks : List (Float32 × Status)) : Prop :=
  seconds ≤ 0 ∨ .success ∈ ticks.map Prod.snd

theorem untilSuccess_concat (ticks : List (Float32 × Status)) (dt : Float32) (status : Status) :
    untilSuccess (ticks ++ [(dt, status)]) =
      untilSuccess ticks ++ if .success ∈ ticks.map Prod.snd then [] else [dt] := by
  induction ticks with
  | nil => simp [untilSuccess]
  | cons tick ticks ih =>
    obtain ⟨dt', status'⟩ := tick
    rw [List.cons_append, untilSuccess, untilSuccess, ih]
    by_cases hstatus : status' = .success
    · simp [hstatus]
    · have hmem : .success ∈ ((dt', status') :: ticks).map Prod.snd ↔ .success ∈ ticks.map Prod.snd := by
        simp [Ne.symm hstatus]
      simp only [hstatus, hmem, if_false, List.cons_append]

section Left

variable {seconds : Float32} {ticks : List (Float32 × Status)}

/-- A wait that is spent loses nothing any more. -/
theorem left_of_spent (h : Spent seconds ticks) (dt : Float32) (status : Status) :
    left seconds (ticks ++ [(dt, status)]) = left seconds ticks := by
  have hunspent : unspent seconds (ticks ++ [(dt, status)]) = unspent seconds ticks := by
    unfold unspent
    split
    · rfl
    · next hlength => rw [untilSuccess_concat, if_pos (h.resolve_left hlength), List.append_nil]
  rw [left, hunspent, left]

/-- A wait that is not spent loses the time of the tick, if it counts. -/
theorem left_of_not_spent (h : ¬Spent seconds ticks) (dt : Float32) (status : Status) :
    left seconds (ticks ++ [(dt, status)]) = less (left seconds ticks) dt := by
  obtain ⟨hlength, hnone⟩ := not_or.mp h
  have hunspent : unspent seconds (ticks ++ [(dt, status)]) = unspent seconds ticks ++ [dt] := by
    rw [unspent, unspent, if_neg hlength, if_neg hlength, untilSuccess_concat, if_neg hnone]
  rw [left, hunspent, List.filter_append, List.foldl_append, ← left]
  cases hcounts : counts dt <;> simp [less, hcounts]

end Left

/-! ## § A wait on its own -/

/-- A wait without a length, or with its time below zero, succeeds and stays as it is. -/
theorem tick_of_done {w : Wait} (h : w.seconds ≤ 0 ∨ w.remaining < 0) (dt : Float32) : w.tick dt = (.success, w) :=
  if_pos h

/-- Any other wait loses the time of the tick, and goes on unless its time is below zero then. -/
theorem tick_of_not_done {w : Wait} (h : ¬(w.seconds ≤ 0 ∨ w.remaining < 0)) (hnumber : w.remaining.isNaN = false)
    (dt : Float32) :
    w.tick dt = (if less w.remaining dt < 0 then .success else .running, ⟨w.seconds, less w.remaining dt⟩) := by
  have htick : w.tick dt =
      (if 0 ≤ less w.remaining dt then .running else .success, ⟨w.seconds, less w.remaining dt⟩) := by
    rw [tick, if_neg h]
    by_cases hcounts : dt.isFinite ∧ 0 < dt <;> simp [less, counts, hcounts]
  rw [htick]
  simp only [Numeric.nonneg_iff (isNaN_less hnumber dt), ite_not]

/-- A tick of a wait, with its time and its answer. -/
def Step (w : Wait) (tick : Float32 × Status) (w' : Wait) : Prop :=
  w.tick tick.1 = (tick.2, w')

/-- **`Wait.Answers`** — the rule of a tick after others: it succeeds if the wait has no length or if its time is below
zero afterwards, and goes on otherwise. After a tick that succeeded it succeeds, and nothing is lost. -/
structure Answers (seconds : Float32) (before : List (Float32 × Status)) (tick : Float32 × Status) : Prop where
  status_eq : tick.2 = if seconds ≤ 0 ∨ left seconds (before ++ [tick]) < 0 then .success else .running
  again : .success ∈ before.map Prod.snd → tick.2 = .success ∧ left seconds (before ++ [tick]) = left seconds before

/-- **`Wait.Keeps`** — the invariant: the time of a wait is what is left of its seconds, a number, and it shows whether
the wait is spent. -/
structure Keeps (seconds : Float32) (ticks : List (Float32 × Status)) (w : Wait) : Prop where
  wait_eq : w = ⟨seconds, left seconds ticks⟩
  number : w.remaining.isNaN = false
  done_iff : w.seconds ≤ 0 ∨ w.remaining < 0 ↔ Spent seconds ticks

variable {seconds : Float32} {ticks : List (Float32 × Status)} {w w' : Wait}

theorem Keeps.full (hnumber : seconds.isNaN = false) : Keeps seconds [] (full seconds) where
  wait_eq := by simp [Wait.full, left, unspent, untilSuccess]
  number := hnumber
  done_iff := by
    -- a time below zero is no length
    refine ⟨fun h => Or.inl (h.elim id Numeric.le_of_lt), fun h => Or.inl (h.resolve_right List.not_mem_nil)⟩

/-- **`Wait.Keeps.tick`** — a tick keeps to the rule, and the invariant is kept. -/
theorem Keeps.tick (h : Keeps seconds ticks w) {tick : Float32 × Status} (hstep : Step w tick w') :
    Answers seconds ticks tick ∧ Keeps seconds (ticks ++ [tick]) w' := by
  obtain ⟨dt, status⟩ := tick
  obtain ⟨rfl, hnumber, hdone⟩ := h
  unfold Step at hstep
  dsimp only at hnumber hdone hstep
  by_cases hspent : Spent seconds ticks
  · rw [tick_of_done (w := ⟨seconds, left seconds ticks⟩) (hdone.mpr hspent), Prod.mk.injEq] at hstep
    obtain ⟨rfl, rfl⟩ := hstep
    have hleft := left_of_spent hspent dt .success
    refine ⟨⟨?status, fun _ => ⟨rfl, hleft⟩⟩, ⟨by rw [hleft], hnumber, ?done⟩⟩
    case status => rw [hleft, if_pos (hdone.mpr hspent)]
    case done => exact iff_of_true (hdone.mpr hspent) (Or.inr (by simp))
  · have hleft := left_of_not_spent hspent dt status
    rw [tick_of_not_done (w := ⟨seconds, left seconds ticks⟩) (hspent ∘ hdone.mp) hnumber, Prod.mk.injEq] at hstep
    obtain ⟨hstatus, rfl⟩ := hstep
    obtain ⟨hlength, hnone⟩ := not_or.mp hspent
    refine ⟨⟨?status, fun h => absurd h hnone⟩, ⟨by rw [hleft], ?number, ?done⟩⟩
    case status =>
      rw [hleft, ← hstatus]
      simp only [hlength, false_or]
    case number => exact isNaN_less hnumber dt
    case done =>
      have hmem : .success ∈ (ticks ++ [(dt, status)]).map Prod.snd ↔ less (left seconds ticks) dt < 0 := by
        rw [List.map_append, List.mem_append, or_iff_right hnone, ← hstatus]
        split <;> simp [*]
      exact or_congr_right hmem.symm

/-- **`Wait.answers`** — ticks of a wait, one after the other. -/
theorem answers (hnumber : seconds.isNaN = false) (h : Steps Step (full seconds) ticks w) :
    w = ⟨seconds, left seconds ticks⟩ ∧
      ∀ before tick after, ticks = before ++ tick :: after → Answers seconds before tick := by
  obtain ⟨hkeeps, hanswers⟩ := h.each (Keeps seconds) (Keeps.full hnumber) fun _ hkeeps htick => hkeeps.tick htick
  exact ⟨hkeeps.wait_eq, hanswers⟩

end Wait

/-! ## § Waits in a tree -/

/-- A call of the root: a tick with its time and the calls of leaves, or an abort. -/
inductive TimedTurn (φ : Type) where
  | ticked (dt : Float32) (log : LeafLog φ)
  | aborted

/-- **`TimedStep`** — one call of the root, in any state. A tick may also end by a fault. -/
inductive TimedStep (kit : Leaves α κ ω φ) : Node α κ → TimedTurn φ → Node α κ → Prop
  | tick {tree : Node α κ} (dt : Float32) (s : ω) :
      TimedStep kit tree (.ticked dt (tree.calls kit dt 0 s)) (tree.tick kit dt s).2.1
  | abort {tree : Node α κ} (s : ω) : TimedStep kit tree .aborted (tree.abort kit s).1

/-- The answer of a wait. -/
def LeafCall.waited? : LeafCall φ → Option Status
  | .wait status => some status
  | _ => none

/-- The ticks that have reached a wait, with their times and answers. -/
def TimedTurn.reaching (leaf : Nat) : TimedTurn φ → List (Float32 × Status)
  | .ticked dt log => ((log.ofLeaf leaf).filterMap LeafCall.waited?).map (dt, ·)
  | .aborted => []

section Tree

variable {kit : Leaves α κ ω φ} {start tree tree' : Node α κ} {turns : List (TimedTurn φ)} {turn : TimedTurn φ}
  {i : Nat} {w w' : Wait}

/-- **`TimedStep.wait`** — a call of the root ticks a wait once or leaves it alone. -/
theorem TimedStep.wait (h : TimedStep kit tree turn tree') (hleaf : tree.fringe[i]? = some (.wait w)) :
    (turn.reaching i = [] ∧ tree'.fringe[i]? = some (.wait w)) ∨
      ∃ tick w', turn.reaching i = [tick] ∧ tree'.fringe[i]? = some (.wait w') ∧ Wait.Step w tick w' := by
  cases h with
  | tick dt s =>
    obtain ⟨leaf', hleaf', hticked⟩ := Node.tick_leaf kit dt tree 0 s hleaf
    rw [Nat.zero_add] at hticked
    have hreaching : (TimedTurn.ticked dt (tree.calls kit dt 0 s)).reaching i =
        ((LeafLog.ofLeaf i (tree.calls kit dt 0 s)).filterMap LeafCall.waited?).map (dt, ·) := rfl
    rw [hreaching]
    generalize LeafLog.ofLeaf i (tree.calls kit dt 0 s) = calls at hticked
    cases hticked with
    | spared => exact Or.inl ⟨rfl, hleaf'⟩
    | ticked s₁ => exact Or.inr ⟨(dt, (w.tick dt).1), (w.tick dt).2, rfl, hleaf', rfl⟩
  | abort s =>
    obtain ⟨s₁, hleaf', -⟩ := Node.abort_leaf (φ := φ) kit tree 0 s hleaf
    exact Or.inl ⟨rfl, hleaf'⟩

/-- Calls of the root are ticks of a wait. -/
theorem Steps.wait (h : Steps (TimedStep kit) start turns tree) (hleaf : start.fringe[i]? = some (.wait w)) :
    ∃ w', tree.fringe[i]? = some (.wait w') ∧ Steps Wait.Step w (turns.flatMap (TimedTurn.reaching i)) w' := by
  induction h with
  | nil => exact ⟨w, hleaf, .nil⟩
  | snoc _ hstep ih =>
    obtain ⟨w₁, hleaf₁, hticks⟩ := ih
    rw [List.flatMap_append, List.flatMap_singleton]
    rcases hstep.wait hleaf₁ with ⟨hreaching, hleaf'⟩ | ⟨tick, w', hreaching, hleaf', htick⟩
    · rw [hreaching, List.append_nil]
      exact ⟨w₁, hleaf', hticks⟩
    · rw [hreaching]
      exact ⟨w', hleaf', hticks.snoc htick⟩

/-- **`Wait.single_shot`** — a wait is single-shot under every parent. Take any wait of any tree, the seconds of which
are a number, and any calls of the root. After them the time of the wait is its seconds less the times that count of the
ticks that have reached it unspent. A tick that reaches it succeeds if it has no length or if its time is below zero
after that tick, and goes on otherwise; and if it has succeeded before, it succeeds and its time stays as it is. -/
theorem Wait.single_shot {seconds : Float32} (hnumber : seconds.isNaN = false)
    (hleaf : start.fringe[i]? = some (.wait (.full seconds))) (h : Steps (TimedStep kit) start turns tree) :
    tree.fringe[i]? = some (.wait ⟨seconds, left seconds (turns.flatMap (TimedTurn.reaching i))⟩) ∧
      ∀ before dt status after, turns.flatMap (TimedTurn.reaching i) = before ++ (dt, status) :: after →
        status = (if seconds ≤ 0 ∨ left seconds (before ++ [(dt, status)]) < 0 then .success else .running) ∧
        (.success ∈ before.map Prod.snd →
          status = .success ∧ left seconds (before ++ [(dt, status)]) = left seconds before) := by
  obtain ⟨w, hleaf', hticks⟩ := h.wait hleaf
  obtain ⟨rfl, hanswers⟩ := Wait.answers hnumber hticks
  refine ⟨hleaf', ?_⟩
  intro before dt status after hsplit
  obtain ⟨hstatus, hagain⟩ := hanswers before (dt, status) after hsplit
  exact ⟨hstatus, hagain⟩

end Tree

/-- A gatekeeper waits for half a second before he tries the gate, which jams at the second try. -/
def Node.gatekeeper : Node (List Status) Bool :=
  .sequence 0 [.wait (.full 0.5), .action ⟨"gate", false, [.running, .failure]⟩]

/-- The gatekeeper is called back after a quarter of a second, and later the gate jams twice. Three of four ticks have
reached the wait: in the first two the half second went by, and the last one has taken nothing any more. -/
theorem Node.gatekeeper_waited :
    ∃ turns tree, Steps (TimedStep .scripted) gatekeeper turns tree ∧ turns.length = 5 ∧
      turns.flatMap (TimedTurn.reaching 0) = [(0.25, .running), (0.5, .success), (2, .success)] ∧
      tree.fringe[0]? = some (.wait ⟨0.5, 0.5 - 0.25 - 0.5⟩) ∧ (0.5 - 0.25 - 0.5 : Float32) < 0 ∧
      Wait.left 0.5 [(0.25, .running), (0.5, .success), (2, .success)] =
        Wait.left 0.5 [(0.25, .running), (0.5, .success)] := by
  have hstart : Steps (TimedStep .scripted) gatekeeper [] gatekeeper := .nil
  have hrun := ((((hstart.snoc (.tick 0.25 ())).snoc (.abort ())).snoc (.tick 0.5 ())).snoc (.tick 1 ())).snoc
    (.tick 2 ())
  have hwait : gatekeeper.fringe[0]? = some (.wait (.full 0.5)) := rfl
  obtain ⟨hleaf, hticks⟩ := Wait.single_shot (by decide +kernel) hwait hrun
  refine ⟨_, _, hrun, rfl, rfl, hleaf, by decide +kernel, ?_⟩
  exact ((hticks [(0.25, .running), (0.5, .success)] 2 .success [] rfl).2 (by decide)).2

end BehaviorTree
