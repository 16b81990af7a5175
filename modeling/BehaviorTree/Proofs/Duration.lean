/-
# BehaviorTree.Proofs.Duration — actions that take their time

To listen, to look and to scan take a fixed time each, and to look at the player may fail before. None of them knows
of its earlier runs: to enter it fills its timer, whatever was left there by a run that was completed, that failed or
that was broken off. So in each tick the answer depends on the duration and on the times since the last enter
(`ActionTurn.left`), and on the player if the action looks at the player (`Action.takes_its_time`).

What entering, ticking and leaving do to the timer is the same for the three actions (`timer?_enter`, `tick_timed`,
`timer?_exit`); behind these lemmas they are not told apart.
-/
import BehaviorTree.Leaf.BuiltIn
import BehaviorTree.Proofs.ActionRun

namespace BehaviorTree

variable {α χ ω φ : Type}

/-! ## § Timers of actions -/

theorem Situation.draw_world {ρ : Type} (s : Situation) (d : Random.SplitMix → ρ × Random.SplitMix) :
    (s.draw d).2.world = s.world :=
  rfl

namespace Action

/-- The timer of an action that takes a fixed time. -/
def timer? : Action χ → Option Timer
  | .listen timer => some timer
  | .look l => some l.timer
  | .scan c => some c.timer
  | .move _ => none

/-- Whether an action needs a player to look at. -/
def needsPlayer : Action χ → Bool
  | .look l => l.aim = .player
  | _ => false

/-- An action misses the player if it needs one and there is none. -/
def Misses (a : Action χ) (s : Situation) : Prop :=
  a.needsPlayer = true ∧ s.world.player = none

instance (a : Action χ) (s : Situation) : Decidable (a.Misses s) :=
  inferInstanceAs (Decidable (_ ∧ _))

theorem timer?_enter (a : Action χ) (s : Situation) : (a.enter s).1.timer? = a.timer?.map Timer.restart := by
  cases a <;> rfl

theorem needsPlayer_enter (a : Action χ) (s : Situation) : (a.enter s).1.needsPlayer = a.needsPlayer := by
  cases a <;> rfl

theorem world_enter (a : Action χ) (s : Situation) : (a.enter s).2.world = s.world := by
  cases a with
  | listen | look | move => rfl
  | scan c =>
    simp only [enter, Scan.enter, Scan.chooseBase]
    split
    · rfl
    · split
      · exact Situation.draw_world s Random.unit
      · rfl

theorem timer?_exit (a : Action χ) : a.exit.timer? = a.timer? := by
  cases a with
  | listen | look | move => rfl
  | scan c =>
    simp only [exit, Scan.exit]
    split <;> rfl

theorem needsPlayer_exit (a : Action χ) : a.exit.needsPlayer = a.needsPlayer := by
  cases a <;> rfl

theorem needsPlayer_tick (host : HostProviders χ) (a : Action χ) (dt : Float32) (s : Situation) :
    (a.tick host dt s).2.1.needsPlayer = a.needsPlayer := by
  cases a with
  | listen | move => rfl
  | look l =>
    simp only [tick, Look.tick]
    split <;> rfl
  | scan c =>
    simp only [tick, Scan.tick]
    split <;> rfl

/-- An action that misses the player fails and stays as it is. -/
theorem tick_of_misses (host : HostProviders χ) {a : Action χ} (dt : Float32) {s : Situation} (h : a.Misses s) :
    a.tick host dt s = (.failure, a, s) := by
  obtain ⟨hneeds, hnone⟩ := h
  cases a with
  | listen | scan | move => cases hneeds
  | look l =>
    have haim : l.aim = .player := of_decide_eq_true hneeds
    have htarget : l.aim.target? s.world = none := by rw [haim]; exact hnone
    simp only [tick, Look.tick, htarget]

/-- **`Action.tick_timed`** — a tick of any other action with a timer is one of its timer. -/
theorem tick_timed (host : HostProviders χ) {a : Action χ} {timer : Timer} (htimer : a.timer? = some timer)
    (dt : Float32) {s : Situation} (h : ¬a.Misses s) :
    (a.tick host dt s).1 = (timer.pass dt).1 ∧ (a.tick host dt s).2.1.timer? = some (timer.pass dt).2 := by
  cases a with
  | listen =>
    obtain rfl := Option.some.inj htimer
    exact ⟨rfl, rfl⟩
  | look l =>
    obtain rfl := Option.some.inj htimer
    -- there is something to look at: the point, or a player
    have htarget : ∃ cell, l.aim.target? s.world = some cell := by
      cases haim : l.aim with
      | point cell => exact ⟨cell, rfl⟩
      | player => exact Option.ne_none_iff_exists'.mp fun hnone => h ⟨decide_eq_true haim, hnone⟩
    obtain ⟨cell, htarget⟩ := htarget
    simp only [tick, Look.tick, htarget, timer?, and_self]
  | scan c =>
    obtain rfl := Option.some.inj htimer
    simp only [tick, Scan.tick]
    split <;> exact ⟨rfl, rfl⟩
  | move => cases htimer

end Action

/-! ## § The time since the last enter -/

/-- **`ActionTurn.left`** — a duration less the times of the ticks since the last enter, one after the other. -/
def ActionTurn.left (duration : Float32) (turns : List (ActionTurn α ω φ)) : Float32 :=
  ((ActionTurn.underway turns).filterMap ActionTurn.time?).foldl (· - ·) duration

theorem ActionTurn.left_of_isOpen (duration : Float32) {turns : List (ActionTurn α ω φ)} {dt : Float32} {s s' : ω}
    {answer : Except φ Status} {leaf : α} (h : goesOn answer = true) :
    ActionTurn.left duration (turns ++ [.ticked dt s answer leaf s']) = ActionTurn.left duration turns - dt := by
  have hopen : (ActionTurn.ticked dt s answer leaf s').isOpen = true := h
  rw [left, underway_of_isOpen hopen, List.filterMap_append, List.foldl_append, ← left]
  rfl

theorem ActionTurn.left_of_idle (duration : Float32) {turns : List (ActionTurn α ω φ)} (h : underway turns = []) :
    ActionTurn.left duration turns = duration := by
  rw [left, h]
  rfl

section Runs

variable {host : HostProviders χ} {a : Action χ} {duration : Float32} {start n n' : ActionNode (Action χ)}
  {turns : List (ActionTurn (Action χ) Situation φ)} {turn : ActionTurn (Action χ) Situation φ}

namespace Action

/-- **`Action.Keeps`** — the invariant: the timer has its duration, and while the action is entered it shows what is
left. All turns under way have found a player, if the action needs one. -/
structure Keeps (a : Action χ) (duration : Float32) (turns : List (ActionTurn (Action χ) Situation φ))
    (n : ActionNode (Action χ)) : Prop where
  needsPlayer_eq : n.leaf.needsPlayer = a.needsPlayer
  timer : ∃ remaining, n.leaf.timer? = some ⟨duration, remaining⟩ ∧
    (n.entered = true → remaining = ActionTurn.left duration turns)
  found : ∀ turn ∈ ActionTurn.underway turns, ¬a.Misses turn.before

/-- **`Action.Answers`** — the rule of a tick after other turns: it fails if the action misses the player, which it did
not before since it was entered. Otherwise it is running while something is left of the duration. -/
def Answers (a : Action χ) (duration : Float32) (before : List (ActionTurn (Action χ) Situation φ)) :
    ActionTurn (Action χ) Situation φ → Prop
  | .ticked dt s answer _ _ =>
    answer = .ok (if a.Misses s then .failure
      else if 0 < ActionTurn.left duration before - dt then .running else .success) ∧
      ∀ turn ∈ ActionTurn.underway before, ¬a.Misses turn.before
  | .aborted .. => True

/-- A tick goes on with the time that is left, also if it enters the action. -/
theorem Keeps.begun (host : HostProviders χ) (h : a.Keeps duration turns n)
    (hidle : n.entered = false → ActionTurn.underway turns = []) (s : Situation) :
    (n.begun (.builtIn host : Leaves _ _ _ φ) s).1.timer? = some ⟨duration, ActionTurn.left duration turns⟩ ∧
      ((n.begun (.builtIn host : Leaves _ _ _ φ) s).1.Misses (n.begun (.builtIn host : Leaves _ _ _ φ) s).2 ↔
        a.Misses s) ∧
      (n.begun (.builtIn host : Leaves _ _ _ φ) s).1.needsPlayer = a.needsPlayer := by
  obtain ⟨hneeds, ⟨remaining, htimer, hremaining⟩, -⟩ := h
  cases hentered : n.entered with
  | true =>
    rw [ActionNode.begun_of_entered hentered, ← hremaining hentered]
    exact ⟨htimer, by rw [Misses, Misses, hneeds], hneeds⟩
  | false =>
    rw [ActionNode.begun_of_idle hentered, ActionTurn.left_of_idle duration (hidle hentered)]
    show (n.leaf.enter s).1.timer? = _ ∧ ((n.leaf.enter s).1.Misses (n.leaf.enter s).2 ↔ _) ∧
      (n.leaf.enter s).1.needsPlayer = _
    rw [timer?_enter, htimer, Misses, Misses, needsPlayer_enter, world_enter, hneeds]
    exact ⟨rfl, Iff.rfl, rfl⟩

/-- The answer of a tick, and what becomes of the leaf. -/
theorem Keeps.tick (h : a.Keeps duration turns n) (hidle : n.entered = false → ActionTurn.underway turns = [])
    {dt : Float32} {s s' : Situation} {answer : Except φ Status} {leaf : Action χ}
    (hticked : (Leaves.builtIn host : Leaves _ _ _ φ).tick (n.begun (Leaves.builtIn host : Leaves _ _ _ φ) s).1 dt
      (n.begun (Leaves.builtIn host : Leaves _ _ _ φ) s).2 = (answer, leaf, s')) :
    a.Answers duration turns (.ticked dt s answer leaf s') ∧ leaf.needsPlayer = a.needsPlayer ∧
      ∃ remaining, leaf.timer? = some ⟨duration, remaining⟩ ∧
        (goesOn answer = true → ¬a.Misses s ∧ remaining = ActionTurn.left duration turns - dt) := by
  obtain ⟨htimer, hmisses, hneeds⟩ := h.begun host hidle s
  generalize n.begun (Leaves.builtIn host : Leaves _ _ _ φ) s = begun at htimer hmisses hneeds hticked
  obtain ⟨leaf₀, s₀⟩ := begun
  dsimp only at htimer hmisses hneeds hticked
  obtain ⟨hanswer, hleaf, hs'⟩ := (Prod.mk.inj hticked).imp_right Prod.mk.inj
  obtain rfl : (leaf₀.tick host dt s₀).2.1 = leaf := hleaf
  obtain rfl : (leaf₀.tick host dt s₀).2.2 = s' := hs'
  replace hanswer : .ok (leaf₀.tick host dt s₀).1 = answer := hanswer
  rw [Answers, needsPlayer_tick]
  by_cases hmissed : a.Misses s
  · rw [tick_of_misses host dt (hmisses.mpr hmissed)] at hanswer ⊢
    subst hanswer
    exact ⟨⟨by rw [if_pos hmissed], h.found⟩, hneeds, _, htimer, nofun⟩
  · obtain ⟨hstatus, htimer'⟩ := tick_timed host htimer dt (hmissed ∘ hmisses.mp)
    rw [hstatus] at hanswer
    refine ⟨⟨?_, h.found⟩, hneeds, _, htimer', fun _ => ⟨hmissed, rfl⟩⟩
    rw [if_neg hmissed, ← hanswer]
    rfl

/-- After a turn that ended the run, nothing is claimed of what remains. -/
theorem Keeps.closed {remaining : Float32} (hneeds : n.leaf.needsPlayer = a.needsPlayer)
    (htimer : n.leaf.timer? = some ⟨duration, remaining⟩) (hresting : n.entered = false)
    (hclosed : turn.isOpen = false) : a.Keeps duration (turns ++ [turn]) n := by
  refine ⟨hneeds, ⟨remaining, htimer, fun hentered => ?_⟩, ?_⟩
  · exact absurd (hresting.symm.trans hentered) Bool.false_ne_true
  · rw [ActionTurn.underway_of_closed hclosed]
    exact List.forall_mem_nil _

/-- **`Action.Keeps.step`** — a turn keeps to the rule, and the invariant is kept. -/
theorem Keeps.step (h : a.Keeps duration turns n) (hidle : n.entered = false → ActionTurn.underway turns = [])
    (hstep : ActionNode.Step (.builtIn host : Leaves _ _ _ φ) n turn n') :
    a.Answers duration turns turn ∧ a.Keeps duration (turns ++ [turn]) n' := by
  cases hstep.made with
  | @onward dt s s' answer leaf hticked hgoes =>
    obtain ⟨hanswers, hneeds, remaining, htimer, hleft⟩ := h.tick hidle hticked
    obtain ⟨hfound, rfl⟩ := hleft hgoes
    have hopen : (ActionTurn.ticked dt s answer leaf s').isOpen = true := hgoes
    refine ⟨hanswers, hneeds, ⟨_, htimer, fun _ => (ActionTurn.left_of_isOpen duration hgoes).symm⟩, ?_⟩
    rw [ActionTurn.underway_of_isOpen hopen]
    exact List.forall_mem_append.mpr ⟨h.found, List.forall_mem_singleton.mpr hfound⟩
  | @ended dt s s' answer leaf hticked hends =>
    obtain ⟨hanswers, hneeds, remaining, htimer, -⟩ := h.tick hidle hticked
    have hclosed : (ActionTurn.ticked dt s answer leaf.exit s').isOpen = false := hends
    exact ⟨hanswers, .closed ((needsPlayer_exit leaf).trans hneeds) ((timer?_exit leaf).trans htimer) rfl hclosed⟩
  | left hentered s =>
    obtain ⟨hneeds, ⟨remaining, htimer, -⟩, -⟩ := h
    exact ⟨trivial, .closed ((needsPlayer_exit n.leaf).trans hneeds) ((timer?_exit n.leaf).trans htimer) rfl rfl⟩
  | idle hresting s =>
    obtain ⟨hneeds, ⟨remaining, htimer, -⟩, -⟩ := h
    exact ⟨trivial, .closed hneeds htimer hresting rfl⟩

/-- **`Action.takes_its_time`** — listening, looking and scanning start from scratch whenever they are entered. Take any
ticks and aborts of such an action, which was not entered at first, with anything else happening in between. A tick
fails exactly if the action looks at the player and there is none, and this is the first such tick since it was
entered. Otherwise it is running exactly if the duration less the times of all ticks since then, this one included, is
greater than zero, and succeeds if not. -/
theorem takes_its_time (hidle : start.entered = false) {timer : Timer} (htimer : start.leaf.timer? = some timer)
    (h : Steps (ActionNode.Step (.builtIn host : Leaves _ _ _ φ)) start turns n) :
    ∀ before dt s answer leaf s' after, turns = before ++ .ticked dt s answer leaf s' :: after →
      answer = .ok (if start.leaf.Misses s then .failure
        else if 0 < ActionTurn.left timer.duration before - dt then .running else .success) ∧
      ∀ turn ∈ ActionTurn.underway before, ¬start.leaf.Misses turn.before := by
  have hkeeps : start.leaf.Keeps timer.duration ([] : List (ActionTurn _ _ φ)) start :=
    ⟨rfl, ⟨timer.remaining, htimer, by simp [hidle]⟩, List.forall_mem_nil _⟩
  obtain ⟨-, hanswers⟩ := h.each (start.leaf.Keeps timer.duration) hkeeps fun hsteps hkeeps hstep =>
    hkeeps.step (fun hresting => by simpa [hresting] using ActionNode.entered_iff hidle hsteps) hstep
  intro before dt s answer leaf s' after hsplit
  exact hanswers before _ after hsplit

end Action

end Runs

/-- A situation in which the player is there or not. -/
def Situation.meeting (player : Option Cell) : Situation :=
  { (default : Situation) with world := { (default : World) with player } }

/-- Someone stares at the player for one second. -/
def ActionNode.staring : ActionNode (Action Empty) :=
  ⟨"stare", false, .look ⟨.player, .full 1⟩⟩

/-- He has stared for three quarters of a second when the player disappears, which is a failure. He stares again for as
long and is called back. The third time he gets through, in one second as if nothing had been before. -/
theorem ActionNode.staring_thrice :
    ∃ before answer leaf s' n, Steps (ActionNode.Step (.builtIn .none : Leaves _ _ _ Empty)) staring
        (before ++ [.ticked 0.25 (.meeting (some ⟨3, 0⟩)) answer leaf s']) n ∧
      before.map ActionTurn.time? = [some 0.75, some 0.75, some 0.75, none, some 0.75] ∧
      before.map ActionTurn.isOpen = [true, false, true, false, true] ∧
      ActionTurn.left 1 before = 1 - 0.75 ∧ answer = .ok .success := by
  have hstart : Steps (ActionNode.Step (.builtIn .none : Leaves _ _ _ Empty)) staring [] staring := .nil
  have hrun := (((((hstart.snoc (.tick 0.75 (.meeting (some ⟨3, 0⟩)))).snoc (.tick 0.75 (.meeting none))).snoc
    (.tick 0.75 (.meeting (some ⟨3, 0⟩)))).snoc (.abort (.meeting none))).snoc
    (.tick 0.75 (.meeting (some ⟨3, 0⟩)))).snoc (.tick 0.25 (.meeting (some ⟨3, 0⟩)))
  obtain ⟨hanswer, -⟩ := Action.takes_its_time rfl rfl hrun _ _ _ _ _ _ [] rfl
  refine ⟨_, _, _, _, _, hrun, rfl, rfl, rfl, hanswer.trans ?_⟩
  decide +kernel

end BehaviorTree
