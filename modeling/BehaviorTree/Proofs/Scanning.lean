/-
# BehaviorTree.Proofs.Scanning — where a scan begins

A scan rotates the agent around a base that is chosen when it is entered. A spin begins where the last one ended, the
first one at a random angle or in the direction of the agent; a swing always begins at a random angle or in the
direction of the agent. So a spin draws once in its life at most, and a swing once in every run
(`Scan.bases_and_draws`).

What is carried from one spin to the next is computed when the scan is left, from fields that every tick has changed.
The invariant (`Scan.Keeps`) ties them to what can be seen from outside: while the scan is entered, its heading is the
direction that its last tick has given to the agent; and when it is not, this direction is what it carries.
-/
import BehaviorTree.Proofs.Duration

namespace BehaviorTree

variable {χ φ : Type}

/-! ## § Scans -/

/-- The base of a run if nothing is carried: drawn, or the direction of the agent. With the stream that is left. -/
def ScanSettings.pick (settings : ScanSettings) (body : Body) : Float32 × Random.SplitMix :=
  if settings.randomStart then ((Random.unit body.rng).1 * 360, (Random.unit body.rng).2) else (body.facing, body.rng)

namespace Scan

variable {c : Scan}

/-- A scan that does not rotate draws nothing. -/
theorem chooseBase_of_still (h : c.settings.rotate = false) (s : Situation) : (c.chooseBase s).2 = s := by
  unfold chooseBase
  split
  · rfl
  · rw [h, Bool.false_and, if_neg Bool.false_ne_true]

theorem chooseBase_of_carried {angle : Float32} (h : c.carried = some angle) (s : Situation) :
    c.chooseBase s = (angle, s) := by
  rw [chooseBase, h]

theorem chooseBase_of_uncarried (hrotate : c.settings.rotate = true) (h : c.carried = none) (s : Situation) :
    ((c.chooseBase s).1, (c.chooseBase s).2.body.rng) = c.settings.pick s.body := by
  simp only [chooseBase, h, hrotate, Bool.true_and, ScanSettings.pick]
  split <;> rfl

theorem tick_of_still (h : c.settings.rotate = false) (dt : Float32) (s : Situation) : (c.tick dt s).2.2 = s := by
  unfold tick
  rw [h]
  rfl

/-- A scan that rotates gives its heading to the agent. -/
theorem facing_tick (h : c.settings.rotate = true) (dt : Float32) (s : Situation) :
    (c.tick dt s).2.2.body.facing = (c.tick dt s).2.1.heading := by
  unfold tick
  rw [h]
  rfl

/-- A tick changes nothing of the scan but the timer and the time of rotating, and it draws nothing. -/
theorem tick_frame (c : Scan) (dt : Float32) (s : Situation) :
    (c.tick dt s).2.1.settings = c.settings ∧ (c.tick dt s).2.1.base = c.base ∧
      (c.tick dt s).2.1.carried = c.carried ∧ (c.tick dt s).2.2.body.rng = s.body.rng := by
  unfold tick
  dsimp only
  split <;> exact ⟨rfl, rfl, rfl, rfl⟩

end Scan

/-! ## § What can be seen of a scan -/

/-- The base of a scan. -/
def Action.base? : Action χ → Option Float32
  | .scan c => some c.base
  | _ => none

/-- The base of a scan after a turn. -/
def ActionTurn.base? : ActionTurn (Action χ) Situation φ → Option Float32
  | .ticked _ _ _ leaf _ | .aborted _ leaf _ => leaf.base?

/-- The direction of the agent after a tick. -/
def ActionTurn.facing? : ActionTurn (Action χ) Situation φ → Option Float32
  | .ticked _ _ _ _ s => some s.body.facing
  | .aborted .. => none

/-- The directions of the agent after the ticks, one after the other. -/
def ActionTurn.facings (turns : List (ActionTurn (Action χ) Situation φ)) : List Float32 :=
  turns.filterMap ActionTurn.facing?

@[simp] theorem ActionTurn.facings_concat (turns : List (ActionTurn (Action χ) Situation φ))
    (turn : ActionTurn (Action χ) Situation φ) : facings (turns ++ [turn]) = facings turns ++ turn.facing?.toList := by
  rw [facings, List.filterMap_append, ← facings]
  cases h : turn.facing? <;> simp [h]

/-- Turns that are under way are ticks. -/
theorem ActionTurn.underway_eq_nil {turns : List (ActionTurn (Action χ) Situation φ)} (h : facings turns = []) :
    underway turns = [] := by
  refine List.eq_nil_iff_forall_not_mem.mpr ?_
  intro turn hturn
  cases turn with
  | ticked dt s answer leaf s' =>
    have hmem : s'.body.facing ∈ facings turns :=
      List.mem_filterMap.mpr ⟨_, (List.rtakeWhile_suffix _ _).subset hturn, rfl⟩
    rw [h] at hmem
    cases hmem
  | aborted s leaf s' => exact Bool.false_ne_true (List.mem_rtakeWhile_imp hturn)

namespace Scan

section Runs

variable {host : HostProviders χ} {settings : ScanSettings} {turns : List (ActionTurn (Action χ) Situation φ)}
  {turn : ActionTurn (Action χ) Situation φ} {n n' : ActionNode (Action χ)} {c : Scan} {s s' : Situation}

/-- What is carried after some turns: the direction after the last tick, if the scan is a spin. -/
def carriedAfter (settings : ScanSettings) (turns : List (ActionTurn (Action χ) Situation φ)) : Option Float32 :=
  if settings.rotate && settings.mode = .spin then (ActionTurn.facings turns).getLast? else none

/-- **`Scan.Conduct`** — the rule of a tick after other turns: how its base and the situation that it leaves behind
follow from the situation that it was given. If the tick enters a scan that rotates, the base is the angle that is
carried, or else it is picked. If the scan is under way, it keeps its base and draws nothing. -/
structure Conduct (settings : ScanSettings) (before : List (ActionTurn (Action χ) Situation φ)) (s : Situation)
    (base : Float32) (s' : Situation) : Prop where
  still : settings.rotate = false → s' = s
  begins : settings.rotate = true → ActionTurn.underway before = [] →
    (base, s'.body.rng) = (carriedAfter settings before).elim (settings.pick s.body) (·, s.body.rng)
  onward : ActionTurn.underway before ≠ [] → s'.body.rng = s.body.rng
  same : ∀ turn ∈ ActionTurn.underway before, turn.base? = some base

/-- **`Scan.Answers`** — the rule of any turn after other turns. An abort changes nothing but the scan. -/
def Answers (settings : ScanSettings) (before : List (ActionTurn (Action χ) Situation φ)) :
    ActionTurn (Action χ) Situation φ → Prop
  | .ticked _ s _ leaf s' => ∃ base, leaf.base? = some base ∧ Conduct settings before s base s'
  | .aborted s _ s' => s' = s

/-- **`Scan.Keeps`** — the invariant. Between two runs the scan carries what it has to; in a run it carries nothing,
but its heading is what it will have to carry. -/
structure Keeps (settings : ScanSettings) (turns : List (ActionTurn (Action χ) Situation φ)) (entered : Bool)
    (c : Scan) : Prop where
  settings_eq : c.settings = settings
  carried : c.carried = if entered then none else carriedAfter settings turns
  heading : entered = true → settings.rotate = true → (ActionTurn.facings turns).getLast? = some c.heading
  base : ∀ turn ∈ ActionTurn.underway turns, turn.base? = some c.base

/-- A scan that is left carries its heading on, if it is a spin. -/
theorem Keeps.exit (hsettings : c.settings = settings) (hcarried : c.carried = none)
    (hheading : settings.rotate = true → (ActionTurn.facings turns).getLast? = some c.heading)
    (hclosed : ActionTurn.underway turns = []) : Keeps settings turns false c.exit := by
  subst hsettings
  unfold Scan.exit
  split
  · next hspin =>
    obtain ⟨hrotate, -⟩ := Bool.and_eq_true_iff.mp hspin
    refine ⟨rfl, ?_, nofun, by simp [hclosed]⟩
    rw [carriedAfter, if_pos hspin, hheading hrotate]
    rfl
  · next hspin =>
    refine ⟨rfl, ?_, nofun, by simp [hclosed]⟩
    rw [carriedAfter, if_neg hspin, hcarried]
    rfl

/-- What a tick goes on with: a scan that carries nothing, with the right base. -/
theorem Keeps.begun (host : HostProviders χ) (h : Keeps settings turns n.entered c) (hleaf : n.leaf = .scan c)
    (hunderway : n.entered = true ↔ ActionTurn.underway turns ≠ []) (s : Situation) :
    ∃ c₀ s₀, n.begun (.builtIn host : Leaves _ _ _ φ) s = (.scan c₀, s₀) ∧ c₀.settings = settings ∧
      c₀.carried = none ∧ Conduct settings turns s c₀.base s₀ := by
  obtain ⟨rfl, hcarried, -, hbase⟩ := h
  cases hentered : n.entered with
  | true =>
    rw [ActionNode.begun_of_entered hentered, hleaf]
    have hopen := hunderway.mp hentered
    refine ⟨c, s, rfl, rfl, ?_, fun _ => rfl, fun _ hclosed => absurd hclosed hopen, fun _ => rfl, hbase⟩
    rw [hcarried, hentered, if_pos rfl]
  | false =>
    have hclosed : ActionTurn.underway turns = [] := by simpa [hentered] using hunderway
    rw [hentered, if_neg Bool.false_ne_true] at hcarried
    rw [ActionNode.begun_of_idle hentered, hleaf]
    refine ⟨(c.enter s).1, (c.chooseBase s).2, rfl, rfl, rfl, ?still, ?begins, absurd hclosed, by simp [hclosed]⟩
    case still => exact fun hstill => chooseBase_of_still hstill s
    case begins =>
      intro hrotate _
      show ((c.chooseBase s).1, (c.chooseBase s).2.body.rng) = _
      cases hafter : carriedAfter c.settings turns with
      | none => exact chooseBase_of_uncarried hrotate (hcarried.trans hafter) s
      | some angle =>
        rw [chooseBase_of_carried (hcarried.trans hafter)]
        rfl

/-- What a tick of the scan itself changes does not matter for the rule. -/
theorem Conduct.tick (h : Conduct settings turns s c.base s') (hsettings : c.settings = settings) (dt : Float32) :
    Conduct settings turns s (c.tick dt s').2.1.base (c.tick dt s').2.2 := by
  obtain ⟨-, hbase, -, hrng⟩ := c.tick_frame dt s'
  refine ⟨?still, ?begins, ?onward, ?same⟩
  case still => exact fun hstill => (tick_of_still (hsettings ▸ hstill) dt s').trans (h.still hstill)
  case begins => exact fun hrotate hclosed => by rw [hbase, hrng, h.begins hrotate hclosed]
  case onward => exact fun hopen => hrng.trans (h.onward hopen)
  case same => exact fun turn hturn => by rw [hbase, h.same turn hturn]

/-- What a tick has done before it leaves the scan, if it does. -/
theorem Keeps.tick (h : Keeps settings turns n.entered c) (hleaf : n.leaf = .scan c)
    (hunderway : n.entered = true ↔ ActionTurn.underway turns ≠ []) {dt : Float32} {answer : Except φ Status}
    {leaf : Action χ}
    (hticked : (Leaves.builtIn host : Leaves _ _ _ φ).tick (n.begun (Leaves.builtIn host : Leaves _ _ _ φ) s).1 dt
      (n.begun (Leaves.builtIn host : Leaves _ _ _ φ) s).2 = (answer, leaf, s')) :
    ∃ c₁, leaf = .scan c₁ ∧ c₁.settings = settings ∧ c₁.carried = none ∧ Conduct settings turns s c₁.base s' ∧
      (settings.rotate = true → s'.body.facing = c₁.heading) := by
  obtain ⟨c₀, s₀, hbegun, hsettings, hcarried, hconduct⟩ := h.begun host hleaf hunderway s
  rw [hbegun] at hticked
  obtain ⟨-, hleaf', hs'⟩ := (Prod.mk.inj hticked).imp_right Prod.mk.inj
  obtain rfl : Action.scan (c₀.tick dt s₀).2.1 = leaf := hleaf'
  obtain rfl : (c₀.tick dt s₀).2.2 = s' := hs'
  obtain ⟨hsettings', -, hcarried', -⟩ := c₀.tick_frame dt s₀
  exact ⟨_, rfl, hsettings'.trans hsettings, hcarried'.trans hcarried, hconduct.tick hsettings dt,
    fun hrotate => facing_tick (hsettings ▸ hrotate) dt s₀⟩

/-- **`Scan.Keeps.step`** — a turn keeps to the rule, and the invariant is kept. -/
theorem Keeps.step (h : Keeps settings turns n.entered c) (hleaf : n.leaf = .scan c)
    (hunderway : n.entered = true ↔ ActionTurn.underway turns ≠ [])
    (hstep : ActionNode.Step (.builtIn host : Leaves _ _ _ φ) n turn n') :
    Answers settings turns turn ∧
      ∃ c', n'.leaf = .scan c' ∧ Keeps settings (turns ++ [turn]) n'.entered c' := by
  cases hstep.made with
  | @onward dt s s' answer leaf ht hgoes =>
    obtain ⟨c₁, rfl, hsettings, hcarried, hconduct, hfacing⟩ := h.tick hleaf hunderway ht
    have hopen : (ActionTurn.ticked dt s answer (.scan c₁ : Action χ) s').isOpen = true := hgoes
    refine ⟨⟨c₁.base, rfl, hconduct⟩, c₁, rfl, hsettings, hcarried, fun _ hrotate => ?_, ?_⟩
    · rw [← hfacing hrotate]
      simp [ActionTurn.facing?]
    · rw [ActionTurn.underway_of_isOpen hopen]
      exact List.forall_mem_append.mpr ⟨hconduct.same, List.forall_mem_singleton.mpr rfl⟩
  | @ended dt s s' answer leaf ht hends =>
    obtain ⟨c₁, rfl, hsettings, hcarried, hconduct, hfacing⟩ := h.tick hleaf hunderway ht
    have hbase : Action.base? (.scan c₁.exit : Action χ) = some c₁.base := by
      show some c₁.exit.base = _
      unfold Scan.exit
      split <;> rfl
    have hclosed : (ActionTurn.ticked dt s answer (.scan c₁.exit : Action χ) s').isOpen = false := hends
    refine ⟨⟨c₁.base, hbase, hconduct⟩, c₁.exit, rfl, .exit hsettings hcarried (fun hrotate => ?_) ?_⟩
    · rw [← hfacing hrotate]
      simp [ActionTurn.facing?, Leaves.builtIn]
    · exact ActionTurn.underway_of_closed hclosed
  | left hentered s =>
    obtain ⟨hsettings, hcarried, hheading, -⟩ := h
    rw [hentered, if_pos rfl] at hcarried
    refine ⟨rfl, c.exit, by rw [hleaf]; rfl, .exit hsettings hcarried (fun hrotate => ?_) ?_⟩
    · simpa [ActionTurn.facing?] using hheading hentered hrotate
    · exact ActionTurn.underway_of_closed rfl
  | idle hresting s =>
    obtain ⟨hsettings, hcarried, -, -⟩ := h
    refine ⟨rfl, c, hleaf, hsettings, ?_, by simp [hresting], ?_⟩
    · simpa [carriedAfter, ActionTurn.facing?] using hcarried
    · rw [ActionTurn.underway_of_closed rfl]
      exact List.forall_mem_nil _

/-- **`Scan.bases_and_draws`** — where a scan begins and when it draws. Take any ticks and aborts of a scan that was
made from some settings, with anything else happening in between.

* A scan that does not rotate changes nothing.
* An abort changes nothing, whatever the settings are, and a run has one base from beginning to end.
* A spin draws in its very first tick at most. A run of it begins with the direction that the last tick before has given
  to the agent, if there was one.
* A swing draws in the first tick of each run, or takes the direction that the agent has then, and nothing is drawn
  later in the run. -/
theorem bases_and_draws {name : String}
    (h : Steps (ActionNode.Step (.builtIn host : Leaves _ _ _ φ)) ⟨name, false, .scan (.ofSettings settings)⟩ turns n) :
    (settings.rotate = false → ∀ turn ∈ turns, turn.after = turn.before) ∧
    (∀ before s leaf s' after, turns = before ++ .aborted s leaf s' :: after → s' = s) ∧
    (settings.rotate = true → ∀ before dt s answer leaf s' after,
      turns = before ++ .ticked dt s answer leaf s' :: after →
      ∃ base, leaf.base? = some base ∧ (∀ turn ∈ ActionTurn.underway before, turn.base? = some base) ∧
        (settings.mode = .spin →
          (ActionTurn.facings before = [] → (base, s'.body.rng) = settings.pick s.body) ∧
          (ActionTurn.facings before ≠ [] → s'.body.rng = s.body.rng) ∧
          (ActionTurn.underway before = [] → ∀ angle ∈ (ActionTurn.facings before).getLast?, base = angle)) ∧
        (settings.mode = .oscillate →
          (ActionTurn.underway before = [] → (base, s'.body.rng) = settings.pick s.body) ∧
          (ActionTurn.underway before ≠ [] → s'.body.rng = s.body.rng))) := by
  have hfresh : ∃ c, (⟨name, false, .scan (.ofSettings settings)⟩ : ActionNode (Action χ)).leaf = .scan c ∧
      Keeps settings ([] : List (ActionTurn (Action χ) Situation φ)) false c := by
    refine ⟨.ofSettings settings, rfl, rfl, ?_, nofun, List.forall_mem_nil _⟩
    simp [carriedAfter, ActionTurn.facings, Scan.ofSettings]
  obtain ⟨-, hanswers⟩ := h.each (fun turns n => ∃ c, n.leaf = .scan c ∧ Keeps settings turns n.entered c) hfresh
    fun hsteps ⟨_, hleaf, hkeeps⟩ hstep => hkeeps.step hleaf (ActionNode.entered_iff rfl hsteps) hstep
  refine ⟨?still, fun before s leaf s' after hsplit => hanswers before _ after hsplit, ?rotating⟩
  case still =>
    intro hstill turn hturn
    obtain ⟨before, after, hsplit⟩ := List.append_of_mem hturn
    have hanswer := hanswers before turn after hsplit
    cases turn with
    | ticked dt s answer leaf s' =>
      obtain ⟨base, -, hconduct⟩ := hanswer
      exact hconduct.still hstill
    | aborted s leaf s' => exact hanswer
  case rotating =>
    intro hrotate before dt s answer leaf s' after hsplit
    obtain ⟨base, hbase, hconduct⟩ := hanswers before _ after hsplit
    refine ⟨base, hbase, hconduct.same, fun hspin => ?_, fun hswing => ?_⟩
    · have hafter : carriedAfter settings before = (ActionTurn.facings before).getLast? := by
        rw [carriedAfter, hrotate, hspin]
        rfl
      refine ⟨fun hfirst => ?first, fun hlater => ?later, fun hclosed angle hangle => ?carried⟩
      case first =>
        rw [hconduct.begins hrotate (ActionTurn.underway_eq_nil hfirst), hafter, hfirst]
        rfl
      case later =>
        by_cases hclosed : ActionTurn.underway before = []
        · have hbegins := hconduct.begins hrotate hclosed
          rw [hafter, List.getLast?_eq_some_getLast hlater] at hbegins
          exact (Prod.mk.inj hbegins).2
        · exact hconduct.onward hclosed
      case carried =>
        have hbegins := hconduct.begins hrotate hclosed
        rw [hafter, hangle] at hbegins
        exact (Prod.mk.inj hbegins).1
    · have hafter : carriedAfter settings before = none := by
        rw [carriedAfter, hrotate, hswing]
        rfl
      refine ⟨fun hclosed => ?_, hconduct.onward⟩
      rw [hconduct.begins hrotate hclosed, hafter]
      rfl

end Runs

end Scan

/-- A watchman who turns around once in four seconds. -/
def ActionNode.watchman : ActionNode (Action Empty) :=
  ⟨"watch", false, .scan (.ofSettings { duration := 1, rotate := true, degreesPerSecond := 90 })⟩

/-- The watchman is called back and turned to another direction. He goes on where he was, and does not draw again. -/
theorem ActionNode.watchman_goes_on :
    ∃ first second answer leaf s' n, Steps (ActionNode.Step (.builtIn .none : Leaves _ _ _ Empty)) watchman
        ([first, second] ++ [.ticked 0.5 (first.after.face 17) answer leaf s']) n ∧
      first.isOpen = true ∧ second.isOpen = false ∧
      first.after.body.rng = (Random.unit first.before.body.rng).2 ∧
      leaf.base? = some first.after.body.facing ∧ s'.body.rng = first.after.body.rng := by
  have hstart : Steps (ActionNode.Step (.builtIn .none : Leaves _ _ _ Empty)) watchman [] watchman := .nil
  have hrun := ((hstart.snoc (.tick 0.25 default)).snoc (.abort default)).snoc
    (.tick 0.5 (Situation.face (watchman.tick (.builtIn .none : Leaves _ _ _ Empty) 0.25 default).2.2 17))
  obtain ⟨-, -, hrotating⟩ := Scan.bases_and_draws hrun
  have hrotating := hrotating rfl
  obtain ⟨_, -, -, hspin, -⟩ := hrotating [] _ _ _ _ _ _ rfl
  obtain ⟨hfirst, -⟩ := hspin rfl
  obtain ⟨base, hbase, -, hspin, -⟩ := hrotating [_, _] _ _ _ _ _ [] rfl
  obtain ⟨-, hlater, hcarried⟩ := hspin rfl
  refine ⟨_, _, _, _, _, _, hrun, rfl, rfl, ?_, ?_, hlater (List.cons_ne_nil _ _)⟩
  · exact congrArg Prod.snd (hfirst rfl)
  · rw [hbase, hcarried rfl _ rfl]
    rfl

end BehaviorTree
