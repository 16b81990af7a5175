/-
# BehaviorTree.Proofs.Perception — nothing is remembered that was not perceived

Memories last longer than what they are of: the player goes on, the noise ends, the agent itself moves, and
what a leaf does next may depend on a cell that was seen long ago. All the same there is a moment behind every
memory. In a frame, only the samples of its rounds write memories, and the leaves of the library leave them
alone (`Controller.tick_perceives`). So a cell that is remembered after a run was perceived in one of the run's
frames, at the time of that frame and from where the agent was then (`Simulation.perceived_once`).

A sighting is never taken back, only replaced by another one. A noise that is over is forgotten after a time.
-/
import BehaviorTree.Proofs.ControllerRun
import BehaviorTree.Proofs.Faultless
import BehaviorTree.Proofs.Movement

namespace BehaviorTree

variable {α κ χ : Type}

/-! ## § Samples -/

namespace Situation

/-- One of the sensors sees the player at that cell. -/
def Sights (sensors : List Sensor) (s : Situation) (c : Cell) : Prop :=
  s.world.player = some c ∧ ∃ fieldOfView maxTiles gated, .vision fieldOfView maxTiles gated ∈ sensors ∧
    Sensor.sees fieldOfView maxTiles gated s.world s.body c = true

/-- **`Situation.Perceives`** — what samples of these sensors can do: a cell is remembered that was remembered
before or that is perceived at the moment, and what was seen is never forgotten. -/
structure Perceives (sensors : List Sensor) (s t : Situation) : Prop where
  world : t.world = s.world
  body : t.body = s.body
  seen : ∀ c, t.board.seen.cell = some c → s.board.seen.cell = some c ∨ s.Sights sensors c
  heard : ∀ c, t.board.heard.cell = some c → s.board.heard.cell = some c ∨ s.world.noise = some c
  kept : s.board.seen.cell.isSome = true → t.board.seen.cell.isSome = true

variable {sensors : List Sensor} {s t u : Situation}

theorem Perceives.refl (sensors : List Sensor) (s : Situation) : s.Perceives sensors s where
  world := rfl
  body := rfl
  seen _ h := Or.inl h
  heard _ h := Or.inl h
  kept := id

theorem Perceives.trans (h : s.Perceives sensors t) (h' : t.Perceives sensors u) : s.Perceives sensors u where
  world := h'.world.trans h.world
  body := h'.body.trans h.body
  seen c hc := by
    rcases h'.seen c hc with hbefore | hnow
    · exact h.seen c hbefore
    · unfold Sights at hnow
      rw [h.world, h.body] at hnow
      exact Or.inr hnow
  heard c hc := by
    rcases h'.heard c hc with hbefore | hnow
    · exact h.heard c hbefore
    · rw [h.world] at hnow
      exact Or.inr hnow
  kept hseen := h'.kept (h.kept hseen)

end Situation

/-- A sample makes its sensor perceive something or nothing. -/
theorem Sensor.sample_perceives {sensors : List Sensor} {sensor : Sensor} (h : sensor ∈ sensors)
    (step : Float32) (s : Situation) : s.Perceives sensors (sensor.sample step s) := by
  cases sensor with
  | vision fieldOfView maxTiles gated =>
    have hlook : look fieldOfView maxTiles gated step s.world s.body s.board.seen = s.board.seen.age step ∨
        ∃ c, look fieldOfView maxTiles gated step s.world s.body s.board.seen = .fresh c ∧
          s.Sights sensors c := by
      unfold look
      split
      · next c hplayer =>
        obtain ⟨hplayer, hsees⟩ := Option.filter_eq_some_iff.mp hplayer
        exact Or.inr ⟨c, rfl, hplayer, fieldOfView, maxTiles, gated, h, hsees⟩
      · exact Or.inl rfl
    rcases hlook with hlook | ⟨player, hlook, hsights⟩
    · refine ⟨rfl, rfl, fun c hc => Or.inl ?_, fun _ hc => Or.inl hc, ?_⟩
      · simpa [sample, hlook, Memory.age] using hc
      · simp [sample, hlook, Memory.age]
    · refine ⟨rfl, rfl, fun c hc => Or.inr ?_, fun _ hc => Or.inl hc, ?_⟩
      · obtain rfl : player = c := by simpa [sample, hlook, Memory.fresh] using hc
        exact hsights
      · simp [sample, hlook, Memory.fresh]
  | hearing decaySeconds =>
    refine ⟨rfl, rfl, fun _ hc => Or.inl hc, fun c hc => ?_, id⟩
    simp only [sample, listen] at hc
    split at hc
    · next noise hnoise => exact Or.inr (hnoise.trans hc)
    · split at hc
      · cases hc
      · exact Or.inl hc

namespace Controller

/-- A round leaves the sensors as they are. -/
theorem sampleRound_perceives {sensors : List Sensor} (step : Float32) {round : List Sensor}
    (h : ∀ sensor ∈ round, sensor ∈ sensors) (s : Situation) :
    (sampleRound .builtIn step round s).1 = round ∧
      s.Perceives sensors (sampleRound .builtIn step round s).2 := by
  induction round generalizing s with
  | nil => exact ⟨rfl, .refl sensors s⟩
  | cons sensor rest ih =>
    have hsample := Sensor.sample_perceives (h sensor List.mem_cons_self) step s
    obtain ⟨hsensors, hrest⟩ := ih (fun x hx => h x (.tail _ hx)) (sensor.sample step s)
    exact ⟨congrArg (sensor :: ·) hsensors, hsample.trans hrest⟩

theorem sampleRounds_perceives (step : Float32) (n : Nat) (sensors : List Sensor) (s : Situation) :
    (sampleRounds .builtIn step n sensors s).1 = sensors ∧
      s.Perceives sensors (sampleRounds .builtIn step n sensors s).2 := by
  induction n generalizing s with
  | zero => exact ⟨rfl, .refl sensors s⟩
  | succ n ih =>
    obtain ⟨hround, hperceives⟩ := sampleRound_perceives step (fun _ hx => hx) s
    obtain ⟨hsensors, hrest⟩ := ih (sampleRound .builtIn step sensors s).2
    unfold sampleRounds
    dsimp only
    rw [hround]
    exact ⟨hsensors, hperceives.trans hrest⟩

end Controller

/-! ## § Frames -/

namespace Situation

/-- The memories are the same in both situations. -/
abbrev MemoriesKept : Situation → Situation → Prop :=
  Kept fun s => (s.board.seen, s.board.heard)

variable {s t : Situation}

/-- The library's own leaves write no memories. -/
theorem memoriesKept_permits : Permits MemoriesKept where
  refl _ := rfl
  trans := Kept.trans
  request _ _ _ := rfl
  aim _ _ := rfl
  face _ _ := rfl
  draw _ _ := rfl
  setPath _ _ := rfl
  note _ _ := rfl
  tell _ _ _ := rfl

theorem Told.memoriesKept (h : s.Told t) : s.MemoriesKept t := by
  obtain ⟨notes, journal, rfl⟩ := h
  rfl

end Situation

namespace Controller

variable {kit : Leaves α κ Situation Fault} {c c' : Controller α κ Sensor} {s s' : Situation} {dt : Float32}
  {status : Status}

/-- **`Controller.tick_perceives`** — in a frame a cell is remembered that was remembered before, or a round of
samples was made in which it was perceived, and what was seen is not forgotten. -/
theorem tick_perceives (hkit : kit.Keeps Situation.MemoriesKept)
    (h : c.tick kit .builtIn dt s = (.ok status, c', s')) :
    c'.sensors = c.sensors ∧
      (∀ x, s'.board.seen.cell = some x → s.board.seen.cell = some x ∨
        c.sampling.samples < c'.sampling.samples ∧ s.Sights c.sensors x) ∧
      (∀ x, s'.board.heard.cell = some x → s.board.heard.cell = some x ∨
        c.sampling.samples < c'.sampling.samples ∧ s.world.noise = some x) ∧
      (s.board.seen.cell.isSome = true → s'.board.seen.cell.isSome = true) := by
  obtain ⟨step, taken, s₁, s₂, htold, htick, htold', hsensors, hsamples⟩ := tick_parts h
  obtain ⟨hsame, hperceives⟩ := sampleRounds_perceives step taken c.sensors s
  have hticked := Node.tick_keeps hkit dt c.root s₁
  rw [htick] at hticked
  -- after the samples the memories stay as they are
  have hkept := (htold.memoriesKept.trans hticked).trans htold'.memoriesKept
  obtain ⟨hseen, hheard⟩ := Prod.mk.inj hkept
  refine ⟨hsensors.trans hsame, ?_, ?_, ?_⟩
  · intro x hx
    rw [hseen] at hx
    cases taken with
    | zero => exact Or.inl hx
    | succ n => exact (hperceives.seen x hx).imp_right fun hsights => ⟨by omega, hsights⟩
  · intro x hx
    rw [hheard] at hx
    cases taken with
    | zero => exact Or.inl hx
    | succ n => exact (hperceives.heard x hx).imp_right fun hnoise => ⟨by omega, hnoise⟩
  · rw [hseen]
    exact hperceives.kept

end Controller

/-! ## § Simulations -/

/-- Only a cell of the grid can be seen. -/
theorem Grid.contains_of_hasLineOfSight {g : Grid} {a b : Cell} (h : g.hasLineOfSight a b = true) :
    g.contains b = true := by
  unfold hasLineOfSight at h
  split at h
  · next hinside => exact (Bool.and_eq_true_iff.mp hinside).2
  · cases h

namespace Simulation

/-- **`Simulation.Sighting`** — in the frame from the first simulation to the second one a round of samples was
made, and the player was at that cell then: in bounds, in sight from where the agent was, and not farther away
than one of the scenario's sensors can see. -/
structure Sighting (scenario : Scenario) (c : Cell) (m m' : Simulation α κ) : Prop where
  sampled : m.controller.sampling.samples < m'.controller.sampling.samples
  player : scenario.playerAt m'.time = some c
  inside : m'.grid.contains c = true
  sight : m'.grid.hasLineOfSight m.cell c = true
  near : ∃ fieldOfView maxTiles gated, .vision fieldOfView maxTiles gated ∈ scenario.controller.sensors ∧
    m'.grid.world.cost m.cell c ≤ maxTiles

/-- **`Simulation.Hearing`** — in the frame from the first simulation to the second one a round of samples was
made, and there was a noise at that cell then. -/
structure Hearing (scenario : Scenario) (c : Cell) (m m' : Simulation α κ) : Prop where
  sampled : m.controller.sampling.samples < m'.controller.sampling.samples
  noise : scenario.noiseAt m'.time = some c

/-- **`Simulation.Runs`** — the simulation runs the scenario, with the scenario's sensors and with a sink that
can be read. -/
structure Runs (scenario : Scenario) (m : Simulation α κ) : Prop where
  plan : m.scenario = scenario
  sensors : m.controller.sensors = scenario.controller.sensors
  traceable : m.situation.Traceable

theorem runs_of_create {scenario : Scenario} {root : Node α κ} {seed : UInt64} {journal : Journal}
    {m : Simulation α κ} (h : create scenario root seed journal = .ok m) :
    m.Runs scenario ∧ m.situation.board.seen.cell = none ∧ m.situation.board.heard.cell = none := by
  rcases hgrid : scenario.grid with cause | grid <;>
    simp only [create, hgrid, bind, Except.bind, pure, Except.pure] at h
  · cases h
  · cases h
    exact ⟨⟨rfl, rfl, some (.log "agent-0"), rfl⟩, rfl, rfl⟩

variable {scenario : Scenario} {m m' : Simulation (Action Empty) Condition} {dt : Float32}
  {report : FrameReport}

/-- Every frame returns. -/
theorem Runs.step_returns (hm : m.Runs scenario) (dt : Float32) :
    ∃ report m', m.step (.builtIn .none) dt = .ok (report, m') := by
  obtain ⟨status, controller, situation, htick, -⟩ :=
    (m.pass dt).controller.builtIn_tick_returns (s := (m.pass dt).situation) hm.traceable dt
  exact ⟨_, _, step_eq_ok_iff.mpr ⟨status, controller, situation, htick, rfl⟩⟩

/-- **`Simulation.Runs.step`** — in a frame a cell is remembered that was remembered before or that is perceived
in this frame, and what was seen is not forgotten. -/
theorem Runs.step (hm : m.Runs scenario) (h : m.step (.builtIn .none) dt = .ok (report, m')) :
    m'.Runs scenario ∧
      (∀ c, m'.situation.board.seen.cell = some c →
        m.situation.board.seen.cell = some c ∨ Sighting scenario c m m') ∧
      (∀ c, m'.situation.board.heard.cell = some c →
        m.situation.board.heard.cell = some c ∨ Hearing scenario c m m') ∧
      (m.situation.board.seen.cell.isSome = true → m'.situation.board.seen.cell.isSome = true) := by
  obtain ⟨status, controller, situation, htick, hfinish⟩ := step_eq_ok_iff.mp h
  obtain ⟨hsensors, hseen, hheard, hkept⟩ := Controller.tick_perceives
    (Leaves.builtIn_keeps Situation.memoriesKept_permits fun own => own.elim) htick
  obtain ⟨_, _, _, hreturns, hsink⟩ :=
    (m.pass dt).controller.builtIn_tick_returns (s := (m.pass dt).situation) hm.traceable dt
  cases htick.symm.trans hreturns
  cases hfinish
  refine ⟨⟨hm.plan, hsensors.trans hm.sensors, Situation.Traceable.kept hm.traceable hsink⟩, ?_, ?_, hkept⟩
  · intro c hc
    refine (hseen c hc).imp_right ?_
    rintro ⟨hsampled, hplayer, fieldOfView, maxTiles, gated, hsensor, hsees⟩
    simp only [Sensor.sees, Bool.and_eq_true, decide_eq_true_eq] at hsees
    obtain ⟨⟨hnear, -⟩, hsight⟩ := hsees
    rw [← hm.plan]
    refine ⟨hsampled, hplayer, Grid.contains_of_hasLineOfSight hsight, hsight, fieldOfView, maxTiles, gated, ?_,
      hnear⟩
    rw [hm.plan, ← hm.sensors]
    exact hsensor
  · intro c hc
    refine (hheard c hc).imp_right ?_
    rintro ⟨hsampled, hnoise⟩
    rw [← hm.plan]
    exact ⟨hsampled, hnoise⟩

theorem Runs.of_step (h : m.step (.builtIn .none) dt = .ok (report, m')) (hm : m.Runs scenario) :
    m'.Runs scenario :=
  (hm.step h).1

/-! ## § Runs of a simulation -/

section Frames

variable {kit : Leaves α κ Situation Fault} {m m' : Simulation α κ} {reports : List FrameReport}
  {I Q : Simulation α κ → Prop} {P : Simulation α κ → Simulation α κ → Prop}

/-- **`Simulation.Once`** — one of the frames of the run was such a one. -/
def Once (kit : Leaves α κ Situation Fault) (P : Simulation α κ → Simulation α κ → Prop)
    (start : Simulation α κ) (reports : List FrameReport) (m : Simulation α κ) : Prop :=
  ∃ before report after m₁ m₂ dt, reports = before ++ report :: after ∧ Frames kit start before m₁ ∧
    m₁.step kit dt = .ok (report, m₂) ∧ P m₁ m₂ ∧ Frames kit m₂ after m

/-- What every frame keeps, a run keeps. -/
theorem Frames.keeps (h : Frames kit m reports m')
    (hI : ∀ {m dt report m'}, m.step kit dt = .ok (report, m') → I m → I m') (hm : I m) : I m' := by
  induction h with
  | nil => exact hm
  | cons hstep _ ih => exact ih (hI hstep hm)

/-- **`Simulation.Frames.once`** — what is so after a run was so before it, or it has become so in one of its
frames. -/
theorem Frames.once (h : Frames kit m reports m')
    (hI : ∀ {m dt report m'}, m.step kit dt = .ok (report, m') → I m → I m')
    (hQ : ∀ {m dt report m'}, m.step kit dt = .ok (report, m') → I m → Q m' → Q m ∨ P m m')
    (hm : I m) (hq : Q m') : Q m ∨ Once kit P m reports m' := by
  induction h with
  | nil => exact Or.inl hq
  | @cons m m₁ m' dt report reports hstep hframes ih =>
    rcases ih (hI hstep hm) hq with hq₁ | ⟨before, other, after, m₂, m₃, dt', rfl, hbefore, hthen, hP, hafter⟩
    · refine (hQ hstep hm hq₁).imp_right fun hP => ?_
      exact ⟨[], report, reports, m, m₁, dt, rfl, .nil, hstep, hP, hframes⟩
    · exact Or.inr ⟨report :: before, other, after, m₂, m₃, dt', rfl, .cons hstep hbefore, hthen, hP, hafter⟩

end Frames

variable {reports : List FrameReport}

/-- **`Simulation.perceived_once`** — there are no phantom perceptions. Take a simulation of any scenario with
any tree of built-in leaves and any seed, and any frames of it. Each of them returns, and after them
* a cell that is remembered as seen is one where the player was in one of the frames, when a round of samples
  was made: in bounds, in the line of sight of the agent and not too far away from it for some vision sensor;
* a cell that is remembered as heard is one where a noise was in one of the frames, when a round of samples was
  made;
* if a cell is remembered as seen, then so is one after any further frames. -/
theorem perceived_once {root : Node (Action Empty) Condition} {seed : UInt64} {journal : Journal}
    {start : Simulation (Action Empty) Condition} (hcreate : create scenario root seed journal = .ok start)
    (hframes : Frames (.builtIn .none) start reports m) :
    (∀ dt, ∃ report m', m.step (.builtIn .none) dt = .ok (report, m')) ∧
      (∀ c, m.situation.board.seen.cell = some c →
        Once (.builtIn .none) (Sighting scenario c) start reports m) ∧
      (∀ c, m.situation.board.heard.cell = some c →
        Once (.builtIn .none) (Hearing scenario c) start reports m) ∧
      ∀ more m', Frames (.builtIn .none) m more m' → m.situation.board.seen.cell.isSome = true →
        m'.situation.board.seen.cell.isSome = true := by
  obtain ⟨hstart, hunseen, hunheard⟩ := runs_of_create hcreate
  have hm : m.Runs scenario := hframes.keeps Runs.of_step hstart
  refine ⟨hm.step_returns, ?_, ?_, ?_⟩
  · intro c hc
    have honce := hframes.once (Q := fun m => m.situation.board.seen.cell = some c) Runs.of_step
      (fun hstep hm => (hm.step hstep).2.1 c) hstart hc
    exact honce.resolve_left fun hbefore => nomatch hunseen.symm.trans hbefore
  · intro c hc
    have honce := hframes.once (Q := fun m => m.situation.board.heard.cell = some c) Runs.of_step
      (fun hstep hm => (hm.step hstep).2.2.1 c) hstart hc
    exact honce.resolve_left fun hbefore => nomatch hunheard.symm.trans hbefore
  · intro more m' hmore hseen
    refine (hmore.keeps (I := fun m => m.Runs scenario ∧ m.situation.board.seen.cell.isSome = true)
      ?_ ⟨hm, hseen⟩).2
    rintro m dt report m' hstep ⟨hm, hseen⟩
    obtain ⟨hm', -, -, hkept⟩ := hm.step hstep
    exact ⟨hm', hkept hseen⟩

/-- An alley where the player is seen and a noise is heard for a moment. -/
def alley : Scenario where
  width := 4
  height := 1
  agent := ⟨0, 0⟩
  player := some ⟨2, 0⟩
  playerMoves := [⟨0.15, none⟩]
  noises := [{ since := 0, cell := ⟨3, 0⟩, duration := 0.15 }]
  controller := { sensors := [.vision 120 8 false, .hearing 5] }

/-- Someone who stands there and listens. -/
def listener : Node (Action Empty) Condition :=
  .action ⟨"listen", false, .listen (.full 1)⟩

/-- When the player has gone and all is quiet again, both are remembered, and both were there. -/
theorem alley_perceived_once :
    ∃ start reports m, create alley listener 7 [] = .ok start ∧ Frames (.builtIn .none) start reports m ∧
      m.situation.board.seen.cell = some ⟨2, 0⟩ ∧ alley.playerAt m.time = none ∧
      Once (.builtIn .none) (Sighting alley ⟨2, 0⟩) start reports m ∧
      m.situation.board.heard.cell = some ⟨3, 0⟩ ∧ alley.noiseAt m.time = none ∧
      Once (.builtIn .none) (Hearing alley ⟨3, 0⟩) start reports m := by
  have hrun : ((create alley listener 7 []).toOption.bind fun start =>
      (start.reports (.builtIn .none) 0.1 [] 2).toOption.map fun r =>
        (r.2.situation.board.seen.cell, alley.playerAt r.2.time, r.2.situation.board.heard.cell,
          alley.noiseAt r.2.time)) = some (some ⟨2, 0⟩, none, some ⟨3, 0⟩, none) := by decide +kernel
  obtain ⟨start, reports, m, hcreate, hframes, hmemories⟩ := exists_frames_of_computed hrun
  simp only [Prod.mk.injEq] at hmemories
  obtain ⟨hseen, hgone, hheard, hquiet⟩ := hmemories
  obtain ⟨-, hsightings, hhearings, -⟩ := perceived_once hcreate hframes
  exact ⟨start, reports, m, hcreate, hframes, hseen, hgone, hsightings _ hseen, hheard, hquiet,
    hhearings _ hheard⟩

end Simulation

end BehaviorTree
