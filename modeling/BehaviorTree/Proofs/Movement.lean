/-
# BehaviorTree.Proofs.Movement — an agent moves one free cell at a time

Whatever a tree asks for, the agent goes nowhere but to a free cell next to its own. A tree can leave any
intent behind: to a cell far away, to one that has become a wall, to one outside of the grid, to one of
an earlier frame. `Body.Advanced` lists all that can become of it, and `Body.advance_cases` what this is for
the body's place: the body stays, or it makes one step to a walkable cell around it, and says so.

`Simulation.Frames` is a run of a simulation, with any time steps. `Simulation.movement_safe` follows the
cells of its reports: a path through free cells without jumps, along which the summary counts the moves.
-/
import BehaviorTree.Proofs.Acting
import BehaviorTree.Proofs.Terrain
import BehaviorTree.Simulation

namespace BehaviorTree

variable {α κ : Type}

/-! ## § Paths without jumps -/

namespace Cell

/-- The next cell of a path without jumps: the same one, or one around it. -/
def Follows (a b : Cell) : Prop :=
  b = a ∨ b ∈ a.around

/-- How often the next cell of a path is another one. -/
def changes : List Cell → Nat
  | a :: b :: rest => (if b = a then 0 else 1) + changes (b :: rest)
  | _ => 0

/-- A path without jumps leads no farther away than it changes cells. -/
theorem distance_le_changes {start last : Cell} {cells : List Cell}
    (h : (start :: cells).IsChain Follows) (hlast : (start :: cells).getLast? = some last) :
    start.distance last ≤ changes (start :: cells) := by
  induction cells generalizing start with
  | nil =>
    obtain rfl : start = last := by simpa using hlast
    simp
  | cons next rest ih =>
    obtain ⟨hnext, hrest⟩ := List.isChain_cons_cons.mp h
    have hremaining := ih hrest (by simpa using hlast)
    have htriangle := start.distance_triangle next last
    have hstep : start.distance next ≤ if next = start then 0 else 1 := by
      rcases hnext with rfl | haround
      · simp
      · have hone := (mem_around_iff start next).mp haround
        have hne : next ≠ start := by
          rintro rfl
          simp at hone
        rw [if_neg hne, hone]
    simp only [changes]
    omega

theorem changes_le_length (start : Cell) (cells : List Cell) :
    changes (start :: cells) ≤ cells.length := by
  induction cells generalizing start with
  | nil => exact Nat.le_refl 0
  | cons next rest ih =>
    have hrest := ih next
    simp only [changes, List.length_cons]
    split <;> omega

end Cell

/-! ## § One movement -/

namespace Body

variable {b : Body} {world : World} {target c : Cell} {intent : Intent}

/-- The sign of a number is one step in its direction. -/
theorem sign_cases (d : Int) : d < 0 ∧ d.sign = -1 ∨ d = 0 ∧ d.sign = 0 ∨ 0 < d ∧ d.sign = 1 := by
  rcases Int.lt_trichotomy d 0 with hd | rfl | hd
  · exact Or.inl ⟨hd, Int.sign_eq_neg_one_of_neg hd⟩
  · exact Or.inr (Or.inl ⟨rfl, rfl⟩)
  · exact Or.inr (Or.inr ⟨hd, Int.sign_eq_one_of_pos hd⟩)

/-- A step leads one cell on along one of the axes. -/
theorem mem_steps_iff :
    c ∈ b.steps target ↔
      c = b.cell.offset (b.cell.eastward target).toInt.sign 0 ∨
        c = b.cell.offset 0 (b.cell.southward target).toInt.sign := by
  unfold steps
  dsimp only
  split
  · simp
  · simp [or_comm]

/-- **`Body.mem_steps_iff_of_inReach`** — where the target is in reach, a step leads in its direction. -/
theorem mem_steps_iff_of_inReach (h : b.cell.InReach target) :
    c ∈ b.steps target ↔
      c = ⟨b.cell.x + (target.x - b.cell.x).sign, b.cell.y⟩ ∨
        c = ⟨b.cell.x, b.cell.y + (target.y - b.cell.y).sign⟩ := by
  have hx := sign_cases (target.x - b.cell.x)
  have hy := sign_cases (target.y - b.cell.y)
  have ⟨⟨hcell, hcell'⟩, ⟨htarget, htarget'⟩, _, _⟩ := h
  -- the sign of a difference does not lead out of the words
  have hword : ∀ {n : Int}, n < 0 ∧ n.sign = -1 ∨ n = 0 ∧ n.sign = 0 ∨ 0 < n ∧ n.sign = 1 → Cell.IsWord n.sign := by
    unfold Cell.IsWord
    omega
  have hzero : Cell.IsWord 0 := ⟨by omega, by omega⟩
  have hcolumn : Cell.IsWord (b.cell.x + (target.x - b.cell.x).sign) := by
    unfold Cell.IsWord at *
    omega
  have hrow : Cell.IsWord (b.cell.y + (target.y - b.cell.y).sign) := by
    unfold Cell.IsWord at *
    omega
  rw [mem_steps_iff, Cell.toInt_eastward h, Cell.toInt_southward h,
    Cell.offset_eq h.start (hword hx) hzero hcolumn (by rwa [Int.add_zero]),
    Cell.offset_eq h.start hzero (hword hy) (by rwa [Int.add_zero]) hrow, Int.add_zero, Int.add_zero]

/-- The cells to which a step may lead are around the body, or its own. -/
theorem mem_around_of_mem_steps (h : b.cell.InReach target) (hc : c ∈ b.steps target) (hne : c ≠ b.cell) :
    c ∈ b.cell.around := by
  have hx := sign_cases (target.x - b.cell.x)
  have hy := sign_cases (target.y - b.cell.y)
  rw [Ne, Cell.ext_iff] at hne
  rw [Cell.mem_around_iff]
  unfold Cell.distance
  -- a direction without a sign would lead to the own cell
  rcases (mem_steps_iff_of_inReach h).mp hc with rfl | rfl
  · dsimp only at hne ⊢
    omega
  · dsimp only at hne ⊢
    omega

/-- **`Body.Advanced`** — all that a movement can come to, and whether it is a step: without an intent nothing
happens; an intent that is reached, or is for a cell that is not walkable, or for which no step is free, is given
up; the body waits for its next step; or it makes one, to a walkable cell next to its own, and has no intent any
more if this is the target. -/
inductive Advanced (world : World) (b : Body) : Bool → Body → Prop
  | idle : b.intent = none → Advanced world b false b
  | dropped {intent : Intent} : b.intent = some intent →
      intent.target = b.cell ∨ world.isWalkable intent.target = false ∨
        (∀ c ∈ b.steps intent.target, c ≠ b.cell → world.isWalkable c = false) →
      Advanced world b false b.stop
  | waiting {intent : Intent} {progress : Float32} : b.intent = some intent → intent.target ≠ b.cell →
      world.isWalkable intent.target = true → Advanced world b false { b with progress }
  | moved {intent : Intent} {c : Cell} {progress : Float32} : b.intent = some intent →
      world.isWalkable intent.target = true → c ∈ b.steps intent.target → c ≠ b.cell →
      world.isWalkable c = true →
      Advanced world b true
        { b with
          cell := c
          facing := b.cell.bearing c
          intent := if c = intent.target then none else b.intent
          progress }

/-- A step that is due is made, or there is none. -/
theorem step_advanced (hintent : b.intent = some intent) (hwalkable : world.isWalkable intent.target = true)
    (progress : Float32) :
    b.Advanced world (step { b with progress } world intent.target).1
      (step { b with progress } world intent.target).2 := by
  unfold step
  split
  · rename_i hfound
    refine .dropped hintent (Or.inr (Or.inr fun c hc hne => ?_))
    simpa [hne] using List.find?_eq_none.mp hfound c hc
  · rename_i c hfound
    have hmem : c ∈ b.steps intent.target := List.mem_of_find?_eq_some hfound
    have hfree := List.find?_some hfound
    simp only [decide_eq_true_eq] at hfree
    have hmoved := fun rest => @Advanced.moved world b intent c rest hintent hwalkable hmem hfree.1 hfree.2
    dsimp only
    split
    · rename_i hreached
      have hend := hmoved 0
      rwa [if_pos hreached] at hend
    · rename_i hnot
      have hend := hmoved progress
      rwa [if_neg hnot] at hend

/-- **`Body.advance_advanced`** — a movement comes to nothing else. -/
theorem advance_advanced (b : Body) (world : World) (dt tilesPerSecond : Float32) :
    b.Advanced world (b.advance world dt tilesPerSecond).1 (b.advance world dt tilesPerSecond).2 := by
  unfold advance
  split
  · rename_i hnone
    exact .idle hnone
  · rename_i intent hintent
    dsimp only
    split
    · rename_i hover
      refine .dropped hintent (hover.imp_right fun hwall => Or.inl ?_)
      simpa using hwall
    · rename_i hon
      obtain ⟨htarget, hwall⟩ := not_or.mp hon
      have hwalkable : world.isWalkable intent.target = true := by simpa using hwall
      split
      · exact .waiting hintent htarget hwalkable
      · exact step_advanced hintent hwalkable _

/-- **`Body.advance_cases`** — what a movement does to the body's place, whatever the intent: the body stays
where it is, or it moves to another walkable cell. This cell is around it if the target, which is walkable, too, is
in reach. -/
theorem advance_cases {b' : Body} {dt tilesPerSecond : Float32} {moved : Bool}
    (h : b.advance world dt tilesPerSecond = (moved, b')) :
    moved = false ∧ b'.cell = b.cell ∨
      moved = true ∧ b'.cell ≠ b.cell ∧ world.isWalkable b'.cell = true ∧
        ∃ target, world.isWalkable target = true ∧ (b.cell.InReach target → b'.cell ∈ b.cell.around) := by
  have hadvanced := b.advance_advanced world dt tilesPerSecond
  rw [h] at hadvanced
  cases hadvanced with
  | idle | dropped | waiting => exact Or.inl ⟨rfl, rfl⟩
  | moved _ hwalkable hc hne hfree =>
    exact Or.inr ⟨rfl, hne, hfree, _, hwalkable, fun hreach => mem_around_of_mem_steps hreach hc hne⟩

end Body

/-! ## § One frame -/

namespace Simulation

/-- Where the agent is. -/
def cell (m : Simulation α κ) : Cell :=
  m.situation.body.cell

/-- The end of a frame of that time, after a tick that has answered that status and left that controller and
that situation behind: the agent moves, and the frame is reported and counted. -/
def finish (m : Simulation α κ) (dt : Float32) (status : Status) (controller : Controller α κ Sensor)
    (situation : Situation) : FrameReport × Simulation α κ :=
  let (moved, body) := situation.body.advance (m.pass dt).grid.world dt m.scenario.tilesPerSecond
  let m := { m.pass dt with controller, situation := { situation with body } }
  let report := m.look status
  (report, { m with
    situation := m.situation.tell report.entry
    summary := m.summary.record report moved })

/-- **`Simulation.step_eq_ok_iff`** — a frame is a tick of the controller, at the time of the frame, and its
end. -/
theorem step_eq_ok_iff {kit : Leaves α κ Situation Fault} {m m' : Simulation α κ} {dt : Float32}
    {report : FrameReport} :
    m.step kit dt = .ok (report, m') ↔
      ∃ status controller situation,
        (m.pass dt).controller.tick kit .builtIn dt (m.pass dt).situation =
          (.ok status, controller, situation) ∧
        (report, m') = m.finish dt status controller situation := by
  unfold step
  dsimp only
  rcases (m.pass dt).controller.tick kit .builtIn dt (m.pass dt).situation with
    ⟨answer, controller, situation⟩
  cases answer with
  | error fault => simp
  | ok status =>
    constructor
    · intro h
      exact ⟨status, controller, situation, rfl, (Except.ok.inj h).symm⟩
    · rintro ⟨_, _, _, htick, hfinish⟩
      cases htick
      exact congrArg Except.ok hfinish.symm

/-- **`Simulation.Moved`** — what a frame does to the agent's place: it stays, or it moves to another free
cell; what is free stays the same; the report says where the agent is now, and the summary counts the frame. On a
grid that words can measure it does not move farther than by one cell. -/
structure Moved (m : Simulation α κ) (report : FrameReport) (m' : Simulation α κ) : Prop where
  blocked : m'.grid.isBlocked = m.grid.isBlocked
  cell : m'.cell = report.cell
  summary : ∃ moved, m'.summary = m.summary.record report moved ∧
    (moved = false ∧ report.cell = m.cell ∨
      moved = true ∧ report.cell ≠ m.cell ∧ m.grid.isBlocked report.cell = false)
  follows : m.grid.InReach → m.grid.isBlocked m.cell = false → m.cell.Follows report.cell

/-- **`Simulation.step_moved`** — a frame does this, whatever the tree does. -/
theorem step_moved {kit : Leaves α κ Situation Fault} (hkit : kit.Acting) {m m' : Simulation α κ}
    {dt : Float32} {report : FrameReport} (h : m.step kit dt = .ok (report, m')) :
    m.Moved report m' := by
  obtain ⟨status, controller, situation, htick, hfinish⟩ := step_eq_ok_iff.mp h
  have hacts := Controller.tick_acts hkit dt (m.pass dt).controller (m.pass dt).situation
  rw [htick] at hacts
  have hcell : situation.body.cell = m.cell := hacts.cell_eq
  rcases hadvance : situation.body.advance (m.pass dt).grid.world dt m.scenario.tilesPerSecond
    with ⟨moved, body⟩
  have hcases := Body.advance_cases hadvance
  simp only [finish, hadvance] at hfinish
  obtain ⟨rfl, rfl⟩ := Prod.mk.inj hfinish
  rw [hcell] at hcases
  -- the frame's grid has the walls of the grid before
  have hopen : ∀ c, (m.pass dt).grid.world.isWalkable c = true → m.grid.isBlocked c = false :=
    fun c => (Grid.isWalkable_world _ c).mp
  refine ⟨rfl, rfl, ⟨moved, rfl, ?_⟩, ?_⟩
  · exact hcases.imp_right fun ⟨hmoved, hne, hwalkable, _⟩ => ⟨hmoved, hne, hopen _ hwalkable⟩
  · intro hreach hfree
    rcases hcases with ⟨-, hstays⟩ | ⟨-, -, -, target, hwalkable, haround⟩
    · exact Or.inl hstays
    · exact Or.inr (haround (hreach m.cell target hfree (hopen _ hwalkable)))

namespace Moved

variable {m m' : Simulation α κ} {report : FrameReport}

/-- From a free cell the agent moves to a free cell. -/
theorem free (h : m.Moved report m') (hfree : m.grid.isBlocked m.cell = false) :
    m.grid.isBlocked report.cell = false := by
  obtain ⟨moved, -, ⟨-, hstays⟩ | ⟨-, -, hmoves⟩⟩ := h.summary
  · rw [hstays]
    exact hfree
  · exact hmoves

/-- A frame counts as a move if the agent is at another cell afterwards. -/
theorem cellsMoved (h : m.Moved report m') :
    m'.summary.cellsMoved = m.summary.cellsMoved + if report.cell = m.cell then 0 else 1 := by
  obtain ⟨moved, hsummary, ⟨rfl, hstays⟩ | ⟨rfl, hne, -⟩⟩ := h.summary
  · simp [hsummary, Summary.record, hstays]
  · simp [hsummary, Summary.record, hne]

theorem frames (h : m.Moved report m') : m'.summary.frames = m.summary.frames + 1 := by
  obtain ⟨moved, hsummary, -⟩ := h.summary
  rw [hsummary]
  rfl

/-- Every frame has one of the three answers. -/
theorem answers (h : m.Moved report m') :
    m'.summary.running + m'.summary.success + m'.summary.failure =
      m.summary.running + m.summary.success + m.summary.failure + 1 := by
  obtain ⟨moved, hsummary, -⟩ := h.summary
  rw [hsummary]
  cases hstatus : report.status <;> simp [Summary.record, hstatus] <;> omega

end Moved

/-! ## § Many frames -/

/-- **`Simulation.Frames`** — frames, one after the other, each with any time step, and what they
reported. -/
inductive Frames (kit : Leaves α κ Situation Fault) :
    Simulation α κ → List FrameReport → Simulation α κ → Prop
  | nil {m : Simulation α κ} : Frames kit m [] m
  | cons {m m₁ m' : Simulation α κ} {dt : Float32} {report : FrameReport}
      {reports : List FrameReport} :
      m.step kit dt = .ok (report, m₁) → Frames kit m₁ reports m' →
      Frames kit m (report :: reports) m'

/-- The reports of a run with one time step are the reports of frames. -/
theorem frames_of_reports {kit : Leaves α κ Situation Fault} {dt : Float32} {n : Nat}
    {m m' : Simulation α κ} {before reports : List FrameReport}
    (h : m.reports kit dt before n = .ok (reports, m')) :
    ∃ after, reports = before.reverse ++ after ∧ Frames kit m after m' := by
  induction n generalizing m before with
  | zero =>
    simp only [Simulation.reports, Except.ok.injEq, Prod.mk.injEq] at h
    obtain ⟨rfl, rfl⟩ := h
    exact ⟨[], (List.append_nil _).symm, .nil⟩
  | succ n ih =>
    simp only [Simulation.reports] at h
    split at h
    · cases h
    · rename_i report m₁ hstep
      obtain ⟨after, hreports, hframes⟩ := ih h
      exact ⟨report :: after, by simpa using hreports, .cons hstep hframes⟩

/-- A run that has been computed is a run. -/
theorem exists_frames_of_computed {kit : Leaves α κ Situation Fault} {scenario : Scenario} {root : Node α κ}
    {seed : UInt64} {dt : Float32} {n : Nat} {ρ : Type} {f : List FrameReport × Simulation α κ → ρ} {result : ρ}
    (h : ((create scenario root seed []).toOption.bind fun start =>
      (start.reports kit dt [] n).toOption.map f) = some result) :
    ∃ start reports m, create scenario root seed [] = .ok start ∧ Frames kit start reports m ∧
      f (reports, m) = result := by
  obtain ⟨start, hstart, hrun⟩ := Option.bind_eq_some_iff.mp h
  obtain ⟨⟨reports, m⟩, hreports, hresult⟩ := Option.map_eq_some_iff.mp hrun
  have hok : ∀ {ε τ : Type} {r : Except ε τ} {x : τ}, r.toOption = some x → r = .ok x := by
    intro ε τ r x hr
    cases r with
    | error => cases hr
    | ok => exact congrArg Except.ok (Option.some.inj hr)
  obtain ⟨_, rfl, hframes⟩ := frames_of_reports (hok hreports)
  exact ⟨start, _, m, hok hstart, hframes, hresult⟩

namespace Frames

variable {kit : Leaves α κ Situation Fault} {m m' : Simulation α κ} {reports : List FrameReport}

/-- **`Frames.trail`** — the path of the agent through the frames of a run: without jumps, through free
cells, to where it is in the end. -/
theorem trail (hkit : kit.Acting) (h : Frames kit m reports m') (hreach : m.grid.InReach)
    (hfree : m.grid.isBlocked m.cell = false) :
    (m.cell :: reports.map FrameReport.cell).IsChain Cell.Follows ∧
      (∀ c ∈ m.cell :: reports.map FrameReport.cell, m.grid.isBlocked c = false) ∧
      (m.cell :: reports.map FrameReport.cell).getLast? = some m'.cell := by
  induction h with
  | nil => simp [hfree]
  | cons hstep _ ih =>
    have hmoved := step_moved hkit hstep
    have hfree' := hmoved.free hfree
    have hfollows := hmoved.follows hreach hfree
    unfold Grid.InReach at ih hreach
    rw [hmoved.blocked, hmoved.cell] at ih
    obtain ⟨hchain, hall, hlast⟩ := ih hreach hfree'
    refine ⟨List.isChain_cons_cons.mpr ⟨hfollows, hchain⟩, ?_, ?_⟩
    · exact List.forall_mem_cons.mpr ⟨hfree, hall⟩
    · simpa using hlast

/-- The summary counts the frames at whose end the agent is at another cell than before. -/
theorem cellsMoved (hkit : kit.Acting) (h : Frames kit m reports m') :
    m'.summary.cellsMoved =
      m.summary.cellsMoved + Cell.changes (m.cell :: reports.map FrameReport.cell) := by
  induction h with
  | nil => rfl
  | cons hstep _ ih =>
    have hmoved := step_moved hkit hstep
    rw [ih, hmoved.cellsMoved, hmoved.cell, List.map_cons, Cell.changes, Nat.add_assoc]

/-- The summary counts all frames, and each of them under one answer. -/
theorem counted (hkit : kit.Acting) (h : Frames kit m reports m') :
    m'.summary.frames = m.summary.frames + reports.length ∧
      m'.summary.running + m'.summary.success + m'.summary.failure =
        m.summary.running + m.summary.success + m.summary.failure + reports.length := by
  induction h with
  | nil => exact ⟨rfl, rfl⟩
  | cons hstep _ ih =>
    have hmoved := step_moved hkit hstep
    have hframes := hmoved.frames
    have hanswers := hmoved.answers
    simp only [List.length_cons]
    omega

end Frames

/-- A scenario that can be run makes a simulation, which has the scenario's grid and starts where the
scenario says. -/
theorem exists_create {scenario : Scenario} (h : scenario.validate = .ok ()) (root : Node α κ)
    (seed : UInt64) (journal : Journal) :
    ∃ m, create scenario root seed journal = .ok m ∧ scenario.grid = .ok m.grid ∧
      m.cell = scenario.agent ∧ m.summary = {} ∧ scenario.IsFree scenario.agent := by
  obtain ⟨g, hgrid, hagent⟩ := Scenario.exists_grid_of_validate h
  simp only [create, hgrid, bind, Except.bind]
  exact ⟨_, rfl, rfl, rfl, rfl, hagent⟩

/-- **`Simulation.movement_safe`** — a scenario that can be run makes a simulation, for every tree and
every seed, and whatever its leaves do through the agent: after every number of frames, with any time
steps, the agent is at a free cell. The cells that the frames report are free too; each one is the cell
before (for the first frame the start) or one around it. The summary counts as moves the frames whose
cell is another one than before, so the agent is no farther from its start than it has moved, it has
moved at most once a frame, and every frame counts under one answer. -/
theorem movement_safe {kit : Leaves α κ Situation Fault} (hkit : kit.Acting) {scenario : Scenario}
    (hvalid : scenario.validate = .ok ()) (root : Node α κ) (seed : UInt64) (journal : Journal) :
    ∃ start, create scenario root seed journal = .ok start ∧
      ∀ reports m, Frames kit start reports m →
        scenario.IsFree m.cell ∧
        (∀ report ∈ reports, scenario.IsFree report.cell) ∧
        (scenario.agent :: reports.map FrameReport.cell).getLast? = some m.cell ∧
        (scenario.agent :: reports.map FrameReport.cell).IsChain Cell.Follows ∧
        m.summary.cellsMoved = Cell.changes (scenario.agent :: reports.map FrameReport.cell) ∧
        scenario.agent.distance m.cell ≤ m.summary.cellsMoved ∧
        m.summary.cellsMoved ≤ m.summary.frames ∧
        m.summary.frames = reports.length ∧
        m.summary.running + m.summary.success + m.summary.failure = m.summary.frames := by
  obtain ⟨start, hcreate, hgrid, hcell, hsummary, hagent⟩ := exists_create hvalid root seed journal
  refine ⟨start, hcreate, ?_⟩
  intro reports m hframes
  have hfree : start.grid.isBlocked start.cell = false := by
    rw [hcell]
    exact (Scenario.isBlocked_iff hgrid _).mpr hagent
  obtain ⟨hchain, hall, hlast⟩ := hframes.trail hkit (Scenario.inReach hgrid) hfree
  have hmoves := hframes.cellsMoved hkit
  obtain ⟨hcount, hanswers⟩ := hframes.counted hkit
  rw [hcell] at hchain hall hlast hmoves
  simp only [hsummary, Nat.zero_add] at hmoves hcount hanswers
  have hisFree : ∀ c ∈ scenario.agent :: reports.map FrameReport.cell, scenario.IsFree c :=
    fun c hc => (Scenario.isBlocked_iff hgrid c).mp (hall c hc)
  have hdistance := Cell.distance_le_changes hchain hlast
  have hatMost := Cell.changes_le_length scenario.agent (reports.map FrameReport.cell)
  rw [List.length_map] at hatMost
  refine ⟨hisFree _ (List.mem_of_getLast? hlast), ?_, hlast, hchain, hmoves, ?_, ?_, hcount, ?_⟩
  · exact fun report hreport => hisFree _ (List.mem_cons_of_mem _ (List.mem_map_of_mem hreport))
  · rwa [hmoves]
  · rwa [hmoves, hcount]
  · rw [hanswers, hcount]

/-- Around a wall: the agent of a small yard is to go to a cell behind the wall on its right. -/
def yard : Scenario := { width := 3, height := 2, blocked := [⟨1, 0⟩], agent := ⟨0, 0⟩ }

/-- The tree of that agent. -/
def errand : Node (Action Empty) Condition :=
  .action ⟨"move", false, .move ⟨.paths (.patrolling [⟨2, 1⟩]), 1⟩⟩

/-- It goes down, because the way to the right is blocked, and then to the right, a cell in each frame;
then it stays. -/
theorem movement_safe_in_yard :
    yard.validate = .ok () ∧
      (Leaves.builtIn .none : Leaves (Action Empty) Condition Situation Fault).Acting ∧
      ∃ start, create yard errand 7 [] = .ok start ∧
        ∃ reports m, Frames (.builtIn .none) start reports m ∧
          reports.map FrameReport.cell = [⟨0, 1⟩, ⟨1, 1⟩, ⟨2, 1⟩, ⟨2, 1⟩] ∧
          yard.IsFree m.cell ∧ m.summary.cellsMoved = 3 := by
  have hvalid : yard.validate = .ok () := rfl
  have hacting : (Leaves.builtIn .none : Leaves (Action Empty) Condition Situation Fault).Acting :=
    Leaves.builtIn_acting fun own => own.elim
  have hreports : ((create yard errand 7 []).toOption.bind fun start =>
      (start.reports (.builtIn .none) 0.25 [] 4).toOption.map fun r => r.1.map FrameReport.cell) =
      some [⟨0, 1⟩, ⟨1, 1⟩, ⟨2, 1⟩, ⟨2, 1⟩] := by decide +kernel
  obtain ⟨start, reports, m, hstart, hframes, hcells⟩ := exists_frames_of_computed hreports
  obtain ⟨_, hcreate, hsafe⟩ := movement_safe hacting hvalid errand 7 []
  obtain rfl := Except.ok.inj (hstart.symm.trans hcreate)
  obtain ⟨hfree, -, -, -, hmoved, -⟩ := hsafe reports m hframes
  refine ⟨hvalid, hacting, start, hcreate, reports, m, hframes, hcells, hfree, ?_⟩
  rw [hmoved]
  exact congrArg (fun cells => Cell.changes (yard.agent :: cells)) hcells

end Simulation

end BehaviorTree
