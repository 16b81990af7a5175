/-
# BehaviorTree.Proofs.RootTrace — the trace tells the run

A controller does not leave an event behind in every frame, only in those in which the answer of its tree is
another one than in the frame before. The events of a run are a log of changes, and two things are asked of
such a log. It is lossless: what the tree answered in a frame can be read off the last event up to it
(`statusAt`). And it is minimal: two events in a row tell different answers, unless an abort between them made
the controller forget the first one.

Both are in `Controller.Run.root_trace`. That the trace is lossless is an invariant of runs, `Controller.Told`:
the answer that the controller remembers is the one that the last event tells. That it is minimal follows from
what it remembers between two events (`Controller.Run.lastStatus_eq`).
-/
import BehaviorTree.Proofs.ControllerRun

namespace BehaviorTree

variable {α κ σ : Type}

/-! ## § Root events -/

/-- **`TraceEvent.rootStatus?`** — the status that a root event tells. Other events tell none. -/
def TraceEvent.rootStatus? (event : TraceEvent) : Option Status :=
  [Status.running, .success, .failure].find? fun status => event.tag = "bt.root." ++ status.text

/-- **`statusAt`** — what the events tell about a frame: the status of the last one up to it. -/
def statusAt (events : List TraceEvent) (frame : Nat) : Option Status :=
  (events.filter (·.frame ≤ frame)).getLast?.bind TraceEvent.rootStatus?

theorem TraceEvent.rootStatus?_root (frame : Nat) (status : Status) :
    rootStatus? { frame, tag := "bt.root." ++ status.text } = some status := by
  cases status <;> rfl

/-- If no event comes after the frame, the last one counts. -/
theorem statusAt_of_past {events : List TraceEvent} {frame : Nat} (h : ∀ event ∈ events, event.frame ≤ frame) :
    statusAt events frame = events.getLast?.bind TraceEvent.rootStatus? := by
  rw [statusAt, List.filter_eq_self.mpr fun event hevent => decide_eq_true (h event hevent)]

/-- An event after the frame does not count. -/
theorem statusAt_append_of_lt {event : TraceEvent} {frame : Nat} (h : frame < event.frame)
    (events : List TraceEvent) : statusAt (events ++ [event]) frame = statusAt events frame := by
  simp [statusAt, Nat.not_le.mpr h]

namespace Controller

/-- The root events of some turns. -/
def rootEvents (turns : List Turn) : List TraceEvent :=
  (turns.flatMap Turn.events).filter fun event => event.rootStatus?.isSome

theorem rootEvents_append (turns more : List Turn) :
    rootEvents (turns ++ more) = rootEvents turns ++ rootEvents more := by
  simp [rootEvents]

/-- That samples were put off is no root event. -/
theorem rootStatus?_deferred {c : Controller α κ σ} {step : Float} {event : TraceEvent}
    (h : c.deferred? step = some event) : event.rootStatus? = none := by
  rw [TraceEvent.rootStatus?, (deferred?_eq_some h).2]
  rfl

/-- The only root event of a frame is the one that tells that the answer has changed. -/
theorem rootEvents_ticked (dt dt' : Float32) (frame : Nat) (status : Status) (c : Controller α κ σ) :
    rootEvents [.ticked dt' frame status (c.events dt status)] =
      if c.lastStatus = some status then []
      else [{ frame := c.frame + 1, tag := "bt.root." ++ status.text }] := by
  have hdeferred : ((c.sampled dt).step?.bind (c.sampled dt).deferred?).toList.filter
      (fun event => event.rootStatus?.isSome) = [] := by
    cases h : (c.sampled dt).step?.bind (c.sampled dt).deferred? with
    | none => rfl
    | some event =>
      obtain ⟨step, -, hevent⟩ := Option.bind_eq_some_iff.mp h
      simp [rootStatus?_deferred hevent]
  have hchange : (c.sampled dt).change? status = if c.lastStatus = some status then none
    else some { frame := c.frame + 1, tag := "bt.root." ++ status.text } := rfl
  rw [rootEvents, List.flatMap_singleton]
  simp only [Turn.events, events, List.filter_append, hdeferred, List.nil_append, hchange]
  split
  · rfl
  · simp [TraceEvent.rootStatus?_root]

/-! ## § The trace is lossless -/

/-- **`Controller.Told`** — what the root events of the turns tell about a run that has brought a controller
here. -/
structure Told (turns : List Turn) (c : Controller α κ σ) : Prop where
  /-- The frames are numbered one after the other. -/
  frames : turns.filterMap Turn.frame? = List.range' 1 c.frame
  /-- So the events come in the order of the frames. -/
  increasing : (rootEvents turns).Pairwise (·.frame < ·.frame)
  past : ∀ event ∈ rootEvents turns, event.frame ≤ c.frame
  /-- The status of every frame can be read off. -/
  lossless : ∀ dt frame status events, .ticked dt frame status events ∈ turns →
    statusAt (rootEvents turns) frame = some status
  /-- The status that the controller remembers is the one that the last event tells. -/
  remembered : ∀ status, c.lastStatus = some status →
    (rootEvents turns).getLast?.bind TraceEvent.rootStatus? = some status

/-- Before the first frame there is nothing to tell. -/
theorem Told.create (root : Node α κ) (sensors : List σ) (hz : Float32) (cap : Nat) :
    Told [] (create root sensors hz cap) where
  frames := rfl
  increasing := .nil
  past := nofun
  lossless := nofun
  remembered := nofun

/-- A frame of the past is not after the last one. -/
theorem Told.frame_le {turns : List Turn} {c : Controller α κ σ} (h : Told turns c) {dt : Float32}
    {frame : Nat} {status : Status} {events : List TraceEvent}
    (hmem : .ticked dt frame status events ∈ turns) : frame ≤ c.frame := by
  have hframe : frame ∈ turns.filterMap Turn.frame? := List.mem_filterMap.mpr ⟨_, hmem, rfl⟩
  rw [h.frames, List.mem_range'_1] at hframe
  omega

/-- An abort tells nothing and forgets the status. -/
theorem Told.aborted {turns : List Turn} {c : Controller α κ σ} (h : Told turns c) (root : Node α κ) :
    Told (turns ++ [Turn.aborted]) { c with root, lastStatus := none } := by
  have hevents : rootEvents (turns ++ [Turn.aborted]) = rootEvents turns := by
    rw [rootEvents_append]
    exact List.append_nil _
  have hframes : (turns ++ [Turn.aborted]).filterMap Turn.frame? = turns.filterMap Turn.frame? := by
    rw [List.filterMap_append]
    exact List.append_nil _
  refine ⟨hframes ▸ h.frames, hevents ▸ h.increasing, hevents ▸ h.past, ?_, nofun⟩
  intro dt frame status events hmem
  rw [hevents]
  exact h.lossless dt frame status events (by simpa using hmem)

/-- A frame tells its status, unless the last event has told it already. -/
theorem Told.ticked {turns : List Turn} {c c' : Controller α κ σ} (h : Told turns c) (dt : Float32)
    (status : Status) (hframe : c'.frame = c.frame + 1) (hlast : c'.lastStatus = some status) :
    Told (turns ++ [.ticked dt (c.frame + 1) status (c.events dt status)]) c' := by
  generalize hturn : Turn.ticked dt (c.frame + 1) status (c.events dt status) = turn
  have hevents : rootEvents (turns ++ [turn]) = rootEvents turns ++
      if c.lastStatus = some status then []
      else [{ frame := c.frame + 1, tag := "bt.root." ++ status.text }] := by
    rw [rootEvents_append, ← hturn, rootEvents_ticked]
  have hpast : ∀ event ∈ rootEvents (turns ++ [turn]), event.frame ≤ c'.frame := by
    intro event hevent
    rw [hevents] at hevent
    rcases List.mem_append.mp hevent with hold | hnew
    · exact hframe ▸ Nat.le_succ_of_le (h.past event hold)
    · split at hnew
      · simp at hnew
      · obtain rfl := List.mem_singleton.mp hnew
        exact Nat.le_of_eq hframe.symm
  have hremembered : (rootEvents (turns ++ [turn])).getLast?.bind TraceEvent.rootStatus? = some status := by
    rw [hevents]
    split
    · next hsame => rw [List.append_nil, h.remembered status hsame]
    · rw [List.getLast?_concat, Option.bind_some, TraceEvent.rootStatus?_root]
  -- a new event comes after all earlier frames, so nothing changes for them
  have hold : ∀ frame ≤ c.frame, statusAt (rootEvents (turns ++ [turn])) frame =
      statusAt (rootEvents turns) frame := by
    intro frame hle
    rw [hevents]
    split
    · rw [List.append_nil]
    · exact statusAt_append_of_lt (Nat.lt_succ_of_le hle) _
  refine ⟨?frames, ?increasing, hpast, ?lossless, ?remembered⟩
  case frames =>
    rw [List.filterMap_append, h.frames, hframe, List.range'_1_concat, ← hturn]
    simp [Turn.frame?, Nat.add_comm]
  case increasing =>
    rw [hevents]
    split
    · rw [List.append_nil]
      exact h.increasing
    · refine List.pairwise_append.mpr ⟨h.increasing, List.pairwise_singleton _ _, ?_⟩
      intro event hevent new hnew
      obtain rfl := List.mem_singleton.mp hnew
      exact Nat.lt_succ_of_le (h.past event hevent)
  case lossless =>
    intro dt' frame status' events hmem
    rcases List.mem_append.mp hmem with hbefore | hnow
    · rw [hold frame (h.frame_le hbefore)]
      exact h.lossless dt' frame status' events hbefore
    · rw [← hturn, List.mem_singleton, Turn.ticked.injEq] at hnow
      obtain ⟨-, rfl, rfl, -⟩ := hnow
      rw [← hframe, statusAt_of_past hpast, hremembered]
  case remembered =>
    intro status' hstatus'
    rw [hlast] at hstatus'
    rw [hremembered, hstatus']

/-- **`Controller.Told.step`** — every call keeps to what is told. -/
theorem Told.step {kit : Leaves α κ Situation Fault} {senses : Senses σ Situation} {turns : List Turn}
    {c c' : Controller α κ σ} {turn : Turn} (h : Told turns c) (hstep : Step kit senses c turn c') :
    Told (turns ++ [turn]) c' := by
  rcases hstep.cases with ⟨dt, status, root, sensors, rfl, rfl⟩ | ⟨rfl, root, rfl⟩
  · exact h.ticked dt status rfl rfl
  · exact h.aborted root

section Runs

variable {kit : Leaves α κ Situation Fault} {senses : Senses σ Situation} {start c : Controller α κ σ}
  {turns : List Turn}

/-- **`Controller.Run.told`** — so does every run. -/
theorem Run.told (hstart : Told [] start) (hrun : Run kit senses start turns c) : Told turns c := by
  induction hrun with
  | nil => exact hstart
  | snoc _ hstep ih => exact ih.step hstep

/-! ## § The trace is minimal -/

/-- As long as there is neither a root event nor an abort, the controller remembers the same status. -/
theorem Run.lastStatus_eq (hrun : Run kit senses start turns c) (hquiet : rootEvents turns = [])
    (habort : Turn.aborted ∉ turns) : c.lastStatus = start.lastStatus := by
  induction hrun with
  | nil => rfl
  | @snoc before turn m c' _ hstep ih =>
    rw [rootEvents_append, List.append_eq_nil_iff] at hquiet
    rw [← ih hquiet.1 fun hmem => habort (List.mem_append_left _ hmem)]
    rcases hstep.cases with ⟨dt, status, root, sensors, rfl, rfl⟩ | ⟨rfl, root, rfl⟩
    · have hnow := hquiet.2
      rw [rootEvents_ticked] at hnow
      split at hnow
      · next hsame => exact hsame.symm
      · cases hnow
    · exact absurd (List.mem_append_right _ List.mem_cons_self) habort

/-- A call with a root event is a frame with another status than the remembered one; its event tells it and
the controller remembers it. -/
theorem Step.of_rootEvent {c' : Controller α κ σ} {turn : Turn} (hstep : Step kit senses c turn c')
    {event : TraceEvent} (hevent : event ∈ rootEvents [turn]) :
    event.rootStatus? = c'.lastStatus ∧ c.lastStatus ≠ c'.lastStatus := by
  rcases hstep.cases with ⟨dt, status, root, sensors, rfl, rfl⟩ | ⟨rfl, root, rfl⟩
  · rw [rootEvents_ticked] at hevent
    split at hevent
    · cases hevent
    · next hother =>
      obtain rfl := List.mem_singleton.mp hevent
      exact ⟨TraceEvent.rootStatus?_root _ _, hother⟩
  · cases hevent

/-- **`Controller.Run.root_trace`** — the trace tells the run. In a run of a new controller, whatever its
tree, its sensors and its settings are and however it is ticked and aborted, the frames are numbered from 1
on, and for the root events that it leaves behind it holds that

* their frames are strictly increasing;
* the status that was returned in a frame is the one that the last event up to it tells, and there is one;
* two of them without another one and without an abort between them tell different statuses.

These are the events that a record gets: in every further frame, a record that is the sink takes on just the
events of the turn, if leaves and sensors leave it alone. -/
theorem Run.root_trace {root : Node α κ} {sensors : List σ} {hz : Float32} {cap : Nat}
    (hrun : Run kit senses (create root sensors hz cap) turns c) :
    turns.filterMap Turn.frame? = List.range' 1 c.frame ∧
      (rootEvents turns).Pairwise (·.frame < ·.frame) ∧
      (∀ dt frame status events, Turn.ticked dt frame status events ∈ turns →
        statusAt (rootEvents turns) frame = some status) ∧
      (∀ before first between second after, turns = before ++ [first] ++ between ++ [second] ++ after →
        rootEvents between = [] → Turn.aborted ∉ between →
        ∀ event ∈ rootEvents [first], ∀ next ∈ rootEvents [second],
          event.rootStatus? ≠ next.rootStatus?) ∧
      ∀ dt status c' s s', c.tick kit senses dt s = (.ok status, c', s') →
        ∃ events, Run kit senses (create root sensors hz cap) (turns ++ [.ticked dt c'.frame status events]) c' ∧
          ∀ id, Silent kit senses id → s.board.slots.get Blackboard.sinkKey = .ok (some (.record id)) →
            s'.journal.recorded id = s.journal.recorded id ++ events := by
  have htold := hrun.told (.create root sensors hz cap)
  refine ⟨htold.frames, htold.increasing, htold.lossless, ?minimal, ?recorded⟩
  case minimal =>
    rintro before first between second after rfl hquiet habort event hevent next hnext
    -- after the first event the controller remembers its status, and so it does until the second one
    obtain ⟨m₄, hrun, -⟩ := hrun.split
    obtain ⟨m₃, hrun, hsecond⟩ := hrun.unsnoc
    obtain ⟨m₂, hrun, hbetween⟩ := hrun.split
    obtain ⟨m₁, -, hfirst⟩ := hrun.unsnoc
    obtain ⟨htells, -⟩ := hfirst.of_rootEvent hevent
    obtain ⟨htells', hchanged⟩ := hsecond.of_rootEvent hnext
    rw [htells, htells', ← hbetween.lastStatus_eq hquiet habort]
    exact hchanged
  case recorded =>
    intro dt status c' s s' htick
    refine ⟨c.events dt status, hrun.snoc (.tick htick), ?_⟩
    intro id hsilent hsink
    exact (tick_recorded hsilent hsink htick).1

end Runs

/-- A controller that makes no samples and whose tree listens for three quarters of a second: in a frame, with
the status that it remembers, entered or not, and with that much time left. -/
def listener (frame : Nat) (lastStatus : Option Status) (entered : Bool) (remaining : Float32) :
    Controller (Action Empty) Condition Sensor :=
  { create (.action ⟨"listen", entered, .listen ⟨0.75, remaining⟩⟩) [] 0 with frame, lastStatus }

/-- It listens, is interrupted and begins again. -/
def listenerTurns : List Turn :=
  [.ticked 0.25 1 .running [⟨1, "bt.root.running", 0, 0⟩], .ticked 0.25 2 .running [], .aborted,
    .ticked 0.25 3 .running [⟨3, "bt.root.running", 0, 0⟩]]

/-- The second frame is not told, because nothing has changed, and the third one is told because of the
abort. A record gets nothing but these events. -/
theorem listener_trace :
    Run (.builtIn .none) .builtIn (create (listener 0 none false 0.75).root [] 0) listenerTurns
        (listener 3 (some .running) true (0.75 - 0.25)) ∧
      rootEvents listenerTurns = [⟨1, "bt.root.running", 0, 0⟩, ⟨3, "bt.root.running", 0, 0⟩] ∧
      (rootEvents listenerTurns).Pairwise (·.frame < ·.frame) ∧
      statusAt (rootEvents listenerTurns) 2 = some .running ∧
      ∀ id, Silent (.builtIn .none : Leaves (Action Empty) Condition Situation Fault) .builtIn id := by
  have hbegins : Step (.builtIn .none) .builtIn (listener 0 none false 0.75)
      (.ticked 0.25 1 .running [⟨1, "bt.root.running", 0, 0⟩])
      (listener 1 (some .running) true (0.75 - 0.25)) :=
    .tick (show tick _ _ _ _ default = (_, listener 1 (some .running) true (0.75 - 0.25), _) from rfl)
  have hlistens : Step (.builtIn .none) .builtIn (listener 1 (some .running) true (0.75 - 0.25))
      (.ticked 0.25 2 .running []) (listener 2 (some .running) true (0.75 - 0.25 - 0.25)) :=
    .tick (show tick _ _ _ _ default = (_, listener 2 (some .running) true (0.75 - 0.25 - 0.25), _) from rfl)
  have hstops : Step (.builtIn .none) .builtIn (listener 2 (some .running) true (0.75 - 0.25 - 0.25))
      .aborted (listener 2 none false (0.75 - 0.25 - 0.25)) := .abort (s := default)
  have hagain : Step (.builtIn .none) .builtIn (listener 2 none false (0.75 - 0.25 - 0.25))
      (.ticked 0.25 3 .running [⟨3, "bt.root.running", 0, 0⟩])
      (listener 3 (some .running) true (0.75 - 0.25)) :=
    .tick (show tick _ _ _ _ default = (_, listener 3 (some .running) true (0.75 - 0.25), _) from rfl)
  have hrun : Run (.builtIn .none) .builtIn (create (listener 0 none false 0.75).root [] 0) listenerTurns _ :=
    (((Run.nil.snoc hbegins).snoc hlistens).snoc hstops).snoc hagain
  obtain ⟨-, hincreasing, hlossless, -⟩ := hrun.root_trace
  exact ⟨hrun, rfl, hincreasing, hlossless 0.25 2 .running [] (by simp [listenerTurns]),
    fun _ => silent_builtIn fun own => own.elim⟩

end Controller

end BehaviorTree
