/-
# BehaviorTree.Proofs.ControllerRun — runs of a controller

Whoever owns a controller ticks it once in a frame, with the time of the frame, and aborts it when he likes.
As in a run of a tree, every call brings its own situation, and a call belongs to a run if it returns.

What a controller does by itself does not depend on its tree, on its sensors or on the situation, except for
the status that the tree answers: `Controller.tick_ok` says what a frame does to it, and `Controller.events`
which trace events it leaves behind. A record that takes the events on gets just these, if leaves and sensors
leave it alone (`Controller.tick_recorded`), as the library's own ones do (`Controller.silent_builtIn`). What a
frame does to the situation comes from its samples and from the one tick of the tree, apart from what is told
about them (`Controller.tick_parts`).
-/
import BehaviorTree.Proofs.Acting
import Mathlib.Data.List.Induction

namespace BehaviorTree

variable {α κ σ : Type}

/-- What a frame of that time leaves of the time that is not used and of the count of rounds, with `value`
for what a single-precision number counts. -/
def Sampling.frame {τ : Type} [OfNat τ 0] [OfNat τ 1] [Add τ] [Sub τ] [Div τ] [LE τ] [DecidableLE τ]
    (value : Float32 → τ) (hz : Float32) (cap : Nat) (c : Sampling τ) (dt : Float32) : Sampling τ :=
  match step? value hz with
  | none => c
  | some step => (c.advance step cap (counted value dt)).2

/-- **`Situation.Told`** — on the way from the first situation to the second one only notes and entries of the
journal were written. -/
def Situation.Told (s t : Situation) : Prop :=
  ∃ notes journal, t = { s with board := { s.board with notes }, journal }

theorem Situation.emit_told (s : Situation) (event : TraceEvent) : s.Told (s.emit event).2 := by
  unfold emit
  dsimp only
  split
  · exact ⟨_, s.journal, rfl⟩
  · exact ⟨_, s.journal, rfl⟩
  · exact ⟨_, _, rfl⟩

namespace Controller

/-! ## § What a frame does to a controller -/

/-- The controller in a frame of that time, when the rounds have been made and the tree is about to be
ticked; the sensors apart. -/
def sampled (dt : Float32) (c : Controller α κ σ) : Controller α κ σ :=
  { c with
    frame := c.frame + 1
    sampling := c.sampling.frame Numeric.toDouble c.sensorHz c.maxCatchUp dt }

/-- **`Controller.events`** — the trace events that a controller leaves behind in a frame of that time if
the tree answers that status. -/
def events (dt : Float32) (status : Status) (c : Controller α κ σ) : List TraceEvent :=
  let c := c.sampled dt
  (c.step?.bind c.deferred?).toList ++ (c.change? status).toList

variable {kit : Leaves α κ Situation Fault} {senses : Senses σ Situation} {dt : Float32}
  {c c' : Controller α κ σ} {s s' : Situation} {status : Status}

/-- That samples were put off is told if one is still due. -/
theorem deferred?_eq_some {step : Float} {event : TraceEvent} (h : c.deferred? step = some event) :
    c.sampling.isBehind step = true ∧ event.tag = "sense.catch_up.capped" := by
  unfold deferred? at h
  split at h
  · next hbehind =>
    obtain rfl := Option.some.inj h
    exact ⟨hbehind, rfl⟩
  · cases h

/-- The status is told if it is another one than the remembered one. -/
theorem change?_eq_some {event : TraceEvent} (h : c.change? status = some event) :
    c.lastStatus ≠ some status ∧ event = { frame := c.frame, tag := "bt.root." ++ status.text } := by
  unfold change? at h
  split at h
  · cases h
  · next hother => exact ⟨hother, (Option.some.inj h).symm⟩

/-- Making rounds changes the sensors and the sampling and nothing else. -/
theorem sense_eq (senses : Senses σ Situation) (dt : Float32) (c : Controller α κ σ) (s : Situation) :
    ∃ sensors, (c.sense senses dt s).2.1 =
      { c with
        sensors
        sampling := c.sampling.frame Numeric.toDouble c.sensorHz c.maxCatchUp dt } := by
  unfold sense Sampling.frame step?
  cases Sampling.step? Numeric.toDouble c.sensorHz with
  | none => exact ⟨c.sensors, rfl⟩
  | some step =>
    dsimp only
    split <;> exact ⟨_, rfl⟩

/-- **`Controller.tick_ok`** — a frame that returns a status counts the frame, makes the rounds and remembers
the status. -/
theorem tick_ok (h : c.tick kit senses dt s = (.ok status, c', s')) :
    ∃ root sensors, c' = { c.sampled dt with root, sensors, lastStatus := some status } := by
  obtain ⟨sensors, hsense⟩ := sense_eq senses dt { c with frame := c.frame + 1 } s
  unfold tick at h
  rcases hs : sense senses dt { c with frame := c.frame + 1 } s with ⟨result, c₁, s₁⟩
  rw [hs] at h hsense
  simp only at hsense
  subst hsense
  cases result with
  | error fault => simp at h
  | ok =>
    simp only [tickRoot] at h
    split at h
    · simp at h
    · split at h
      · simp at h
      · simp only [Prod.mk.injEq, Except.ok.injEq] at h
        obtain ⟨rfl, rfl, -⟩ := h
        exact ⟨_, sensors, rfl⟩

/-! ## § The parts of a frame -/

/-- Making rounds is to take their samples, and to tell that some were put off. -/
theorem sense_parts (senses : Senses σ Situation) (dt : Float32) (c : Controller α κ σ) (s : Situation) :
    ∃ step taken sampling,
      (c.sense senses dt s).2.1 =
        { c with sensors := (sampleRounds senses step taken c.sensors s).1, sampling } ∧
      sampling.samples = c.sampling.samples + taken ∧
      (sampleRounds senses step taken c.sensors s).2.Told (c.sense senses dt s).2.2 := by
  unfold sense
  rcases c.step? with _ | step
  · exact ⟨0, 0, c.sampling, rfl, rfl, _, _, rfl⟩
  · refine ⟨Numeric.toSingle step,
      (c.sampling.advance step c.maxCatchUp (Sampling.counted Numeric.toDouble dt)).1,
      (c.sampling.advance step c.maxCatchUp (Sampling.counted Numeric.toDouble dt)).2, ?_⟩
    dsimp only
    split
    · exact ⟨rfl, rfl, _, _, rfl⟩
    · next event _ =>
      refine ⟨rfl, rfl, ?_⟩
      obtain ⟨notes, journal, htold⟩ := Situation.emit_told
        (Situation.tell _ (.catchUpCapped c.frame event.a event.b)) event
      rw [htold]
      exact ⟨notes, journal, rfl⟩

/-- A tick of the root is a tick of the tree, and what is told about it. -/
theorem tickRoot_parts (h : c.tickRoot kit dt s = (.ok status, c', s')) :
    ∃ root t, c.root.tick kit dt s = (.ok status, root, t) ∧
      c' = { c with root, lastStatus := some status } ∧ t.Told s' := by
  unfold tickRoot at h
  rcases ht : c.root.tick kit dt s with ⟨answer, root, t⟩
  rw [ht] at h
  cases answer with
  | error fault => simp at h
  | ok answer =>
    dsimp only at h
    have hreport : (t.tell (.rootTicked c.frame answer)).Told
        (report { c with root } answer (t.tell (.rootTicked c.frame answer))).2 := by
      unfold report
      split
      · exact ⟨_, _, rfl⟩
      · exact Situation.emit_told _ _
    rcases hr : report { c with root } answer (t.tell (.rootTicked c.frame answer)) with ⟨result, t'⟩
    rw [hr] at h hreport
    cases result with
    | error fault => simp at h
    | ok =>
      cases h
      obtain ⟨notes, journal, htold⟩ := hreport
      exact ⟨root, t, rfl, rfl, notes, journal, htold⟩

/-- **`Controller.tick_parts`** — a frame that returns a status takes the samples of some rounds and ticks the
tree once; what else it does to the situation is to write notes and entries of the journal. -/
theorem tick_parts (h : c.tick kit senses dt s = (.ok status, c', s')) :
    ∃ step taken s₁ s₂,
      (sampleRounds senses step taken c.sensors s).2.Told s₁ ∧
      c.root.tick kit dt s₁ = (.ok status, c'.root, s₂) ∧ s₂.Told s' ∧
      c'.sensors = (sampleRounds senses step taken c.sensors s).1 ∧
      c'.sampling.samples = c.sampling.samples + taken := by
  obtain ⟨step, taken, sampling, hsensed, hsamples, htold⟩ :=
    sense_parts senses dt { c with frame := c.frame + 1 } s
  unfold tick at h
  rcases hs : sense senses dt { c with frame := c.frame + 1 } s with ⟨result, c₁, s₁⟩
  rw [hs] at h hsensed htold
  obtain rfl : c₁ = _ := hsensed
  cases result with
  | error fault => simp at h
  | ok =>
    obtain ⟨root, s₂, htick, rfl, htold'⟩ := tickRoot_parts h
    exact ⟨step, taken, s₁, s₂, htold, htick, htold', rfl, hsamples⟩

end Controller

/-! ## § What a record takes on -/

namespace Situation

/-- **`Situation.Records`** — on the way from the first situation to the second one the record with that
number has taken these events on, and it is still the sink if it was. -/
def Records (id : Nat) (events : List TraceEvent) (s s' : Situation) : Prop :=
  s'.journal.recorded id = s.journal.recorded id ++ events ∧
    s'.board.slots.get Blackboard.sinkKey = s.board.slots.get Blackboard.sinkKey

variable {id : Nat} {s s' s'' : Situation} {events more : List TraceEvent}

theorem Records.refl (id : Nat) (s : Situation) : s.Records id [] s :=
  ⟨(List.append_nil _).symm, rfl⟩

theorem Records.trans (h : s.Records id events s') (h' : s'.Records id more s'') :
    s.Records id (events ++ more) s'' :=
  ⟨by rw [h'.1, h.1, List.append_assoc], h'.2.trans h.2⟩

instance : Std.Refl (Records id []) :=
  ⟨Records.refl id⟩

instance : IsTrans Situation (Records id []) :=
  ⟨fun _ _ _ => Records.trans⟩

/-- An event that is left behind is taken on. -/
theorem emit_records (hsink : s.board.slots.get Blackboard.sinkKey = .ok (some (.record id)))
    (event : TraceEvent) : s.Records id [event] (s.emit event).2 := by
  rw [emit_of_sink hsink]
  refine ⟨?_, rfl⟩
  simp [Journal.recorded, tell, note]

theorem Records.emit (h : s.Records id [] s')
    (hsink : s.board.slots.get Blackboard.sinkKey = .ok (some (.record id))) (event : TraceEvent) :
    s.Records id [event] (s'.emit event).2 :=
  h.trans (emit_records (h.2.trans hsink) event)

/-- The other entries of the journal are none of the record's business. -/
theorem tell_records {entry : Entry} (h : ∀ sink event, entry ≠ .traced sink event) (s : Situation) :
    s.Records id [] (s.tell entry) := by
  refine ⟨?_, rfl⟩
  cases entry with
  | traced sink event => exact absurd rfl (h sink event)
  | _ => simp [Journal.recorded, tell]

/-- The library's own leaves and sensors leave every record alone. -/
theorem records_allows (id : Nat) : Allows (Records id []) where
  refl := Records.refl id
  trans := Records.trans
  request _ _ _ := ⟨(List.append_nil _).symm, rfl⟩
  aim _ _ := ⟨(List.append_nil _).symm, rfl⟩
  face _ _ := ⟨(List.append_nil _).symm, rfl⟩
  draw _ _ := ⟨(List.append_nil _).symm, rfl⟩
  share _ _ hslots := ⟨(List.append_nil _).symm, congrArg (Slots.get · Blackboard.sinkKey) hslots⟩
  tell s _ htold := tell_records htold s

end Situation

namespace Controller

open Situation (Records)

variable {kit : Leaves α κ Situation Fault} {senses : Senses σ Situation} {id : Nat} {dt : Float32}
  {c c' : Controller α κ σ} {s s' : Situation} {status : Status}

/-- **`Controller.Silent`** — neither the leaves nor the sensors touch the record with that number, and they
do not take the sink away. -/
structure Silent (kit : Leaves α κ Situation Fault) (senses : Senses σ Situation) (id : Nat) : Prop where
  leaves : kit.Keeps (Records id [])
  sensors : ∀ sensor step s, Records id [] s (senses.sample sensor step s).2

/-- The library's own leaves and sensors are silent, if the providers that a host brings along are. -/
theorem silent_builtIn {χ : Type} {host : HostProviders χ} {id : Nat}
    (hhost : ∀ own (s : Situation), s.Records id [] (host own s).2.2) :
    Silent (.builtIn host) .builtIn id :=
  ⟨Leaves.builtIn_keeps (Situation.records_allows id).permits hhost,
    Senses.builtIn_keeps (Situation.records_allows id)⟩

/-- What a record takes on while the rounds are made. -/
theorem sense_records (hsilent : Silent kit senses id)
    (hsink : s.board.slots.get Blackboard.sinkKey = .ok (some (.record id)))
    {result : Except Fault Unit} (h : c.sense senses dt s = (result, c', s')) :
    s.Records id (c'.step?.bind c'.deferred?).toList s' := by
  rcases hstep : c.step? with _ | step
  · simp only [sense, hstep, Prod.mk.injEq] at h
    obtain ⟨-, rfl, rfl⟩ := h
    rw [hstep]
    exact .refl id s
  · have hrounds := fun n => sampleRounds_keeps hsilent.sensors (Numeric.toSingle step) n c.sensors s
    simp only [sense, hstep] at h
    split at h <;> rename_i hdeferred <;> simp only [Prod.mk.injEq] at h <;>
      obtain ⟨-, rfl, rfl⟩ := h <;> unfold step? at hstep ⊢ <;>
      simp only [hstep, Option.bind_some, hdeferred]
    · exact hrounds _
    · exact ((hrounds _).trans (Situation.tell_records (by simp) _)).emit hsink _

/-- What a record takes on while the tree is ticked. -/
theorem tickRoot_records (hsilent : Silent kit senses id)
    (hsink : s.board.slots.get Blackboard.sinkKey = .ok (some (.record id)))
    (h : c.tickRoot kit dt s = (.ok status, c', s')) :
    s.Records id (c.change? status).toList s' := by
  have htick := Node.tick_keeps hsilent.leaves dt c.root s
  unfold tickRoot at h
  rcases ht : c.root.tick kit dt s with ⟨answer, root, s₁⟩
  rw [ht] at h htick
  cases answer with
  | error fault => simp at h
  | ok answer =>
    have htold : s.Records id [] (s₁.tell (.rootTicked c.frame answer)) :=
      htick.trans (Situation.tell_records (by simp) _)
    -- whether the answer is told does not depend on the tree that has given it
    have hchange_eq : change? { c with root } answer = c.change? answer := rfl
    rcases hchange : c.change? answer with _ | event
    · simp only [report, hchange_eq, hchange, Prod.mk.injEq, Except.ok.injEq] at h
      obtain ⟨rfl, -, rfl⟩ := h
      rw [hchange]
      exact htold
    · simp only [report, hchange_eq, hchange] at h
      have hemit := htold.emit hsink event
      rcases he : (s₁.tell (.rootTicked c.frame answer)).emit event with ⟨result, s₂⟩
      rw [he] at h hemit
      cases result with
      | error fault => simp at h
      | ok =>
        simp only [Prod.mk.injEq, Except.ok.injEq] at h
        obtain ⟨rfl, -, rfl⟩ := h
        rw [hchange]
        exact hemit

/-- **`Controller.tick_recorded`** — if neither leaves nor sensors touch a record, it takes on in a frame
just the events that the controller leaves behind. -/
theorem tick_recorded (hsilent : Silent kit senses id)
    (hsink : s.board.slots.get Blackboard.sinkKey = .ok (some (.record id)))
    (h : c.tick kit senses dt s = (.ok status, c', s')) :
    s.Records id (c.events dt status) s' := by
  obtain ⟨sensors, hsense⟩ := sense_eq senses dt { c with frame := c.frame + 1 } s
  unfold tick at h
  rcases hs : sense senses dt { c with frame := c.frame + 1 } s with ⟨result, c₁, s₁⟩
  rw [hs] at h hsense
  cases result with
  | error fault => simp at h
  | ok =>
    have hsensed := sense_records hsilent hsink hs
    have hticked := tickRoot_records hsilent (hsensed.2.trans hsink) h
    obtain rfl : c₁ = _ := hsense
    exact hsensed.trans hticked

/-! ## § Runs -/

/-- What a call of a controller did: a frame of that time, with its number, the status that it returned and
the trace events that the controller left behind, or an abort. -/
inductive Turn where
  | ticked (dt : Float32) (frame : Nat) (status : Status) (events : List TraceEvent)
  | aborted

/-- The time of a frame. -/
def Turn.time? : Turn → Option Float32
  | .ticked dt _ _ _ => some dt
  | .aborted => none

/-- The number of a frame. -/
def Turn.frame? : Turn → Option Nat
  | .ticked _ frame _ _ => some frame
  | .aborted => none

/-- The trace events of a turn. -/
def Turn.events : Turn → List TraceEvent
  | .ticked _ _ _ events => events
  | .aborted => []

/-- **`Controller.Step`** — one call of a controller that returns. -/
inductive Step (kit : Leaves α κ Situation Fault) (senses : Senses σ Situation) :
    Controller α κ σ → Turn → Controller α κ σ → Prop
  | tick {dt : Float32} {c c' : Controller α κ σ} {s s' : Situation} {status : Status} :
      c.tick kit senses dt s = (.ok status, c', s') →
      Step kit senses c (.ticked dt c'.frame status (c.events dt status)) c'
  | abort {c : Controller α κ σ} {s : Situation} : Step kit senses c .aborted (c.abort kit s).1

/-- **`Controller.Run`** — calls of a controller, one after the other. -/
inductive Run (kit : Leaves α κ Situation Fault) (senses : Senses σ Situation)
    (start : Controller α κ σ) : List Turn → Controller α κ σ → Prop
  | nil : Run kit senses start [] start
  | snoc {turns : List Turn} {turn : Turn} {c c' : Controller α κ σ} :
      Run kit senses start turns c → Step kit senses c turn c' → Run kit senses start (turns ++ [turn]) c'

/-- **`Controller.Step.cases`** — all that a call can do to a controller, its tree and its sensors apart. -/
theorem Step.cases {turn : Turn} (h : Step kit senses c turn c') :
    (∃ dt status root sensors, turn = .ticked dt (c.frame + 1) status (c.events dt status) ∧
        c' = { c.sampled dt with root, sensors, lastStatus := some status }) ∨
      (turn = .aborted ∧ ∃ root, c' = { c with root, lastStatus := none }) := by
  cases h with
  | tick htick =>
    obtain ⟨root, sensors, rfl⟩ := tick_ok htick
    exact .inl ⟨_, _, root, sensors, rfl, rfl⟩
  | abort => exact .inr ⟨rfl, _, rfl⟩

/-- The last call of a run. -/
theorem Run.unsnoc {start : Controller α κ σ} {turns : List Turn} {turn : Turn}
    (h : Run kit senses start (turns ++ [turn]) c) :
    ∃ m, Run kit senses start turns m ∧ Step kit senses m turn c := by
  generalize hall : turns ++ [turn] = all at h
  cases h with
  | nil => simp at hall
  | snoc hrun hstep =>
    obtain ⟨rfl, hlast⟩ := List.append_inj' hall rfl
    obtain rfl := List.singleton_inj.mp hlast
    exact ⟨_, hrun, hstep⟩

/-- A run can be interrupted anywhere. -/
theorem Run.split {start : Controller α κ σ} {turns more : List Turn}
    (h : Run kit senses start (turns ++ more) c) :
    ∃ m, Run kit senses start turns m ∧ Run kit senses m more c := by
  induction more using List.reverseRecOn generalizing c with
  | nil =>
    rw [List.append_nil] at h
    exact ⟨c, h, .nil⟩
  | append_singleton more last ih =>
    rw [← List.append_assoc] at h
    obtain ⟨m', hrun, hstep⟩ := h.unsnoc
    obtain ⟨m, hturns, hmore⟩ := ih hrun
    exact ⟨m, hturns, hmore.snoc hstep⟩

end Controller

end BehaviorTree
