/-
# BehaviorTree.Proofs.TraceHistory — the notes are the end of a history, and the sinks get all of it

Whoever writes notes and emits events leaves a history behind. The blackboard keeps the last notes of it and may be told
to throw them away. A sink gets every event from the time when it is put in place until the next one is.

The notes are followed from the end of the calls. A further note takes away the oldest one at most, and that only if
there is no room for both (`Blackboard.KeepsLast.notes_note`). So what is kept stays a final part of what was written
(`KeepsLast.note`), and what was written begins anew when the notes are thrown away.

The events are followed from the beginning. All that the calls made so far leave to those that come is the sink that is
in place; it takes on what is emitted until the next one is put there (`TraceCall.takenOn_after`). What becomes of the
notes does not enter into it.

`TraceCall.notes_and_events` is both together.
-/
import BehaviorTree.Proofs.Faultless
import BehaviorTree.Proofs.SlotAccess
import Mathlib.Data.List.DropRight

namespace BehaviorTree

/-! ## § The last notes -/

namespace Blackboard

variable {b : Blackboard} {history : List String}

/-- **`Blackboard.KeepsLast`** — of the notes of a history the last ones are kept, as many as there is room for. -/
structure KeepsLast (b : Blackboard) (history : List String) : Prop where
  suffix : b.notes <:+ history
  length_eq : b.notes.length = min noteCapacity history.length

theorem KeepsLast.nil (h : b.notes = []) : b.KeepsLast [] where
  suffix := ⟨[], h⟩
  length_eq := by
    rw [h]
    rfl

/-- A further note takes the oldest one away if there is no room for both, and nothing otherwise. -/
theorem KeepsLast.notes_note (h : b.KeepsLast history) (text : String) :
    (b.note text).notes = (if b.notes.length = noteCapacity then b.notes.tail else b.notes) ++ [text] := by
  have hroom : b.notes.length ≤ noteCapacity := h.length_eq.trans_le (Nat.min_le_left ..)
  show b.notes.drop (b.notes.length + 1 - noteCapacity) ++ [text] = _
  split
  · next hfull => rw [hfull, Nat.add_sub_cancel_left, List.drop_one]
  · next hfree => rw [Nat.sub_eq_zero_of_le (by omega), List.drop_zero]

theorem KeepsLast.note (h : b.KeepsLast history) (text : String) : (b.note text).KeepsLast (history ++ [text]) where
  suffix := by
    rw [h.notes_note]
    have hkept : (if b.notes.length = noteCapacity then b.notes.tail else b.notes) <:+ history := by
      split
      · exact (List.tail_suffix _).trans h.suffix
      · exact h.suffix
    obtain ⟨older, hhistory⟩ := hkept
    exact ⟨older, by rw [← hhistory, List.append_assoc]⟩
  length_eq := by
    have hcapacity : noteCapacity = 64 := rfl
    have hlength := h.length_eq
    rw [h.notes_note, List.length_append, List.length_append, List.length_singleton]
    split
    · rw [List.length_tail]
      omega
    · omega

end Blackboard

/-! ## § What a sink has taken on -/

/-- The event of an entry, if it says that this sink has taken one on. -/
def Entry.takenOn? (sink : Sink) : Entry → Option TraceEvent
  | .traced other event => if other = sink then some event else none
  | _ => none

namespace Journal

/-- **`Journal.takenOn`** — what a sink has taken on, in order. -/
def takenOn (j : Journal) (sink : Sink) : List TraceEvent :=
  j.reverse.filterMap (Entry.takenOn? sink)

theorem takenOn_cons (entry : Entry) (j : Journal) (sink : Sink) :
    takenOn (entry :: j) sink = j.takenOn sink ++ (entry.takenOn? sink).toList := by
  rw [takenOn, List.reverse_cons, List.filterMap_append, ← takenOn]
  cases h : entry.takenOn? sink <;> simp [h]

/-- What a record holds is what it has taken on. -/
theorem recorded_eq (j : Journal) (id : Nat) : j.recorded id = j.takenOn (.record id) := by
  refine List.filterMap_congr fun entry _ => ?_
  cases entry with
  | traced sink event =>
    cases sink with
    | log agent => rfl
    | record other => simp [Entry.takenOn?]
  | _ => rfl

end Journal

/-! ## § Calls -/

/-- **`TraceCall`** — a call that has to do with notes and events: a note is written, an event is emitted, a sink is put
in place, or the notes are thrown away. -/
inductive TraceCall where
  | note (text : String)
  | emit (event : TraceEvent)
  | installSink (sink : Sink)
  | clearNotes

namespace TraceCall

/-- Makes a call. Only an event can meet with a fault. -/
def make (s : Situation) : TraceCall → Except Fault Unit × Situation
  | .note text => (.ok (), s.note text)
  | .emit event => s.emit event
  | .installSink sink => (.ok (), { s with board := s.board.installSink sink })
  | .clearNotes => (.ok (), { s with board := s.board.clearNotes })

/-- The situation after these calls. -/
def after (s : Situation) (calls : List TraceCall) : Situation :=
  calls.foldl (fun s call => (call.make s).2) s

/-- What a call writes down as a note. -/
def text? : TraceCall → Option String
  | .note text => some text
  | .emit event => some event.text
  | .installSink _ | .clearNotes => none

/-- The event that a call emits. -/
def event? : TraceCall → Option TraceEvent
  | .emit event => some event
  | .note _ | .installSink _ | .clearNotes => none

/-- The sink that a call puts in place. -/
def sink? : TraceCall → Option Sink
  | .installSink sink => some sink
  | .note _ | .emit _ | .clearNotes => none

/-- Whether a call throws the notes away. -/
def clears : TraceCall → Bool
  | .clearNotes => true
  | .note _ | .emit _ | .installSink _ => false

/-- **`TraceCall.written`** — the notes that were written since the notes were last thrown away. -/
def written (calls : List TraceCall) : List String :=
  (calls.rtakeWhile fun call => !call.clears).filterMap text?

/-- The events that were emitted. -/
def emitted (calls : List TraceCall) : List TraceEvent :=
  calls.filterMap event?

/-- The calls before the first one that puts a sink in place. -/
def tenure (calls : List TraceCall) : List TraceCall :=
  calls.takeWhile fun call => call.sink?.isNone

/-- **`TraceCall.served`** — the events that are emitted while a sink is in place: as often as it is put there, those
until the next one is. -/
def served (sink : Sink) : List TraceCall → List TraceEvent
  | [] => []
  | call :: rest => (if call.sink? = some sink then emitted (tenure rest) else []) ++ served sink rest

variable {s : Situation} {sink : Sink} {held : Option Sink} {history : List String}

theorem after_concat (s : Situation) (calls : List TraceCall) (call : TraceCall) :
    after s (calls ++ [call]) = (call.make (after s calls)).2 :=
  List.foldl_concat ..

theorem written_concat (calls : List TraceCall) (call : TraceCall) :
    written (calls ++ [call]) = if call.clears then [] else written calls ++ call.text?.toList := by
  rw [written, List.rtakeWhile_concat]
  cases h : call.clears with
  | true => rfl
  | false =>
    rw [if_pos (by rfl), List.filterMap_append, ← written]
    cases htext : call.text? <;> simp [htext]

/-- What is emitted until a sink is put in place. -/
theorem emitted_tenure_cons (call : TraceCall) (rest : List TraceCall) :
    emitted (tenure (call :: rest)) =
      if call.sink?.isNone then call.event?.toList ++ emitted (tenure rest) else [] := by
  cases call with
  | installSink sink => rfl
  | note text | emit event | clearNotes => rfl

/-- Calls that do not put a sink in place do nothing for it. -/
theorem served_append_of_other {before : List TraceCall} (h : ∀ call ∈ before, call.sink? ≠ some sink)
    (rest : List TraceCall) : served sink (before ++ rest) = served sink rest := by
  induction before with
  | nil => rfl
  | cons call before ih =>
    rw [List.cons_append, served, if_neg (h call List.mem_cons_self), List.nil_append]
    exact ih fun call hcall => h call (List.mem_cons_of_mem _ hcall)

/-- A sink that is put in place once gets the events until the next one is. -/
theorem served_of_once {before rest : List TraceCall} (h : ∀ call ∈ before ++ rest, call.sink? ≠ some sink) :
    served sink (before ++ .installSink sink :: rest) = emitted (tenure rest) := by
  obtain ⟨hbefore, hafter⟩ := List.forall_mem_append.mp h
  have hrest : served sink rest = [] := by
    have hnothing := served_append_of_other hafter []
    rwa [List.append_nil] at hnothing
  rw [served_append_of_other hbefore, served, hrest, List.append_nil]
  exact if_pos rfl

/-! ## § The notes after calls -/

theorem make_keepsLast (h : s.board.KeepsLast history) (call : TraceCall) :
    (call.make s).2.board.KeepsLast (if call.clears then [] else history ++ call.text?.toList) := by
  cases call with
  | note text => exact h.note text
  | emit event =>
    rw [make, s.emit_board event]
    exact h.note event.text
  | installSink sink =>
    show (s.board.installSink sink).KeepsLast (history ++ [])
    rw [List.append_nil]
    exact ⟨h.suffix, h.length_eq⟩
  | clearNotes => exact .nil rfl

/-- **`TraceCall.after_keepsLast`** — after any calls the last notes are kept that were written since the notes were
thrown away. -/
theorem after_keepsLast (hnew : s.board.notes = []) (calls : List TraceCall) :
    (after s calls).board.KeepsLast (written calls) := by
  induction calls using List.reverseRecOn with
  | nil => exact .nil hnew
  | append_singleton calls call ih =>
    rw [after_concat, written_concat]
    exact make_keepsLast ih call

/-! ## § The sinks after calls -/

/-- **`TraceCall.make_of_held`** — where a sink or none is in place, no call is a fault. The sink takes on what a call
emits, and another one is in place if it is put there. -/
theorem make_of_held (hheld : s.board.slots.get Blackboard.sinkKey = .ok held) (call : TraceCall) :
    (call.make s).1 = .ok () ∧
      (call.make s).2.board.slots.get Blackboard.sinkKey = .ok (call.sink?.or held) ∧
      ∀ sink, (call.make s).2.journal.takenOn sink =
        s.journal.takenOn sink ++ if held = some sink then call.event?.toList else [] := by
  cases call with
  | note text => exact ⟨rfl, hheld, fun sink => by simp [make, event?, Situation.note]⟩
  | emit event =>
    rw [make, Situation.emit_of_sink hheld]
    cases held with
    | none => exact ⟨rfl, hheld, fun sink => by simp [Situation.note]⟩
    | some other =>
      refine ⟨rfl, hheld, ?_⟩
      intro sink
      refine (Journal.takenOn_cons (.traced other event) s.journal sink).trans ?_
      by_cases hother : other = sink <;> simp [Entry.takenOn?, event?, hother]
  | installSink sink =>
    have hfind := s.board.slots.find?_set Blackboard.sinkKey sink Blackboard.sinkKey.id
    rw [if_pos rfl] at hfind
    exact ⟨rfl, Slots.get_of_find? hfind, fun sink => by simp [make, event?]⟩
  | clearNotes => exact ⟨rfl, hheld, fun sink => by simp [make, event?]⟩

/-- **`TraceCall.takenOn_after`** — what a sink takes on during these calls: what is emitted until the first of them
that puts a sink in place, if it is there already, and then what it is put there for. -/
theorem takenOn_after (hheld : s.board.slots.get Blackboard.sinkKey = .ok held) (calls : List TraceCall) (sink : Sink) :
    (after s calls).journal.takenOn sink =
      s.journal.takenOn sink ++ ((if held = some sink then emitted (tenure calls) else []) ++ served sink calls) := by
  induction calls generalizing s held with
  | nil => simp [after, tenure, emitted, served]
  | cons call rest ih =>
    -- all that the call leaves to those that follow is the sink which is in place now
    obtain ⟨-, hheld', htaken⟩ := make_of_held hheld call
    have hrest := ih hheld'
    rw [htaken] at hrest
    refine Eq.trans hrest ?_
    rw [emitted_tenure_cons, served]
    cases call with
    | installSink other => simp [sink?, event?]
    | note text | emit event | clearNotes => by_cases h : held = some sink <;> simp [sink?, event?, h]

/-- After any calls the sink can be read, if it could be read before. -/
theorem traceable_after (h : s.Traceable) (calls : List TraceCall) : (after s calls).Traceable := by
  induction calls using List.reverseRecOn with
  | nil => exact h
  | append_singleton calls call ih =>
    obtain ⟨held, hheld⟩ := ih
    rw [after_concat]
    exact ⟨_, (make_of_held hheld call).2.1⟩

/-- **`TraceCall.notes_and_events`** — take any calls on a new blackboard. None of them is a fault, and neither is one
more of them.
* Of the `n` notes that were written since the notes were last thrown away, where an event is written as its line, the
  last `min 64 n` are there, in order. A further note takes the oldest one away if there are 64, and nothing otherwise.
* Every sink has taken on the events that were emitted while it was in place, each of them once and in order, whatever
  has become of their notes. If it was put in place once, these are the events from then on until the next sink was. -/
theorem notes_and_events (s : Situation) (calls : List TraceCall) :
    let t := after { s with board := {} } calls
    (∀ call, (make t call).1 = .ok ()) ∧
      (t.board.notes <:+ written calls ∧ t.board.notes.length = min 64 (written calls).length) ∧
      (∀ text, (t.board.note text).notes =
        (if t.board.notes.length = 64 then t.board.notes.tail else t.board.notes) ++ [text]) ∧
      (∀ sink, t.journal.takenOn sink = s.journal.takenOn sink ++ served sink calls) ∧
      ∀ before sink rest, calls = before ++ .installSink sink :: rest →
        (∀ call ∈ before ++ rest, call.sink? ≠ some sink) →
        t.journal.takenOn sink = s.journal.takenOn sink ++ emitted (tenure rest) := by
  intro t
  have hempty : ({ s with board := {} } : Situation).board.slots.get Blackboard.sinkKey = .ok none := rfl
  have hkeeps : t.board.KeepsLast (written calls) := after_keepsLast rfl calls
  obtain ⟨held, hheld⟩ : t.Traceable := traceable_after ⟨none, hempty⟩ calls
  have htaken : ∀ sink, t.journal.takenOn sink = s.journal.takenOn sink ++ served sink calls := by
    intro sink
    have hafter := takenOn_after hempty calls sink
    rwa [if_neg nofun, List.nil_append] at hafter
  refine ⟨?faultless, ⟨hkeeps.suffix, hkeeps.length_eq⟩, hkeeps.notes_note, htaken, ?once⟩
  case faultless =>
    intro call
    exact (make_of_held hheld call).1
  case once =>
    intro before sink rest hcalls hother
    rw [htaken, hcalls, served_of_once hother]

/-- An event comes too early for any sink; the record is relieved by the log, and between both the notes are thrown
away. -/
theorem notes_and_events_relieved :
    let early : TraceEvent := ⟨1, "bt.root.running", 0, 0⟩
    let capped : TraceEvent := ⟨2, "sense.catch_up.capped", 8, 3⟩
    let late : TraceEvent := ⟨3, "bt.root.success", 0, 0⟩
    let calls := [.emit early, .installSink (.record 0), .emit capped, .clearNotes, .note "relieved",
      .installSink (.log "agent-0"), .emit late]
    let t := after { (default : Situation) with board := {} } calls
    (make t (.emit early)).1 = .ok () ∧ t.board.notes = ["relieved", late.text] ∧ t.journal.recorded 0 = [capped] ∧
      t.journal.takenOn (.log "agent-0") = [late] := by
  intro early capped late calls t
  obtain ⟨hfaultless, ⟨hsuffix, hlength⟩, -, -, honce⟩ := notes_and_events default calls
  refine ⟨hfaultless (.emit early), ?notes, ?record, ?log⟩
  case notes => exact hsuffix.eq_of_length hlength
  case record =>
    rw [Journal.recorded_eq]
    exact honce (calls.take 1) _ _ rfl (by decide)
  case log => exact honce (calls.take 5) _ _ rfl (by decide)

/-- Five notes too many. -/
example : (after default ((List.range 69).map fun i => .note (toString i))).board.notes.head? = some "5" := by
  decide +kernel

end TraceCall

end BehaviorTree
