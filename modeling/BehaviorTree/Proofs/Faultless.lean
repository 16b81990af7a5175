/-
# BehaviorTree.Proofs.Faultless — frames that always return

A tick ends by a fault only if a leaf does, or if the slot of the trace sink holds something else than a
sink. The library's own leaves never do (`Leaves.builtIn_faultless`), and neither they nor the sensors touch
the slots. So a controller of such leaves returns a status in every frame, as long as the sink can be read
(`Controller.tick_returns`).
-/
import BehaviorTree.Proofs.Acting

namespace BehaviorTree

variable {α κ σ ω φ : Type}

/-! ## § Trees -/

/-- **`Leaves.Faultless`** — no leaf ends a tick by a fault. -/
structure Leaves.Faultless (kit : Leaves α κ ω φ) : Prop where
  tick : ∀ leaf dt s, ∃ status, (kit.tick leaf dt s).1 = .ok status
  test : ∀ leaf s, ∃ holds, (kit.test leaf s).1 = .ok holds

/-- The library's own leaves never do. -/
theorem Leaves.builtIn_faultless {χ : Type} (host : HostProviders χ) :
    (builtIn host : Leaves _ _ _ φ).Faultless where
  tick leaf _ s := ⟨(leaf.tick host _ s).1, rfl⟩
  test leaf s := ⟨leaf.holds s, rfl⟩

section Trees

variable {kit : Leaves α κ ω φ}

theorem ActionNode.tick_returns (hkit : kit.Faultless) (n : ActionNode α) (dt : Float32) (s : ω) :
    ∃ status, (n.tick kit dt s).1 = .ok status := by
  unfold tick
  rcases (if n.entered then (n.leaf, s) else kit.enter n.leaf s) with ⟨leaf, s₁⟩
  obtain ⟨status, hstatus⟩ := hkit.tick leaf dt s₁
  dsimp only
  rcases ht : kit.tick leaf dt s₁ with ⟨answer, leaf', s₂⟩
  rw [ht] at hstatus
  obtain rfl : answer = .ok status := hstatus
  cases status <;> exact ⟨_, rfl⟩

/-- Children that always return a status stop no walk by a fault. -/
theorem Walk.sound {dt : Float32} {onward : Status} {first skip : Nat} {children children' : List (Node α κ)}
    {s s' : ω} {log : LeafLog φ} {stop : Node.Stop φ}
    (h : Walk kit dt onward first skip children s log stop children' s')
    (ih : ∀ child ∈ children, ∀ s, ∃ status, (child.tick kit dt s).1 = .ok status) : stop.Sound := by
  intro i fault
  induction h generalizing i with
  | through => simp
  | skip _ ihrest | pass _ _ ihrest =>
    intro hstop
    obtain ⟨⟨j, answer⟩, hrest, hshift⟩ := Option.map_eq_some_iff.mp hstop
    obtain ⟨-, rfl⟩ := Prod.mk.inj hshift
    exact ihrest (fun c hc => ih c (.tail _ hc)) j hrest
  | @stop _ child _ _ s _ answer ht _ =>
    intro hstop
    obtain ⟨status, hstatus⟩ := ih child List.mem_cons_self s
    obtain ⟨-, rfl⟩ := Prod.mk.inj (Option.some.inj hstop)
    rw [ht] at hstatus
    cases hstatus

/-- **`Node.tick_returns`** — a tree of leaves without faults answers every tick with a status. -/
theorem Node.tick_returns (hkit : kit.Faultless) (tree : Node α κ) (dt : Float32) (s : ω) :
    ∃ status, (tree.tick kit dt s).1 = .ok status := by
  induction tree using Node.induction generalizing s with
  | composite kind cursor children ih =>
    have hwalk := Walk.of_tickFrom kit dt (.ofBool kind.onward) children 0 (cursor.getD 0) s
    have hsound := hwalk.sound ih
    rw [Composite.tick_eq]
    dsimp only
    generalize (tickFrom kit dt (.ofBool kind.onward) (cursor.getD 0) children s).1 = stop at hsound
    obtain ⟨next, hsettles, -⟩ := kind.settles cursor stop children
    generalize (kind.settle cursor stop).1 = answer at hsettles
    cases hsettles with
    | faulted => exact absurd rfl (hsound _ _)
    | through | decided | suspended => exact ⟨_, rfl⟩
  | action n => exact n.tick_returns hkit dt s
  | condition name leaf =>
    obtain ⟨holds, hholds⟩ := hkit.test leaf s
    exact ⟨.ofBool holds, congrArg (Except.map Status.ofBool) hholds⟩
  | wait timer => exact ⟨_, rfl⟩

end Trees

/-! ## § Controllers -/

namespace Situation

/-- **`Situation.Traceable`** — the slot of the sink is empty, or it holds a sink. -/
def Traceable (s : Situation) : Prop :=
  ∃ sink, s.board.slots.get Blackboard.sinkKey = .ok sink

/-- What can be read in the slot of the sink is the same in both situations. -/
abbrev SinkKept : Situation → Situation → Prop :=
  Kept fun s => s.board.slots.get Blackboard.sinkKey

variable {s t : Situation}

/-- The library's own leaves and sensors keep the sink. -/
theorem sinkKept_allows : Allows SinkKept where
  refl _ := rfl
  trans := Kept.trans
  request _ _ _ := rfl
  aim _ _ := rfl
  face _ _ := rfl
  draw _ _ := rfl
  share _ _ hslots := congrArg (Slots.get · Blackboard.sinkKey) hslots
  tell _ _ _ := rfl

theorem Traceable.kept (h : s.Traceable) (hkept : s.SinkKept t) : t.Traceable := by
  obtain ⟨sink, hsink⟩ := h
  exact ⟨sink, Eq.trans hkept hsink⟩

/-- Where the sink can be read, a trace event is a note and perhaps an entry of the journal, and no fault. -/
theorem Traceable.emit (h : s.Traceable) (event : TraceEvent) :
    ∃ journal, s.emit event = (.ok (), { s.note event.text with journal }) := by
  obtain ⟨sink, hsink⟩ := h
  rw [emit_of_sink hsink]
  cases sink with
  | none => exact ⟨_, rfl⟩
  | some sink => exact ⟨_, rfl⟩

end Situation

namespace Controller

open Situation (SinkKept Traceable)

variable {kit : Leaves α κ Situation Fault} {senses : Senses σ Situation} {c : Controller α κ σ}
  {s : Situation}

theorem sense_returns (hsenses : ∀ sensor step s, SinkKept s (senses.sample sensor step s).2)
    (hs : s.Traceable) (dt : Float32) :
    ∃ c' t, c.sense senses dt s = (.ok (), c', t) ∧ s.SinkKept t := by
  unfold sense
  rcases c.step? with _ | step
  · exact ⟨c, s, rfl, rfl⟩
  · have hrounds := fun n => sampleRounds_keeps hsenses (Numeric.toSingle step) n c.sensors s
    dsimp only
    split
    · exact ⟨_, _, rfl, hrounds _⟩
    · next event _ =>
      obtain ⟨journal, hemit⟩ := ((hs.kept (hrounds _)).kept
        (t := Situation.tell _ (.catchUpCapped c.frame event.a event.b)) rfl).emit event
      rw [hemit]
      exact ⟨_, _, rfl, hrounds _⟩

theorem tickRoot_returns (hkit : kit.Faultless) (hkept : kit.Keeps SinkKept) (hs : s.Traceable)
    (dt : Float32) : ∃ status c' t, c.tickRoot kit dt s = (.ok status, c', t) ∧ s.SinkKept t := by
  obtain ⟨status, hstatus⟩ := c.root.tick_returns hkit dt s
  have hticked := Node.tick_keeps hkept dt c.root s
  unfold tickRoot
  rcases ht : c.root.tick kit dt s with ⟨answer, root, s₁⟩
  rw [ht] at hstatus hticked
  obtain rfl : answer = .ok status := hstatus
  have htold : s.SinkKept (s₁.tell (.rootTicked c.frame status)) := hticked
  have hreport : ∃ t, report { c with root } status (s₁.tell (.rootTicked c.frame status)) = (.ok (), t) ∧
      s.SinkKept t := by
    unfold report
    split
    · exact ⟨_, rfl, htold⟩
    · next event _ =>
      obtain ⟨journal, hemit⟩ := (hs.kept htold).emit event
      exact ⟨_, hemit, htold⟩
  obtain ⟨t, hreport, hkept'⟩ := hreport
  dsimp only
  rw [hreport]
  exact ⟨status, _, t, rfl, hkept'⟩

/-- **`Controller.tick_returns`** — where the sink can be read, a frame of leaves without faults returns a
status, and the sink can be read after it too. -/
theorem tick_returns (hkit : kit.Faultless) (hkept : kit.Keeps SinkKept)
    (hsenses : ∀ sensor step s, SinkKept s (senses.sample sensor step s).2) (hs : s.Traceable)
    (dt : Float32) : ∃ status c' t, c.tick kit senses dt s = (.ok status, c', t) ∧ s.SinkKept t := by
  obtain ⟨c₁, s₁, hsense, hsensed⟩ := sense_returns (c := { c with frame := c.frame + 1 }) hsenses hs dt
  obtain ⟨status, c', t, htick, hticked⟩ := tickRoot_returns (c := c₁) hkit hkept (hs.kept hsensed) dt
  unfold tick
  rw [hsense]
  exact ⟨status, c', t, htick, hsensed.trans hticked⟩

/-- So does a frame of the library's own leaves and sensors. -/
theorem builtIn_tick_returns (c : Controller (Action Empty) Condition Sensor) (hs : s.Traceable) (dt : Float32) :
    ∃ status c' t, c.tick (.builtIn .none) .builtIn dt s = (.ok status, c', t) ∧ s.SinkKept t :=
  tick_returns (Leaves.builtIn_faultless .none)
    (Leaves.builtIn_keeps Situation.sinkKept_allows.permits fun own => own.elim)
    (Senses.builtIn_keeps Situation.sinkKept_allows) hs dt

end Controller

end BehaviorTree
