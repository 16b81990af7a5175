/-
# BehaviorTree.Proofs.Acting — what leaves can do to a situation

An agent is a capability: a leaf may ask for a move, aim, turn and draw from the random stream, it may do
to the blackboard what it likes, and it may add to the journal. It cannot go anywhere by itself and it cannot
change the world. `Situation.Acts` is what can come of such acts, in any number and order, and a kit is
`Leaves.Acting` if its leaves do nothing else.

What leaves keep, trees keep: `Node.tick_keeps` carries every preorder on states from the calls of the
leaves to the ticks of a tree, also to those that end by a fault. So a frame of a controller leaves the
world and the agent's cell alone (`Controller.tick_acts`, `Situation.Acts.cell_eq`), and takes nothing back of
what has been told (`Situation.Acts.journal_suffix`).

The library's own leaves are acting (`Leaves.builtIn_acting`). They do even less: on the blackboard they write
the active path and notes, and they tell no trace events. So they keep every preorder that permits what they
do (`Situation.Permits`, `Leaves.builtIn_keeps`). The library's sensors write the memories; a preorder that
allows for both leaves the slots alone (`Situation.Allows`).
-/
import BehaviorTree.Controller.Basic
import BehaviorTree.Leaf.BuiltIn
import BehaviorTree.Proofs.LeafLog
import Mathlib.Logic.Relation

namespace BehaviorTree

variable {α κ ω φ : Type}

/-! ## § What leaves keep, trees keep -/

/-- **`Leaves.Keeps`** — whatever a leaf is called for, it leads from a state to a related one. -/
structure Leaves.Keeps (kit : Leaves α κ ω φ) (R : ω → ω → Prop) : Prop where
  enter : ∀ leaf s, R s (kit.enter leaf s).2
  tick : ∀ leaf dt s, R s (kit.tick leaf dt s).2.2
  exit : ∀ leaf s, R s (kit.exit leaf s).2
  test : ∀ leaf s, R s (kit.test leaf s).2

section Preorder

variable {kit : Leaves α κ ω φ} {R : ω → ω → Prop} [Std.Refl R] [IsTrans ω R]

/-- The calls of one tick of an action are an enter, a tick and an exit, of which some may be missing. -/
theorem ActionNode.tick_keeps (hkit : kit.Keeps R) (dt : Float32) (n : ActionNode α) (s : ω) :
    R s (n.tick kit dt s).2.2 := by
  rcases hb : (if n.entered then (n.leaf, s) else kit.enter n.leaf s) with ⟨leaf, s₁⟩
  have hbegun : R s s₁ := by
    cases hentered : n.entered with
    | true =>
      simp only [hentered, if_true, Prod.mk.injEq] at hb
      rw [← hb.2]
      exact refl_of R s
    | false =>
      have henter := hkit.enter n.leaf s
      simp only [hentered, Bool.false_eq_true, if_false] at hb
      rwa [hb] at henter
  have htick := hkit.tick leaf dt s₁
  rcases ht : kit.tick leaf dt s₁ with ⟨answer, leaf', s₂⟩
  rw [ht] at htick
  simp only [tick, hb, ht]
  cases answer with
  | error => exact trans_of R hbegun htick
  | ok status =>
    cases status with
    | running => exact trans_of R hbegun htick
    | success | failure => exact trans_of R (trans_of R hbegun htick) (hkit.exit leaf' s₂)

/-- A walk keeps what the ticks of the children keep. -/
theorem Walk.keeps {dt : Float32} {onward : Status}
    {first skip : Nat} {children children' : List (Node α κ)} {s s' : ω} {log : LeafLog φ}
    {stop : Node.Stop φ} (h : Walk kit dt onward first skip children s log stop children' s')
    (ih : ∀ child ∈ children, ∀ s, R s (child.tick kit dt s).2.2) : R s s' := by
  induction h with
  | through => exact refl_of R _
  | skip _ ihrest => exact ihrest fun c hc => ih c (.tail _ hc)
  | @pass _ child _ _ _ s _ _ _ _ ht _ ihrest =>
    have hchild := ih child List.mem_cons_self s
    rw [ht] at hchild
    exact trans_of R hchild (ihrest fun c hc => ih c (.tail _ hc))
  | @stop _ child _ _ s _ _ ht _ =>
    have hchild := ih child List.mem_cons_self s
    rwa [ht] at hchild

/-- **`Node.tick_keeps`** — a tick keeps what the leaves keep, however it ends. -/
theorem Node.tick_keeps (hkit : kit.Keeps R) (dt : Float32) (tree : Node α κ) (s : ω) :
    R s (tree.tick kit dt s).2.2 := by
  induction tree using Node.induction generalizing s with
  | composite kind cursor children ih =>
    have hwalk := Walk.of_tickFrom kit dt (.ofBool kind.onward) children 0 (cursor.getD 0) s
    rw [Composite.tick_eq]
    exact hwalk.keeps ih
  | action node => exact node.tick_keeps hkit dt s
  | condition name leaf => exact hkit.test leaf s
  | wait timer => exact refl_of R s

end Preorder

/-! ## § Acts of an agent -/

namespace Situation

/-- One act of a leaf. Of the random stream only its state can change, and that in any way. -/
inductive Act : Situation → Situation → Prop
  | request {s : Situation} (target : Cell) (speed : Float32) : Act s (s.request target speed)
  | aim {s : Situation} (cell : Cell) : Act s (s.aimAt cell)
  | face {s : Situation} (degrees : Float32) : Act s (s.face degrees)
  | draw {s : Situation} (rng : Random.SplitMix) : Act s { s with body := { s.body with rng } }
  | share {s : Situation} (board : Blackboard) : Act s { s with board }
  | tell {s : Situation} (entry : Entry) : Act s (s.tell entry)

/-- **`Situation.Acts`** — any number of acts, one after the other. -/
def Acts : Situation → Situation → Prop :=
  Relation.ReflTransGen Act

theorem Acts.refl (s : Situation) : s.Acts s :=
  Relation.ReflTransGen.refl

theorem Acts.trans {s t u : Situation} (h : s.Acts t) (h' : t.Acts u) : s.Acts u :=
  Relation.ReflTransGen.trans h h'

instance : Std.Refl Acts :=
  ⟨Acts.refl⟩

instance : IsTrans Situation Acts :=
  ⟨fun _ _ _ => Acts.trans⟩

theorem Act.acts {s s' : Situation} (h : Act s s') : Acts s s' :=
  .single h

/-- No act moves the agent. -/
theorem Acts.cell_eq {s s' : Situation} (h : Acts s s') : s'.body.cell = s.body.cell := by
  induction h with
  | refl => rfl
  | tail _ hact ih => cases hact <;> exact ih

/-- **`Situation.Acts.journal_suffix`** — acts add to the journal and take nothing back. The newest entry stands first,
so the old journal is at the end. -/
theorem Acts.journal_suffix {s s' : Situation} (h : Acts s s') : s.journal <:+ s'.journal := by
  induction h with
  | refl => exact List.suffix_rfl
  | tail _ hact ih =>
    cases hact with
    | tell entry => exact ih.trans (List.suffix_cons _ _)
    | request | aim | face | draw | share => exact ih

/-- Whoever reads the log, or the remarks, can read on where he has left off. -/
theorem Acts.logged_prefix {s s' : Situation} (h : Acts s s') :
    s.journal.logged <+: s'.journal.logged ∧ s.journal.remarks <+: s'.journal.remarks := by
  have hreverse := List.reverse_prefix.mpr h.journal_suffix
  exact ⟨hreverse.filterMap _, hreverse.filterMap _⟩

theorem note_acts (s : Situation) (text : String) : s.Acts (s.note text) :=
  (Act.share _).acts

/-- A trace event is a note in any case, after a fault too. -/
theorem emit_board (s : Situation) (event : TraceEvent) : (s.emit event).2.board = s.board.note event.text := by
  unfold emit
  dsimp only
  split <;> rfl

/-- Where the sink can be read there is no fault, and the sink takes the event on, if there is one. -/
theorem emit_of_sink {s : Situation} {sink : Option Sink}
    (hsink : s.board.slots.get Blackboard.sinkKey = .ok sink) (event : TraceEvent) :
    s.emit event = (.ok (), sink.elim (s.note event.text) fun sink =>
      (s.note event.text).tell (.traced sink event)) := by
  have hnoted : (s.note event.text).board.slots.get Blackboard.sinkKey = .ok sink := hsink
  unfold emit
  simp only [hnoted]
  cases sink <;> rfl

/-- A trace event is a note and perhaps an entry of the journal. -/
theorem emit_acts (s : Situation) (event : TraceEvent) : s.Acts (s.emit event).2 := by
  have hnote := s.note_acts event.text
  simp only [emit]
  split
  · exact hnote
  · exact hnote
  · exact hnote.trans (Act.tell _).acts

end Situation

/-- **`Leaves.Acting`** — the leaves act through the agent only. -/
def Leaves.Acting (kit : Leaves α κ Situation φ) : Prop :=
  kit.Keeps Situation.Acts

/-- **`Situation.Permits`** — the preorder permits all that the library's own leaves do. They act through the
agent, they set the active path and write notes, and they leave no trace events behind. -/
structure Situation.Permits (R : Situation → Situation → Prop) : Prop where
  refl : ∀ s, R s s
  trans : ∀ {s t u}, R s t → R t u → R s u
  request : ∀ s target speed, R s (s.request target speed)
  aim : ∀ s cell, R s (s.aimAt cell)
  face : ∀ s degrees, R s (s.face degrees)
  draw : ∀ s rng, R s { s with body := { s.body with rng } }
  setPath : ∀ s path, R s { s with board := { s.board with path } }
  note : ∀ s text, R s (s.note text)
  tell : ∀ s entry, (∀ sink event, entry ≠ .traced sink event) → R s (s.tell entry)

/-- **`Situation.Allows`** — the preorder allows for all that the library's own leaves and sensors do. They act
through the agent, they write on the blackboard but not into its slots, and they leave no trace events
behind. -/
structure Situation.Allows (R : Situation → Situation → Prop) : Prop where
  refl : ∀ s, R s s
  trans : ∀ {s t u}, R s t → R t u → R s u
  request : ∀ s target speed, R s (s.request target speed)
  aim : ∀ s cell, R s (s.aimAt cell)
  face : ∀ s degrees, R s (s.face degrees)
  draw : ∀ s rng, R s { s with body := { s.body with rng } }
  share : ∀ s board, board.slots = s.board.slots → R s { s with board }
  tell : ∀ s entry, (∀ sink event, entry ≠ .traced sink event) → R s (s.tell entry)

theorem Situation.Acts.allows : Situation.Allows Situation.Acts where
  refl := Situation.Acts.refl
  trans := Situation.Acts.trans
  request _ target speed := (Situation.Act.request target speed).acts
  aim _ cell := (Situation.Act.aim cell).acts
  face _ degrees := (Situation.Act.face degrees).acts
  draw _ rng := (Situation.Act.draw rng).acts
  share _ board _ := (Situation.Act.share board).acts
  tell _ entry _ := (Situation.Act.tell entry).acts

theorem Situation.Allows.permits {R : Situation → Situation → Prop} (hR : Situation.Allows R) :
    Situation.Permits R where
  refl := hR.refl
  trans := hR.trans
  request := hR.request
  aim := hR.aim
  face := hR.face
  draw := hR.draw
  setPath s _ := hR.share s _ rfl
  note s _ := hR.share s _ rfl
  tell := hR.tell

namespace Situation

/-- **`Situation.Kept`** — what is viewed of the situations is the same in both. -/
def Kept {ν : Type} (view : Situation → ν) (s t : Situation) : Prop :=
  view t = view s

variable {ν : Type} {view : Situation → ν} {s t u : Situation}

theorem Kept.trans (h : s.Kept view t) (h' : t.Kept view u) : s.Kept view u :=
  Eq.trans h' h

instance : Std.Refl (Kept view) :=
  ⟨fun _ => rfl⟩

instance : IsTrans Situation (Kept view) :=
  ⟨fun _ _ _ => Kept.trans⟩

end Situation

/-! ## § Rounds of samples -/

/-- A sensor of the library writes its memory on the blackboard. -/
theorem Senses.builtIn_keeps {R : Situation → Situation → Prop} (hR : Situation.Allows R) (sensor : Sensor)
    (step : Float32) (s : Situation) : R s (Senses.builtIn.sample sensor step s).2 := by
  cases sensor with
  | vision | hearing => exact hR.share s _ rfl

namespace Controller

section Rounds

variable {σ : Type} {senses : Senses σ Situation} {R : Situation → Situation → Prop} [Std.Refl R]
  [IsTrans Situation R]

/-- What each sample keeps, a round keeps. -/
theorem sampleRound_keeps (hsenses : ∀ sensor step s, R s (senses.sample sensor step s).2) (step : Float32)
    (sensors : List σ) (s : Situation) : R s (sampleRound senses step sensors s).2 := by
  induction sensors generalizing s with
  | nil => exact refl_of R s
  | cons sensor rest ih => exact trans_of R (hsenses sensor step s) (ih _)

/-- So do several rounds. -/
theorem sampleRounds_keeps (hsenses : ∀ sensor step s, R s (senses.sample sensor step s).2) (step : Float32)
    (n : Nat) (sensors : List σ) (s : Situation) : R s (sampleRounds senses step n sensors s).2 := by
  induction n generalizing sensors s with
  | zero => exact refl_of R s
  | succ n ih => exact trans_of R (sampleRound_keeps hsenses step sensors s) (ih _ _)

end Rounds

/-! ## § A frame of a controller -/

open Situation (Acts Act)

/-- The samples of a frame are acts, and so is the report that some were put off. -/
theorem sense_acts (dt : Float32) (c : Controller α κ Sensor) (s : Situation) :
    s.Acts (c.sense .builtIn dt s).2.2 := by
  unfold sense
  split
  · exact .refl _
  · rename_i step hstep
    have hrounds := sampleRounds_keeps (Senses.builtIn_keeps Acts.allows) (Numeric.toSingle step)
      (c.sampling.advance step c.maxCatchUp (Sampling.counted Numeric.toDouble dt)).1 c.sensors s
    dsimp only
    split
    · exact hrounds
    · exact (hrounds.trans (Act.tell _).acts).trans (Situation.emit_acts _ _)

theorem report_acts (c : Controller α κ Sensor) (status : Status) (s : Situation) :
    s.Acts (c.report status s).2 := by
  unfold report
  split
  · exact .refl _
  · exact Situation.emit_acts _ _

/-- A tick of the root is a tick of the tree, and what the controller tells about it. -/
theorem tickRoot_acts {kit : Leaves α κ Situation Fault} (hkit : kit.Acting) (dt : Float32)
    (c : Controller α κ Sensor) (s : Situation) : s.Acts (c.tickRoot kit dt s).2.2 := by
  have htick := Node.tick_keeps hkit dt c.root s
  unfold tickRoot
  rcases ht : c.root.tick kit dt s with ⟨answer, root, s₁⟩
  rw [ht] at htick
  cases answer with
  | error fault => exact htick
  | ok status =>
    dsimp only
    have htold := htick.trans (Act.tell (.rootTicked c.frame status)).acts
    have hreport := report_acts { c with root } status (s₁.tell (.rootTicked c.frame status))
    rcases hr : report { c with root } status (s₁.tell (.rootTicked c.frame status)) with ⟨result, s₂⟩
    rw [hr] at hreport
    cases result with
    | error fault => exact htold.trans hreport
    | ok => exact htold.trans hreport

/-- **`Controller.tick_acts`** — a frame of a controller, however it ends, is acts of the agent. -/
theorem tick_acts {kit : Leaves α κ Situation Fault} (hkit : kit.Acting) (dt : Float32)
    (c : Controller α κ Sensor) (s : Situation) : s.Acts (c.tick kit .builtIn dt s).2.2 := by
  have hsense := sense_acts dt { c with frame := c.frame + 1 } s
  unfold tick
  rcases hs : sense .builtIn dt { c with frame := c.frame + 1 } s with ⟨result, c₁, s₁⟩
  rw [hs] at hsense
  cases result with
  | error fault => exact hsense
  | ok => exact hsense.trans (tickRoot_acts hkit dt c₁ s₁)

end Controller

/-! ## § The library's own leaves -/

section BuiltIn

variable {χ : Type} {R : Situation → Situation → Prop}

theorem Look.tick_keeps (hR : Situation.Permits R) (l : Look) (dt : Float32) (s : Situation) :
    R s (l.tick dt s).2.2 := by
  unfold Look.tick
  split
  · exact hR.refl s
  · exact hR.aim s _

theorem Scan.enter_keeps (hR : Situation.Permits R) (c : Scan) (s : Situation) : R s (c.enter s).2 := by
  simp only [enter, chooseBase]
  split
  · exact hR.refl s
  · split
    · exact hR.draw s _
    · exact hR.refl s

theorem Scan.tick_keeps (hR : Situation.Permits R) (c : Scan) (dt : Float32) (s : Situation) :
    R s (c.tick dt s).2.2 := by
  simp only [tick]
  split
  · exact hR.face s _
  · exact hR.refl s

/-- The library's providers draw and do nothing else; a host's own ones do what they do. -/
theorem Provider.next_keeps (hrefl : ∀ s, R s s) (htrans : ∀ {s t u}, R s t → R t u → R s u)
    (hdraw : ∀ (s : Situation) rng, R s { s with body := { s.body with rng } }) {host : HostProviders χ}
    (hhost : ∀ own (s : Situation), R s (host own s).2.2) (provider : Provider χ) (s : Situation) :
    R s (provider.next host s).2.2 := by
  induction provider generalizing s with
  | randomAdjacent => exact hdraw s _
  | patrol waypoints cursor =>
    simp only [next]
    split <;> exact hrefl s
  | fallback first second ihfirst ihsecond =>
    have hfirst := ihfirst s
    simp only [next]
    split
    · next heq =>
      rw [heq] at hfirst
      exact hfirst
    · next heq =>
      rw [heq] at hfirst
      exact htrans hfirst (ihsecond _)
  | host own => exact hhost own s

theorem Move.approach_keeps (hR : Situation.Permits R) (speed : Float32) (memory : Memory) (s : Situation) :
    R s (approach speed memory s).2 := by
  unfold approach
  split
  · exact hR.refl s
  · exact hR.request s _ _

theorem Move.findPath_keeps (hR : Situation.Permits R) {host : HostProviders χ}
    (hhost : ∀ own (s : Situation), R s (host own s).2.2) (provider : Provider χ) (s : Situation) :
    R s (findPath host provider s).2.2 := by
  have hnext := provider.next_keeps hR.refl hR.trans hR.draw hhost s
  unfold findPath
  split
  · exact hR.refl s
  · split
    · next heq =>
      rw [heq] at hnext
      exact hR.trans hnext (hR.note _ _)
    · next cells _ s₁ heq =>
      rw [heq] at hnext
      -- the path is told and set before it is looked at
      have htold := hR.trans hnext (hR.tell s₁ (.newPath cells.length s₁.body.cell) nofun)
      have hset := hR.trans htold (hR.setPath _ (ActivePath.start? cells))
      dsimp only
      split
      · exact hset
      · exact hR.trans hset (hR.note _ _)

theorem Move.walk_keeps (hR : Situation.Permits R) (speed : Float32) (s : Situation) :
    R s (walk speed s).2 := by
  unfold walk
  split
  · exact hR.refl s
  · split
    · have hadvanced : R s { s with board := s.board.advancePath.2 } := hR.setPath s _
      dsimp only
      split
      · exact hadvanced
      · exact hR.trans hadvanced (hR.request _ _ _)
    · exact hR.request s _ _

theorem Move.tick_keeps (hR : Situation.Permits R) {host : HostProviders χ}
    (hhost : ∀ own (s : Situation), R s (host own s).2.2) (m : Move χ) (s : Situation) :
    R s (m.tick host s).2.2 := by
  unfold tick
  split
  · exact approach_keeps hR _ _ _
  · exact approach_keeps hR _ _ _
  · next provider _ =>
    have hfind := findPath_keeps hR hhost provider s
    simp only [follow]
    split
    · next heq =>
      rw [heq] at hfind
      exact hfind
    · next heq =>
      rw [heq] at hfind
      exact hR.trans hfind (walk_keeps hR _ _)

/-- **`Leaves.builtIn_keeps`** — the library's own leaves keep every preorder that permits what they do, if
the providers that a host brings along keep it. -/
theorem Leaves.builtIn_keeps (hR : Situation.Permits R) {host : HostProviders χ}
    (hhost : ∀ own (s : Situation), R s (host own s).2.2) :
    (Leaves.builtIn host : Leaves (Action χ) Condition Situation φ).Keeps R where
  enter leaf s := by
    cases leaf with
    | listen | look | move => exact hR.refl s
    | scan c => exact c.enter_keeps hR s
  tick leaf dt s := by
    cases leaf with
    | listen => exact hR.refl s
    | look l => exact l.tick_keeps hR dt s
    | scan c => exact c.tick_keeps hR dt s
    | move m => exact m.tick_keeps hR hhost s
  exit leaf s := hR.refl s
  test leaf s := hR.refl s

/-- **`Leaves.builtIn_acting`** — the library's own leaves act through the agent only, if the providers
that a host brings along do. -/
theorem Leaves.builtIn_acting {host : HostProviders χ}
    (hhost : ∀ own (s : Situation), s.Acts (host own s).2.2) :
    (Leaves.builtIn host : Leaves (Action χ) Condition Situation φ).Acting :=
  builtIn_keeps Situation.Acts.allows.permits hhost

end BuiltIn

end BehaviorTree
