/-
# BehaviorTree.Proofs.Diagnostics — what is written down for others changes nothing

Notes, suspicion, slots and the journal are there for whoever wants to know what an agent does and why. Two
situations that differ in nothing else (`Situation.Indistinct`) look alike to every leaf and every sensor of
the library, and they stay so: the notes of one may run over, the other may have a sink that takes events on,
but both controllers answer the same and end up the same (`Controller.drive_indistinct`).

That the sink can be read is part of the relation. A slot that holds something else in its place is a fault,
and a fault is no diagnosis.
-/
import BehaviorTree.Proofs.Faultless
import BehaviorTree.Proofs.Lookalike
import BehaviorTree.World.Grid

namespace BehaviorTree

/-! ## § Situations that differ in diagnostics -/

namespace Situation

/-- **`Situation.Indistinct`** — the situations have the same world, body, memories and path, and in either
of them the slot of the sink is empty or holds a sink. Nothing is said of the notes, the suspicion, the other
slots and the journal. -/
structure Indistinct (s t : Situation) : Prop where
  world : t.world = s.world
  body : t.body = s.body
  seen : t.board.seen = s.board.seen
  heard : t.board.heard = s.board.heard
  path : t.board.path = s.board.path
  left : s.Traceable
  right : t.Traceable

variable {s t : Situation}

/-- A trace event reaches the sink of either side, if there is one, and a note of it is made on both. -/
theorem Indistinct.emit (h : s.Indistinct t) (event : TraceEvent) :
    Paired Eq Indistinct (s.emit event) (t.emit event) := by
  obtain ⟨journal, hs⟩ := h.left.emit event
  obtain ⟨journal', ht⟩ := h.right.emit event
  rw [hs, ht]
  exact ⟨rfl, h.world, h.body, h.seen, h.heard, h.path, h.left, h.right⟩

/-- Such situations look alike. -/
theorem indistinct_lookalike : Lookalike Indistinct where
  tell _ h := ⟨h.world, h.body, h.seen, h.heard, h.path, h.left, h.right⟩
  emit event h := h.emit event
  world h := h.world
  cell h := congrArg Body.cell h.body
  facing h := congrArg Body.facing h.body
  seen h := h.seen
  heard h := h.heard
  path h := h.path
  request target speed h :=
    ⟨h.world, congrArg (·.request target speed) h.body, h.seen, h.heard, h.path, h.left, h.right⟩
  aim cell h := ⟨h.world, congrArg (·.aimAt cell) h.body, h.seen, h.heard, h.path, h.left, h.right⟩
  face degrees h :=
    ⟨h.world, congrArg (fun body : Body => { body with facing := degrees }) h.body, h.seen, h.heard, h.path,
      h.left, h.right⟩
  note _ h := ⟨h.world, h.body, h.seen, h.heard, h.path, h.left, h.right⟩
  setSeen _ h := ⟨h.world, h.body, rfl, h.heard, h.path, h.left, h.right⟩
  setHeard _ h := ⟨h.world, h.body, h.seen, rfl, h.path, h.left, h.right⟩
  setPath _ h := ⟨h.world, h.body, h.seen, h.heard, rfl, h.left, h.right⟩

/-- What is drawn comes from the body, so it is the same. -/
theorem indistinct_drawsAlike : DrawsAlike Indistinct := by
  intro ρ d s t h
  unfold draw
  rw [h.body]
  exact ⟨rfl, h.world, rfl, h.seen, h.heard, h.path, h.left, h.right⟩

end Situation

/-! ## § Leaves and providers -/

section Leaves

variable {S : Situation → Situation → Prop} {φ : Type}

/-- Where draws are alike, the library's providers find the same paths. -/
theorem Provider.next_alike (hS : Situation.Lookalike S) (hdraws : Situation.DrawsAlike S)
    (p : Provider Empty) {s t : Situation} (hs : S s t) :
    Paired Eq (Paired Eq S) (p.next .none s) (p.next .none t) := by
  induction p generalizing s t with
  | randomAdjacent =>
    obtain ⟨hpath, hs'⟩ := hdraws _ (stroll s.world s.body.cell) hs
    simp only [next, wander]
    rw [hS.world hs, hS.cell hs]
    exact ⟨hpath, rfl, hs'⟩
  | patrol waypoints cursor =>
    simp only [next]
    split <;> exact ⟨rfl, rfl, hs⟩
  | fallback first second ihfirst ihsecond =>
    have hfirst := ihfirst hs
    unfold next
    rcases hl : first.next .none s with ⟨path, first', s₁⟩
    rcases hr : first.next .none t with ⟨path', first'', t₁⟩
    rw [hl, hr] at hfirst
    obtain ⟨hpath, hfirst', hs₁⟩ := hfirst
    obtain rfl : path = path' := hpath
    obtain rfl : first' = first'' := hfirst'
    obtain ⟨hpath, hsecond, hs₂⟩ := ihsecond hs₁
    rcases path with _ | _ | ⟨c, rest⟩
    · exact ⟨hpath, congrArg (Provider.fallback first') hsecond, hs₂⟩
    · exact ⟨hpath, congrArg (Provider.fallback first') hsecond, hs₂⟩
    · exact ⟨rfl, rfl, hs₁⟩
  | host own => exact own.elim

/-- Where draws are alike, every action is the same on both sides. -/
theorem Action.Alike.refl (hdraws : Situation.DrawsAlike S) (a : Action Empty) : a.Alike S Eq a := by
  match a with
  | .listen timer => exact .listen timer
  | .look l => exact .look l
  | .scan c => exact .scan (Or.inl hdraws)
  | .move ⟨.lastSeen, speed⟩ => exact .lastSeen speed
  | .move ⟨.lastHeard, speed⟩ => exact .lastHeard speed
  | .move ⟨.paths provider, speed⟩ => exact .paths speed rfl

/-- Situations that differ in diagnostics are all the same to the library's leaves. -/
theorem Leaves.builtIn_indistinct :
    (builtIn .none : Leaves _ _ _ φ).Coupled (builtIn .none) (Action.Alike Situation.Indistinct Eq)
      Situation.Indistinct := by
  refine builtIn_coupled Situation.indistinct_lookalike ?_
  rintro p _ s t rfl hs
  exact p.next_alike Situation.indistinct_lookalike Situation.indistinct_drawsAlike hs

end Leaves

/-! ## § Controllers -/

namespace Controller

variable {α κ σ : Type}

/-- What is done to a controller, or to the world and the body between two calls of it. -/
inductive Call where
  | tick (dt : Float32)
  | abort
  | change (f : World → Body → World × Body)

/-- **`Controller.drive`** — what the ticks among these calls answer, and the controller and the situation
after all of them. -/
def drive (kit : Leaves α κ Situation Fault) (senses : Senses σ Situation) :
    List Call → Controller α κ σ → Situation → List (Except Fault Status) × Controller α κ σ × Situation
  | [], c, s => ([], c, s)
  | .tick dt :: calls, c, s =>
    let (answer, c, s) := c.tick kit senses dt s
    let (answers, c, s) := drive kit senses calls c s
    (answer :: answers, c, s)
  | .abort :: calls, c, s =>
    let (c, s) := c.abort kit s
    drive kit senses calls c s
  | .change f :: calls, c, s =>
    let (world, body) := f s.world s.body
    drive kit senses calls c { s with world, body }

variable {s t : Situation}

/-- A controller of built-in leaves is coupled to itself. -/
theorem coupled_self {S : Situation → Situation → Prop} (hdraws : Situation.DrawsAlike S)
    (c : Controller (Action Empty) Condition σ) : c.Coupled (Action.Alike S Eq) c := by
  refine ⟨c.root, .self ?_, rfl⟩
  intro _ _ _ n _
  exact .refl hdraws n.leaf

/-- One frame. -/
theorem tick_indistinct (c : Controller (Action Empty) Condition Sensor) (dt : Float32)
    (h : s.Indistinct t) :
    ∃ status c' s' t', c.tick (.builtIn .none) .builtIn dt s = (.ok status, c', s') ∧
      c.tick (.builtIn .none) .builtIn dt t = (.ok status, c', t') ∧ s'.Indistinct t' := by
  have hS := Situation.indistinct_lookalike
  have htick := (c.coupled_self Situation.indistinct_drawsAlike).tick Leaves.builtIn_indistinct
    (Senses.builtIn_alike hS) hS.toReportable dt h
  -- that the tick on the left is no fault is a fact about the library's leaves
  obtain ⟨status, c', s', hs', -⟩ := c.builtIn_tick_returns h.left dt
  rcases ht' : c.tick (.builtIn .none) .builtIn dt t with ⟨answer, d', t'⟩
  rw [hs', ht'] at htick
  obtain ⟨hanswer, hcoupled, hindistinct⟩ := htick
  obtain rfl : Except.ok status = answer := hanswer
  obtain rfl : c' = d' := hcoupled.eq fun _ _ => Action.Alike.eq fun _ _ => id
  exact ⟨status, c', s', t', hs', rfl, hindistinct⟩

/-- An abort. -/
theorem abort_indistinct (c : Controller (Action Empty) Condition σ) (h : s.Indistinct t) :
    ∃ c' s' t', c.abort (.builtIn .none) s = (c', s') ∧ c.abort (.builtIn .none) t = (c', t') ∧
      s'.Indistinct t' := by
  have habort := (c.coupled_self Situation.indistinct_drawsAlike).abort Leaves.builtIn_indistinct h
  rcases hs' : c.abort (.builtIn .none) s with ⟨c', s'⟩
  rcases ht' : c.abort (.builtIn .none) t with ⟨d', t'⟩
  rw [hs', ht'] at habort
  obtain ⟨hcoupled, hindistinct⟩ := habort
  obtain rfl : c' = d' := hcoupled.eq fun _ _ => Action.Alike.eq fun _ _ => id
  exact ⟨c', s', t', rfl, rfl, hindistinct⟩

/-- **`Controller.drive_indistinct`** — diagnostics never influence behaviour. Take a controller of any tree
of built-in leaves and any built-in sensors, in any state, and two situations that differ in notes, suspicion
and slots at most, each of them with a sink or without one. Whatever ticks and aborts follow, and whatever
becomes of the world and the body between them, both runs return the same statuses and never a fault, and in
the end there is the same controller, with its tree, its accumulator and its count of samples, beside equal
worlds, bodies, memories and paths. -/
theorem drive_indistinct (c : Controller (Action Empty) Condition Sensor) (calls : List Call)
    (h : s.Indistinct t) :
    ∃ (statuses : List Status) (c' : Controller (Action Empty) Condition Sensor) (s' t' : Situation),
      c.drive (.builtIn .none) .builtIn calls s = (statuses.map .ok, c', s') ∧
      c.drive (.builtIn .none) .builtIn calls t = (statuses.map .ok, c', t') ∧ s'.Indistinct t' := by
  induction calls generalizing c s t with
  | nil => exact ⟨[], c, s, t, rfl, rfl, h⟩
  | cons call calls ih =>
    match call with
    | .tick dt =>
      obtain ⟨status, c₁, s₁, t₁, hs₁, ht₁, h₁⟩ := c.tick_indistinct dt h
      obtain ⟨statuses, c', s', t', hs', ht', h'⟩ := ih c₁ h₁
      refine ⟨status :: statuses, c', s', t', ?_, ?_, h'⟩
      · simp only [drive, hs₁, hs', List.map_cons]
      · simp only [drive, ht₁, ht', List.map_cons]
    | .abort =>
      obtain ⟨c₁, s₁, t₁, hs₁, ht₁, h₁⟩ := c.abort_indistinct h
      obtain ⟨statuses, c', s', t', hs', ht', h'⟩ := ih c₁ h₁
      refine ⟨statuses, c', s', t', ?_, ?_, h'⟩
      · simp only [drive, hs₁, hs']
      · simp only [drive, ht₁, ht']
    | .change f =>
      have hchanged : Situation.Indistinct
          { s with world := (f s.world s.body).1, body := (f s.world s.body).2 }
          { t with world := (f t.world t.body).1, body := (f t.world t.body).2 } := by
        rw [h.world, h.body]
        exact ⟨rfl, rfl, h.seen, h.heard, h.path, h.left, h.right⟩
      exact ih c hchanged

/-- Someone who wanders about. -/
def wanderer : Controller (Action Empty) Condition Sensor :=
  .create (.action ⟨"move", false, .move ⟨.paths .randomAdjacent, 1⟩⟩) [.vision 120 8 true] 10

/-- Where nobody has written anything down. -/
def blank : Situation where
  world := ({ width := 3, height := 3, player := some ⟨2, 1⟩ } : Grid).world
  body := { cell := ⟨1, 1⟩, rng := ⟨7⟩ }

/-- The same place with a note, a suspicion and a sink. -/
def noted : Situation :=
  { blank with board := ({ notes := ["look out"], suspicion := 0.5 } : Blackboard).installSink (.record 3) }

/-- In either place the wanderer sets out, is called back and sets out again. -/
theorem wanderer_drive :
    blank.Indistinct noted ∧ noted.board.notes ≠ blank.board.notes ∧
      ∃ c' s' t',
        wanderer.drive (.builtIn .none) .builtIn [.tick 0.1, .abort, .tick 0.1] blank =
          ([.ok .running, .ok .running], c', s') ∧
        wanderer.drive (.builtIn .none) .builtIn [.tick 0.1, .abort, .tick 0.1] noted =
          ([.ok .running, .ok .running], c', t') ∧
        s'.Indistinct t' := by
  have hplaces : blank.Indistinct noted := ⟨rfl, rfl, rfl, rfl, rfl, ⟨none, rfl⟩, ⟨some (.record 3), rfl⟩⟩
  obtain ⟨statuses, c', s', t', hblank, hnoted, h⟩ :=
    wanderer.drive_indistinct [.tick 0.1, .abort, .tick 0.1] hplaces
  have hanswers : (wanderer.drive (.builtIn .none) .builtIn [.tick 0.1, .abort, .tick 0.1] blank).1 =
      [.ok .running, .ok .running] := by decide +kernel
  rw [hblank] at hanswers
  have hstatuses : statuses.map Except.ok = [.ok .running, .ok .running] := hanswers
  rw [hstatuses] at hblank hnoted
  exact ⟨hplaces, by decide, c', s', t', hblank, hnoted, h⟩

end Controller

end BehaviorTree
