/-
# BehaviorTree.Proofs.Lookalike — situations that the library's leaves cannot tell apart

A leaf of the library looks at the world, at the agent's cell and direction, at the two memories and at the
active path, and at nothing else: not at the notes, the suspicion, the slots or the journal. A relation that
respects these and is kept by what leaves do is a `Situation.Lookalike`. In situations so related every
built-in sensor and every built-in leaf does the same (`Senses.builtIn_alike`, `Leaves.builtIn_coupled`).

The random stream is a case of its own. Where related situations also draw alike (`Situation.DrawsAlike`)
all actions are the same on both sides; where they do not, those are that never draw (`Action.Alike`).
-/
import BehaviorTree.Leaf.BuiltIn
import BehaviorTree.Proofs.Coupling

namespace BehaviorTree

variable {χ ψ φ : Type}

/-! ## § Situations -/

namespace Situation

/-- **`Situation.Lookalike`** — related situations agree in all that the library's leaves and sensors look
at, and what these do keeps them related. -/
structure Lookalike (S : Situation → Situation → Prop) : Prop extends Reportable S where
  world : ∀ {s t}, S s t → t.world = s.world
  cell : ∀ {s t}, S s t → t.body.cell = s.body.cell
  facing : ∀ {s t}, S s t → t.body.facing = s.body.facing
  seen : ∀ {s t}, S s t → t.board.seen = s.board.seen
  heard : ∀ {s t}, S s t → t.board.heard = s.board.heard
  path : ∀ {s t}, S s t → t.board.path = s.board.path
  request : ∀ {s t} target speed, S s t → S (s.request target speed) (t.request target speed)
  aim : ∀ {s t} cell, S s t → S (s.aimAt cell) (t.aimAt cell)
  face : ∀ {s t} degrees, S s t → S (s.face degrees) (t.face degrees)
  note : ∀ {s t} text, S s t → S (s.note text) (t.note text)
  setSeen : ∀ {s t : Situation} (seen : Memory), S s t →
    S { s with board := { s.board with seen } } { t with board := { t.board with seen } }
  setHeard : ∀ {s t : Situation} (heard : Memory), S s t →
    S { s with board := { s.board with heard } } { t with board := { t.board with heard } }
  setPath : ∀ {s t : Situation} (path : Option ActivePath), S s t →
    S { s with board := { s.board with path } } { t with board := { t.board with path } }

/-- What is drawn in related situations is the same, and so is what is drawn after that. -/
def DrawsAlike (S : Situation → Situation → Prop) : Prop :=
  ∀ (ρ : Type) (d : Random.SplitMix → ρ × Random.SplitMix) {s t}, S s t →
    Paired Eq S (s.draw d) (t.draw d)

end Situation

section Lookalike

variable {S : Situation → Situation → Prop} {s t : Situation}

/-! ## § Sensors and conditions -/

/-- The library's sensors make the same of situations that look alike. -/
theorem Senses.builtIn_alike (hS : Situation.Lookalike S) : Senses.builtIn.Alike S := by
  intro sensor step s t hs
  refine ⟨rfl, ?_⟩
  cases sensor with
  | vision fieldOfView maxTiles gated =>
    have hlook : Sensor.look fieldOfView maxTiles gated step t.world t.body t.board.seen =
        Sensor.look fieldOfView maxTiles gated step s.world s.body s.board.seen := by
      unfold Sensor.look Sensor.sees
      rw [hS.world hs, hS.cell hs, hS.facing hs, hS.seen hs]
    show S { s with board := _ } { t with board := { t.board with seen := Sensor.look .. } }
    rw [hlook]
    exact hS.setSeen _ hs
  | hearing decaySeconds =>
    have hlisten : Sensor.listen decaySeconds step t.world t.board.heard =
        Sensor.listen decaySeconds step s.world s.board.heard := by
      rw [hS.world hs, hS.heard hs]
    show S { s with board := _ } { t with board := { t.board with heard := Sensor.listen .. } }
    rw [hlisten]
    exact hS.setHeard _ hs

theorem Condition.holds_alike (hS : Situation.Lookalike S) (hs : S s t) (k : Condition) :
    k.holds t = k.holds s := by
  cases k with
  | playerVisible within => simp only [holds, hS.seen hs]
  | noiseHeard radius within => simp only [holds, hS.heard hs, hS.cell hs]

/-! ## § Actions -/

/-- **`Action.Alike`** — actions that are the same, apart from the providers of their paths, which `P`
relates, and that draw only where draws are alike. -/
inductive Action.Alike (S : Situation → Situation → Prop) (P : Provider χ → Provider ψ → Prop) :
    Action χ → Action ψ → Prop
  | listen (timer : Timer) : Alike S P (.listen timer) (.listen timer)
  | look (look : Look) : Alike S P (.look look) (.look look)
  | scan {scan : Scan} :
      Situation.DrawsAlike S ∨ ¬(scan.settings.rotate = true ∧ scan.settings.randomStart = true) →
      Alike S P (.scan scan) (.scan scan)
  | lastSeen (speed : Float32) : Alike S P (.move ⟨.lastSeen, speed⟩) (.move ⟨.lastSeen, speed⟩)
  | lastHeard (speed : Float32) : Alike S P (.move ⟨.lastHeard, speed⟩) (.move ⟨.lastHeard, speed⟩)
  | paths {p : Provider χ} {q : Provider ψ} (speed : Float32) :
      P p q → Alike S P (.move ⟨.paths p, speed⟩) (.move ⟨.paths q, speed⟩)

/-- If providers that are related are equal, so are actions that are alike. -/
theorem Action.Alike.eq {P : Provider χ → Provider χ → Prop} (hP : ∀ p q, P p q → p = q)
    {a b : Action χ} (h : a.Alike S P b) : a = b := by
  cases h with
  | paths speed hpq => rw [hP _ _ hpq]
  | listen | look | scan | lastSeen | lastHeard => rfl

theorem Look.tick_alike (hS : Situation.Lookalike S) (hs : S s t) (l : Look) (dt : Float32) :
    Paired Eq (Paired Eq S) (l.tick dt s) (l.tick dt t) := by
  unfold Look.tick
  rw [hS.world hs]
  split
  · exact ⟨rfl, rfl, hs⟩
  · exact ⟨rfl, rfl, hS.aim _ hs⟩

/-- A scan that draws nothing turns from the direction that the agent has. -/
theorem Scan.enter_alike (hS : Situation.Lookalike S) (hs : S s t) {c : Scan}
    (h : Situation.DrawsAlike S ∨ ¬(c.settings.rotate = true ∧ c.settings.randomStart = true)) :
    Paired Eq S (c.enter s) (c.enter t) := by
  have hbase : Paired Eq S (c.chooseBase s) (c.chooseBase t) := by
    unfold chooseBase
    cases c.carried with
    | some angle => exact ⟨rfl, hs⟩
    | none =>
      dsimp only
      split
      · next hdraw =>
        have hdraws : Situation.DrawsAlike S := h.resolve_right fun hstill => hstill (by simpa using hdraw)
        obtain ⟨hpart, hs'⟩ := hdraws _ Random.unit hs
        exact ⟨congrArg (· * (360 : Float32)) hpart, hs'⟩
      · exact ⟨(hS.facing hs).symm, hs⟩
  unfold enter
  dsimp only
  rw [← hbase.1]
  exact ⟨rfl, hbase.2⟩

@[simp] theorem Scan.tick_settings (c : Scan) (dt : Float32) (s : Situation) :
    (c.tick dt s).2.1.settings = c.settings := by
  unfold tick
  dsimp only
  split <;> rfl

@[simp] theorem Scan.exit_settings (c : Scan) : c.exit.settings = c.settings := by
  unfold exit
  split <;> rfl

theorem Scan.tick_alike (hS : Situation.Lookalike S) (hs : S s t) (c : Scan) (dt : Float32) :
    Paired Eq (Paired Eq S) (c.tick dt s) (c.tick dt t) := by
  unfold tick
  dsimp only
  split
  · exact ⟨rfl, rfl, hS.face _ hs⟩
  · exact ⟨rfl, rfl, hs⟩

/-! ## § Moves -/

namespace Move

theorem approach_alike (hS : Situation.Lookalike S) (hs : S s t) (speed : Float32) {memory memory' : Memory}
    (hmemory : memory' = memory) :
    Paired Eq S (approach speed memory s) (approach speed memory' t) := by
  have hgreedy : greedyStep t = greedyStep s := by
    unfold greedyStep
    rw [hS.world hs, hS.cell hs]
  unfold approach
  rw [hgreedy, hmemory]
  split
  · exact ⟨rfl, hs⟩
  · exact ⟨rfl, hS.request _ _ hs⟩

theorem walk_alike (hS : Situation.Lookalike S) (hs : S s t) (speed : Float32) :
    Paired Eq S (walk speed s) (walk speed t) := by
  have hnext : t.board.pathNext = s.board.pathNext := by
    unfold Blackboard.pathNext
    rw [hS.path hs]
  have hadvance : t.board.advancePath =
      (s.board.advancePath.1, { t.board with path := s.board.advancePath.2.path }) := by
    unfold Blackboard.advancePath
    rw [hS.path hs]
  unfold walk
  rw [hnext, hS.cell hs, hadvance]
  split
  · exact ⟨rfl, hs⟩
  · split
    · have hadvanced := hS.setPath s.board.advancePath.2.path hs
      dsimp only
      split
      · exact ⟨rfl, hadvanced⟩
      · exact ⟨rfl, hS.request _ _ hadvanced⟩
    · exact ⟨rfl, hS.request _ _ hs⟩

variable {P : Provider χ → Provider ψ → Prop} {host : HostProviders χ} {host' : HostProviders ψ}
  {p : Provider χ} {q : Provider ψ}

/-- If the providers answer the same, the same path is found. -/
theorem findPath_alike (hS : Situation.Lookalike S)
    (hnext : Paired Eq (Paired P S) (p.next host s) (q.next host' t)) (hpq : P p q) (hs : S s t) :
    Paired Eq (Paired P S) (findPath host p s) (findPath host' q t) := by
  unfold findPath
  rw [hS.path hs]
  split
  · exact ⟨rfl, hpq, hs⟩
  · rcases hl : p.next host s with ⟨path, p', s₁⟩
    rcases hr : q.next host' t with ⟨path', q', t₁⟩
    rw [hl, hr] at hnext
    obtain ⟨hpath, hpq', hs₁⟩ := hnext
    obtain rfl : path = path' := hpath
    cases path with
    | none =>
      dsimp only
      rw [hS.cell hs₁]
      exact ⟨rfl, hpq', hS.note _ hs₁⟩
    | some cells =>
      have htold := hS.tell (.newPath cells.length s₁.body.cell) hs₁
      have hset := hS.setPath (ActivePath.start? cells) htold
      dsimp only [Blackboard.setPath]
      rw [hS.cell hs₁]
      split
      · exact ⟨rfl, hpq', hset⟩
      · exact ⟨rfl, hpq', hS.note _ hset⟩

theorem follow_alike (hS : Situation.Lookalike S)
    (hnext : Paired Eq (Paired P S) (p.next host s) (q.next host' t)) (hpq : P p q) (hs : S s t)
    (speed : Float32) : Paired Eq (Paired P S) (follow host speed p s) (follow host' speed q t) := by
  have hfind := findPath_alike hS hnext hpq hs
  unfold follow
  rcases hl : findPath host p s with ⟨found, p', s₁⟩
  rcases hr : findPath host' q t with ⟨found', q', t₁⟩
  rw [hl, hr] at hfind
  obtain ⟨hfound, hpq', hs₁⟩ := hfind
  obtain rfl : found = found' := hfound
  cases found with
  | false => exact ⟨rfl, hpq', hs₁⟩
  | true =>
    obtain ⟨hstatus, hs₂⟩ := walk_alike hS hs₁ speed
    exact ⟨hstatus, hpq', hs₂⟩

end Move

/-! ## § The kit -/

/-- **`Leaves.builtIn_coupled`** — in situations that look alike, the library's leaves do the same, if the
providers do. -/
theorem Leaves.builtIn_coupled {P : Provider χ → Provider ψ → Prop} {host : HostProviders χ}
    {host' : HostProviders ψ} (hS : Situation.Lookalike S)
    (hP : ∀ {p q s t}, P p q → S s t → Paired Eq (Paired P S) (p.next host s) (q.next host' t)) :
    (builtIn host : Leaves _ _ _ φ).Coupled (builtIn host') (Action.Alike S P) S where
  enter ha hs := by
    cases ha with
    | listen timer => exact ⟨.listen _, hs⟩
    | look look => exact ⟨.look _, hs⟩
    | scan hscan =>
      obtain ⟨henter, hs'⟩ := Scan.enter_alike hS hs hscan
      refine ⟨?_, hs'⟩
      show Action.Alike S P (.scan (Scan.enter _ _).1) (.scan (Scan.enter _ _).1)
      rw [← henter]
      exact .scan hscan
    | lastSeen speed => exact ⟨.lastSeen speed, hs⟩
    | lastHeard speed => exact ⟨.lastHeard speed, hs⟩
    | paths speed hpq => exact ⟨.paths speed hpq, hs⟩
  tick ha hs dt := by
    cases ha with
    | listen timer => exact ⟨rfl, .listen _, hs⟩
    | look look =>
      obtain ⟨hstatus, hlook, hs'⟩ := look.tick_alike hS hs dt
      refine ⟨congrArg Except.ok hstatus, ?_, hs'⟩
      show Action.Alike S P (.look (look.tick dt _).2.1) (.look (look.tick dt _).2.1)
      rw [← hlook]
      exact .look _
    | @scan scan hscan =>
      obtain ⟨hstatus, htick, hs'⟩ := scan.tick_alike hS hs dt
      refine ⟨congrArg Except.ok hstatus, ?_, hs'⟩
      show Action.Alike S P (.scan (scan.tick dt _).2.1) (.scan (scan.tick dt _).2.1)
      rw [← htick]
      exact .scan (by rwa [scan.tick_settings])
    | lastSeen speed =>
      obtain ⟨hstatus, hs'⟩ := Move.approach_alike hS hs speed (hS.seen hs)
      exact ⟨congrArg Except.ok hstatus, .lastSeen speed, hs'⟩
    | lastHeard speed =>
      obtain ⟨hstatus, hs'⟩ := Move.approach_alike hS hs speed (hS.heard hs)
      exact ⟨congrArg Except.ok hstatus, .lastHeard speed, hs'⟩
    | paths speed hpq =>
      obtain ⟨hstatus, hpq', hs'⟩ := Move.follow_alike hS (hP hpq hs) hpq hs speed
      exact ⟨congrArg Except.ok hstatus, .paths speed hpq', hs'⟩
  exit ha hs := by
    refine ⟨?_, hs⟩
    cases ha with
    | listen timer => exact .listen timer
    | look look => exact .look look
    | @scan scan hscan => exact .scan (by rwa [scan.exit_settings])
    | lastSeen speed => exact .lastSeen speed
    | lastHeard speed => exact .lastHeard speed
    | paths speed hpq => exact .paths speed hpq
  test leaf s t hs := ⟨congrArg Except.ok (leaf.holds_alike hS hs).symm, hs⟩

end Lookalike

end BehaviorTree
