/-
# BehaviorTree.Proofs.DeadEnd — moves that ask for a wall

A move that is running has asked for a step to some cell. To wander and to approach a remembered cell are choices
among the neighbours, and walls are left out there. A patrol does not choose: it asks for its waypoints, whatever they
are. So of the cells for which a move asks, only waypoints can be walls (`Move.Bound`, `Stride.Made.asks`).

An agent never enters a wall, and it gives up the intent to do so at once. But the move still has its path, and asks
for the same wall in the next tick: it goes on running and gets nowhere (`Stride.Made.again`). Its status never says so.
`MoveSettings.dead_ends` follows both through any series of ticks and movements.
-/
import BehaviorTree.Proofs.Approach
import BehaviorTree.Proofs.Itinerary
import BehaviorTree.Proofs.Movement
import BehaviorTree.Proofs.Steps
import BehaviorTree.Proofs.Wandering

namespace BehaviorTree

variable {χ : Type}

/-! ## § The waypoints of a move -/

namespace Provider

/-- All waypoints of a provider. -/
def waypoints : Provider χ → List Cell
  | .randomAdjacent | .host _ => []
  | .patrol waypoints _ => waypoints
  | .fallback first second => first.waypoints ++ second.waypoints

variable {provider : Provider Empty} {s : Situation}

/-- They stay the same. -/
theorem waypoints_next (provider : Provider Empty) (s : Situation) :
    (provider.next .none s).2.1.waypoints = provider.waypoints := by
  induction provider generalizing s with
  | randomAdjacent => rfl
  | patrol waypoints cursor =>
    unfold next
    split <;> rfl
  | fallback first second ihfirst ihsecond =>
    have hfirst := ihfirst s
    unfold next
    split
    · next heq =>
      rw [heq] at hfirst
      simp only [waypoints]
      rw [← hfirst]
    · next heq =>
      rw [heq] at hfirst
      simp only [waypoints]
      rw [← hfirst, ihsecond]
  | host own => exact own.elim

/-- Who wanders finds a cell that is free. -/
theorem isWalkable_of_wander {cells : List Cell} (h : (wander s).1 = some cells) {c : Cell} (hc : c ∈ cells) :
    s.world.isWalkable c = true := by
  obtain ⟨d, -, hd, rfl⟩ := exists_of_stroll h
  obtain rfl := List.mem_singleton.mp hc
  exact hd

/-- **`Provider.mem_of_next`** — the cells of a path are free or waypoints. -/
theorem mem_of_next {cells : List Cell} (h : (provider.next .none s).1 = some cells) {c : Cell} (hc : c ∈ cells) :
    s.world.isWalkable c = true ∨ c ∈ provider.waypoints := by
  induction provider generalizing s with
  | randomAdjacent => exact .inl (isWalkable_of_wander h hc)
  | patrol waypoints cursor =>
    unfold next at h
    split at h
    · cases h
    · next target htarget =>
      obtain rfl := Option.some.inj h
      obtain rfl := List.mem_singleton.mp hc
      exact .inr (List.mem_of_getElem? htarget)
  | fallback first second ihfirst ihsecond =>
    have hworld : (first.next .none s).2.2.world = s.world :=
      first.next_keeps (R := Situation.Kept Situation.world) (fun _ => rfl) Situation.Kept.trans (fun _ _ => rfl)
        (fun own _ => own.elim) s
    unfold next at h
    split at h
    · next heq =>
      obtain rfl := Option.some.inj h
      exact (ihfirst (by rw [heq])).imp_right (List.mem_append_left _)
    · next heq =>
      rw [heq] at hworld
      have hsecond := ihsecond h
      rw [hworld] at hsecond
      exact hsecond.imp_right (List.mem_append_right _)
  | host own => exact own.elim

end Provider

/-- The waypoints of a move. -/
def Move.waypoints (m : Move χ) : List Cell :=
  match m.goal with
  | .lastSeen | .lastHeard => []
  | .paths provider => provider.waypoints

/-- Only a patrol has any. -/
theorem MoveSettings.mem_waypoints {p : MoveSettings} {c : Cell} :
    c ∈ (p.move : Move χ).waypoints ↔ p.toward = none ∧ p.mode ≠ .randomAdjacent ∧ c ∈ p.waypoints := by
  unfold Move.waypoints MoveSettings.move
  rcases htoward : p.toward with _ | _ | _
  · cases p.mode <;> simp [ProviderMode.build, Provider.waypoints, Provider.patrolling]
  · simp
  · simp

/-! ## § One tick -/

/-- **`Move.Bound`** — the waypoints of the move are these, and the cells that are left of its path are free or among
them. -/
structure Move.Bound (free : Cell → Bool) (waypoints : List Cell) (m : Move Empty) (s : Situation) : Prop where
  waypoints_eq : m.waypoints = waypoints
  left : ∀ path, s.board.path = some path → ∀ c ∈ path.left, free c = true ∨ c ∈ waypoints

/-- The path of a move leads to a cell now. -/
def Move.Heads (c : Cell) (m : Move Empty) (s : Situation) : Prop :=
  ∃ provider path, m.goal = .paths provider ∧ s.board.path = some path ∧ path.next = c

/-- The cell for which an agent has asked. -/
def Situation.asked? (s : Situation) : Option Cell :=
  s.body.intent.map Intent.target

namespace Move

variable {free : Cell → Bool} {waypoints : List Cell} {m m' : Move Empty} {s s' : Situation} {status : Status}

/-- A tick towards a remembered cell asks for a free one and leaves the path alone. -/
theorem approach_asks {speed : Float32} {memory : Memory} (h : approach speed memory s = (status, s')) :
    s'.board = s.board ∧ (status = .running → ∃ c, s'.asked? = some c ∧ s.world.isWalkable c = true) := by
  unfold approach at h
  split at h
  · cases h
    exact ⟨rfl, nofun⟩
  · next c hc =>
    cases h
    obtain ⟨target, -, hstep⟩ := Option.bind_eq_some_iff.mp hc
    exact ⟨rfl, fun _ => ⟨c, rfl, (nearest_of_greedyStep hstep).mem.2⟩⟩

/-- The path on which a tick walks is bound, whether it was there before or is new. -/
theorem Bound.path? {leg : Leg Empty} {speed : Float32}
    (h : Bound free waypoints ⟨.paths leg.provider, speed⟩ leg.before) (hworld : leg.before.world.isWalkable = free)
    {path : ActivePath} (hpath : leg.path? .none = some path) {c : Cell} (hc : c ∈ path.left) :
    free c = true ∨ c ∈ waypoints := by
  cases hactive : leg.before.board.path with
  | some active =>
    rw [Leg.path?_of_some hactive] at hpath
    obtain rfl := Option.some.inj hpath
    exact h.left _ hactive c hc
  | none =>
    rw [Leg.path?_of_none hactive] at hpath
    obtain ⟨cells, hcells, hstart⟩ := Option.bind_eq_some_iff.mp hpath
    rw [ActivePath.left_of_start? hstart] at hc
    rw [← hworld, ← h.waypoints_eq]
    exact Provider.mem_of_next hcells hc

/-- What a tick along paths leaves of its path is bound. If it is running, it has asked for the cell to which the path
leads. -/
theorem Bound.follow {provider provider' : Provider Empty} {speed : Float32}
    (h : Bound free waypoints ⟨.paths provider, speed⟩ s) (hworld : s.world.isWalkable = free)
    (hfollowed : Move.follow .none speed provider s = (status, provider', s')) :
    Bound free waypoints ⟨.paths provider', speed⟩ s' ∧
      (status = .running → ∃ path, s'.board.path = some path ∧ s'.asked? = some path.next) := by
  obtain ⟨hmade, rfl⟩ := follow_made (fun own _ => own.elim) hfollowed
  refine ⟨⟨?_, fun path hpath c hc => ?_⟩, fun hrunning => ?_⟩
  · rw [← h.waypoints_eq]
    show (Leg.provider' .none _).waypoints = provider.waypoints
    unfold Leg.provider'
    split
    · rfl
    · exact Provider.waypoints_next provider s
  · cases hmade with
    | pathless _ _ hnone | ended _ _ _ _ hnone => cases hnone.symm.trans hpath
    | away hfound _ _ hafter =>
      obtain rfl := Option.some.inj (hafter.symm.trans hpath)
      exact Bound.path? h hworld hfound hc
    | onward hfound _ hleft _ hafter =>
      obtain rfl := Option.some.inj (hafter.symm.trans hpath)
      exact Bound.path? h hworld hfound (hleft ▸ List.mem_cons_of_mem _ hc)
  · obtain ⟨-, path, hafter, hbody⟩ | ⟨hnot, -⟩ := hmade.requests
    · exact ⟨path, hafter, congrArg (fun b : Body => b.intent.map Intent.target) hbody⟩
    · exact absurd hrunning hnot

/-- **`Move.Bound.tick`** — a tick keeps the bound. If it is running, it has asked for a cell that is free or a
waypoint; if it is no free one, the path still leads there. -/
theorem Bound.tick (h : m.Bound free waypoints s) (hworld : s.world.isWalkable = free)
    (hticked : m.tick .none s = (status, m', s')) :
    m'.Bound free waypoints s' ∧
      (status = .running → ∃ c, s'.asked? = some c ∧ (free c = true ∨ c ∈ waypoints) ∧
        (free c = false → m'.Heads c s')) := by
  obtain ⟨goal, speed⟩ := m
  cases goal with
  | lastSeen | lastHeard =>
    have happroached := (tick_eq_approach rfl HostProviders.none).symm.trans hticked
    obtain ⟨hstatus, hm', hs'⟩ := (Prod.mk.inj happroached).imp_right Prod.mk.inj
    obtain rfl := hm'
    obtain ⟨hboard, hrunning⟩ := approach_asks (Prod.ext hstatus hs')
    refine ⟨⟨h.waypoints_eq, hboard ▸ h.left⟩, fun hrun => ?_⟩
    obtain ⟨c, hasked, hfree⟩ := hrunning hrun
    rw [hworld] at hfree
    exact ⟨c, hasked, .inl hfree, fun hwall => by simp [hfree] at hwall⟩
  | paths provider =>
    rcases hfollowed : Move.follow .none speed provider s with ⟨status, provider', s'⟩
    simp only [Move.tick, hfollowed] at hticked
    cases hticked
    obtain ⟨hbound, hrunning⟩ := h.follow hworld hfollowed
    refine ⟨hbound, fun hrun => ?_⟩
    obtain ⟨path, hpath, hasked⟩ := hrunning hrun
    have hnext : path.next ∈ path.left := path.left_eq_cons ▸ List.mem_cons_self
    exact ⟨path.next, hasked, hbound.left path hpath _ hnext, fun _ => ⟨_, path, rfl, hpath, rfl⟩⟩

/-- **`Move.Heads.tick`** — who is not there yet asks for the cell to which the path leads. -/
theorem Heads.tick {c : Cell} (h : m.Heads c s) (haway : s.body.cell ≠ c)
    (hticked : m.tick .none s = (status, m', s')) : status = .running ∧ s'.asked? = some c := by
  obtain ⟨provider, path, hgoal, hpath, rfl⟩ := h
  simp only [Move.tick, hgoal, Move.follow, findPath_of_path hpath, walk_eq hpath, if_neg haway] at hticked
  cases hticked
  exact ⟨rfl, rfl⟩

theorem cell_tick (hticked : m.tick .none s = (status, m', s')) : s'.body.cell = s.body.cell := by
  have hacts : s.Acts (m.tick .none s).2.2 := m.tick_keeps Situation.Acts.allows.permits (fun own _ => own.elim) s
  rw [hticked] at hacts
  exact hacts.cell_eq

end Move

/-! ## § Ticks and movements -/

/-- An intent for a wall is given up, and no step is made. -/
theorem Body.advance_of_wall {b : Body} {world : World} {c : Cell} (hasked : b.intent.map Intent.target = some c)
    (hwall : world.isWalkable c = false) (dt tilesPerSecond : Float32) :
    b.advance world dt tilesPerSecond = (false, b.stop) := by
  obtain ⟨intent, hintent, rfl⟩ := Option.map_eq_some_iff.mp hasked
  simp [Body.advance, hintent, hwall]

/-- **`Stride`** — a tick of a move, with what it was given and what it left behind, and whether the movement after it
made a step. -/
structure Stride where
  before : Situation
  status : Status
  after : Situation
  moved : Bool

namespace Stride

/-- The tick is running and has asked for this cell. -/
def AsksFor (stride : Stride) (c : Cell) : Prop :=
  stride.status = .running ∧ stride.after.asked? = some c

/-- **`Stride.Made`** — one tick and one movement in a world with these free cells. Until the next tick all may change
but the active path and the agent's place. -/
inductive Made (free : Cell → Bool) : Move Empty × Situation → Stride → Move Empty × Situation → Prop
  | intro {m m' : Move Empty} {s s' t : Situation} {status : Status} (dt tilesPerSecond : Float32)
      (world : s.world.isWalkable = free) (ticked : m.tick .none s = (status, m', s'))
      (path : t.board.path = s'.board.path)
      (place : t.body.cell = (s'.body.advance s.world dt tilesPerSecond).2.cell) :
      Made free (m, s) ⟨s, status, s', (s'.body.advance s.world dt tilesPerSecond).1⟩ (m', t)

/-- A tick and a movement with nothing else after them. -/
def frame (dt tilesPerSecond : Float32) (at₀ : Move Empty × Situation) : Stride × Move Empty × Situation :=
  let (status, m, s) := at₀.1.tick .none at₀.2
  let (moved, body) := s.body.advance at₀.2.world dt tilesPerSecond
  (⟨at₀.2, status, s, moved⟩, m, { s with body })

variable {free : Cell → Bool} {waypoints : List Cell} {at₀ at₁ : Move Empty × Situation} {stride : Stride} {c : Cell}

theorem made_frame (dt tilesPerSecond : Float32) (h : at₀.2.world.isWalkable = free) :
    Made free at₀ (frame dt tilesPerSecond at₀).1 (frame dt tilesPerSecond at₀).2 :=
  .intro dt tilesPerSecond h rfl rfl rfl

theorem Made.before_eq (h : Made free at₀ stride at₁) : stride.before = at₀.2 := by
  cases h
  rfl

/-- The agent stays on free cells. -/
theorem Made.standing (h : Made free at₀ stride at₁) (hfree : free at₀.2.body.cell = true) :
    free at₁.2.body.cell = true := by
  cases h with
  | @intro m m' s s' t status dt tilesPerSecond hworld hticked _ hplace =>
    show free t.body.cell = true
    rw [hplace]
    rcases hadvanced : s'.body.advance s.world dt tilesPerSecond with ⟨moved, body⟩
    rcases Body.advance_cases hadvanced with ⟨-, hstay⟩ | ⟨-, -, hstep, -⟩
    · rw [hstay, Move.cell_tick hticked]
      exact hfree
    · rw [← hworld]
      exact hstep

/-- **`Stride.Made.asks`** — a stride keeps the bound, and if its tick is running, it has asked for a cell that is free
or a waypoint. -/
theorem Made.asks (h : Made free at₀ stride at₁) (hbound : at₀.1.Bound free waypoints at₀.2) :
    at₁.1.Bound free waypoints at₁.2 ∧
      (stride.status = .running → ∃ c, stride.AsksFor c ∧ (free c = true ∨ c ∈ waypoints)) := by
  cases h with
  | @intro m m' s s' t status dt tilesPerSecond hworld hticked hpath _ =>
    obtain ⟨hbound', hrunning⟩ := hbound.tick hworld hticked
    refine ⟨⟨hbound'.waypoints_eq, hpath ▸ hbound'.left⟩, fun hrun => ?_⟩
    obtain ⟨c, hasked, hfree, -⟩ := hrunning hrun
    exact ⟨c, ⟨hrun, hasked⟩, hfree⟩

/-- **`Stride.Made.stays`** — who has asked for a wall makes no step, and heads for it still. -/
theorem Made.stays (h : Made free at₀ stride at₁) (hbound : at₀.1.Bound free waypoints at₀.2) (hasks : stride.AsksFor c)
    (hwall : free c = false) :
    stride.moved = false ∧ at₁.1.Heads c at₁.2 ∧ at₁.2.body.cell = stride.before.body.cell := by
  cases h with
  | @intro m m' s s' t status dt tilesPerSecond hworld hticked hpath hplace =>
    obtain ⟨hrun, hasked⟩ := hasks
    obtain ⟨d, hasked', -, hheads⟩ := (hbound.tick hworld hticked).2 hrun
    obtain rfl : d = c := Option.some.inj (hasked'.symm.trans hasked)
    obtain ⟨provider, path, hgoal, hactive, hnext⟩ := hheads hwall
    have hadvanced := Body.advance_of_wall hasked (hworld ▸ hwall : s.world.isWalkable d = false) dt tilesPerSecond
    refine ⟨congrArg Prod.fst hadvanced, ⟨provider, path, hgoal, hpath.trans hactive, hnext⟩, ?_⟩
    show t.body.cell = s.body.cell
    rw [hplace, hadvanced]
    exact Move.cell_tick hticked

/-- **`Stride.Made.again`** — who heads for a wall asks for it. -/
theorem Made.again (h : Made free at₀ stride at₁) (hheads : at₀.1.Heads c at₀.2)
    (hfree : free at₀.2.body.cell = true) (hwall : free c = false) : stride.AsksFor c := by
  have haway : at₀.2.body.cell ≠ c := fun hcell => by simp [hcell, hwall] at hfree
  cases h with
  | intro _ _ _ hticked => exact hheads.tick haway hticked

/-- **`Stride.Stuck`** — what is left of the strides for walls: the move heads for the wall, and the agent has not
moved. -/
def Stuck (free : Cell → Bool) (strides : List Stride) (at₀ : Move Empty × Situation) : Prop :=
  ∀ earlier ∈ strides, ∀ c, earlier.AsksFor c → free c = false →
    at₀.1.Heads c at₀.2 ∧ at₀.2.body.cell = earlier.before.body.cell

/-- After one stride more, those who were stuck are stuck, and so is who has asked for a wall now. -/
theorem Made.stuck {strides : List Stride} (h : Made free at₀ stride at₁)
    (hbound : at₀.1.Bound free waypoints at₀.2) (hfree : free at₀.2.body.cell = true)
    (hstuck : Stuck free strides at₀) : Stuck free (strides ++ [stride]) at₁ := by
  intro earlier hmem c hasked hwall
  rcases List.mem_append.mp hmem with hold | hnew
  · obtain ⟨hheads, hcell⟩ := hstuck earlier hold c hasked hwall
    obtain ⟨-, hheads', hstays⟩ := h.stays hbound (h.again hheads hfree hwall) hwall
    exact ⟨hheads', hstays.trans (h.before_eq ▸ hcell)⟩
  · obtain rfl := List.mem_singleton.mp hnew
    exact (h.stays hbound hasked hwall).2

end Stride

/-! ## § Any number of strides -/

/-- **`MoveSettings.dead_ends`** — an agent that starts without a path on a free cell. In every tick in which its move
is running it has asked for a cell, and this one is free, or the move is a patrol and it is one of the waypoints. Who
has asked for a wall makes no step, and in all ticks from then on the move is running, has asked for the same wall, and
the agent is where it was. -/
theorem MoveSettings.dead_ends (p : MoveSettings) {free : Cell → Bool} {start : Situation}
    (hstart : start.board.path = none) (hfree : free start.body.cell = true) {strides : List Stride}
    {last : Move Empty × Situation} (h : Steps (Stride.Made free) (p.move, start) strides last) :
    ∀ before stride after, strides = before ++ stride :: after →
      (stride.status = .running → ∃ c, stride.AsksFor c ∧
        (free c = true ∨ p.toward = none ∧ p.mode ≠ .randomAdjacent ∧ c ∈ p.waypoints)) ∧
      (∀ c, stride.AsksFor c → free c = false → stride.moved = false) ∧
      (∀ earlier ∈ before, ∀ c, earlier.AsksFor c → free c = false →
        stride.AsksFor c ∧ stride.before.body.cell = earlier.before.body.cell) := by
  refine (h.each (fun strides at₀ => at₀.1.Bound free (p.move : Move Empty).waypoints at₀.2 ∧
    free at₀.2.body.cell = true ∧ Stride.Stuck free strides at₀) ?_ ?_).2
  · have hbound : Move.Bound free (p.move : Move Empty).waypoints p.move start :=
      ⟨rfl, fun path hpath => absurd (hpath.symm.trans hstart) (Option.some_ne_none path)⟩
    have hstuck : Stride.Stuck free [] (p.move, start) := fun earlier hmem => absurd hmem List.not_mem_nil
    exact ⟨hbound, hfree, hstuck⟩
  · rintro before stride at₀ at₁ - ⟨hbound, hstanding, hstuck⟩ hmade
    obtain ⟨hbound', hrunning⟩ := hmade.asks hbound
    refine ⟨⟨?_, ?_, ?_⟩, hbound', hmade.standing hstanding, hmade.stuck hbound hstanding hstuck⟩
    · simpa only [mem_waypoints] using hrunning
    · exact fun c hasks hwall => (hmade.stays hbound hasks hwall).1
    · intro earlier hmem c hasked hwall
      obtain ⟨hheads, hcell⟩ := hstuck earlier hmem c hasked hwall
      exact ⟨hmade.again hheads hstanding hwall, hmade.before_eq ▸ hcell⟩

/-! ## § A post in the wall -/

/-- Three cells in a row, the last one of which is a wall. -/
def Situation.blindAlley : Situation where
  world := ({ width := 3, height := 1, walls := [2] } : Grid).world
  body := { cell := ⟨0, 0⟩, rng := ⟨7⟩ }

/-- A patrol whose only waypoint is this wall. -/
def MoveSettings.walledPost : MoveSettings :=
  { mode := .patrol, waypoints := [⟨2, 0⟩] }

/-- The first tick is running and has asked for the wall, and for no cell that is free. -/
theorem MoveSettings.walledPost_asks_for_wall :
    Situation.blindAlley.board.path = none ∧
      Situation.blindAlley.world.isWalkable Situation.blindAlley.body.cell = true ∧
      ∃ stride last, Stride.Made Situation.blindAlley.world.isWalkable (walledPost.move, .blindAlley) stride last ∧
        stride.status = .running ∧
        ¬∃ c, stride.AsksFor c ∧ Situation.blindAlley.world.isWalkable c = true := by
  refine ⟨rfl, rfl, _, _, Stride.made_frame 1 4 rfl, rfl, ?_⟩
  rintro ⟨c, ⟨-, hasked⟩, hfree⟩
  obtain rfl : ⟨2, 0⟩ = c := Option.some.inj hasked
  cases hfree

/-- The frame after that does the same again, and the agent has not left its place. -/
theorem MoveSettings.walledPost_dead_end :
    ∃ first second last,
      Steps (Stride.Made Situation.blindAlley.world.isWalkable) (walledPost.move, .blindAlley) [first, second] last ∧
      (first.AsksFor ⟨2, 0⟩ ∧ Situation.blindAlley.world.isWalkable ⟨2, 0⟩ = false) ∧
      second.AsksFor ⟨2, 0⟩ ∧ second.moved = false ∧ second.before.body.cell = ⟨0, 0⟩ := by
  have hstart : Steps (Stride.Made Situation.blindAlley.world.isWalkable) (walledPost.move, .blindAlley) [] _ := .nil
  have htwice := (hstart.snoc (Stride.made_frame 1 4 rfl)).snoc (Stride.made_frame 1 4 rfl)
  obtain ⟨-, hstays, hagain⟩ := walledPost.dead_ends rfl rfl htwice [_] _ [] rfl
  have hasks : (Stride.frame 1 4 (walledPost.move, .blindAlley)).1.AsksFor ⟨2, 0⟩ := ⟨rfl, rfl⟩
  obtain ⟨hasks', hcell⟩ := hagain _ (List.mem_singleton_self _) ⟨2, 0⟩ hasks rfl
  exact ⟨_, _, _, htwice, ⟨hasks, rfl⟩, hasks', hstays _ hasks' rfl, hcell⟩

end BehaviorTree
