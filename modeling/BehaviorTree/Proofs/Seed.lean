/-
# BehaviorTree.Proofs.Seed — what the seed of a run can change

The seed of a simulation goes into the random stream of the agent and nowhere else. A tree none of whose
actions draws (`Action.Seedless`) can therefore not tell one seed from another: no scan begins at a random
angle, and no move asks a provider that wanders about. That is so although a provider that wanders may be
part of the tree: on patrol with waypoints there is always a next one, and nobody asks what to do without.

Two simulations of such a tree run side by side (`Simulation.Reseeded`). After any frames they have made the
same reports, and they still differ in the random stream alone (`Simulation.play_seedless`).
-/
import BehaviorTree.Proofs.Faultless
import BehaviorTree.Proofs.Grammar
import BehaviorTree.Proofs.Lookalike
import BehaviorTree.Proofs.Movement

namespace BehaviorTree

variable {χ : Type}

/-! ## § Situations that differ in the stream -/

/-- The body with another random stream. -/
def Body.withRng (b : Body) (rng : Random.SplitMix) : Body :=
  { b with rng }

namespace Situation

/-- The situation with another random stream. -/
def withRng (s : Situation) (rng : Random.SplitMix) : Situation :=
  { s with body := s.body.withRng rng }

/-- **`Situation.Reseeded`** — the situations differ in the random stream at most. -/
def Reseeded (s t : Situation) : Prop :=
  ∃ rng, t = s.withRng rng

/-- Such situations look alike. -/
theorem reseeded_lookalike : Lookalike Reseeded where
  tell := by
    rintro s _ entry ⟨rng, rfl⟩
    exact ⟨rng, rfl⟩
  emit := by
    rintro s _ event ⟨rng, rfl⟩
    have hslots : ((s.withRng rng).note event.text).board.slots = (s.note event.text).board.slots := rfl
    unfold emit
    dsimp only
    rw [hslots]
    split <;> exact ⟨rfl, rng, rfl⟩
  world := by
    rintro s _ ⟨rng, rfl⟩
    rfl
  cell := by
    rintro s _ ⟨rng, rfl⟩
    rfl
  facing := by
    rintro s _ ⟨rng, rfl⟩
    rfl
  seen := by
    rintro s _ ⟨rng, rfl⟩
    rfl
  heard := by
    rintro s _ ⟨rng, rfl⟩
    rfl
  path := by
    rintro s _ ⟨rng, rfl⟩
    rfl
  request := by
    rintro s _ target speed ⟨rng, rfl⟩
    exact ⟨rng, rfl⟩
  aim := by
    rintro s _ cell ⟨rng, rfl⟩
    exact ⟨rng, rfl⟩
  face := by
    rintro s _ degrees ⟨rng, rfl⟩
    exact ⟨rng, rfl⟩
  note := by
    rintro s _ text ⟨rng, rfl⟩
    exact ⟨rng, rfl⟩
  setSeen := by
    rintro s _ seen ⟨rng, rfl⟩
    exact ⟨rng, rfl⟩
  setHeard := by
    rintro s _ heard ⟨rng, rfl⟩
    exact ⟨rng, rfl⟩
  setPath := by
    rintro s _ path ⟨rng, rfl⟩
    exact ⟨rng, rfl⟩

end Situation

/-! ## § Actions that do not draw -/

/-- **`Provider.Drawless`** — a patrol, or something that is asked only if a patrol with a next waypoint has
none. -/
inductive Provider.Drawless : Provider χ → Prop
  | patrol (waypoints : List Cell) (cursor : Nat) : Drawless (.patrol waypoints cursor)
  | fallback {waypoints : List Cell} {cursor : Nat} (second : Provider χ) :
      cursor < waypoints.length → Drawless (.fallback (.patrol waypoints cursor) second)

/-- What such a provider answers does not depend on the situation, and the situation stays as it is. -/
theorem Provider.Drawless.next {p : Provider χ} (h : p.Drawless) (host : HostProviders χ) :
    ∃ path p', Drawless p' ∧ ∀ s, p.next host s = (path, p', s) := by
  cases h with
  | patrol waypoints cursor =>
    cases htarget : waypoints[cursor]? with
    | none => exact ⟨none, _, .patrol waypoints cursor, fun s => by simp only [Provider.next, htarget]⟩
    | some target =>
      exact ⟨some [target], _, .patrol waypoints ((cursor + 1) % waypoints.length),
        fun s => by simp only [Provider.next, htarget]⟩
  | @fallback waypoints cursor second hcursor =>
    have hnext : (cursor + 1) % waypoints.length < waypoints.length := Nat.mod_lt _ (by omega)
    refine ⟨some [waypoints[cursor]], _, .fallback second hnext, ?_⟩
    intro s
    simp only [Provider.next, List.getElem?_eq_getElem hcursor]

/-- **`Action.Seedless`** — the actions that draw nothing: listening, looking, a scan unless it turns from a
random start, and a move to a remembered cell, on patrol, or on patrol with waypoints and else at random. -/
inductive Action.Seedless : Action χ → Prop
  | listen (timer : Timer) : Seedless (.listen timer)
  | look (look : Look) : Seedless (.look look)
  | scan {scan : Scan} : ¬(scan.settings.rotate = true ∧ scan.settings.randomStart = true) →
      Seedless (.scan scan)
  | move {p : MoveSettings} :
      (p.toward = none → p.mode ≠ .randomAdjacent ∧ ¬(p.mode = .patrolOrRandom ∧ p.waypoints = [])) →
      Seedless (.move p.move)

/-- Providers that are the same and draw nothing. -/
def Provider.SameDrawless (p q : Provider χ) : Prop :=
  p = q ∧ p.Drawless

/-- Such an action does the same whatever the stream is. -/
theorem Action.Seedless.alike {a : Action χ} (h : a.Seedless) :
    a.Alike Situation.Reseeded Provider.SameDrawless a := by
  cases h with
  | listen timer => exact .listen timer
  | look l => exact .look l
  | scan hscan => exact .scan (Or.inr hscan)
  | @move p hmove =>
    obtain ⟨speed, toward, mode, waypoints⟩ := p
    match toward with
    | some .lastSeen => exact .lastSeen speed
    | some .lastHeard => exact .lastHeard speed
    | none =>
      obtain ⟨hmode, hwaypoints⟩ := hmove rfl
      cases mode with
      | randomAdjacent => exact absurd rfl hmode
      | patrol => exact .paths speed ⟨rfl, .patrol waypoints 0⟩
      | patrolOrRandom =>
        have hsome : waypoints ≠ [] := fun hnone => hwaypoints ⟨rfl, hnone⟩
        exact .paths speed ⟨rfl, .fallback _ (List.length_pos_iff.mpr hsome)⟩

/-- The library's leaves do the same in situations that differ in the stream, if they draw nothing. -/
theorem Leaves.builtIn_reseeded {φ : Type} (host : HostProviders χ) :
    (builtIn host : Leaves _ _ _ φ).Coupled (builtIn host)
      (Action.Alike Situation.Reseeded Provider.SameDrawless) Situation.Reseeded := by
  refine builtIn_coupled Situation.reseeded_lookalike ?_
  rintro p _ s t ⟨rfl, hdrawless⟩ hs
  obtain ⟨path, p', hdrawless', hnext⟩ := hdrawless.next host
  rw [hnext, hnext]
  exact ⟨rfl, ⟨rfl, hdrawless'⟩, hs⟩

/-! ## § Movements -/

namespace Body

variable {b : Body} {world : World} (rng : Random.SplitMix)

theorem step_withRng (target : Cell) :
    (b.withRng rng).step world target =
      ((b.step world target).1, (b.step world target).2.withRng rng) := by
  unfold step
  rw [show (b.withRng rng).steps target = b.steps target from rfl,
    show (b.withRng rng).cell = b.cell from rfl]
  split
  · rfl
  · dsimp only
    split <;> rfl

/-- A body moves the same whatever its stream is. -/
theorem advance_withRng (dt tilesPerSecond : Float32) :
    (b.withRng rng).advance world dt tilesPerSecond =
      ((b.advance world dt tilesPerSecond).1, (b.advance world dt tilesPerSecond).2.withRng rng) := by
  unfold advance
  rw [show (b.withRng rng).intent = b.intent from rfl, show (b.withRng rng).cell = b.cell from rfl,
    show (b.withRng rng).progress = b.progress from rfl]
  cases b.intent with
  | none => rfl
  | some intent =>
    dsimp only
    split
    · rfl
    · split
      · rfl
      · exact step_withRng (b := { b with intent := some intent, progress := _ }) rng intent.target

end Body

/-! ## § Simulations -/

namespace Simulation

variable {α κ : Type}

/-- **`Simulation.play`** — frames of these times, one after the other: what each of them looked like in the
end, and the simulation after them. -/
def play (kit : Leaves α κ Situation Fault) :
    List Float32 → Simulation α κ → Except Fault (List FrameReport × Simulation α κ)
  | [], m => .ok ([], m)
  | dt :: dts, m =>
    match m.step kit dt with
    | .error fault => .error fault
    | .ok (report, m) =>
      match play kit dts m with
      | .error fault => .error fault
      | .ok (reports, m) => .ok (report :: reports, m)

/-- The simulation with another random stream. -/
def withRng (m : Simulation α κ) (rng : Random.SplitMix) : Simulation α κ :=
  { m with situation := m.situation.withRng rng }

/-- The end of a frame is the same whatever the stream is. -/
theorem finish_withRng (m : Simulation α κ) (dt : Float32) (status : Status)
    (c : Controller α κ Sensor) (s : Situation) (rng rng' : Random.SplitMix) :
    (m.withRng rng).finish dt status c (s.withRng rng') =
      ((m.finish dt status c s).1, (m.finish dt status c s).2.withRng rng') := by
  unfold finish
  rw [show (s.withRng rng').body = s.body.withRng rng' from rfl, Body.advance_withRng]
  rfl

/-- The simulations differ in the random stream at most, and no action of their trees draws. -/
structure Reseeded (m m' : Simulation (Action χ) Condition) : Prop where
  same : ∃ rng, m' = m.withRng rng
  drawless : m.controller.Coupled (Action.Alike Situation.Reseeded Provider.SameDrawless) m.controller
  traceable : m.situation.Traceable

/-- **`Simulation.Reseeded.step`** — a frame returns the same report on both sides, and they differ in the
stream at most after it too. -/
theorem Reseeded.step {m m' : Simulation (Action Empty) Condition} (h : m.Reseeded m') (dt : Float32) :
    ∃ report n n', m.step (.builtIn .none) dt = .ok (report, n) ∧
      m'.step (.builtIn .none) dt = .ok (report, n') ∧ n.Reseeded n' := by
  obtain ⟨⟨rng, rfl⟩, hdrawless, htraceable⟩ := h
  have hS := Situation.reseeded_lookalike
  have hpassed : (m.pass dt).situation.Reseeded ((m.withRng rng).pass dt).situation := ⟨rng, rfl⟩
  have htick := Controller.Coupled.tick (Leaves.builtIn_reseeded .none) (Senses.builtIn_alike hS)
    hS.toReportable hdrawless dt hpassed
  obtain ⟨status, c, s, hs, hkept⟩ :=
    m.controller.builtIn_tick_returns (s := (m.pass dt).situation) htraceable dt
  rcases ht : m.controller.tick (.builtIn .none) .builtIn dt ((m.withRng rng).pass dt).situation with
    ⟨answer, d, t⟩
  rw [hs, ht] at htick
  obtain ⟨hanswer, hcoupled, rng', hreseeded⟩ := htick
  obtain rfl : Except.ok status = answer := hanswer
  obtain rfl : c = d := hcoupled.eq fun _ _ => Action.Alike.eq fun _ _ hsame => hsame.1
  obtain rfl : t = s.withRng rng' := hreseeded
  rcases hfinish : m.finish dt status c s with ⟨report, n⟩
  have hfinish' : (report, n.withRng rng') = (m.withRng rng).finish dt status c (s.withRng rng') := by
    rw [finish_withRng, hfinish]
  refine ⟨report, n, n.withRng rng', step_eq_ok_iff.mpr ⟨status, c, s, hs, hfinish.symm⟩,
    step_eq_ok_iff.mpr ⟨status, c, s.withRng rng', ht, hfinish'⟩, ⟨rng', rfl⟩, ?_, ?_⟩
  · cases hfinish
    exact hcoupled
  · cases hfinish
    exact Situation.Traceable.kept htraceable hkept

/-- Many frames. -/
theorem Reseeded.play {m m' : Simulation (Action Empty) Condition} (h : m.Reseeded m')
    (dts : List Float32) :
    ∃ reports n n', m.play (.builtIn .none) dts = .ok (reports, n) ∧
      m'.play (.builtIn .none) dts = .ok (reports, n') ∧ n.Reseeded n' := by
  induction dts generalizing m m' with
  | nil => exact ⟨[], m, m', rfl, rfl, h⟩
  | cons dt dts ih =>
    obtain ⟨report, m₁, m₁', hstep, hstep', h₁⟩ := h.step dt
    obtain ⟨reports, n, n', hplay, hplay', h'⟩ := ih h₁
    refine ⟨report :: reports, n, n', ?_, ?_, h'⟩
    · simp only [Simulation.play, hstep, hplay]
    · simp only [Simulation.play, hstep', hplay']

/-- Whether a scenario is refused does not depend on the seed. -/
theorem create_error {scenario : Scenario} {root : Node α κ} {seed : UInt64} {journal : Journal}
    {error : ScenarioError} (h : create scenario root seed journal = .error error) (seed' : UInt64) :
    create scenario root seed' journal = .error error := by
  rcases hgrid : scenario.grid with cause | grid <;>
    simp only [create, hgrid, bind, Except.bind, pure, Except.pure] at h ⊢
  · exact h
  · cases h

/-- The simulation of a scenario with another seed is the same one with another stream. -/
theorem create_ok {scenario : Scenario} {root : Node α κ} {seed : UInt64} {journal : Journal}
    {m : Simulation α κ} (h : create scenario root seed journal = .ok m) :
    (∀ seed', create scenario root seed' journal = .ok (m.withRng ⟨Random.deriveSeed seed' 0⟩)) ∧
      m.controller = .ofSettings root scenario.controller ∧
      m.situation.board = ({} : Blackboard).installSink (.log "agent-0") := by
  rcases hgrid : scenario.grid with cause | grid <;>
    simp only [create, hgrid, bind, Except.bind, pure, Except.pure] at h ⊢
  · cases h
  · obtain rfl := Except.ok.inj h
    exact ⟨fun _ => rfl, rfl, rfl⟩

/-- **`Simulation.play_seedless`** — the seed matters only through random leaves. Take any scenario and any
tree with no scan that turns from a random start and no move along paths that asks for random neighbours,
neither always nor for lack of waypoints. With two seeds the scenario is refused with the same error, or it
makes two simulations which return the same reports for all frames of any times, and never a fault; in the
end they have the same summary, and they differ in nothing but the random stream. -/
theorem play_seedless {root : Node (Action Empty) Condition} (hroot : root.EveryAction Action.Seedless)
    (scenario : Scenario) (seed seed' : UInt64) (journal : Journal) :
    (∃ error, create scenario root seed journal = .error error ∧
        create scenario root seed' journal = .error error) ∨
      ∃ m m', create scenario root seed journal = .ok m ∧ create scenario root seed' journal = .ok m' ∧
        ∀ dts, ∃ reports n n', m.play (.builtIn .none) dts = .ok (reports, n) ∧
          m'.play (.builtIn .none) dts = .ok (reports, n') ∧ n'.summary = n.summary ∧
          ∃ rng, n' = n.withRng rng := by
  rcases hcreate : create scenario root seed journal with error | m
  · left
    exact ⟨error, rfl, create_error hcreate seed'⟩
  · right
    obtain ⟨hcreate', hcontroller, hboard⟩ := create_ok hcreate
    refine ⟨m, m.withRng ⟨Random.deriveSeed seed' 0⟩, rfl, hcreate' seed', ?_⟩
    have hreseeded : m.Reseeded (m.withRng ⟨Random.deriveSeed seed' 0⟩) := by
      refine ⟨⟨_, rfl⟩, ?_, ⟨some (.log "agent-0"), by rw [hboard]; rfl⟩⟩
      rw [hcontroller]
      exact ⟨root, .self (hroot.imp fun _ h n hn => (h n hn).alike), rfl⟩
    intro dts
    obtain ⟨reports, n, n', hplay, hplay', ⟨rng, rfl⟩, -, -⟩ := hreseeded.play dts
    exact ⟨reports, n, n.withRng rng, hplay, hplay', rfl, rng, rfl⟩

/-- A lookout that turns around and then walks from post to post. -/
def lookout : Json :=
  .object [("root", .object
    [("children", .array
      [.object
        [("name", .text "scan"),
          ("params", .object [("random_start", .bool false), ("rotate", .bool true)]),
          ("type", .text "action")],
        .object
          [("name", .text "move"),
            ("params", .object
              [("mode", .text "patrolOrRandom"),
                ("waypoints", .array [Cell.encode ⟨2, 1⟩, Cell.encode ⟨0, 1⟩])]),
            ("type", .text "action")]]),
      ("type", .text "sequence")])]

/-- Its tree. -/
def lookoutTree : Node (Action Empty) Condition :=
  .sequence 0
    [.action ⟨"scan", false, .scan (.ofSettings { rotate := true, randomStart := false })⟩,
      .action ⟨"move", false, .move ⟨.paths (.fallback (.patrolling [⟨2, 1⟩, ⟨0, 1⟩]) .randomAdjacent), 1⟩⟩]

theorem lookoutTree_seedless : lookoutTree.EveryAction Action.Seedless := by
  show (Composite.sequence.node (some 0) _).EveryAction Action.Seedless
  refine Node.everyAction_composite.mpr ?_
  refine List.forall_mem_cons.mpr ⟨?_, List.forall_mem_singleton.mpr ?_⟩
  · exact Node.everyAction_action.mpr (.scan (by decide))
  · exact Node.everyAction_action.mpr
      (.move (p := { mode := .patrolOrRandom, waypoints := [⟨2, 1⟩, ⟨0, 1⟩] })
        fun _ => ⟨by decide, by decide⟩)

/-- Whatever the seed is, it turns for a quarter of a second and then goes its round. -/
theorem lookout_play :
    Node.ofDocument .builtIn lookout = .ok lookoutTree ∧ lookoutTree.EveryAction Action.Seedless ∧
      ∃ m m', create yard lookoutTree 1 [] = .ok m ∧ create yard lookoutTree 2 [] = .ok m' ∧
        m.situation.body.rng ≠ m'.situation.body.rng ∧
        ∃ reports n n', m.play (.builtIn .none) [0.25, 0.25, 0.25, 0.25] = .ok (reports, n) ∧
          m'.play (.builtIn .none) [0.25, 0.25, 0.25, 0.25] = .ok (reports, n') ∧
          n'.summary = n.summary ∧ reports.map FrameReport.cell = [⟨0, 0⟩, ⟨0, 1⟩, ⟨1, 1⟩, ⟨2, 1⟩] := by
  have hload : Node.ofDocument .builtIn lookout = .ok lookoutTree := rfl
  have hcells : ((create yard lookoutTree 1 []).toOption.bind fun m =>
      (m.play (.builtIn .none) [0.25, 0.25, 0.25, 0.25]).toOption.map fun r =>
        r.1.map FrameReport.cell) = some [⟨0, 0⟩, ⟨0, 1⟩, ⟨1, 1⟩, ⟨2, 1⟩] := by decide +kernel
  have hstreams : (create yard lookoutTree 1 []).toOption.map (·.situation.body.rng) ≠
      (create yard lookoutTree 2 []).toOption.map (·.situation.body.rng) := by decide +kernel
  rcases play_seedless lookoutTree_seedless yard 1 2 [] with ⟨error, hrefused, -⟩ | ⟨m, m', hm, hm', hplays⟩
  · cases hrefused
  · obtain ⟨reports, n, n', hplay, hplay', hsummary, -⟩ := hplays [0.25, 0.25, 0.25, 0.25]
    rw [hm] at hcells
    rw [hm, hm'] at hstreams
    refine ⟨hload, lookoutTree_seedless, m, m', hm, hm', ?_, reports, n, n', hplay, hplay', hsummary, ?_⟩
    · simpa [Except.toOption] using hstreams
    · simpa [Except.toOption, hplay] using hcells

end Simulation

end BehaviorTree
