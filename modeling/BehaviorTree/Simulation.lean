/-
# BehaviorTree.Simulation — an agent in a scenario, frame by frame

In every frame time passes, the timeline is brought up to date, the controller runs the tree, and the
agent moves. `Simulation.step` makes one frame and reports what it looked like in the end;
`Simulation.run` makes many. The summary counts the frames by their answers.
-/
import BehaviorTree.Controller.Basic
import BehaviorTree.Leaf.BuiltIn
import BehaviorTree.Scenario.Basic

namespace BehaviorTree

/-- What a frame looked like in the end. -/
structure FrameReport where
  frame : Nat
  time : Float32
  status : Status
  cell : Cell
  facing : Float32
  /-- The player, if it is seen right now. -/
  seen : Option Cell
  /-- The noise that is remembered. -/
  heard : Option Cell

/-- The entry of a frame in the journal. -/
def FrameReport.entry (r : FrameReport) : Entry :=
  .frameEnded r.frame r.status r.cell r.facing r.seen r.heard

/-- What has happened so far. -/
structure Summary where
  frames : Nat := 0
  running : Nat := 0
  success : Nat := 0
  failure : Nat := 0
  cellsMoved : Nat := 0
  framesSeeingPlayer : Nat := 0
  finalStatus : Option Status := none
  finalCell : Option Cell := none
  deriving DecidableEq

/-- Counts a frame. -/
def Summary.record (m : Summary) (r : FrameReport) (moved : Bool) : Summary where
  frames := m.frames + 1
  running := m.running + if r.status = .running then 1 else 0
  success := m.success + if r.status = .success then 1 else 0
  failure := m.failure + if r.status = .failure then 1 else 0
  cellsMoved := m.cellsMoved + if moved then 1 else 0
  framesSeeingPlayer := m.framesSeeingPlayer + if r.seen.isSome then 1 else 0
  finalStatus := some r.status
  finalCell := some r.cell

/-- An agent in a scenario. The grid is kept beside the situation, whose world is the grid as it is in
the current frame. -/
structure Simulation (α κ : Type) where
  scenario : Scenario
  grid : Grid
  controller : Controller α κ Sensor
  situation : Situation
  time : Float32 := 0
  summary : Summary := {}

namespace Simulation

variable {α κ : Type}

/-- A simulation at its beginning. Trace events go to the log. -/
def create (scenario : Scenario) (root : Node α κ) (seed : UInt64) (journal : Journal := []) :
    Except ScenarioError (Simulation α κ) := do
  let grid ← scenario.grid
  let body : Body :=
    { cell := scenario.agent, facing := scenario.facing, rng := ⟨Random.deriveSeed seed 0⟩ }
  return {
    scenario
    grid
    controller := .ofSettings root scenario.controller
    situation := {
      world := grid.world
      body
      board := ({} : Blackboard).installSink (.log "agent-0")
      journal } }

/-- Lets time pass, and brings the player and the noise to where they are then. -/
def pass (m : Simulation α κ) (dt : Float32) : Simulation α κ :=
  let time := m.time + dt
  let grid := { m.grid.advance dt with
    player := m.scenario.playerAt time, noise := m.scenario.noiseAt time }
  { m with time, grid, situation := { m.situation with world := grid.world } }

/-- What the current frame looks like. -/
def look (m : Simulation α κ) (status : Status) : FrameReport where
  frame := m.controller.frame
  time := m.time
  status
  cell := m.situation.body.cell
  facing := m.situation.body.facing
  seen := m.situation.board.seen.recent 0
  heard := m.situation.board.heard.cell

/-- **`Simulation.step`** — makes one frame. -/
def step (kit : Leaves α κ Situation Fault) (m : Simulation α κ) (dt : Float32) :
    Except Fault (FrameReport × Simulation α κ) :=
  let m := m.pass dt
  match m.controller.tick kit .builtIn dt m.situation with
  | (.error fault, _, _) => .error fault
  | (.ok status, controller, situation) =>
    let (moved, body) := situation.body.advance m.grid.world dt m.scenario.tilesPerSecond
    let m := { m with controller, situation := { situation with body } }
    let report := m.look status
    .ok (report, { m with
      situation := m.situation.tell report.entry
      summary := m.summary.record report moved })

/-- **`Simulation.run`** — makes so many frames. -/
def run (kit : Leaves α κ Situation Fault) (dt : Float32) :
    Nat → Simulation α κ → Except Fault (Simulation α κ)
  | 0, m => .ok m
  | frames + 1, m =>
    match m.step kit dt with
    | .error fault => .error fault
    | .ok (_, m) => run kit dt frames m

/-- **`Simulation.reports`** — makes so many frames and keeps what each of them looked like; `before` are
the reports of earlier frames, last one first. -/
def reports (kit : Leaves α κ Situation Fault) (dt : Float32) (before : List FrameReport) :
    Nat → Simulation α κ → Except Fault (List FrameReport × Simulation α κ)
  | 0, m => .ok (before.reverse, m)
  | frames + 1, m =>
    match m.step kit dt with
    | .error fault => .error fault
    | .ok (report, m) => reports kit dt (report :: before) frames m

end Simulation

end BehaviorTree
