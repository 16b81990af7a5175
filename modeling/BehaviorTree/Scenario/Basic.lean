/-
# BehaviorTree.Scenario.Basic — what happens to one agent

A scenario is a grid with one agent, and a timeline: from certain times on the player stands at certain
cells or is hidden, and noises can be heard for a while.
-/
import BehaviorTree.Controller.Settings
import BehaviorTree.World.Grid

namespace BehaviorTree

/-- From that time on the player is at that cell, or hidden. -/
structure PlayerMove where
  since : Float32
  cell : Option Cell

/-- A noise can be heard at that cell from that time on, for that long. -/
structure Noise where
  since : Float32
  cell : Cell
  duration : Float32 := 0.5

/-- A grid with one agent, and its timeline. -/
structure Scenario where
  width : Nat
  height : Nat
  blocked : List Cell := []
  agent : Cell
  facing : Float32 := 0
  tilesPerSecond : Float32 := 4
  player : Option Cell := none
  playerMoves : List PlayerMove := []
  noises : List Noise := []
  seed : UInt64 := 0
  controller : ControllerSettings := {}

/-- Why a scenario cannot be run. -/
inductive ScenarioError where
  | grid (cause : GridError)
  /-- The agent stands in a wall or outside of the grid. -/
  | agentMisplaced (cell : Cell)

/-- The wordings of a complaint and of what is behind it, from the outside in. -/
def ScenarioError.chain : ScenarioError → List String
  | .grid cause => ["invalid scenario grid", cause.message]
  | .agentMisplaced cell =>
    ["agent start " ++ cell.text ++ " is outside the grid or blocked"]

namespace Scenario

/-- The grid at the beginning. -/
def grid (c : Scenario) : Except ScenarioError Grid :=
  match Grid.create c.width c.height with
  | .error cause => .error (.grid cause)
  | .ok g =>
    let g := c.blocked.foldl (fun g cell => g.setBlocked cell true) g
    .ok { g with player := c.player }

/-- Whether the scenario can be run. -/
def validate (c : Scenario) : Except ScenarioError Unit := do
  let g ← c.grid
  if g.isBlocked c.agent then throw (.agentMisplaced c.agent)

/-! ## § The timeline -/

/-- The last of the moves in the order of their times; of moves at the same time the one that is listed
last. -/
def latest : List PlayerMove → Option PlayerMove
  | [] => none
  | m :: rest =>
    match latest rest with
    | none => some m
    | some best =>
      if Numeric.totalKey best.since < Numeric.totalKey m.since then some m else some best

/-- Where the player is at a time. -/
def playerAt (c : Scenario) (time : Float32) : Option Cell :=
  match latest (c.playerMoves.filter fun m => m.since ≤ time) with
  | some m => m.cell
  | none => c.player

/-- Where a noise can be heard at a time; of several noises the one that is listed last. -/
def noiseAt (c : Scenario) (time : Float32) : Option Cell :=
  (c.noises.filter fun n => n.since ≤ time && time < n.since + n.duration).getLast?.map Noise.cell

end Scenario

end BehaviorTree
