/-
# BehaviorTree.Body — where an agent is and where it is going

A body has a place, a direction, a stream of random words and perhaps an aim. It moves towards the
target of its intent: time adds to a progress, and whenever the progress comes to a whole cell the body
makes one step, along the axis on which the target is farther away, or along the other one if a wall is
in the way.
-/
import BehaviorTree.Random.SplitMix
import BehaviorTree.World.Basic

namespace BehaviorTree

/-- Where an agent wants to go, and how fast relative to its usual speed. -/
structure Intent where
  target : Cell
  speed : Float32

/-- The agent in the world. -/
structure Body where
  cell : Cell
  facing : Float32 := 0
  rng : Random.SplitMix
  aim : Option Cell := none
  intent : Option Intent := none
  /-- The part of a step that is already made. -/
  progress : Float32 := 0
  deriving Inhabited

namespace Body

/-- Asks for a move. A new target starts the next step from the beginning. -/
def request (b : Body) (target : Cell) (speed : Float32) : Body :=
  { b with
    progress := if b.intent.map Intent.target = some target then b.progress else 0
    intent := some ⟨target, speed⟩ }

/-- Aims at a cell and turns towards it. -/
def aimAt (b : Body) (cell : Cell) : Body :=
  { b with aim := some cell, facing := if cell = b.cell then b.facing else b.cell.bearing cell }

/-- Gives the intent up. -/
def stop (b : Body) : Body :=
  { b with intent := none, progress := 0 }

/-- The cells to which a step towards the target may lead, the preferred one first. -/
def steps (b : Body) (target : Cell) : List Cell :=
  let dx := b.cell.eastward target
  let dy := b.cell.southward target
  let horizontal := b.cell.offset dx.toInt.sign 0
  let vertical := b.cell.offset 0 dy.toInt.sign
  if dy.abs ≤ dx.abs then [horizontal, vertical] else [vertical, horizontal]

/-- Makes one step towards the target; if no way is free, the intent is given up. -/
def step (b : Body) (world : World) (target : Cell) : Bool × Body :=
  match (b.steps target).find? fun c => c ≠ b.cell ∧ world.isWalkable c with
  | none => (false, b.stop)
  | some c =>
    let moved := { b with facing := b.cell.bearing c, cell := c }
    (true, if c = target then moved.stop else moved)

/-- **`Body.advance`** — lets the body move for some time, and says whether it made a step. An intent
that is reached or that has become impossible is given up. -/
def advance (b : Body) (world : World) (dt tilesPerSecond : Float32) : Bool × Body :=
  match b.intent with
  | none => (false, b)
  | some intent =>
    if intent.target = b.cell ∨ !world.isWalkable intent.target then (false, b.stop)
    else
      let progress := b.progress +
        Numeric.larger tilesPerSecond 0 * Numeric.larger intent.speed 0 * Numeric.larger dt 0
      if progress < 1 then (false, { b with progress })
      else { b with progress := progress - 1 }.step world intent.target

end Body

end BehaviorTree
