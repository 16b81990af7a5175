/-
# BehaviorTree.World.Grid — a rectangular world with walls

A grid has walls, perhaps a player and a noise, and a clock. Its cells are counted row by row, and a
wall is recorded by the number of its cell. Everything outside of the grid counts as wall. How large a
grid may be is up to the words in which its sides and its cells are counted: every conversion between
them has to succeed.

The line of sight between two cells is the line of cells that stays nearest to the straight one: a
step goes along one axis or along both, as the error that has built up demands.
-/
import BehaviorTree.Numeric.Words
import BehaviorTree.World.Basic

namespace BehaviorTree

/-- Why there is no grid of some size. -/
inductive GridError where
  | empty (width height : Nat)
  | tooLarge (width height : Nat)
  deriving DecidableEq

/-- A size as messages write it. -/
def GridError.message : GridError → String
  | .empty width height =>
    "grid must be non-empty, got " ++ toString width ++ "x" ++ toString height
  | .tooLarge width height =>
    "grid " ++ toString width ++ "x" ++ toString height ++ " has more cells than can be indexed"

/-- A rectangular world. -/
structure Grid where
  width : Nat
  height : Nat
  /-- The numbers of the cells that are walls. -/
  walls : List Nat := []
  player : Option Cell := none
  noise : Option Cell := none
  clock : Float32 := 0

namespace Grid

open Numeric (word? product? signed? places?)

/-! ## § Sizes -/

/-- The sides of a grid as signed words, and how many cells it has; nothing if one of the three is too large. -/
def measure? (width height : UInt32) : Option (Int32 × Int32 × Nat) := do
  let area ← product? width height
  let area ← signed? area
  let width ← signed? width
  let height ← signed? height
  let cells ← places? area
  return (width, height, cells)

/-- An empty grid whose sides are these words. -/
def ofWords (width height : UInt32) : Except GridError Grid :=
  if width = 0 ∨ height = 0 then .error (.empty width.toNat height.toNat)
  else
    match measure? width height with
    | none => .error (.tooLarge width.toNat height.toNat)
    | some (width, height, _) => .ok { width := width.toInt.toNat, height := height.toInt.toNat }

/-- An empty grid of some size. A side that is no word is too large. -/
def create (width height : Nat) : Except GridError Grid :=
  match word? width, word? height with
  | some width, some height => ofWords width height
  | _, _ => .error (.tooLarge width height)

/-! ## § Cells and walls -/

/-- Whether a cell belongs to the grid. -/
def contains (g : Grid) (c : Cell) : Bool :=
  0 ≤ c.x && 0 ≤ c.y && c.x < g.width && c.y < g.height

/-- The number of a cell. -/
def index? (g : Grid) (c : Cell) : Option Nat :=
  if g.contains c then some (c.y * g.width + c.x).toNat else none

/-- Whether a cell is a wall. -/
def isBlocked (g : Grid) (c : Cell) : Bool :=
  match g.index? c with
  | some i => g.walls.contains i
  | none => true

/-- Builds a wall, or tears one down. Outside of the grid nothing changes. -/
def setBlocked (g : Grid) (c : Cell) (blocked : Bool) : Grid :=
  match g.index? c with
  | some i =>
    let others := g.walls.filter (· != i)
    { g with walls := if blocked then i :: others else others }
  | none => g

/-- Lets time pass; it never runs backwards. -/
def advance (g : Grid) (dt : Float32) : Grid :=
  { g with clock := g.clock + Numeric.larger dt 0 }

/-! ## § Lines of sight -/

/-- The sizes and directions that a line keeps: `dx` columns and `dy` rows, to be walked in steps of
`sx` and `sy`. -/
structure Line where
  dx : Int
  dy : Int
  sx : Int
  sy : Int

/-- The line from one cell to the other. -/
def Line.between (a b : Cell) : Line where
  dx := (b.x - a.x).natAbs
  dy := (b.y - a.y).natAbs
  sx := if a.x < b.x then 1 else -1
  sy := if a.y < b.y then 1 else -1

/-- One step along a line. The error says by how much the cell is off the straight line; a step along
the columns is due if the error allows for it, and so is one along the rows. -/
def Line.step (l : Line) (c : Cell) (error : Int) : Cell × Int :=
  let across := -l.dy ≤ 2 * error
  let down := 2 * error ≤ l.dx
  (⟨c.x + if across then l.sx else 0, c.y + if down then l.sy else 0⟩,
    error - (if across then l.dy else 0) + (if down then l.dx else 0))

/-- Whether the line comes to its end from the current cell on, in at most `fuel` steps and without
meeting a wall. The cell from which the line starts and the one at its end may be walls. -/
def isClear (g : Grid) (l : Line) (start goal : Cell) : Nat → Cell → Int → Bool
  | 0, c, _ => c == goal
  | fuel + 1, c, error =>
    if c = goal then true
    else if c ≠ start ∧ g.isBlocked c then false
    else
      let (c, error) := l.step c error
      isClear g l start goal fuel c error

/-- Whether one cell can be seen from the other. -/
def hasLineOfSight (g : Grid) (a b : Cell) : Bool :=
  if g.contains a && g.contains b then
    let l := Line.between a b
    isClear g l a b (max l.dx l.dy).toNat a (l.dx - l.dy)
  else false

/-! ## § The grid as a world -/

/-- The cells next to a cell: north, east, south and west of it, as far as they belong to the grid. -/
def neighbors (g : Grid) (c : Cell) : List Cell :=
  [c.offset 0 (-1), c.offset 1 0, c.offset 0 1, c.offset (-1) 0].filter g.contains

/-- **`Grid.world`** — the grid as the agent's world. -/
def world (g : Grid) : World where
  isWalkable c := !g.isBlocked c
  hasLineOfSight := g.hasLineOfSight
  neighbors := g.neighbors
  seconds := g.clock
  player := g.player
  noise := g.noise

end Grid

end BehaviorTree
