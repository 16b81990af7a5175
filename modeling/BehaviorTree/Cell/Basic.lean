/-
# BehaviorTree.Cell.Basic — cells of the grid

Agents, the player and noises are at cells, given by two whole coordinates; `x` grows to the east and
`y` to the south. A bearing is an angle in degrees, counted from east towards south.
-/
import BehaviorTree.Numeric.Single
import BehaviorTree.Text.Quoted

namespace BehaviorTree

/-- A cell of the grid. -/
structure Cell where
  x : Int
  y : Int
  deriving DecidableEq, Inhabited

namespace Cell

/-! ## § Calculating with coordinates

Coordinates are calculated with as signed words of 32 bits, and what becomes too large goes around. -/

/-- How far the other cell is to the east. -/
def eastward (a b : Cell) : Int32 :=
  .ofInt b.x - .ofInt a.x

/-- How far the other cell is to the south. -/
def southward (a b : Cell) : Int32 :=
  .ofInt b.y - .ofInt a.y

/-- The number of steps along the axes from one cell to the other. -/
def manhattan (a b : Cell) : Int :=
  ((b.eastward a).abs + (b.southward a).abs).toInt

/-- The cell so many columns and rows away. -/
def offset (c : Cell) (dx dy : Int) : Cell :=
  ⟨(Int32.ofInt c.x + .ofInt dx).toInt, (Int32.ofInt c.y + .ofInt dy).toInt⟩

/-- The direction from one cell to the other, in degrees. -/
def bearing (a b : Cell) : Float32 :=
  Numeric.degrees
    (Float32.atan2 (Float32.ofInt (a.southward b).toInt) (Float32.ofInt (a.eastward b).toInt))

/-- The number of steps as a cost. -/
def steps (a b : Cell) : Float32 :=
  Float32.ofInt (a.manhattan b)

/-! ## § Order and texts -/

/-- Cells are ordered by column, then by row. -/
def order (a b : Cell) : Ordering :=
  (compare a.x b.x).then (compare a.y b.y)

/-- A cell as messages write it. -/
def text (c : Cell) : String :=
  "(" ++ toString c.x ++ ", " ++ toString c.y ++ ")"

/-- A cell as a debug line shows it. -/
def debug (c : Cell) : String :=
  Text.fields "Cell" [("x", toString c.x), ("y", toString c.y)]

/-- A cell that may be missing, as a debug line shows it. -/
def debugOptional (c : Option Cell) : String :=
  Text.optional (c.map debug)

end Cell

end BehaviorTree
