/-
# BehaviorTree.Blackboard.Memory — what an agent remembers of a cell

A memory holds the cell of the last sighting (or noise) and the time since. The time keeps running when
the cell is forgotten.
-/
import BehaviorTree.Cell.Basic
import BehaviorTree.Numeric.Text

namespace BehaviorTree

/-- A remembered cell and the time since it was observed. -/
structure Memory where
  cell : Option Cell := none
  elapsed : Float32 := Numeric.infinite

namespace Memory

/-- Something has just been observed at a cell. -/
def fresh (cell : Cell) : Memory where
  cell := some cell
  elapsed := 0

/-- Time passes. -/
def age (m : Memory) (seconds : Float32) : Memory :=
  { m with elapsed := m.elapsed + seconds }

/-- The cell is forgotten. -/
def forget (m : Memory) : Memory :=
  { m with cell := none }

/-- The cell, if it was observed within that time. -/
def recent (m : Memory) (within : Float32) : Option Cell :=
  if m.elapsed ≤ within then m.cell else none

/-- A memory as a debug line shows it. -/
def debug (m : Memory) : String :=
  Text.fields "Memory"
    [("cell", Cell.debugOptional m.cell), ("elapsed", Numeric.Spelling.log.single m.elapsed)]

end Memory

end BehaviorTree
