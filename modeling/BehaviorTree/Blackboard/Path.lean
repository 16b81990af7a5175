/-
# BehaviorTree.Blackboard.Path — the path that an agent is walking

An active path has a current cell: the cursor always points into the list of its cells. So a path has
at least one cell left, and it ends by being taken away.
-/
import BehaviorTree.Cell.Basic

namespace BehaviorTree

/-- A path with its current cell. -/
structure ActivePath where
  cells : List Cell
  cursor : Nat
  cursor_lt : cursor < cells.length
  deriving DecidableEq

namespace ActivePath

/-- The path of these cells, at its beginning; there is none without cells. -/
def start? (cells : List Cell) : Option ActivePath :=
  if h : 0 < cells.length then some ⟨cells, 0, h⟩ else none

/-- The current cell. -/
def next (p : ActivePath) : Cell :=
  p.cells.get ⟨p.cursor, p.cursor_lt⟩

/-- How many cells are left, the current one included. -/
def remaining (p : ActivePath) : Nat :=
  p.cells.length - p.cursor

/-- The path with the following cell as the current one; none at the end. -/
def advance? (p : ActivePath) : Option ActivePath :=
  if h : p.cursor + 1 < p.cells.length then some ⟨p.cells, p.cursor + 1, h⟩ else none

/-- A path as a debug line shows it. -/
def debug (p : ActivePath) : String :=
  Text.fields "ActivePath"
    [("cells", Text.bracketed "[" "]" (p.cells.map Cell.debug)), ("cursor", toString p.cursor)]

end ActivePath

end BehaviorTree
