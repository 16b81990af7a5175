/-
# BehaviorTree.Cell.Coded — cells in JSON

In documents a cell is the record of its two coordinates, which are signed 32-bit numbers.
-/
import BehaviorTree.Cell.Basic
import BehaviorTree.Json.Shape
import BehaviorTree.Json.Writer

namespace BehaviorTree.Cell

open BehaviorTree.Json (Shape Field Decoder decodeInt32)

/-- How a cell is written. -/
def shape : Shape Cell where
  title := "Cell"
  blank := ⟨0, 0⟩
  fields := [
    Field.of "x" decodeInt32 (fun x c => { c with x }) .required,
    Field.of "y" decodeInt32 (fun y c => { c with y }) .required]

/-- Reads a cell. -/
def decode : Decoder Cell :=
  shape.decode

/-- Writes a cell. -/
def encode (c : Cell) : Json :=
  .object [("x", .number (.whole c.x)), ("y", .number (.whole c.y))]

end BehaviorTree.Cell
