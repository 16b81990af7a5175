/-
# BehaviorTree.Json.Shape — records in JSON

A `Shape` says how a record is written: the record that it starts from, and its fields in their order.
A field has a name, perhaps further names, and a decoder that says what its value does to the record.

A record is written as an object or as an array of its fields' values in their order. In an object the
members are looked at one after the other, members that are no field are passed over, and the first
bad or repeated one is the error; after that the fields that have to be there are asked for. So what a
good object means does not depend on the order of its members, but of two faults the order decides.
-/
import BehaviorTree.Json.Decode
import BehaviorTree.Json.Surface

namespace BehaviorTree.Json

/-- Whether a field may be left out. A field that may be `null` may be left out of an object but not
of an array. -/
inductive Presence where
  | required
  | nullable
  | optional
  deriving DecidableEq

/-- A field of a record of type `ρ`. -/
structure Field (ρ : Type) where
  /-- The name that error messages use. -/
  name : String
  /-- Other names under which the field may be written. -/
  aliases : List String := []
  presence : Presence := .optional
  /-- What a value of the field does to the record. -/
  read : Decoder (ρ → ρ)
  /-- The outline of the field's value. -/
  outline : Outline := .whole

/-- How a record is written. -/
structure Shape (ρ : Type) where
  title : String
  /-- The record in which every field has its default. -/
  blank : ρ
  fields : List (Field ρ)

variable {ρ : Type}

/-- A field whose value is read by `item` and put into the record by `put`. -/
def Field.of {α : Type} (name : String) (item : Decoder α) (put : α → ρ → ρ)
    (presence : Presence := .optional) (aliases : List String := [])
    (outline : Outline := .whole) : Field ρ where
  name
  aliases
  presence
  read v := (item v).map put
  outline

/-- The outline of a record. -/
def Shape.outline (shape : Shape ρ) : Outline :=
  .record (shape.fields.map fun field => (field.name :: field.aliases, field.outline))

/-- Whether the field may be written under that name. -/
def Field.isNamed (field : Field ρ) (key : String) : Bool :=
  key == field.name || field.aliases.contains key

/-! ## § Objects -/

/-- What has been read so far: by the field's name, what its value does to the record. -/
abbrev Readings (ρ : Type) := List (String × (ρ → ρ))

/-- Reads the members of an object in their order. -/
def readMembers (fields : List (Field ρ)) (readings : Readings ρ) :
    List (String × Json) → Except DecodeError (Readings ρ)
  | [] => .ok readings
  | (key, value) :: rest =>
    match fields.find? (·.isNamed key) with
    | none => readMembers fields readings rest
    | some field =>
      if (readings.lookup field.name).isSome then .error (.duplicateField field.name)
      else do
        let reading ← field.read value
        readMembers fields ((field.name, reading) :: readings) rest

/-- Puts what was read into the record, field by field in their order. -/
def applyReadings (readings : Readings ρ) : List (Field ρ) → ρ → Except DecodeError ρ
  | [], record => .ok record
  | field :: rest, record =>
    match readings.lookup field.name with
    | some reading => applyReadings readings rest (reading record)
    | none =>
      if field.presence = .required then .error (.missingField field.name)
      else applyReadings readings rest record

/-! ## § Arrays -/

/-- What a record with so many fields is called in a complaint about its length. -/
def Shape.ofLength (shape : Shape ρ) : String :=
  let n := shape.fields.length
  "struct " ++ shape.title ++ " with " ++ toString n ++ (if n = 1 then " element" else " elements")

/-- Reads the items of an array as the fields in their order; what is left over is returned with the
record. `n` items were read before, and `expected` describes the record when one is missing. -/
def readItems (expected : String) :
    Nat → List (Field ρ) → List Json → ρ → Except DecodeError (ρ × List Json)
  | _, [], rest, record => .ok (record, rest)
  | n, field :: fields, [], record =>
    if field.presence = .optional then readItems expected (n + 1) fields [] record
    else .error (.wrongLength n expected)
  | n, field :: fields, value :: rest, record => do
    let reading ← field.read value
    readItems expected (n + 1) fields rest (reading record)

/-! ## § Records -/

/-- Reads a record from the members of an object. -/
def Shape.ofMembers (shape : Shape ρ) (members : List (String × Json)) : Except DecodeError ρ := do
  let readings ← readMembers shape.fields [] members
  applyReadings readings shape.fields shape.blank

/-- Reads a record from the items of an array. `tooMany` is the complaint about an array of so many
items, when there are fewer fields. -/
def Shape.ofItems (shape : Shape ρ) (tooMany : Nat → DecodeError) (items : List Json) :
    Except DecodeError ρ := do
  let (record, rest) ← readItems shape.ofLength 0 shape.fields items shape.blank
  if rest.isEmpty then return record else throw (tooMany items.length)

/-- **`Shape.decode`** — a record, from an object or from an array. -/
def Shape.decode (shape : Shape ρ) : Decoder ρ
  | .object members => shape.ofMembers members
  | .array items =>
    shape.ofItems (fun n => .wrongLength n "fewer elements in array") items
  | got => .error (.wrongType got ("struct " ++ shape.title))

end BehaviorTree.Json
