/-
# BehaviorTree.Sensor.Coded — sensors in JSON

A sensor is a record whose kind decides which fields it has. The kind is read before all other fields;
in an array it comes first. Fields that only another kind of sensor has are passed over.
-/
import BehaviorTree.Json.Shape
import BehaviorTree.Sensor.Basic

namespace BehaviorTree

open BehaviorTree.Json

/-- The kinds of sensors. -/
inductive SensorKind where
  | vision
  | hearing
  deriving DecidableEq

namespace Sensor

/-- The names of the kinds. -/
def kinds : List (String × SensorKind) :=
  [("vision", .vision), ("hearing", .hearing)]

/-- The fields of a sensor that sees. -/
structure VisionSettings where
  fieldOfView : Float32 := 90
  maxTiles : Float32 := 8
  gated : Bool := false

/-- The sensor with these fields. -/
def VisionSettings.sensor (p : VisionSettings) : Sensor :=
  .vision p.fieldOfView p.maxTiles p.gated

/-- How the fields of a sensor that sees are written. -/
def VisionSettings.shape : Shape VisionSettings where
  title := "SensorConfig"
  blank := {}
  fields := [
    Field.of "fovDeg" decodeSingle fun fieldOfView p => { p with fieldOfView },
    Field.of "maxTiles" decodeSingle fun maxTiles p => { p with maxTiles },
    Field.of "useFov" decodeFlag fun gated p => { p with gated }]

/-- The fields of a sensor that hears. -/
structure HearingSettings where
  decaySeconds : Float32 := 3

/-- The sensor with these fields. -/
def HearingSettings.sensor (p : HearingSettings) : Sensor :=
  .hearing p.decaySeconds

/-- How the fields of a sensor that hears are written. -/
def HearingSettings.shape : Shape HearingSettings where
  title := "SensorConfig"
  blank := {}
  fields := [Field.of "decaySeconds" decodeSingle fun decaySeconds p => { p with decaySeconds }]

/-- The sensors that an agent has if nothing is said about them. -/
def defaults : List Sensor :=
  [VisionSettings.sensor {}, HearingSettings.sensor {}]

/-- Reads the kind of a sensor. -/
def decodeKind : Decoder SensorKind
  | .text name => chosen kinds name
  | got => .error (.wrongType got "variant identifier")

/-- The kind among the members of a sensor. -/
def kindOfMembers (members : List (String × Json)) : Except DecodeError SensorKind :=
  match members.filter (·.1 == "kind") with
  | [] => .error (.missingField "kind")
  | (_, kind) :: rest => do
    let kind ← decodeKind kind
    if rest.isEmpty then return kind else throw (.duplicateField "kind")

/-- The fields of a sensor written as an array, behind its kind. -/
def ofItems {ρ : Type} (shape : Shape ρ) (items : List Json) : Except DecodeError ρ :=
  let n := shape.fields.length
  shape.ofItems (fun length => .wrongLength length
    (toString n ++ (if n = 1 then " element" else " elements") ++ " in sequence")) items

/-- **`Sensor.decode`** — reads a sensor. -/
def decode : Decoder Sensor
  | .object members => do
    match ← kindOfMembers members with
    | .vision => return (← VisionSettings.shape.ofMembers members).sensor
    | .hearing => return (← HearingSettings.shape.ofMembers members).sensor
  | .array [] => .error (.missingField "kind")
  | .array (kind :: items) => do
    match ← decodeKind kind with
    | .vision => return (← ofItems VisionSettings.shape items).sensor
    | .hearing => return (← ofItems HearingSettings.shape items).sensor
  | got => .error (.wrongType got "internally tagged enum SensorConfig")

end Sensor

end BehaviorTree
