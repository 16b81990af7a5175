/-
# BehaviorTree.Scenario.Coded — scenarios in JSON

A scenario is a record of its size, the agent's place and whatever else is not as usual. A scenario's
text is read as a record, so that a repeated field is refused.
-/
import BehaviorTree.Cell.Coded
import BehaviorTree.File.Basic
import BehaviorTree.Json.Reader
import BehaviorTree.Scenario.Basic

namespace BehaviorTree

open BehaviorTree.Json

/-- How a move of the player is written. -/
def PlayerMove.shape : Shape PlayerMove where
  title := "PlayerMove"
  blank := ⟨0, none⟩
  fields := [
    Field.of "at" decodeSingle (fun since m => { m with since }) .required,
    Field.of "cell" (decodeOptional Cell.decode) (fun cell m => { m with cell }) .nullable []
      Cell.shape.outline]

/-- How a noise is written. -/
def Noise.shape : Shape Noise where
  title := "NoiseEvent"
  blank := { since := 0, cell := ⟨0, 0⟩ }
  fields := [
    Field.of "at" decodeSingle (fun since n => { n with since }) .required,
    Field.of "cell" Cell.decode (fun cell n => { n with cell }) .required [] Cell.shape.outline,
    Field.of "duration" decodeSingle fun duration n => { n with duration }]

namespace Scenario

/-- How a scenario is written. -/
def shape : Shape Scenario where
  title := "Scenario"
  blank := { width := 0, height := 0, agent := ⟨0, 0⟩ }
  fields := [
    Field.of "width" decodeWord32 (fun width c => { c with width }) .required,
    Field.of "height" decodeWord32 (fun height c => { c with height }) .required,
    Field.of "blocked" (decodeList Cell.decode) (fun blocked c => { c with blocked }) .optional []
      (.items Cell.shape.outline),
    Field.of "agent" Cell.decode (fun agent c => { c with agent }) .required [] Cell.shape.outline,
    Field.of "facing" decodeSingle fun facing c => { c with facing },
    Field.of "tilesPerSecond" decodeSingle fun tilesPerSecond c => { c with tilesPerSecond },
    Field.of "player" (decodeOptional Cell.decode) (fun player c => { c with player }) .optional []
      Cell.shape.outline,
    Field.of "playerMoves" (decodeList PlayerMove.shape.decode)
      (fun playerMoves c => { c with playerMoves }) .optional []
      (.items PlayerMove.shape.outline),
    Field.of "noises" (decodeList Noise.shape.decode) (fun noises c => { c with noises }) .optional []
      (.items Noise.shape.outline),
    Field.of "seed" decodeWord64 fun seed c => { c with seed },
    Field.of "controller" ControllerSettings.shape.decode
      (fun controller c => { c with controller }) .optional [] ControllerSettings.shape.outline]

/-- Reads a scenario. -/
def decode : Decoder Scenario :=
  shape.decode

/-- The scenario of a text; none if the text is no JSON or not that of a scenario. -/
def ofText? (text : String) : Option Scenario := do
  let record ← readRecord? shape.outline text
  (decode record).toOption

/-! ## § Files -/

/-- Why there is no scenario. -/
inductive LoadError where
  | unreadable (cause : ReadError)
  /-- The text is not that of a scenario. -/
  | malformed
  | invalid (cause : ScenarioError)

/-- The wordings of a failure and of what is behind it, from the outside in. -/
def LoadError.chain (file : String) : LoadError → List String
  | .unreadable cause => ["failed to read scenario " ++ file, cause.message]
  | .malformed => ["failed to parse scenario " ++ file]
  | .invalid cause => cause.chain

/-- **`Scenario.ofRead`** — the scenario that was to be read from a file. -/
def ofRead (read : Except ReadError String) : Except LoadError Scenario :=
  match read with
  | .error cause => .error (.unreadable cause)
  | .ok contents =>
    match ofText? contents with
    | none => .error .malformed
    | some scenario =>
      match scenario.validate with
      | .error cause => .error (.invalid cause)
      | .ok () => .ok scenario

end Scenario

end BehaviorTree
