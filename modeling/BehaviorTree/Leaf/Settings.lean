/-
# BehaviorTree.Leaf.Settings — parameter blocks

Each kind of leaf has a block of parameters, which is a JSON record with a default for every field.
This module says how the blocks are written and which leaves they make.
-/
import BehaviorTree.Cell.Coded
import BehaviorTree.Leaf.Condition
import BehaviorTree.Leaf.Look
import BehaviorTree.Leaf.Move
import BehaviorTree.Leaf.Scan

namespace BehaviorTree

open BehaviorTree.Json

/-- Why a parameter block makes no leaf. -/
inductive ParamError where
  | decode (cause : DecodeError)
  /-- A point is to be looked at, but none is given. -/
  | missingPoint

/-- The wording of a complaint about parameters. -/
def ParamError.message : ParamError → String
  | .decode cause => cause.message
  | .missingPoint => "target is \"point\" but no " ++ ticked "point" ++ " was given"

/-- Reads a parameter block and makes something of it. -/
def Json.Shape.build {ρ β : Type} (shape : Shape ρ) (make : ρ → β) (params : Json) :
    Except ParamError β :=
  match shape.decode params with
  | .ok record => .ok (make record)
  | .error cause => .error (.decode cause)

/-! ## § Listening -/

/-- The parameters of listening. -/
structure ListenSettings where
  duration : Float32 := 0.8

/-- How the parameters of listening are written. -/
def ListenSettings.shape : Shape ListenSettings where
  title := "ListenParams"
  blank := {}
  fields := [Field.of "duration" decodeSingle fun duration p => { p with duration }]

/-! ## § Looking -/

/-- The kinds of targets to look at. -/
inductive LookTarget where
  | player
  | point
  deriving DecidableEq

/-- The names of the targets. -/
def LookTarget.choices : List (String × LookTarget) :=
  [("PLAYER", .player), ("Player", .player), ("player", .player),
    ("POINT", .point), ("Point", .point), ("point", .point)]

/-- A kind of target as a debug line shows it. -/
def LookTarget.debug : LookTarget → String
  | .player => "Player"
  | .point => "Point"

/-- The parameters of looking. -/
structure LookSettings where
  target : LookTarget := .player
  duration : Float32 := 0.5
  point : Option Cell := none

/-- How the parameters of looking are written. -/
def LookSettings.shape : Shape LookSettings where
  title := "LookParams"
  blank := {}
  fields := [
    Field.of "target" (decodeChoice LookTarget.choices) fun target p => { p with target },
    Field.of "duration" decodeSingle fun duration p => { p with duration },
    Field.of "point" (decodeOptional Cell.decode) fun point p => { p with point }]

/-- The action of looking with these parameters. -/
def LookSettings.look (p : LookSettings) : Except ParamError Look :=
  match p.target, p.point with
  | .player, _ => .ok ⟨.player, .full p.duration⟩
  | .point, some cell => .ok ⟨.point cell, .full p.duration⟩
  | .point, none => .error .missingPoint

/-! ## § Scanning -/

/-- The names of the ways to turn. -/
def ScanMode.choices : List (String × ScanMode) :=
  [("spin", .spin), ("oscillate", .oscillate)]

/-- A way to turn as a debug line shows it. -/
def ScanMode.debug : ScanMode → String
  | .spin => "Spin"
  | .oscillate => "Oscillate"

/-- How the parameters of scanning are written. -/
def ScanSettings.shape : Shape ScanSettings where
  title := "ScanParams"
  blank := {}
  fields := [
    Field.of "duration" decodeSingle fun duration p => { p with duration },
    Field.of "rotate" decodeFlag fun rotate p => { p with rotate },
    Field.of "mode" (decodeChoice ScanMode.choices) fun mode p => { p with mode },
    Field.of "deg_per_sec" decodeSingle (fun degreesPerSecond p => { p with degreesPerSecond })
      .optional ["degPerSec"],
    Field.of "sweep_deg" decodeSingle (fun sweepDegrees p => { p with sweepDegrees })
      .optional ["sweepDeg"],
    Field.of "random_start" decodeFlag (fun randomStart p => { p with randomStart })
      .optional ["randomStart"]]

/-! ## § Moving -/

/-- The memories towards which an agent can move. -/
inductive Toward where
  | lastSeen
  | lastHeard
  deriving DecidableEq

/-- The names of the memories. -/
def Toward.choices : List (String × Toward) :=
  [("lastSeen", .lastSeen), ("lastSeenPlayer", .lastSeen),
    ("lastHeard", .lastHeard), ("lastHeardNoise", .lastHeard)]

/-- A memory as a debug line shows it. -/
def Toward.debug : Toward → String
  | .lastSeen => "LastSeen"
  | .lastHeard => "LastHeard"

/-- The names of the providers. -/
def ProviderMode.choices : List (String × ProviderMode) :=
  [("randomAdjacent", .randomAdjacent), ("patrol", .patrol), ("patrolOrRandom", .patrolOrRandom)]

/-- The name of a provider. -/
def ProviderMode.text : ProviderMode → String
  | .randomAdjacent => "randomAdjacent"
  | .patrol => "patrol"
  | .patrolOrRandom => "patrolOrRandom"

/-- A provider as a debug line shows it. -/
def ProviderMode.debug : ProviderMode → String
  | .randomAdjacent => "RandomAdjacent"
  | .patrol => "Patrol"
  | .patrolOrRandom => "PatrolOrRandom"

/-- The parameters of moving. -/
structure MoveSettings where
  speed : Float32 := 1
  toward : Option Toward := none
  mode : ProviderMode := .randomAdjacent
  waypoints : List Cell := []

/-- How the parameters of moving are written. -/
def MoveSettings.shape : Shape MoveSettings where
  title := "MoveParams"
  blank := {}
  fields := [
    Field.of "speed" decodeSingle fun speed p => { p with speed },
    Field.of "toward" (decodeOptional (decodeChoice Toward.choices))
      fun toward p => { p with toward },
    Field.of "mode" (decodeChoice ProviderMode.choices) fun mode p => { p with mode },
    Field.of "waypoints" (decodeList Cell.decode) fun waypoints p => { p with waypoints }]

/-- The action of moving with these parameters; a memory goes before the provider. -/
def MoveSettings.move {χ : Type} (p : MoveSettings) : Move χ where
  goal := match p.toward with
    | some .lastSeen => .lastSeen
    | some .lastHeard => .lastHeard
    | none => .paths (p.mode.build p.waypoints)
  speed := p.speed

/-! ## § Conditions -/

/-- The parameters of the question whether the player is visible. -/
structure PlayerVisibleSettings where
  within : Float32 := 0.2

/-- How these parameters are written. -/
def PlayerVisibleSettings.shape : Shape PlayerVisibleSettings where
  title := "PlayerVisibleParams"
  blank := {}
  fields := [Field.of "recentSeconds" decodeSingle (fun within p => { p with within })
    .optional ["recent_seconds"]]

/-- The condition with these parameters. -/
def PlayerVisibleSettings.condition (p : PlayerVisibleSettings) : Condition :=
  .playerVisible p.within

/-- The parameters of the question whether a noise was heard. -/
structure NoiseHeardSettings where
  radius : Int := 5
  within : Float32 := 2

/-- How these parameters are written. -/
def NoiseHeardSettings.shape : Shape NoiseHeardSettings where
  title := "HeardNoiseWithinParams"
  blank := {}
  fields := [
    Field.of "radius" decodeInt32 fun radius p => { p with radius },
    Field.of "recentSeconds" decodeSingle (fun within p => { p with within })
      .optional ["recent_seconds"]]

/-- The condition with these parameters. -/
def NoiseHeardSettings.condition (p : NoiseHeardSettings) : Condition :=
  .noiseHeard p.radius p.within

end BehaviorTree
