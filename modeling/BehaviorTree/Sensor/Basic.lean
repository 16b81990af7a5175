/-
# BehaviorTree.Sensor.Basic — what an agent perceives

A sensor is sampled at regular times. What it perceives goes into a memory on the blackboard; a sample
without a perception lets the memory grow older by the time of one step.
-/
import BehaviorTree.Situation

namespace BehaviorTree

/-- A sensor. -/
inductive Sensor where
  /-- Sees the player up to a distance, if nothing stands between, and only within a field of view if
  that is asked for. -/
  | vision (fieldOfView maxTiles : Float32) (gated : Bool)
  /-- Hears noises; one that is over is forgotten after a time. -/
  | hearing (decaySeconds : Float32)

namespace Sensor

/-- The name of a sensor. -/
def name : Sensor → String
  | .vision .. => "vision"
  | .hearing _ => "hearing"

/-- Whether a bearing is within a field of view around the direction of an agent. -/
def isWithin (fieldOfView facing bearing : Float32) : Bool :=
  let difference := Numeric.wrap (bearing - facing + 180) 360 - 180
  difference.abs ≤ fieldOfView * 0.5

/-- Whether an agent sees a player. -/
def sees (fieldOfView maxTiles : Float32) (gated : Bool) (world : World) (body : Body)
    (player : Cell) : Bool :=
  world.cost body.cell player ≤ maxTiles &&
    (player = body.cell || !gated || 360 ≤ fieldOfView ||
      isWithin fieldOfView body.facing (body.cell.bearing player)) &&
    world.hasLineOfSight body.cell player

/-- What becomes of the memory of the player. -/
def look (fieldOfView maxTiles : Float32) (gated : Bool) (step : Float32) (world : World)
    (body : Body) (seen : Memory) : Memory :=
  match world.player.filter (sees fieldOfView maxTiles gated world body) with
  | some player => .fresh player
  | none => seen.age step

/-- What becomes of the memory of noises. -/
def listen (decaySeconds step : Float32) (world : World) (heard : Memory) : Memory :=
  match world.noise with
  | some noise => .fresh noise
  | none =>
    let heard := heard.age step
    if decaySeconds < heard.elapsed then heard.forget else heard

/-- **`Sensor.sample`** — takes a sample, `step` seconds after the last one. -/
def sample (sensor : Sensor) (step : Float32) (s : Situation) : Situation :=
  match sensor with
  | .vision fieldOfView maxTiles gated =>
    { s with board := { s.board with
        seen := look fieldOfView maxTiles gated step s.world s.body s.board.seen } }
  | .hearing decaySeconds =>
    { s with board := { s.board with
        heard := listen decaySeconds step s.world s.board.heard } }

end Sensor

/-! ## § Kits of sensors -/

/-- What sensors of a type `σ` do in a state of a type `ω`. -/
structure Senses (σ ω : Type) where
  sample : σ → Float32 → ω → σ × ω
  name : σ → String

/-- The sensors of the library. -/
def Senses.builtIn : Senses Sensor Situation where
  sample sensor step s := (sensor, sensor.sample step s)
  name := Sensor.name

/-- Two kinds of sensors side by side. -/
def Senses.sum {σ τ ω : Type} (first : Senses σ ω) (second : Senses τ ω) : Senses (σ ⊕ τ) ω where
  sample
    | .inl a, step, s => let (a, s) := first.sample a step s; (.inl a, s)
    | .inr b, step, s => let (b, s) := second.sample b step s; (.inr b, s)
  name
    | .inl a => first.name a
    | .inr b => second.name b

end BehaviorTree
