/-
# BehaviorTree.Controller.Basic — the frames of one agent

A controller owns a tree and sensors. In every frame it first makes the rounds of samples that are due
and then ticks the tree once. When the answer of the tree is another one than in the frame before, it
leaves a trace event behind, and so it does when samples had to be put off.

The blackboard and the body are part of the situation, which the controller is given and returns. A
fault in the middle of a frame leaves everything as far as it got.
-/
import BehaviorTree.Controller.Settings
import BehaviorTree.Sampling
import BehaviorTree.Sensor.Basic
import BehaviorTree.Tree.Node

namespace BehaviorTree

/-- The tree and the sensors of an agent. -/
structure Controller (α κ σ : Type) where
  root : Node α κ
  sensors : List σ
  sensorHz : Float32
  maxCatchUp : Nat
  sampling : Sampling Float := { accumulator := 0 }
  frame : Nat := 0
  lastStatus : Option Status := none

namespace Controller

variable {α κ σ : Type}

/-- A controller at its beginning. At least one sample can always be caught up. -/
def create (root : Node α κ) (sensors : List σ) (sensorHz : Float32)
    (maxCatchUp : Nat := ({} : ControllerSettings).maxCatchUp) : Controller α κ σ where
  root
  sensors
  sensorHz
  maxCatchUp := max maxCatchUp 1

/-- A controller with these settings. -/
def ofSettings (root : Node α κ) (settings : ControllerSettings) : Controller α κ Sensor :=
  create root settings.sensors settings.sensorHz settings.maxCatchUp

/-! ## § Samples -/

/-- The time between two samples; none if the rate is no positive number. -/
def step? (c : Controller α κ σ) : Option Float :=
  Sampling.step? Numeric.toDouble c.sensorHz

/-- One round: a sample from every sensor, in their order. -/
def sampleRound (senses : Senses σ Situation) (step : Float32) :
    List σ → Situation → List σ × Situation
  | [], s => ([], s)
  | sensor :: rest, s =>
    let (sensor, s) := senses.sample sensor step s
    let (rest, s) := sampleRound senses step rest s
    (sensor :: rest, s)

/-- Several rounds. -/
def sampleRounds (senses : Senses σ Situation) (step : Float32) :
    Nat → List σ → Situation → List σ × Situation
  | 0, sensors, s => (sensors, s)
  | n + 1, sensors, s =>
    let (sensors, s) := sampleRound senses step sensors s
    sampleRounds senses step n sensors s

/-- How many whole steps are left in the accumulator; what does not fit into a word is the largest
one. -/
def backlog (c : Controller α κ σ) (step : Float) : Nat :=
  (c.sampling.accumulator / step).toUInt64.toNat

/-- The event that tells that samples were put off, if some were. -/
def deferred? (c : Controller α κ σ) (step : Float) : Option TraceEvent :=
  if c.sampling.isBehind step then
    some { frame := c.frame, tag := "sense.catch_up.capped", a := c.maxCatchUp, b := c.backlog step }
  else none

/-- Makes the rounds that are due. -/
def sense (senses : Senses σ Situation) (dt : Float32) (c : Controller α κ σ) (s : Situation) :
    Except Fault Unit × Controller α κ σ × Situation :=
  match c.step? with
  | none => (.ok (), c, s)
  | some step =>
    let (taken, sampling) := c.sampling.advance step c.maxCatchUp (Sampling.counted Numeric.toDouble dt)
    let (sensors, s) := sampleRounds senses (Numeric.toSingle step) taken c.sensors s
    let c := { c with sensors, sampling }
    match c.deferred? step with
    | none => (.ok (), c, s)
    | some event =>
      let (result, s) := (s.tell (.catchUpCapped c.frame event.a event.b)).emit event
      (result, c, s)

/-! ## § Frames -/

/-- The event that tells the answer of the tree, if it has changed. -/
def change? (c : Controller α κ σ) (status : Status) : Option TraceEvent :=
  if c.lastStatus = some status then none
  else some { frame := c.frame, tag := "bt.root." ++ status.text }

/-- Leaves a trace event behind if the answer of the tree has changed. -/
def report (c : Controller α κ σ) (status : Status) (s : Situation) : Except Fault Unit × Situation :=
  match c.change? status with
  | none => (.ok (), s)
  | some event => s.emit event

/-- Ticks the tree. -/
def tickRoot (kit : Leaves α κ Situation Fault) (dt : Float32) (c : Controller α κ σ)
    (s : Situation) : Except Fault Status × Controller α κ σ × Situation :=
  match c.root.tick kit dt s with
  | (.error fault, root, s) => (.error fault, { c with root }, s)
  | (.ok status, root, s) =>
    let c := { c with root }
    match c.report status (s.tell (.rootTicked c.frame status)) with
    | (.error fault, s) => (.error fault, c, s)
    | (.ok (), s) => (.ok status, { c with lastStatus := some status }, s)

/-- **`Controller.tick`** — one frame: first the samples, then the tree. -/
def tick (kit : Leaves α κ Situation Fault) (senses : Senses σ Situation) (dt : Float32)
    (c : Controller α κ σ) (s : Situation) : Except Fault Status × Controller α κ σ × Situation :=
  match sense senses dt { c with frame := c.frame + 1 } s with
  | (.error fault, c, s) => (.error fault, c, s)
  | (.ok (), c, s) => c.tickRoot kit dt s

/-- Aborts the tree; its next answer counts as a change. -/
def abort (kit : Leaves α κ Situation Fault) (c : Controller α κ σ) (s : Situation) :
    Controller α κ σ × Situation :=
  let (root, s) := c.root.abort kit s
  ({ c with root, lastStatus := none }, s)

/-- A controller as a debug line shows it. -/
def debug (senses : Senses σ Situation) (c : Controller α κ σ) : String :=
  Text.fields "BehaviorController"
    [("nodes", toString c.root.count),
      ("sensors", Text.bracketed "[" "]" (c.sensors.map fun x => Text.quoted (senses.name x))),
      ("sensor_hz", Numeric.Spelling.log.single c.sensorHz), ("frame", toString c.frame),
      ("last_status", Text.optional (c.lastStatus.map Status.debug))]

end Controller

end BehaviorTree
