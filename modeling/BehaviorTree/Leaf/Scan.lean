/-
# BehaviorTree.Leaf.Scan — looking around

A scan turns the agent around a base angle: it spins at a constant rate, or it swings from side to
side. Where a spin was when it ended is where the next one begins; otherwise the base is drawn at
random or it is the direction that the agent has.
-/
import BehaviorTree.Leaf.Timer
import BehaviorTree.Situation

namespace BehaviorTree

/-- How a scan turns. -/
inductive ScanMode where
  | spin
  | oscillate
  deriving DecidableEq

/-- What is fixed about a scan. -/
structure ScanSettings where
  duration : Float32 := 0.5
  /-- Whether the agent turns at all. -/
  rotate : Bool := false
  mode : ScanMode := .spin
  degreesPerSecond : Float32 := 120
  /-- From one side to the other, when swinging. -/
  sweepDegrees : Float32 := 120
  randomStart : Bool := true

/-- The action of scanning. -/
structure Scan where
  settings : ScanSettings
  timer : Timer
  /-- For how long the agent has been turning in this run. -/
  elapsed : Float32 := 0
  /-- The angle around which this run turns. -/
  base : Float32 := 0
  /-- The angle at which the last run ended, if the next one is to begin there. -/
  carried : Option Float32 := none

namespace Scan

/-- A scan that has never run. -/
def ofSettings (settings : ScanSettings) : Scan where
  settings
  timer := .full settings.duration

/-- The angle after a time of turning, not yet brought into one turn. -/
def angle (c : Scan) (elapsed : Float32) : Float32 :=
  match c.settings.mode with
  | .spin => c.base + c.settings.degreesPerSecond * elapsed
  | .oscillate =>
    let half := Numeric.larger c.settings.sweepDegrees 0 * 0.5
    let phase := Numeric.radians (elapsed * c.settings.degreesPerSecond)
    c.base + Float32.sin phase * half

/-- The direction that the agent has at the moment. -/
def heading (c : Scan) : Float32 :=
  Numeric.wrap (c.angle c.elapsed) 360

/-- The base of a run that begins now. -/
def chooseBase (c : Scan) (s : Situation) : Float32 × Situation :=
  match c.carried with
  | some angle => (angle, s)
  | none =>
    if c.settings.rotate && c.settings.randomStart then
      let (part, s) := s.draw Random.unit
      (part * 360, s)
    else (s.body.facing, s)

/-- Begins to scan. -/
def enter (c : Scan) (s : Situation) : Scan × Situation :=
  let (base, s) := c.chooseBase s
  ({ c with timer := c.timer.restart, elapsed := 0, base, carried := none }, s)

/-- Scans on. -/
def tick (c : Scan) (dt : Float32) (s : Situation) : Status × Scan × Situation :=
  let (status, timer) := c.timer.pass dt
  if c.settings.rotate then
    let c := { c with timer, elapsed := c.elapsed + dt }
    (status, c, s.face c.heading)
  else (status, { c with timer }, s)

/-- Ends a scan. -/
def exit (c : Scan) : Scan :=
  if c.settings.rotate && c.settings.mode = .spin then { c with carried := some c.heading } else c

end Scan

end BehaviorTree
