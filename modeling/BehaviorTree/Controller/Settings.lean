/-
# BehaviorTree.Controller.Settings — how a controller is set up

The rate of the sensors, how many samples one frame may catch up, and the sensors themselves.
-/
import BehaviorTree.Sensor.Coded

namespace BehaviorTree

open BehaviorTree.Json

/-- How a controller is set up. -/
structure ControllerSettings where
  sensorHz : Float32 := 10
  maxCatchUp : Nat := 8
  sensors : List Sensor := Sensor.defaults

/-- How the settings are written. -/
def ControllerSettings.shape : Shape ControllerSettings where
  title := "ControllerConfig"
  blank := {}
  fields := [
    Field.of "sensorHz" decodeSingle fun sensorHz p => { p with sensorHz },
    Field.of "maxCatchUpSamples" decodeWord32 fun maxCatchUp p => { p with maxCatchUp },
    Field.of "sensors" (decodeList Sensor.decode) fun sensors p => { p with sensors }]

end BehaviorTree
