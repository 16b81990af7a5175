import BehaviorTree.File.Folder
import BehaviorTree.Main
import BehaviorTree.Proofs.ActivePath
import BehaviorTree.Proofs.ControllerRun
import BehaviorTree.Proofs.Diagnostics
import BehaviorTree.Proofs.Duality
import BehaviorTree.Proofs.FirstDefect
import BehaviorTree.Proofs.Flattening
import BehaviorTree.Proofs.Forgetting
import BehaviorTree.Proofs.Lifecycle
import BehaviorTree.Proofs.Likeness
import BehaviorTree.Proofs.Movement
import BehaviorTree.Proofs.Recording
import BehaviorTree.Proofs.Resumption
import BehaviorTree.Proofs.RootTrace
import BehaviorTree.Proofs.SamplingTime
import BehaviorTree.Proofs.ShortCircuit
import BehaviorTree.Random.Tape
import BehaviorTree.Proofs.Coupling
import BehaviorTree.Proofs.Lookalike
import BehaviorTree.Proofs.Seed
import BehaviorTree.Proofs.Custody
import BehaviorTree.Proofs.PathOwner
import BehaviorTree.Proofs.Perception
import BehaviorTree.Proofs.Extension
import BehaviorTree.Proofs.Sight
import BehaviorTree.Proofs.Arrival
import BehaviorTree.Proofs.Itinerary
import BehaviorTree.Proofs.Approach
import BehaviorTree.Proofs.Evenness
import BehaviorTree.Proofs.Shuffling
import BehaviorTree.Proofs.Scrambling
import BehaviorTree.Proofs.SingleArithmetic
import BehaviorTree.Proofs.Waiting
import BehaviorTree.Proofs.ActionRun
import BehaviorTree.Proofs.Duration
import BehaviorTree.Proofs.Scanning
import BehaviorTree.Proofs.Sighting
import BehaviorTree.Proofs.SlotAccess
import BehaviorTree.Proofs.DeadEnd
import BehaviorTree.Proofs.FailedTick
import BehaviorTree.Proofs.CatchUp
import BehaviorTree.Proofs.Silence
import BehaviorTree.Proofs.Timeline
import BehaviorTree.Proofs.Wandering
import BehaviorTree.Proofs.Standby
import BehaviorTree.Proofs.WallTable
import BehaviorTree.Proofs.FieldNames
import BehaviorTree.Proofs.Numerals
import BehaviorTree.Proofs.EventLine
import BehaviorTree.Proofs.PathCursor
import BehaviorTree.Proofs.TraceHistory
import BehaviorTree.Proofs.Coordinates
import BehaviorTree.Proofs.Inclusion
