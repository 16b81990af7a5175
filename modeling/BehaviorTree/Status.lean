/-
# BehaviorTree.Status — what a tick reports

A node, an action and the tree as a whole answer every tick with one of three statuses. A node that is
running wants to be ticked again; success and failure end its run.
-/

namespace BehaviorTree

/-- The answer to a tick. -/
inductive Status where
  | running
  | success
  | failure
  deriving DecidableEq, Inhabited

namespace Status

/-- The status of a test: success if it holds, failure if not. -/
def ofBool (value : Bool) : Status :=
  if value then .success else .failure

/-- How the run ended; none as long as it is running. -/
def outcome : Status → Option Bool
  | .running => none
  | .success => some true
  | .failure => some false

/-- The name of the status. -/
def text : Status → String
  | .running => "running"
  | .success => "success"
  | .failure => "failure"

/-- The status of that name. -/
def ofText? : String → Option Status
  | "running" => some .running
  | "success" => some .success
  | "failure" => some .failure
  | _ => none

/-- The status as a debug line shows it. -/
def debug : Status → String
  | .running => "Running"
  | .success => "Success"
  | .failure => "Failure"

end Status

end BehaviorTree
