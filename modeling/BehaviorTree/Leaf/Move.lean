/-
# BehaviorTree.Leaf.Move — moving

To move towards a remembered cell is greedy: the neighbours are sorted by what the rest is expected to
cost from them, and the first walkable one is taken. To move along paths keeps the active path on the
blackboard, asks the provider for a new one when there is none, and succeeds at the end of each path.
-/
import BehaviorTree.Leaf.Provider
import BehaviorTree.Status

namespace BehaviorTree

/-- Where a move goes. -/
inductive Goal (χ : Type) where
  | lastSeen
  | lastHeard
  | paths (provider : Provider χ)

/-- A goal as a debug line shows it. -/
def Goal.debug {χ : Type} : Goal χ → String
  | .lastSeen => "TowardLastSeen"
  | .lastHeard => "TowardLastHeard"
  | .paths _ => "Provider(..)"

/-- The action of moving. -/
structure Move (χ : Type) where
  goal : Goal χ
  speed : Float32

namespace Move

variable {χ : Type}

/-! ## § Towards a cell -/

/-- The place of a cell in the order of costs, by what the way from it to the target is expected to cost. -/
def rank (world : World) (target c : Cell) : Int :=
  Numeric.totalKey (world.cost c target)

/-- The walkable neighbour that is nearest to a cell. Of neighbours with equal costs the one comes first
that comes first in the world. -/
def greedyStep (s : Situation) (target : Cell) : Option Cell :=
  let ranked := (s.world.neighbors s.body.cell).mergeSort fun a b =>
    rank s.world target a ≤ rank s.world target b
  ranked.find? s.world.isWalkable

/-- Asks for a step towards a remembered cell. -/
def approach (speed : Float32) (memory : Memory) (s : Situation) : Status × Situation :=
  match memory.cell.bind (greedyStep s) with
  | none => (.failure, s)
  | some c => (.running, s.request c speed)

/-! ## § Along paths -/

/-- Asks the provider for a path if there is none to walk; whether there is a path then. -/
def findPath (host : HostProviders χ) (provider : Provider χ) (s : Situation) :
    Bool × Provider χ × Situation :=
  if s.board.path.isSome then (true, provider, s)
  else
    match provider.next host s with
    | (none, provider, s) =>
      (false, provider, s.note ("move: no path from " ++ s.body.cell.text))
    | (some cells, provider, s) =>
      let s := s.tell (.newPath cells.length s.body.cell)
      let s := { s with board := s.board.setPath cells }
      if s.board.path.isSome then (true, provider, s)
      else (false, provider, s.note "move: provider returned an empty path")

/-- Asks for a move to the current cell of the path, or to the one behind it if the agent is there
already; success at the end of the path. -/
def walk (speed : Float32) (s : Situation) : Status × Situation :=
  match s.board.pathNext with
  | none => (.failure, s)
  | some c =>
    if s.body.cell = c then
      let (next, board) := s.board.advancePath
      let s := { s with board }
      match next with
      | none => (.success, s)
      | some c => (.running, s.request c speed)
    else (.running, s.request c speed)

/-- Follows the paths of a provider. -/
def follow (host : HostProviders χ) (speed : Float32) (provider : Provider χ) (s : Situation) :
    Status × Provider χ × Situation :=
  match findPath host provider s with
  | (false, provider, s) => (.failure, provider, s)
  | (true, provider, s) =>
    let (status, s) := walk speed s
    (status, provider, s)

/-- **`Move.tick`** — moves on. -/
def tick (host : HostProviders χ) (m : Move χ) (s : Situation) : Status × Move χ × Situation :=
  match m.goal with
  | .lastSeen =>
    let (status, s) := approach m.speed s.board.seen s
    (status, m, s)
  | .lastHeard =>
    let (status, s) := approach m.speed s.board.heard s
    (status, m, s)
  | .paths provider =>
    let (status, provider, s) := follow host m.speed provider s
    (status, { m with goal := .paths provider }, s)

end Move

end BehaviorTree
