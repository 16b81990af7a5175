/-
# BehaviorTree.Leaf.Provider — where paths come from

A provider is asked for a path when an agent has none. It may wander to a random neighbour, follow the
waypoints of a patrol in a circle, or ask a second provider when the first has no path. A host brings
providers of its own along (`χ`), with a function that says what they do.
-/
import BehaviorTree.Situation

namespace BehaviorTree

/-- A source of paths. -/
inductive Provider (χ : Type) where
  | randomAdjacent
  /-- The waypoints, and the number of the next one. -/
  | patrol (waypoints : List Cell) (cursor : Nat)
  | fallback (first second : Provider χ)
  | host (own : χ)

/-- What a host's own providers do. -/
abbrev HostProviders (χ : Type) := χ → Situation → Option (List Cell) × χ × Situation

namespace Provider

variable {χ : Type}

/-- A patrol at its first waypoint. -/
def patrolling (waypoints : List Cell) : Provider χ :=
  .patrol waypoints 0

/-- A walkable cell next to the origin, each as likely as any other. -/
def stroll {γ : Type} [Random.Source γ] (world : World) (origin : Cell) (g : γ) : Option (List Cell) × γ :=
  let (neighbors, g) := Random.shuffle (world.neighbors origin) g
  ((neighbors.find? world.isWalkable).map ([·]), g)

/-- A walkable cell next to the agent, drawn from the agent's stream. -/
def wander (s : Situation) : Option (List Cell) × Situation :=
  s.draw (stroll s.world s.body.cell)

/-- **`Provider.next`** — the next path, if there is one. -/
def next (host : HostProviders χ) :
    Provider χ → Situation → Option (List Cell) × Provider χ × Situation
  | .randomAdjacent, s =>
    let (path, s) := wander s
    (path, .randomAdjacent, s)
  | .patrol waypoints cursor, s =>
    match waypoints[cursor]? with
    | none => (none, .patrol waypoints cursor, s)
    | some target => (some [target], .patrol waypoints ((cursor + 1) % waypoints.length), s)
  | .fallback first second, s =>
    match first.next host s with
    | (some (c :: rest), first, s) => (some (c :: rest), .fallback first second, s)
    | (_, first, s) =>
      let (path, second, s) := second.next host s
      (path, .fallback first second, s)
  | .host own, s =>
    let (path, own, s) := host own s
    (path, .host own, s)

end Provider

/-- The providers that a document can name. -/
inductive ProviderMode where
  | randomAdjacent
  | patrol
  | patrolOrRandom
  deriving DecidableEq

/-- A new provider. -/
def ProviderMode.build {χ : Type} (mode : ProviderMode) (waypoints : List Cell) : Provider χ :=
  match mode with
  | .randomAdjacent => .randomAdjacent
  | .patrol => .patrolling waypoints
  | .patrolOrRandom => .fallback (.patrolling waypoints) .randomAdjacent

end BehaviorTree
