/-
# BehaviorTree.Leaf.BuiltIn — the leaves that come with the library

The four actions as one type, and the kit that says what they and the conditions do in a situation. The
leaves of this kit never end a tick by a fault.
-/
import BehaviorTree.Leaf.Condition
import BehaviorTree.Leaf.Look
import BehaviorTree.Leaf.Move
import BehaviorTree.Leaf.Scan
import BehaviorTree.Tree.Node

namespace BehaviorTree

/-- An action; `χ` are a host's own path providers. -/
inductive Action (χ : Type) where
  | listen (timer : Timer)
  | look (look : Look)
  | scan (scan : Scan)
  | move (move : Move χ)

namespace Action

variable {χ : Type}

/-- Begins a run. -/
def enter : Action χ → Situation → Action χ × Situation
  | .listen timer, s => (.listen timer.restart, s)
  | .look l, s => (.look l.enter, s)
  | .scan c, s =>
    let (c, s) := c.enter s
    (.scan c, s)
  | .move m, s => (.move m, s)

/-- Goes on with a run. -/
def tick (host : HostProviders χ) : Action χ → Float32 → Situation → Status × Action χ × Situation
  | .listen timer, dt, s =>
    let (status, timer) := timer.pass dt
    (status, .listen timer, s)
  | .look l, dt, s =>
    let (status, l, s) := l.tick dt s
    (status, .look l, s)
  | .scan c, dt, s =>
    let (status, c, s) := c.tick dt s
    (status, .scan c, s)
  | .move m, _, s =>
    let (status, m, s) := m.tick host s
    (status, .move m, s)

/-- Ends a run. -/
def exit : Action χ → Action χ
  | .scan c => .scan c.exit
  | a => a

end Action

/-- **`Leaves.builtIn`** — what the actions and conditions do. -/
def Leaves.builtIn {χ φ : Type} (host : HostProviders χ) : Leaves (Action χ) Condition Situation φ where
  enter a s := a.enter s
  tick a dt s :=
    let (status, a, s) := a.tick host dt s
    (.ok status, a, s)
  exit a s := (a.exit, s)
  test k s := (.ok (k.holds s), s)

/-- No providers but the library's own. -/
def HostProviders.none : HostProviders Empty :=
  fun own _ => nomatch own

end BehaviorTree
