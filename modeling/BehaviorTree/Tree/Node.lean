/-
# BehaviorTree.Tree.Node — behaviour trees and their ticks

A tree is made of selectors and sequences with actions, conditions and waits as leaves. It remembers
where it is: a selector which child is running, a sequence which child comes next, an action whether it
has been entered, a wait how much is left.

A tick goes to the child where the last one stopped and from there through the following children:

* a selector passes on over failures, and fails at the end;
* a sequence passes on over successes, and succeeds at the end.

So both are one walk (`Node.tickFrom`) with another status to pass over. What the leaves do is up to a
kit of functions (`Leaves`), on a state of any type. A leaf may also end a tick by a fault; then the
tree stays as far as it got.
-/
import BehaviorTree.Numeric.Text
import BehaviorTree.Status
import BehaviorTree.Text.Quoted

namespace BehaviorTree

/-! ## § Leaves -/

/-- What leaves do: `α` are the actions, `κ` the conditions, `ω` is what they work on and `φ` are the
faults by which they can end a tick. -/
structure Leaves (α κ ω φ : Type) where
  /-- Begins a run of an action. -/
  enter : α → ω → α × ω
  /-- Goes on with a run. -/
  tick : α → Float32 → ω → Except φ Status × α × ω
  /-- Ends a run. -/
  exit : α → ω → α × ω
  /-- Whether a condition holds. -/
  test : κ → ω → Except φ Bool × ω

/-- Two kinds of leaves side by side. -/
def Leaves.sum {α κ β μ ω φ : Type} (first : Leaves α κ ω φ) (second : Leaves β μ ω φ) :
    Leaves (α ⊕ β) (κ ⊕ μ) ω φ where
  enter
    | .inl a, s => let (a, s) := first.enter a s; (.inl a, s)
    | .inr b, s => let (b, s) := second.enter b s; (.inr b, s)
  tick
    | .inl a, dt, s => let (r, a, s) := first.tick a dt s; (r, .inl a, s)
    | .inr b, dt, s => let (r, b, s) := second.tick b dt s; (r, .inr b, s)
  exit
    | .inl a, s => let (a, s) := first.exit a s; (.inl a, s)
    | .inr b, s => let (b, s) := second.exit b s; (.inr b, s)
  test
    | .inl k, s => first.test k s
    | .inr m, s => second.test m s

/-- An action in a tree. -/
structure ActionNode (α : Type) where
  name : String
  /-- Whether a run has begun and not ended. -/
  entered : Bool := false
  leaf : α

namespace ActionNode

variable {α κ ω φ : Type}

/-- Begins a run if there is none, goes on with it, and ends it unless the action is still running. -/
def tick (kit : Leaves α κ ω φ) (dt : Float32) (n : ActionNode α) (s : ω) :
    Except φ Status × ActionNode α × ω :=
  let (leaf, s) := if n.entered then (n.leaf, s) else kit.enter n.leaf s
  match kit.tick leaf dt s with
  | (.ok .running, leaf, s) => (.ok .running, { n with entered := true, leaf }, s)
  | (.error fault, leaf, s) => (.error fault, { n with entered := true, leaf }, s)
  | (.ok status, leaf, s) =>
    let (leaf, s) := kit.exit leaf s
    (.ok status, { n with entered := false, leaf }, s)

/-- Ends the run, if there is one. -/
def abort (kit : Leaves α κ ω φ) (n : ActionNode α) (s : ω) : ActionNode α × ω :=
  if n.entered then
    let (leaf, s) := kit.exit n.leaf s
    ({ n with entered := false, leaf }, s)
  else (n, s)

end ActionNode

/-- A timer that is ticked down once and then stays spent. -/
structure Wait where
  seconds : Float32
  remaining : Float32

namespace Wait

/-- A wait that has not begun. -/
def full (seconds : Float32) : Wait :=
  ⟨seconds, seconds⟩

/-- Running as long as time remains. Only a positive time that is a number counts. -/
def tick (w : Wait) (dt : Float32) : Status × Wait :=
  if w.seconds ≤ 0 ∨ w.remaining < 0 then (.success, w)
  else
    let w := if dt.isFinite ∧ 0 < dt then { w with remaining := w.remaining - dt } else w
    (if 0 ≤ w.remaining then .running else .success, w)

end Wait

/-! ## § Trees -/

/-- A behaviour tree. -/
inductive Node (α κ : Type) where
  | selector (running : Option Nat) (children : List (Node α κ))
  | sequence (index : Nat) (children : List (Node α κ))
  | action (node : ActionNode α)
  | condition (name : String) (leaf : κ)
  | wait (timer : Wait)

namespace Node

variable {α κ ω φ : Type}

/-- The children of a node. -/
def children : Node α κ → List (Node α κ)
  | .selector _ children | .sequence _ children => children
  | _ => []

/-- The name of a node's kind. -/
def kind : Node α κ → String
  | .selector .. => "selector"
  | .sequence .. => "sequence"
  | .action .. => "action"
  | .condition .. => "condition"
  | .wait .. => "wait"

mutual

/-- The number of nodes of a tree. -/
def count : Node α κ → Nat
  | .selector _ children | .sequence _ children => 1 + countAll children
  | _ => 1

/-- The number of nodes of several trees. -/
def countAll : List (Node α κ) → Nat
  | [] => 0
  | node :: rest => count node + countAll rest

end

/-! ## § Ticks -/

/-- Where a walk through children came to a stop, and with which answer of the child; nothing if all
children were passed. -/
abbrev Stop (φ : Type) := Option (Nat × Except φ Status)

/-- A stop, counted from one child earlier. -/
def Stop.shift (stop : Stop φ) : Stop φ :=
  stop.map fun (i, answer) => (i + 1, answer)

/-- What a selector answers after a walk, and which child is running then. After a fault it still
points to the child from which the walk began. -/
def selected (running : Option Nat) : Stop φ → Except φ Status × Option Nat
  | none => (.ok .failure, none)
  | some (i, .ok .running) => (.ok .running, some i)
  | some (_, .ok status) => (.ok status, none)
  | some (_, .error fault) => (.error fault, running)

/-- What a sequence answers after a walk, and which child comes next then. After a fault it points to
the child of the fault. -/
def sequenced : Stop φ → Except φ Status × Nat
  | none => (.ok .success, 0)
  | some (i, .ok .running) => (.ok .running, i)
  | some (_, .ok status) => (.ok status, 0)
  | some (i, .error fault) => (.error fault, i)

mutual

/-- **`Node.tick`** — one tick of a tree. -/
def tick (kit : Leaves α κ ω φ) (dt : Float32) :
    Node α κ → ω → Except φ Status × Node α κ × ω
  | .selector running children, s =>
    let (stop, children, s) := tickFrom kit dt .failure (running.getD 0) children s
    let (answer, running) := selected running stop
    (answer, .selector running children, s)
  | .sequence index children, s =>
    let (stop, children, s) := tickFrom kit dt .success index children s
    let (answer, index) := sequenced stop
    (answer, .sequence index children, s)
  | .action node, s =>
    let (answer, node, s) := node.tick kit dt s
    (answer, .action node, s)
  | .condition name leaf, s =>
    let (holds, s) := kit.test leaf s
    (holds.map Status.ofBool, .condition name leaf, s)
  | .wait timer, s =>
    let (status, timer) := timer.tick dt
    (.ok status, .wait timer, s)

/-- Ticks the children after the first `skip` ones, in their order, as long as they answer `onward`. -/
def tickFrom (kit : Leaves α κ ω φ) (dt : Float32) (onward : Status) :
    Nat → List (Node α κ) → ω → Stop φ × List (Node α κ) × ω
  | _, [], s => (none, [], s)
  | skip + 1, child :: rest, s =>
    let (stop, rest, s) := tickFrom kit dt onward skip rest s
    (Stop.shift stop, child :: rest, s)
  | 0, child :: rest, s =>
    match tick kit dt child s with
    | (.error fault, child, s) => (some (0, .error fault), child :: rest, s)
    | (.ok status, child, s) =>
      if status = onward then
        let (stop, rest, s) := tickFrom kit dt onward 0 rest s
        (Stop.shift stop, child :: rest, s)
      else (some (0, .ok status), child :: rest, s)

end

/-! ## § Aborts -/

mutual

/-- **`Node.abort`** — brings a tree back to its beginning; runs of actions are ended. What a wait has
spent stays spent. -/
def abort (kit : Leaves α κ ω φ) : Node α κ → ω → Node α κ × ω
  | .selector _ children, s =>
    let (children, s) := abortAll kit children s
    (.selector none children, s)
  | .sequence _ children, s =>
    let (children, s) := abortAll kit children s
    (.sequence 0 children, s)
  | .action node, s =>
    let (node, s) := node.abort kit s
    (.action node, s)
  | .condition name leaf, s => (.condition name leaf, s)
  | .wait timer, s => (.wait timer, s)

/-- Aborts several trees, one after the other. -/
def abortAll (kit : Leaves α κ ω φ) : List (Node α κ) → ω → List (Node α κ) × ω
  | [], s => ([], s)
  | node :: rest, s =>
    let (node, s) := abort kit node s
    let (rest, s) := abortAll kit rest s
    (node :: rest, s)

end

/-! ## § Debugging -/

mutual

/-- A tree as a debug line shows it. -/
def debug : Node α κ → String
  | .selector running children =>
    Text.fields "Selector"
      [("running", Text.optional (running.map toString)),
        ("children", Text.bracketed "[" "]" (debugAll children))]
  | .sequence index children =>
    Text.fields "Sequence"
      [("index", toString index), ("children", Text.bracketed "[" "]" (debugAll children))]
  | .action node =>
    Text.fields "Action"
      [("name", Text.quoted node.name), ("entered", toString node.entered)]
  | .condition name _ => Text.fields "Condition" [("name", Text.quoted name)]
  | .wait timer =>
    Text.fields "Wait"
      [("seconds", Numeric.Spelling.log.single timer.seconds),
        ("remaining", Numeric.Spelling.log.single timer.remaining)]

/-- Several trees, each as a debug line shows it. -/
def debugAll : List (Node α κ) → List String
  | [] => []
  | node :: rest => debug node :: debugAll rest

end

end Node

end BehaviorTree
