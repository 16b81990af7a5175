/-
# BehaviorTree.Proofs.Drive — what a tree does from one call to the next

Two trees are compared by what they do: the same calls are made of both, starting from the same state, and
what can be seen is written down after every call. That is the answer, the calls of leaves, and what the
leaves have left of the state on which they work (`Event`). Between two calls the surroundings may change
the state as well.

Unlike in a `Run`, one state is handed from call to call here. A tick that ends by a fault is the last
call: it leaves no status behind, and nothing is expected of the tree after it.

`Lockstep` is the way to show that two trees do the same, or the same up to a translation of what is seen:
a relation between trees that every call preserves.
-/
import BehaviorTree.Proofs.LeafLog
import Mathlib.Data.Option.Basic

namespace BehaviorTree

variable {α κ β μ ω φ : Type}

/-- What is done to a tree, or to the state between two calls of it. -/
inductive Call (ω : Type) where
  | tick (dt : Float32)
  | abort
  | change (f : ω → ω)

/-- What can be seen of a call: the answer if it was a tick, the calls of leaves, and the state after
it. -/
structure Event (ω φ : Type) where
  answer : Option (Except φ Status)
  log : LeafLog φ
  state : ω

namespace Node

/-- One call: what can be seen of it, and the tree that is left. A fault leaves none. -/
def respond (kit : Leaves α κ ω φ) (tree : Node α κ) :
    Call ω → ω → Event ω φ × Option (Node α κ)
  | .tick dt, s =>
    match tree.tick kit dt s with
    | (.ok status, tree', s') => (⟨some (.ok status), tree.calls kit dt 0 s, s'⟩, some tree')
    | (.error fault, _, s') => (⟨some (.error fault), tree.calls kit dt 0 s, s'⟩, none)
  | .abort, s =>
    let (tree', s') := tree.abort kit s
    (⟨none, tree.exits 0, s'⟩, some tree')
  | .change f, s => (⟨none, [], f s⟩, some tree)

/-- **`Node.drive`** — all that can be seen while these calls are made of a tree. -/
def drive (kit : Leaves α κ ω φ) : List (Call ω) → Node α κ → ω → List (Event ω φ)
  | [], _, _ => []
  | call :: calls, tree, s =>
    match tree.respond kit call s with
    | (event, some tree') => event :: drive kit calls tree' event.state
    | (event, none) => [event]

end Node

/-- **`Lockstep`** — whatever call is made of two related trees, what is seen of the second one is the
translation of what is seen of the first, and they are related afterwards. -/
structure Lockstep (kit : Leaves α κ ω φ) (kit' : Leaves β μ ω φ)
    (translate : Event ω φ → Event ω φ) (R : Node α κ → Node β μ → Prop) : Prop where
  state_eq : ∀ event, (translate event).state = event.state
  respond : ∀ {tree other}, R tree other → ∀ call s,
    (other.respond kit' call s).1 = translate (tree.respond kit call s).1 ∧
      Option.Rel R (tree.respond kit call s).2 (other.respond kit' call s).2

/-- **`Lockstep.drive_eq`** — then this is so for any number of calls. -/
theorem Lockstep.drive_eq {kit : Leaves α κ ω φ} {kit' : Leaves β μ ω φ}
    {translate : Event ω φ → Event ω φ} {R : Node α κ → Node β μ → Prop}
    (hlockstep : Lockstep kit kit' translate R) (calls : List (Call ω)) {tree : Node α κ}
    {other : Node β μ} (h : R tree other) (s : ω) :
    other.drive kit' calls s = (tree.drive kit calls s).map translate := by
  induction calls generalizing tree other s with
  | nil => rfl
  | cons call calls ih =>
    obtain ⟨hevent, hrest⟩ := hlockstep.respond h call s
    rcases htree : tree.respond kit call s with ⟨event, next⟩
    rcases hother : other.respond kit' call s with ⟨event', next'⟩
    rw [htree, hother] at hevent hrest
    simp only at hevent hrest
    subst hevent
    cases hrest with
    | none => simp only [Node.drive, htree, hother, List.map_cons, List.map_nil]
    | some hnext =>
      simp only [Node.drive, htree, hother, List.map_cons, hlockstep.state_eq, ih hnext]

end BehaviorTree
