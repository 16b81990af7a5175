/-
# BehaviorTree.Registry — which leaves a document can name

A registry maps names to factories, which make a leaf from a parameter block. To register a name again
replaces its factory. The names are kept in ascending order.
-/
import BehaviorTree.Leaf.BuiltIn
import BehaviorTree.Leaf.Settings

namespace BehaviorTree

/-- Makes a leaf from a parameter block. -/
abbrev Factory (α : Type) := Json → Except ParamError α

/-- The factories by their names, in ascending order. -/
structure Registry (α : Type) where
  entries : List (String × Factory α) := []

namespace Registry

variable {α β : Type}

/-- Puts an entry in its place, or in the place of the entry of the same name. -/
def insert (name : String) (factory : Factory α) :
    List (String × Factory α) → List (String × Factory α)
  | [] => [(name, factory)]
  | (other, f) :: rest =>
    if name < other then (name, factory) :: (other, f) :: rest
    else if name = other then (name, factory) :: rest
    else (other, f) :: insert name factory rest

/-- Registers a name. -/
def register (r : Registry α) (name : String) (factory : Factory α) : Registry α :=
  ⟨insert name factory r.entries⟩

/-- The names, in ascending order. -/
def names (r : Registry α) : List String :=
  r.entries.map (·.1)

/-- Whether a name is registered. -/
def contains (r : Registry α) (name : String) : Bool :=
  r.names.contains name

/-- Makes a leaf; nothing if the name is not registered. -/
def create? (r : Registry α) (name : String) (params : Json) : Option (Except ParamError α) :=
  (r.entries.lookup name).map fun factory => factory params

/-- The same registry for a larger type of leaves. -/
def map (f : α → β) (r : Registry α) : Registry β :=
  ⟨r.entries.map fun (name, factory) => (name, fun params => (factory params).map f)⟩

/-- The names as a debug line shows them. -/
def debug (r : Registry α) : String :=
  Text.bracketed "\x7b" "\x7d" (r.names.map Text.quoted)

end Registry

/-- The registries of actions and of conditions. -/
structure Registries (α κ : Type) where
  actions : Registry α := {}
  conditions : Registry κ := {}

namespace Registries

variable {α κ β μ χ : Type}

/-- The same registries for larger types of leaves. -/
def map (f : α → β) (g : κ → μ) (r : Registries α κ) : Registries β μ :=
  ⟨r.actions.map f, r.conditions.map g⟩

/-- Registries as a debug line shows them. -/
def debug (r : Registries α κ) : String :=
  Text.fields "Registries" [("actions", r.actions.debug), ("conditions", r.conditions.debug)]

/-- The factory of looking. -/
def look : Factory (Action χ) := fun params => do
  let settings ← LookSettings.shape.build id params
  return .look (← settings.look)

/-- **`Registries.builtIn`** — the leaves that come with the library. -/
def builtIn : Registries (Action χ) Condition where
  actions := (({} : Registry (Action χ)).register "listen"
      (ListenSettings.shape.build fun p => .listen (.full p.duration)))
    |>.register "look" look
    |>.register "scan" (ScanSettings.shape.build fun p => .scan (.ofSettings p))
    |>.register "move" (MoveSettings.shape.build fun p => .move p.move)
  conditions := (({} : Registry Condition).register "playerVisible"
      (PlayerVisibleSettings.shape.build PlayerVisibleSettings.condition))
    |>.register "heardNoiseWithin" (NoiseHeardSettings.shape.build NoiseHeardSettings.condition)

end Registries

end BehaviorTree
