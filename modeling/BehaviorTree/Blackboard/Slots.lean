/-
# BehaviorTree.Blackboard.Slots — values of any kinds, under numbers

Leaves and hosts keep values of their own in numbered slots. A slot remembers the kind of its value,
and a key asks for a slot's value as one kind. To ask for another kind than the stored one is a fault
of the program and not an empty answer; `remove` has taken the value out by then.

Which kinds there are is left open: all that the slots do with a kind is to compare it.
-/

namespace BehaviorTree

/-- A mistake of the program that ends what it is doing. -/
inductive Fault where
  /-- The value of a slot was asked for as another kind than the stored one. -/
  | slotMismatch (id : Nat)
  deriving DecidableEq

/-- The wording of a fault. -/
def Fault.message : Fault → String
  | .slotMismatch id =>
    "blackboard type mismatch for key id=" ++ toString id ++
      " (stored type differs from requested)"

/-- A value with its kind. `κ` are the kinds of values, and `Carrier` has the values of each kind. -/
structure Slot {κ : Type} (Carrier : κ → Type) where
  kind : κ
  value : Carrier kind

/-- A key to the slot of some number, for values of one kind. -/
structure Slots.Key {κ : Type} (kind : κ) where
  id : Nat

/-- The slots that hold a value, by their numbers. -/
abbrev Slots {κ : Type} (Carrier : κ → Type) := List (Nat × Slot Carrier)

variable {κ : Type} {Carrier : κ → Type}

/-- The value as one of a kind, if it is one. -/
def Slot.as? [DecidableEq κ] (slot : Slot Carrier) (kind : κ) : Option (Carrier kind) :=
  if h : slot.kind = kind then some (h ▸ slot.value) else none

namespace Slots

/-- The slot of that number. -/
def find? (slots : Slots Carrier) (id : Nat) : Option (Slot Carrier) :=
  slots.lookup id

/-- The slots without that number. -/
def erase (slots : Slots Carrier) (id : Nat) : Slots Carrier :=
  slots.filter (·.1 != id)

/-- Stores a value, in place of what was there. -/
def set {kind : κ} (slots : Slots Carrier) (key : Key kind) (value : Carrier kind) : Slots Carrier :=
  (key.id, ⟨kind, value⟩) :: slots.erase key.id

variable [DecidableEq κ] {kind : κ}

/-- The stored value, if there is one. -/
def get (slots : Slots Carrier) (key : Key kind) : Except Fault (Option (Carrier kind)) :=
  match slots.find? key.id with
  | none => .ok none
  | some slot =>
    match slot.as? kind with
    | some value => .ok (some value)
    | none => .error (.slotMismatch key.id)

/-- Changes the stored value, if there is one; the new value is returned too. -/
def update (slots : Slots Carrier) (key : Key kind) (change : Carrier kind → Carrier kind) :
    Except Fault (Option (Carrier kind) × Slots Carrier) := do
  match ← slots.get key with
  | none => return (none, slots)
  | some value => return (some (change value), slots.set key (change value))

/-- Takes the stored value out. -/
def remove (slots : Slots Carrier) (key : Key kind) :
    Except Fault (Option (Carrier kind)) × Slots Carrier :=
  (slots.get key, slots.erase key.id)

end Slots

end BehaviorTree
