/-
# BehaviorTree.Proofs.SlotAccess — what a call for the wrong kind does to a slot

Values are stored under numbers and asked for as some kind. To ask for another kind than the stored one is a fault, and
whoever catches it may go on. The question is what is left then.

A call has to do with the slot of its number alone, and what it leaves there depends on nothing but what was there
(`SlotCall.find?_make_self`, `SlotCall.find?_make_other`). So each slot has a history of its own: after any calls it
holds what the calls for its number have left in it one after the other (`SlotCall.stored`, `SlotCall.find?_after`), the
faulty ones included.

Of the calls that ask for a value, `get` and `update` look before they take. `remove` takes the value out and looks
then, so a removal for the wrong kind is a fault and has emptied the slot all the same (`SlotCall.mismatch_leaves`).
-/
import BehaviorTree.Blackboard.Basic
import Mathlib.Data.List.Induction

namespace BehaviorTree

/-! ## § One slot among others -/

namespace Slots

variable {κ : Type} {Carrier : κ → Type} {kind : κ} {slots : Slots Carrier} {slot : Slot Carrier}

theorem find?_cons (number : Nat) (slot : Slot Carrier) (rest : Slots Carrier) (id : Nat) :
    Slots.find? ((number, slot) :: rest) id = if id = number then some slot else Slots.find? rest id := by
  by_cases h : id = number
  · simp [find?, h]
  · have hne : (id == number) = false := by simpa using h
    simp [find?, List.lookup_cons, h, hne]

/-- The other slots are as they were. -/
theorem find?_erase (slots : Slots Carrier) (id other : Nat) :
    (slots.erase id).find? other = if other = id then none else slots.find? other := by
  induction slots with
  | nil => simp [erase, find?]
  | cons entry rest ih =>
    obtain ⟨number, slot⟩ := entry
    have herase : Slots.erase ((number, slot) :: rest) id =
        if number = id then Slots.erase rest id else (number, slot) :: Slots.erase rest id := by
      by_cases h : number = id <;> simp [erase, h]
    rw [herase, find?_cons]
    by_cases hnumber : number = id
    · -- the entry is left out, and who asks for another number does not meet it
      rw [if_pos hnumber, ih, hnumber]
      split <;> rfl
    · rw [if_neg hnumber, find?_cons, ih]
      by_cases hother : other = number
      · rw [if_pos hother, if_neg (hother ▸ hnumber), if_pos hother]
      · rw [if_neg hother, if_neg hother]

theorem find?_set (slots : Slots Carrier) (key : Slots.Key kind) (value : Carrier kind) (other : Nat) :
    (slots.set key value).find? other = if other = key.id then some ⟨kind, value⟩ else slots.find? other := by
  rw [set, find?_cons, find?_erase]
  split <;> rfl

/-- **`Slots.Finds`** — all that a key can find, and what is answered: an empty slot, a value of its kind, or one of
another kind. -/
inductive Finds (slots : Slots Carrier) (key : Slots.Key kind) : Except Fault (Option (Carrier kind)) → Prop
  | empty : slots.find? key.id = none → Finds slots key (.ok none)
  | value {value : Carrier kind} : slots.find? key.id = some ⟨kind, value⟩ → Finds slots key (.ok (some value))
  | other {slot : Slot Carrier} : slots.find? key.id = some slot → slot.kind ≠ kind →
      Finds slots key (.error (.slotMismatch key.id))

variable [DecidableEq κ]

theorem finds_get (slots : Slots Carrier) (key : Slots.Key kind) : Finds slots key (slots.get key) := by
  unfold get
  cases hfind : slots.find? key.id with
  | none => exact .empty hfind
  | some slot =>
    by_cases hkind : slot.kind = kind
    · obtain ⟨_, value⟩ := slot
      obtain rfl := hkind
      simpa [Slot.as?] using .value hfind
    · simpa [Slot.as?, hkind] using .other hfind hkind

/-- A value is read as what it is. -/
theorem get_of_find? {id : Nat} (h : slots.find? id = some slot) :
    slots.get (⟨id⟩ : Slots.Key slot.kind) = .ok (some slot.value) := by
  simp [get, h, Slot.as?]

theorem get_of_empty {key : Slots.Key kind} (h : slots.find? key.id = none) : slots.get key = .ok none := by
  simp [get, h]

theorem update_eq (slots : Slots Carrier) (key : Slots.Key kind) (change : Carrier kind → Carrier kind) :
    slots.update key change = (slots.get key).map fun held =>
      (held.map change, held.elim slots fun value => slots.set key (change value)) := by
  unfold update
  rcases slots.get key with fault | _ | value <;> rfl

end Slots

/-! ## § Calls -/

/-- **`SlotCall`** — a call on the slots: a value is stored, read, changed or taken out. -/
inductive SlotCall {κ : Type} (Carrier : κ → Type) where
  | set {kind : κ} (key : Slots.Key kind) (value : Carrier kind)
  | get {kind : κ} (key : Slots.Key kind)
  | update {kind : κ} (key : Slots.Key kind) (change : Carrier kind → Carrier kind)
  | remove {kind : κ} (key : Slots.Key kind)

namespace SlotCall

variable {κ : Type} {Carrier : κ → Type}

/-- The number of the slot. -/
def number : SlotCall Carrier → Nat
  | .set key _ | .get key | .update key _ | .remove key => key.id

/-- The kind for which the caller holds a key. -/
def kind : SlotCall Carrier → κ
  | @set _ _ kind .. | @get _ _ kind _ | @update _ _ kind .. | @remove _ _ kind _ => kind

/-- Whether a call asks for the stored value. -/
def asks : SlotCall Carrier → Bool
  | .set .. => false
  | .get _ | .update .. | .remove _ => true

/-- Whether a call takes the stored value out. -/
def removes : SlotCall Carrier → Bool
  | .remove _ => true
  | .set .. | .get _ | .update .. => false

variable [DecidableEq κ]

/-- **`SlotCall.make`** — makes a call: the fault, if it is one, and the slots with which the caller goes on. Where
there are none after a fault, those are the ones that he had. -/
def make (slots : Slots Carrier) : SlotCall Carrier → Except Fault Unit × Slots Carrier
  | .set key value => (.ok (), slots.set key value)
  | .get key => ((slots.get key).map fun _ => (), slots)
  | .update key change =>
    match slots.update key change with
    | .ok (_, slots) => (.ok (), slots)
    | .error fault => (.error fault, slots)
  | .remove key => ((slots.remove key).1.map fun _ => (), (slots.remove key).2)

/-- The slots after these calls, on a new blackboard. -/
def after (calls : List (SlotCall Carrier)) : Slots Carrier :=
  calls.foldl (fun slots call => (call.make slots).2) []

/-- What a call leaves in its slot, by what is there. -/
def leaves (held : Option (Slot Carrier)) : SlotCall Carrier → Option (Slot Carrier)
  | @set _ _ kind _ value => some ⟨kind, value⟩
  | .get _ => held
  | @update _ _ kind _ change =>
    match held.bind (Slot.as? · kind) with
    | some value => some ⟨kind, change value⟩
    | none => held
  | .remove _ => none

/-- **`SlotCall.stored`** — what a slot holds after these calls: what those for its number have left in it, one after
the other. -/
def stored (calls : List (SlotCall Carrier)) (id : Nat) : Option (Slot Carrier) :=
  (calls.filter (·.number = id)).foldl leaves none

variable {slots : Slots Carrier} {call : SlotCall Carrier} {calls : List (SlotCall Carrier)} {slot : Slot Carrier}

/-- **`SlotCall.find?_make_other`** — a call leaves the slots of other numbers alone. -/
theorem find?_make_other {id : Nat} (h : id ≠ call.number) : (call.make slots).2.find? id = slots.find? id := by
  cases call with
  | set key value => exact (slots.find?_set key value id).trans (if_neg h)
  | get key => rfl
  | update key change =>
    simp only [make, Slots.update_eq]
    rcases slots.get key with fault | _ | value
    · rfl
    · rfl
    · exact (slots.find?_set key (change value) id).trans (if_neg h)
  | remove key => exact (slots.find?_erase key.id id).trans (if_neg h)

/-- **`SlotCall.find?_make_self`** — what a call leaves in its own slot depends on what was there. -/
theorem find?_make_self (slots : Slots Carrier) (call : SlotCall Carrier) :
    (call.make slots).2.find? call.number = call.leaves (slots.find? call.number) := by
  cases call with
  | set key value => exact (slots.find?_set key value key.id).trans (if_pos rfl)
  | get key => rfl
  | @update kind key change =>
    have hfinds := slots.finds_get key
    simp only [make, Slots.update_eq]
    generalize slots.get key = answer at hfinds
    cases hfinds with
    | empty hnone =>
      show slots.find? key.id = (update key change).leaves (slots.find? key.id)
      rw [hnone]
      rfl
    | @value value hvalue =>
      refine (slots.find?_set key (change value) key.id).trans ((if_pos rfl).trans ?_)
      show _ = (update key change).leaves (slots.find? key.id)
      simp [hvalue, leaves, Slot.as?]
    | other hother hkind =>
      show slots.find? key.id = (update key change).leaves (slots.find? key.id)
      simp [hother, leaves, Slot.as?, hkind]
  | remove key => exact (slots.find?_erase key.id key.id).trans (if_pos rfl)

/-- A call is a fault if and only if it asks for another kind than the stored one. -/
theorem make_eq_error_iff {fault : Fault} :
    (call.make slots).1 = .error fault ↔
      fault = .slotMismatch call.number ∧ call.asks = true ∧
        ∃ slot, slots.find? call.number = some slot ∧ slot.kind ≠ call.kind := by
  have hget {kind : κ} (key : Slots.Key kind) {ρ : Type} (f : Option (Carrier kind) → ρ) :
      (slots.get key).map f = .error fault ↔ fault = .slotMismatch key.id ∧
        ∃ slot, slots.find? key.id = some slot ∧ slot.kind ≠ kind := by
    have hfinds := slots.finds_get key
    generalize slots.get key = answer at hfinds
    cases hfinds with
    | empty hnone => simp [Except.map, hnone]
    | value hvalue => simp [Except.map, hvalue]
    | other hother hkind => simpa [Except.map, hother, eq_comm] using fun _ => hkind
  cases call with
  | set key value => simp [make, asks]
  | get key => exact (hget key _).trans (by simp [asks, number, SlotCall.kind])
  | update key change =>
    have hanswer : (make slots (update key change)).1 = (slots.get key).map fun _ => () := by
      simp only [make, Slots.update_eq]
      rcases slots.get key with fault | value <;> rfl
    rw [hanswer]
    exact (hget key _).trans (by simp [asks, number, SlotCall.kind])
  | remove key => exact (hget key _).trans (by simp [asks, number, SlotCall.kind])

/-- **`SlotCall.find?_after`** — what a slot holds after any calls is a matter of those for its number alone. -/
theorem find?_after (calls : List (SlotCall Carrier)) (id : Nat) : (after calls).find? id = stored calls id := by
  induction calls using List.reverseRecOn with
  | nil => rfl
  | append_singleton calls call ih =>
    rw [after, List.foldl_append, ← after, stored, List.filter_append, List.foldl_append, ← stored]
    show (call.make (after calls)).2.find? id = _
    by_cases hid : call.number = id
    · obtain rfl := hid
      rw [find?_make_self, ih]
      simp
    · rw [find?_make_other (Ne.symm hid), ih]
      simp [hid]

/-! ## § Calls for the wrong kind -/

/-- A call for the wrong kind leaves its slot as it is, unless it takes the value out. -/
theorem leaves_of_mismatch (hasks : call.asks = true) (hkind : slot.kind ≠ call.kind) :
    call.leaves (some slot) = if call.removes then none else some slot := by
  cases call with
  | set key value => cases hasks
  | get key => rfl
  | @update kind key change =>
    have hnone : slot.as? kind = none := dif_neg hkind
    simp [leaves, removes, hnone]
  | remove key => rfl

/-- **`SlotCall.mismatch_leaves`** — take any calls on a new blackboard, faulty ones among them, and after them a call
that asks for a stored value as another kind than it is. Such a call is a fault.
* Every slot is as it was, except that a removal has emptied its own one.
* If it was no removal, the value can still be read and taken out as what it is.
* If it was one, then nothing is found there any more, for whatever kind is asked. -/
theorem mismatch_leaves {calls : List (SlotCall Carrier)} {call : SlotCall Carrier} {slot : Slot Carrier}
    (hasks : call.asks = true) (hstored : stored calls call.number = some slot) (hkind : slot.kind ≠ call.kind) :
    let left := (call.make (after calls)).2
    (call.make (after calls)).1 = .error (.slotMismatch call.number) ∧
      (∀ id, left.find? id = if call.removes = true ∧ id = call.number then none else stored calls id) ∧
      (call.removes = false →
        left.get (⟨call.number⟩ : Slots.Key slot.kind) = .ok (some slot.value) ∧
          (left.remove (⟨call.number⟩ : Slots.Key slot.kind)).1 = .ok (some slot.value)) ∧
      (call.removes = true → ∀ kind, left.get (⟨call.number⟩ : Slots.Key kind) = .ok none) := by
  intro left
  have hheld : (after calls).find? call.number = some slot := (find?_after calls call.number).trans hstored
  have hleft : left.find? call.number = if call.removes then none else some slot := by
    rw [find?_make_self, hheld, leaves_of_mismatch hasks hkind]
  refine ⟨make_eq_error_iff.mpr ⟨rfl, hasks, slot, hheld, hkind⟩, ?each, ?kept, ?emptied⟩
  case each =>
    intro id
    by_cases hid : id = call.number
    · simp [hid, hleft, hstored]
    · rw [find?_make_other hid, find?_after, if_neg fun h => hid h.2]
  case kept =>
    intro hkeeps
    rw [hkeeps] at hleft
    exact ⟨Slots.get_of_find? hleft, Slots.get_of_find? hleft⟩
  case emptied =>
    intro htakes kind
    rw [htakes] at hleft
    exact Slots.get_of_empty hleft

/-- A number is stored, a text is to be made of it, and then it is to be taken out as a truth value: it is lost. -/
theorem mismatch_loses_number :
    let calls : List (SlotCall SlotKind.Carrier) := [.set (⟨1⟩ : SlotKey .word) 5,
      .update (⟨1⟩ : SlotKey .text) (· ++ "!"), .set (⟨2⟩ : SlotKey .flag) true]
    stored calls 1 = some ⟨.word, 5⟩ ∧ SlotKind.word ≠ .flag ∧
      (make (after calls) (.remove (⟨1⟩ : SlotKey .flag))).1 = .error (.slotMismatch 1) ∧
      (make (after calls) (.remove (⟨1⟩ : SlotKey .flag))).2.get (⟨1⟩ : SlotKey .word) = .ok none := by
  intro calls
  have hstored : stored calls 1 = some ⟨.word, 5⟩ := rfl
  have hkind : SlotKind.word ≠ .flag := by decide
  have hasks : (SlotCall.remove (⟨1⟩ : SlotKey .flag) : SlotCall SlotKind.Carrier).asks = true := rfl
  obtain ⟨hfault, -, -, hempty⟩ := mismatch_leaves hasks hstored hkind
  exact ⟨hstored, hkind, hfault, hempty rfl .word⟩

/-- A call for the wrong kind does not always leave every slot as it was, nor can the value always be read after it. -/
theorem mismatch_empties_slot :
    ¬∀ (calls : List (SlotCall SlotKind.Carrier)) (call : SlotCall SlotKind.Carrier) (slot : Slot SlotKind.Carrier),
      call.asks = true → stored calls call.number = some slot → slot.kind ≠ call.kind →
      (∀ id, (call.make (after calls)).2.find? id = (after calls).find? id) ∧
        (call.make (after calls)).2.get (⟨call.number⟩ : SlotKey slot.kind) = .ok (some slot.value) := by
  intro h
  obtain ⟨hkept, -⟩ := h [.set (⟨1⟩ : SlotKey .word) 5] (.remove (⟨1⟩ : SlotKey .flag)) ⟨.word, 5⟩ rfl rfl (by decide)
  cases hkept 1

end SlotCall

end BehaviorTree
