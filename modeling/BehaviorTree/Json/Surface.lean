/-
# BehaviorTree.Json.Surface — a JSON text before its values are settled

The surface form keeps what the text says: the members of an object in their order with all repeated
keys, numbers that are too large (`none`), and texts with an unpaired surrogate (`none`). Two values
can be got from it:

* `value?` — a document as a value: the members of an object are put in order and a repeated key keeps
  its last value;
* `record?` — a document as a record: only the members that the record's `Outline` knows are kept, in
  the order of the text and with all repetitions, so that whatever decodes the record can refuse a
  repeated field. The members that it does not know are passed over unread.

Both refuse a number or a text that is no value, and what is nested too deep.
-/
import BehaviorTree.Json.Basic

namespace BehaviorTree.Json

/-- The surface form of a JSON text. -/
inductive Surface where
  | null
  | bool (b : Bool)
  | number (n : Option Number)
  | text (s : Option String)
  | array (items : List Surface)
  | object (members : List (Option String × Surface))
  deriving Inhabited

/-- How many arrays and objects may stand inside one another. -/
def nestingLimit : Nat := 127

/-! ## § Settling -/

mutual

/-- The value of a surface form, the members of each object arranged by `arrange`, which is given the
members one by one from the last to the first. At most `depth` arrays and objects may stand inside
one another. -/
def Surface.settle? (arrange : String → Json → List (String × Json) → List (String × Json))
    (depth : Nat) : Surface → Option Json
  | .null => some .null
  | .bool b => some (.bool b)
  | .number n => n.map .number
  | .text s => s.map .text
  | .array items =>
    if depth = 0 then none
    else (Surface.settleItems? arrange (depth - 1) items).map .array
  | .object members =>
    if depth = 0 then none
    else (Surface.settleMembers? arrange (depth - 1) members).map .object

/-- The values of the items of an array. -/
def Surface.settleItems? (arrange : String → Json → List (String × Json) → List (String × Json))
    (depth : Nat) : List Surface → Option (List Json)
  | [] => some []
  | s :: rest => do
    let v ← Surface.settle? arrange depth s
    let vs ← Surface.settleItems? arrange depth rest
    return v :: vs

/-- The members of an object, arranged. -/
def Surface.settleMembers? (arrange : String → Json → List (String × Json) → List (String × Json))
    (depth : Nat) : List (Option String × Surface) → Option (List (String × Json))
  | [] => some []
  | (key, s) :: rest => do
    let key ← key
    let v ← Surface.settle? arrange depth s
    let vs ← Surface.settleMembers? arrange depth rest
    return arrange key v vs

end

/-- Members in ascending order of the keys; of a repeated key the value that stands last in the text
is there already and stays. -/
def keepLast (key : String) (value : Json) (members : List (String × Json)) : List (String × Json) :=
  if (member? key members).isSome then members else insertMember key value members

/-- **`Surface.value?`** — the document as a value. -/
def Surface.value? (s : Surface) : Option Json :=
  s.settle? keepLast nestingLimit

/-! ## § Records -/

/-- What a decoder knows about the shape of a text: the fields of a record with the names that each of
them has, the one shape of the items of a list, or nothing (`whole`: all of it is read). -/
inductive Outline where
  | whole
  | items (item : Outline)
  | record (fields : List (List String × Outline))

/-- The outline of a field that the record knows. -/
def Outline.field? (key : String) : List (List String × Outline) → Option Outline
  | [] => none
  | (names, o) :: rest => if names.contains key then some o else Outline.field? key rest

mutual

/-- A surface form without the members that its outline does not know. A record may also be written as
an array of its members' values in their order. -/
def Surface.prune : Outline → Surface → Surface
  | .items item, .array items => .array (Surface.pruneItems item items)
  | .record known, .array items => .array (Surface.pruneFields known items)
  | .record known, .object members => .object (Surface.pruneMembers known members)
  | _, s => s

/-- The items of a list, each by the same outline. -/
def Surface.pruneItems (item : Outline) : List Surface → List Surface
  | [] => []
  | s :: rest => s.prune item :: Surface.pruneItems item rest

/-- The values of a record written as an array, each by the outline in its place. -/
def Surface.pruneFields : List (List String × Outline) → List Surface → List Surface
  | (_, o) :: known, s :: rest => s.prune o :: Surface.pruneFields known rest
  | _, items => items

/-- The members of a record that it knows. A key that is no value is kept, so that it is refused. -/
def Surface.pruneMembers (known : List (List String × Outline)) :
    List (Option String × Surface) → List (Option String × Surface)
  | [] => []
  | (none, s) :: rest => (none, s) :: Surface.pruneMembers known rest
  | (some key, s) :: rest =>
    match Outline.field? key known with
    | some o => (some key, s.prune o) :: Surface.pruneMembers known rest
    | none => Surface.pruneMembers known rest

end

/-- **`Surface.record?`** — the document as a record of the given outline. -/
def Surface.record? (o : Outline) (s : Surface) : Option Json :=
  (s.prune o).settle? (fun key v members => (key, v) :: members) nestingLimit

end BehaviorTree.Json
