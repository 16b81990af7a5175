/-
# BehaviorTree.Tree.Document — trees from documents

A tree document is an object with a `root`, which is a node. A node is an object whose `type` decides
what else it has to have: selectors and sequences have `children`, actions and conditions a `name` that
is registered and perhaps `params`, waits have `seconds`. Everything else in it is passed over.

The first defective node, in the order in which nodes stand in the document, is the one reported: a
node is checked before its children, and one child before the next.
-/
import BehaviorTree.Json.Reader
import BehaviorTree.Registry
import BehaviorTree.Tree.Defect

namespace BehaviorTree

open BehaviorTree.Json (member?)

/-- The members of a node, by their keys. -/
abbrev Members := List (String × Json)

/-! ## § One node -/

/-- The types of nodes. -/
inductive NodeType where
  | selector
  | sequence
  | action
  | condition
  | wait
  deriving DecidableEq

/-- The type of that name. -/
def NodeType.ofText? : String → Option NodeType
  | "selector" => some .selector
  | "sequence" => some .sequence
  | "action" => some .action
  | "condition" => some .condition
  | "wait" => some .wait
  | _ => none

namespace Members

/-- A field that has to be a text. -/
def text (members : Members) (field : NodeField) : Except Defect String :=
  match member? field.text members with
  | none => .error (.missingField field)
  | some (.text s) => .ok s
  | some _ => .error (.invalidField field)

/-- The type of a node. -/
def type (members : Members) : Except Defect NodeType := do
  let name ← members.text .type
  match NodeType.ofText? name with
  | some type => return type
  | none => throw (.unknownType name)

/-- The parameter block of a leaf; none at all is an empty one. -/
def params (members : Members) : Except Defect Json :=
  match member? NodeField.params.text members with
  | none | some .null => .ok (.object [])
  | some (.object params) => .ok (.object params)
  | some _ => .error (.invalidField .params)

/-- The name of a leaf, and the leaf. -/
def leaf {α : Type} (members : Members) (kind : LeafKind) (registry : Registry α) :
    Except Defect (String × α) := do
  let name ← members.text .name
  let params ← members.params
  match registry.create? name params with
  | none => throw (.unknownLeaf kind name)
  | some (.error cause) => throw (.invalidParams kind name cause)
  | some (.ok leaf) => return (name, leaf)

/-- The time of a wait. -/
def seconds (members : Members) : Except Defect Float32 :=
  match member? NodeField.seconds.text members with
  | none => .error (.missingField .seconds)
  | some (.number n) => .ok (Numeric.toSingle n.toFloat)
  | some _ => .error (.invalidField .seconds)

end Members

namespace Node

variable {α κ : Type}

/-- What is found out about the node at a path. -/
def located {β : Type} (path : NodePath) : Except Defect β → Except LoadError β
  | .ok value => .ok value
  | .error defect => .error (.defective path defect)

/-! ## § Trees -/

mutual

/-- The tree below a node. -/
def ofJson (registries : Registries α κ) (path : NodePath) : Json → Except LoadError (Node α κ)
  | .object members => do
    match ← located path (Members.type members) with
    | .selector => return .selector none (← childrenOfMembers registries path members)
    | .sequence => return .sequence 0 (← childrenOfMembers registries path members)
    | .action =>
      let (name, leaf) ← located path (Members.leaf members .action registries.actions)
      return .action { name, leaf }
    | .condition =>
      let (name, leaf) ← located path (Members.leaf members .condition registries.conditions)
      return .condition name leaf
    | .wait => return .wait (.full (← located path (Members.seconds members)))
  | _ => .error (.defective path (.invalidField .node))

/-- The children that the members of a node name. -/
def childrenOfMembers (registries : Registries α κ) (path : NodePath) :
    List (String × Json) → Except LoadError (List (Node α κ))
  | [] => .error (.defective path (.missingField .children))
  | (key, value) :: rest =>
    if key = NodeField.children.text then childrenOfJson registries path value
    else childrenOfMembers registries path rest

/-- The children that the value of a member is. -/
def childrenOfJson (registries : Registries α κ) (path : NodePath) :
    Json → Except LoadError (List (Node α κ))
  | .array items => ofItems registries path 0 items
  | _ => .error (.defective path (.invalidField .children))

/-- The children from number `i` on. -/
def ofItems (registries : Registries α κ) (path : NodePath) (i : Nat) :
    List Json → Except LoadError (List (Node α κ))
  | [] => .ok []
  | item :: rest => do
    let node ← ofJson registries (path ++ [i]) item
    let nodes ← ofItems registries path (i + 1) rest
    return node :: nodes

end

/-! ## § Documents -/

/-- **`Node.ofDocument`** — the tree of a document. -/
def ofDocument (registries : Registries α κ) (document : Json) : Except LoadError (Node α κ) :=
  match document with
  | .object members =>
    match member? "root" members with
    | some root => ofJson registries [] root
    | none => .error .missingRoot
  | _ => .error .missingRoot

/-- The tree of a document that is given as text. -/
def ofText (registries : Registries α κ) (text : String) : Except LoadError (Node α κ) :=
  match Json.read? text with
  | some document => ofDocument registries document
  | none => .error .malformed

/-- The tree of a document that was to be read from a file. -/
def ofRead (registries : Registries α κ) (read : Except ReadError String) :
    Except LoadError (Node α κ) :=
  match read with
  | .ok text => ofText registries text
  | .error cause => .error (.unreadable cause)

end Node

end BehaviorTree
