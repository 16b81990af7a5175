/-
# BehaviorTree.Tree.Defect — why a document is no tree

A tree document is refused for one cause, and if a node is to blame, its path says which one: from the
root on, the number of the child to go to.
-/
import BehaviorTree.File.Basic
import BehaviorTree.Leaf.Settings

namespace BehaviorTree

open BehaviorTree.Json (ticked)

/-- A node of a document: the numbers of the children on the way from the root. -/
abbrev NodePath := List Nat

/-- A path as messages write it. -/
def NodePath.text (path : NodePath) : String :=
  path.foldl (fun text i => text ++ ".children[" ++ toString i ++ "]") "root"

/-- The fields of a node that are looked at; `node` is the node as a whole. -/
inductive NodeField where
  | node
  | type
  | children
  | name
  | params
  | seconds
  deriving DecidableEq

/-- The name of a field. -/
def NodeField.text : NodeField → String
  | .node => "node"
  | .type => "type"
  | .children => "children"
  | .name => "name"
  | .params => "params"
  | .seconds => "seconds"

/-- What a field has to be. -/
def NodeField.expected : NodeField → String
  | .node | .params => "an object"
  | .type | .name => "a string"
  | .children => "an array"
  | .seconds => "a number"

/-- The two kinds of leaves that have names. -/
inductive LeafKind where
  | action
  | condition
  deriving DecidableEq

/-- The name of a kind. -/
def LeafKind.text : LeafKind → String
  | .action => "action"
  | .condition => "condition"

/-- What can be wrong with a node by itself. -/
inductive Defect where
  | missingField (field : NodeField)
  | invalidField (field : NodeField)
  | unknownType (name : String)
  | unknownLeaf (kind : LeafKind) (name : String)
  | invalidParams (kind : LeafKind) (name : String) (cause : ParamError)

/-- The wording of a defect. -/
def Defect.message : Defect → String
  | .missingField field => "missing field " ++ ticked field.text
  | .invalidField field => "field " ++ ticked field.text ++ " must be " ++ field.expected
  | .unknownType name => "unknown node type " ++ ticked name
  | .unknownLeaf kind name => "unknown " ++ kind.text ++ " " ++ ticked name
  | .invalidParams kind name cause =>
    "invalid params for " ++ kind.text ++ " " ++ ticked name ++ ": " ++ cause.message

/-- Why there is no tree. -/
inductive LoadError where
  | unreadable (cause : ReadError)
  /-- The text is no JSON. -/
  | malformed
  /-- The document has no root. -/
  | missingRoot
  /-- A node is no node. -/
  | defective (path : NodePath) (defect : Defect)

namespace LoadError

/-- The wording of a failure. -/
def message : LoadError → String
  | .unreadable cause => "failed to read behavior file: " ++ cause.message
  | .malformed => "malformed behavior JSON"
  | .missingRoot => "behavior document has no " ++ ticked "root" ++ " node"
  | .defective path defect => path.text ++ ": " ++ defect.message

/-- The wordings of a failure and of what is behind it, from the outside in. -/
def chain (e : LoadError) : List String :=
  e.message :: match e with
    | .unreadable cause => [cause.message]
    | .defective _ (.invalidParams _ _ cause) => [cause.message]
    | _ => []

end LoadError

end BehaviorTree
