/-
# BehaviorTree.Json.Reader — from the words of a JSON text to its value

The reader goes through the words once, with a stack of the arrays and objects that are still open.
After every word it knows what may come next (`Expect`); a word that may not come there, a word after
the end, and an end before the last bracket is closed make the text no JSON.
-/
import BehaviorTree.Json.Surface
import BehaviorTree.Json.Token

namespace BehaviorTree.Json

/-- An array or object that is still open, its parts last one first. An object is waiting for the value
of a key. -/
inductive Frame where
  | array (items : List Surface)
  | object (members : List (Option String × Surface)) (key : Option String)

/-- What may come next. -/
inductive Expect where
  /-- A value. -/
  | value
  /-- The first item of an array, or its end. -/
  | firstItem
  /-- The first key of an object, or its end. -/
  | firstKey
  /-- A further key of an object. -/
  | key (members : List (Option String × Surface))
  /-- The colon behind a key. -/
  | colon (members : List (Option String × Surface)) (key : Option String)
  /-- A comma or the end of the innermost open array, whose items are given. -/
  | afterItem (items : List Surface)
  /-- A comma or the end of the innermost open object, whose members are given. -/
  | afterMember (members : List (Option String × Surface))
  /-- Nothing: the value is complete. -/
  | nothing (value : Surface)

/-- Puts a complete value into the innermost open array or object. -/
def plug (v : Surface) : List Frame → Expect × List Frame
  | [] => (.nothing v, [])
  | .array items :: stack => (.afterItem (v :: items), stack)
  | .object members key :: stack => (.afterMember ((key, v) :: members), stack)

/-- A value made of one word. -/
def Token.scalar? : Token → Option Surface
  | .null => some .null
  | .bool b => some (.bool b)
  | .number n => some (.number n)
  | .text s => some (.text s)
  | _ => none

/-- The beginning of a value. -/
def beginValue? (token : Token) (stack : List Frame) : Option (Expect × List Frame) :=
  match token with
  | .openArray => some (.firstItem, .array [] :: stack)
  | .openObject => some (.firstKey, stack)
  | token => token.scalar?.map fun v => plug v stack

/-- What one word does. -/
def Expect.step? : Expect → Token → List Frame → Option (Expect × List Frame)
  | .value, token, stack => beginValue? token stack
  | .firstItem, .closeArray, .array items :: stack => some (plug (.array items.reverse) stack)
  | .firstItem, token, stack => beginValue? token stack
  | .firstKey, .closeObject, stack => some (plug (.object []) stack)
  | .firstKey, .text name, stack => some (.colon [] name, stack)
  | .key members, .text name, stack => some (.colon members name, stack)
  | .colon members name, .colon, stack => some (.value, .object members name :: stack)
  | .afterItem items, .comma, stack => some (.value, .array items :: stack)
  | .afterItem items, .closeArray, stack => some (plug (.array items.reverse) stack)
  | .afterMember members, .comma, stack => some (.key members, stack)
  | .afterMember members, .closeObject, stack => some (plug (.object members.reverse) stack)
  | _, _, _ => none

/-- The value that the remaining words complete. -/
def Surface.ofTokens? : Expect → List Frame → List Token → Option Surface
  | .nothing v, _, [] => some v
  | _, _, [] => none
  | expect, stack, token :: rest =>
    match expect.step? token stack with
    | none => none
    | some (expect, stack) => Surface.ofTokens? expect stack rest

/-- **`Surface.read?`** — the surface form of a text. -/
def Surface.read? (text : String) : Option Surface := do
  let tokens ← Token.scan? text
  Surface.ofTokens? .value [] tokens

/-- **`read?`** — the value of a JSON text; `none` if the text is no JSON. -/
def read? (text : String) : Option Json := do
  let surface ← Surface.read? text
  surface.value?

/-- **`readRecord?`** — the text as a record of the given outline. -/
def readRecord? (o : Outline) (text : String) : Option Json := do
  let surface ← Surface.read? text
  surface.record? o

end BehaviorTree.Json
