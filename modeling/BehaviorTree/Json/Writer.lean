/-
# BehaviorTree.Json.Writer — JSON values as text

`Json.compact` writes a value without any space. Doubles are written with the fewest digits that read
back; a number that JSON cannot write is `null`. In a text the quote, the backslash and the control
characters are escaped, the usual ones by their short names, and all else stands as it is.
-/
import BehaviorTree.Json.Basic
import BehaviorTree.Numeric.Text

namespace BehaviorTree.Json

open BehaviorTree.Numeric

/-- How one character is written in a text. -/
def writtenChar (c : Char) : String :=
  match c with
  | '"' => "\\\""
  | '\\' => "\\\\"
  | '\x08' => "\\b"
  | '\x0c' => "\\f"
  | '\n' => "\\n"
  | '\r' => "\\r"
  | '\t' => "\\t"
  | c =>
    if c.toNat < 0x20 then
      let digits := Nat.toDigits 16 c.toNat
      "\\u" ++ zeros (4 - digits.length) ++ String.ofList digits
    else c.toString

/-- A text between quotes. -/
def writtenText (s : String) : String :=
  "\"" ++ String.join (s.toList.map writtenChar) ++ "\""

/-- A number as JSON text. -/
def Number.written : Number → String
  | .whole n => toString n
  | .real x => if x.isFinite then Spelling.json.double x else "null"

mutual

/-- **`Json.compact`** — a value as JSON text without spaces. -/
def compact : Json → String
  | .null => "null"
  | .bool b => if b then "true" else "false"
  | .number n => n.written
  | .text s => writtenText s
  | .array items => "[" ++ ",".intercalate (compactItems items) ++ "]"
  | .object members => "\x7b" ++ ",".intercalate (compactMembers members) ++ "\x7d"

/-- The items of an array, each as text. -/
def compactItems : List Json → List String
  | [] => []
  | v :: rest => compact v :: compactItems rest

/-- The members of an object, each as text. -/
def compactMembers : List (String × Json) → List String
  | [] => []
  | (key, v) :: rest => (writtenText key ++ ":" ++ compact v) :: compactMembers rest

end

end BehaviorTree.Json
