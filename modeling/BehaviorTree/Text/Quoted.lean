/-
# BehaviorTree.Text.Quoted — quoted text

Error messages and debug lines show a text between double quotes. The quote and the backslash are
escaped, tab, line feed, carriage return and the null character have names, every other character
that is not printable is written by its code point, and all else stands as it is.
-/
import BehaviorTree.Text.Unprintable

namespace BehaviorTree.Text

/-- How one character is written between quotes. -/
def quotedChar (c : Char) : String :=
  if c == '"' then "\\\""
  else if c == '\\' then "\\\\"
  else if c == '\t' then "\\t"
  else if c == '\n' then "\\n"
  else if c == '\r' then "\\r"
  else if c == '\x00' then "\\0"
  else if isPrintable c then c.toString
  else "\\u\x7b" ++ String.ofList (Nat.toDigits 16 c.toNat) ++ "\x7d"

/-- **`quoted s`** — the text `s` between double quotes. -/
def quoted (s : String) : String :=
  "\"" ++ String.join (s.toList.map quotedChar) ++ "\""

/-- Items between brackets, a comma and a space between any two. -/
def bracketed (opening closing : String) (items : List String) : String :=
  opening ++ ", ".intercalate items ++ closing

/-- The fields of a record as a debug line shows them: the record's name, then `name: value` for each
field between braces. -/
def fields (title : String) (items : List (String × String)) : String :=
  bracketed (title ++ " \x7b ") " \x7d" (items.map fun (name, value) => name ++ ": " ++ value)

/-- An optional value as a debug line shows it. -/
def optional (value : Option String) : String :=
  match value with
  | none => "None"
  | some text => "Some(" ++ text ++ ")"

end BehaviorTree.Text
