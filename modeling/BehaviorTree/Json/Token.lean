/-
# BehaviorTree.Json.Token — the words of a JSON text

`Token.scan?` reads a text character by character; `Mode` is what the characters so far have begun.
Between the words stand spaces, tabs, line feeds and carriage returns. A text must not hold a control
character, and an escape in it must be one of the eight short ones or `\u` with four hexadecimal
digits. Two such escapes that form a surrogate pair are one character; a surrogate without its
partner is no character, and the text that holds it has no value (`none`).
-/
import BehaviorTree.Json.Number

namespace BehaviorTree.Json

/-- A word of a JSON text. -/
inductive Token where
  | openArray
  | closeArray
  | openObject
  | closeObject
  | colon
  | comma
  | null
  | bool (b : Bool)
  | number (n : Option Number)
  | text (s : Option String)

/-- A piece of a text: a character, or the 16-bit unit of a `\u` escape. -/
inductive Piece where
  | char (c : Char)
  | unit (n : Nat)

/-- What the characters read so far have begun. Letters, digits and pieces are kept last one first. -/
inductive Mode where
  | blank
  | word (letters : List Char)
  | number (digits : List Char)
  | text (pieces : List Piece)
  | escape (pieces : List Piece)
  | hex (pieces : List Piece) (missing : Nat) (value : Nat)

/-- The text that the pieces form: a high surrogate must be followed by a low one, and a low one must
follow a high one. -/
def Piece.join? : List Piece → Option (List Char)
  | [] => some []
  | .char c :: rest => (Piece.join? rest).map (c :: ·)
  | .unit n :: rest =>
    if n < 0xD800 || 0xE000 ≤ n then (Piece.join? rest).map (Char.ofNat n :: ·)
    else match rest with
      | .unit m :: rest =>
        if n < 0xDC00 && 0xDC00 ≤ m && m < 0xE000 then
          (Piece.join? rest).map (Char.ofNat (0x10000 + (n - 0xD800) * 0x400 + (m - 0xDC00)) :: ·)
        else none
      | _ => none

/-- The token of a text. -/
def Token.ofPieces (pieces : List Piece) : Token :=
  .text ((Piece.join? pieces).map String.ofList)

/-- The token of a word of letters. -/
def Token.ofWord? (letters : List Char) : Option Token :=
  match String.ofList letters with
  | "null" => some .null
  | "true" => some (.bool true)
  | "false" => some (.bool false)
  | _ => none

/-- The token of a number. -/
def Token.ofDigits? (digits : List Char) : Option Token :=
  (NumberText.scan? digits).map fun t => .number t.value?

/-- Whether a character can stand in a number. -/
def isNumberChar (c : Char) : Bool :=
  c.isDigit || c == '-' || c == '+' || c == '.' || c == 'e' || c == 'E'

/-- The value of a hexadecimal digit. -/
def hexValue? (c : Char) : Option Nat :=
  if c.isDigit then some (c.toNat - '0'.toNat)
  else if 'a' ≤ c && c ≤ 'f' then some (c.toNat - 'a'.toNat + 10)
  else if 'A' ≤ c && c ≤ 'F' then some (c.toNat - 'A'.toNat + 10)
  else none

/-- The character that a short escape stands for. -/
def escaped? (c : Char) : Option Char :=
  match c with
  | '"' => some '"'
  | '\\' => some '\\'
  | '/' => some '/'
  | 'b' => some '\x08'
  | 'f' => some '\x0c'
  | 'n' => some '\n'
  | 'r' => some '\r'
  | 't' => some '\t'
  | _ => none

/-- What a character does between two words: the token that it is, if it is one by itself, and what it
begins. -/
def Mode.start? (c : Char) : Option (List Token × Mode) :=
  match c with
  | ' ' | '\t' | '\n' | '\r' => some ([], .blank)
  | '[' => some ([.openArray], .blank)
  | ']' => some ([.closeArray], .blank)
  | '\x7b' => some ([.openObject], .blank)
  | '\x7d' => some ([.closeObject], .blank)
  | ':' => some ([.colon], .blank)
  | ',' => some ([.comma], .blank)
  | '"' => some ([], .text [])
  | c =>
    if c.isDigit || c == '-' then some ([], .number [c])
    else if c.isAlpha then some ([], .word [c])
    else none

/-- What one character does: the tokens that it completes, the last one first, and the mode after it. -/
def Mode.step? (mode : Mode) (c : Char) : Option (List Token × Mode) :=
  let after (token : Option Token) : Option (List Token × Mode) := do
    let token ← token
    let (more, next) ← Mode.start? c
    return (more ++ [token], next)
  match mode with
  | .blank => Mode.start? c
  | .word letters =>
    if c.isAlpha then some ([], .word (c :: letters)) else after (Token.ofWord? letters.reverse)
  | .number digits =>
    if isNumberChar c then some ([], .number (c :: digits))
    else after (Token.ofDigits? digits.reverse)
  | .text pieces =>
    if c == '"' then some ([.ofPieces pieces.reverse], .blank)
    else if c == '\\' then some ([], .escape pieces)
    else if c.toNat < 0x20 then none
    else some ([], .text (.char c :: pieces))
  | .escape pieces =>
    if c == 'u' then some ([], .hex pieces 4 0)
    else (escaped? c).map fun c => ([], .text (.char c :: pieces))
  | .hex pieces missing value => do
    let digit ← hexValue? c
    let value := 16 * value + digit
    return ([], if missing ≤ 1 then .text (.unit value :: pieces) else .hex pieces (missing - 1) value)

/-- The tokens that the end of the text completes. -/
def Mode.finish? : Mode → Option (List Token)
  | .blank => some []
  | .word letters => (Token.ofWord? letters.reverse).map ([·])
  | .number digits => (Token.ofDigits? digits.reverse).map ([·])
  | _ => none

/-- The tokens of the rest of a text; `found` are those before it, the last one first. -/
def Token.scanFrom? : Mode → List Token → List Char → Option (List Token)
  | mode, found, [] => mode.finish?.map fun last => (last ++ found).reverse
  | mode, found, c :: cs =>
    match mode.step? c with
    | none => none
    | some (completed, mode) => Token.scanFrom? mode (completed ++ found) cs

/-- **`Token.scan?`** — the words of a JSON text. -/
def Token.scan? (text : String) : Option (List Token) :=
  Token.scanFrom? .blank [] text.toList

end BehaviorTree.Json
