/-
# BehaviorTree.Json.Decode — reading plain values, and why a value is refused

A parameter block is JSON that has to become numbers, flags, choices, lists and records. `DecodeError`
lists the causes for which a value is refused and `DecodeError.message` gives the wording; what was
found is described by `described`, what was wanted is named by the decoder. Records are the subject of
`BehaviorTree.Json.Shape`.
-/
import BehaviorTree.Json.Basic
import BehaviorTree.Numeric.Text
import BehaviorTree.Text.Quoted

namespace BehaviorTree.Json

open BehaviorTree.Numeric (Spelling toSingle)

/-! ## § Why a value is refused -/

/-- Why a value is refused. -/
inductive DecodeError where
  /-- A value of another kind than the wanted one. -/
  | wrongType (got : Json) (expected : String)
  /-- A whole number outside of the wanted range. -/
  | outOfRange (n : Int) (expected : String)
  /-- A choice written as an object whose members are not exactly one. -/
  | notSingleKey
  /-- An array with too few or too many items. -/
  | wrongLength (n : Nat) (expected : String)
  /-- A choice that is none of the known ones. -/
  | unknownVariant (name : String) (known : List String)
  /-- A field that has to be there and is not. -/
  | missingField (name : String)
  /-- A field that is there twice, perhaps under two names. -/
  | duplicateField (name : String)

/-- A name between back quotes (code point 96). -/
def ticked (name : String) : String :=
  "\x60" ++ name ++ "\x60"

/-- What a value is, as an error message describes it. -/
def described : Json → String
  | .null => "null"
  | .bool b => "boolean " ++ ticked (if b then "true" else "false")
  | .number (.whole n) => "integer " ++ ticked (toString n)
  | .number (.real x) => "floating point " ++ ticked (Spelling.json.double x)
  | .text s => "string " ++ Text.quoted s
  | .array _ => "sequence"
  | .object _ => "map"

/-- A list of the names that would have been right. -/
def oneOf : List String → String
  | [] => "there are no variants"
  | [a] => "expected " ++ ticked a
  | [a, b] => "expected " ++ ticked a ++ " or " ++ ticked b
  | names => "expected one of " ++ ", ".intercalate (names.map ticked)

/-- **`DecodeError.message`** — the wording of a refusal. -/
def DecodeError.message : DecodeError → String
  | .wrongType got expected => "invalid type: " ++ described got ++ ", expected " ++ expected
  | .outOfRange n expected =>
    "invalid value: integer " ++ ticked (toString n) ++ ", expected " ++ expected
  | .notSingleKey => "invalid value: map, expected map with a single key"
  | .wrongLength n expected => "invalid length " ++ toString n ++ ", expected " ++ expected
  | .unknownVariant name known => "unknown variant " ++ ticked name ++ ", " ++ oneOf known
  | .missingField name => "missing field " ++ ticked name
  | .duplicateField name => "duplicate field " ++ ticked name

/-! ## § Plain values -/

/-- A way to read a value. -/
abbrev Decoder (α : Type) := Json → Except DecodeError α

/-- A single-precision number: any number, rounded to the nearest one. -/
def decodeSingle : Decoder Float32
  | .number (.whole n) => .ok (Float32.ofInt n)
  | .number (.real x) => .ok (toSingle x)
  | got => .error (.wrongType got "f32")

/-- A flag. -/
def decodeFlag : Decoder Bool
  | .bool b => .ok b
  | got => .error (.wrongType got "a boolean")

/-- A whole number from `low` to `high`; `title` names the range. A number written with a point or a
power of ten is not whole, whatever its value. -/
def decodeWhole (title : String) (low high : Int) : Decoder Int
  | .number (.whole n) => if low ≤ n ∧ n ≤ high then .ok n else .error (.outOfRange n title)
  | got => .error (.wrongType got title)

/-- A signed 32-bit number. -/
def decodeInt32 : Decoder Int :=
  decodeWhole "i32" (-0x80000000) 0x7FFFFFFF

/-- An unsigned 32-bit number. -/
def decodeWord32 : Decoder Nat :=
  fun v => (decodeWhole "u32" 0 0xFFFFFFFF v).map Int.toNat

/-- An unsigned 64-bit number. -/
def decodeWord64 : Decoder UInt64 :=
  fun v => (decodeWhole "u64" 0 0xFFFFFFFFFFFFFFFF v).map fun n => n.toNat.toUInt64

/-- A value or `null`. -/
def decodeOptional {α : Type} (item : Decoder α) : Decoder (Option α)
  | .null => .ok none
  | v => (item v).map some

/-- A list, each of whose items is read by `item`. -/
def decodeList {α : Type} (item : Decoder α) : Decoder (List α)
  | .array items => items.mapM item
  | got => .error (.wrongType got "a sequence")

/-- The choice of that name; `choices` lists all names in the order in which a refusal lists them. -/
def chosen {α : Type} (choices : List (String × α)) (name : String) : Except DecodeError α :=
  match choices.lookup name with
  | some choice => .ok choice
  | none => .error (.unknownVariant name (choices.map (·.1)))

/-- **`decodeChoice`** — one of several named choices: its name, or an object whose only key is the
name and whose value is `null`. -/
def decodeChoice {α : Type} (choices : List (String × α)) : Decoder α
  | .text name => chosen choices name
  | .object [(name, value)] => do
    let choice ← chosen choices name
    match value with
    | .null => return choice
    | got => .error (.wrongType got "unit")
  | .object _ => .error .notSingleKey
  | got => .error (.wrongType got "string or map")

end BehaviorTree.Json
