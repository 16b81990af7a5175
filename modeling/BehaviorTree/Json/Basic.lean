/-
# BehaviorTree.Json.Basic — JSON values

Behavior trees, scenarios and parameter blocks are JSON documents. A number keeps the distinction
that the text makes: a whole number (in the range of 64-bit words) is exact, everything written with
a point or a power of ten, and the whole numbers beyond that range, are doubles.

The members of an object are a list, because the order in which they are looked at decides which of
two faults is reported. `Json.insertMember` keeps such a list in ascending order of the keys with one
member a key, and this is how the reader builds every object.
-/

namespace BehaviorTree

/-- A JSON number. -/
inductive Json.Number where
  | whole (n : Int)
  | real (x : Float)
  deriving DecidableEq

/-- A JSON value. -/
inductive Json where
  | null
  | bool (b : Bool)
  | number (n : Json.Number)
  | text (s : String)
  | array (items : List Json)
  | object (members : List (String × Json))
  deriving BEq, Inhabited

namespace Json

/-- The number as a double: a whole number is rounded to the nearest one. -/
def Number.toFloat : Number → Float
  | .whole n => Float.ofInt n
  | .real x => x

/-- Puts a member into a list of members in ascending order of their keys; a member of the same key
is replaced. -/
def insertMember (key : String) (value : Json) : List (String × Json) → List (String × Json)
  | [] => [(key, value)]
  | (k, v) :: rest =>
    if key < k then (key, value) :: (k, v) :: rest
    else if key = k then (key, value) :: rest
    else (k, v) :: insertMember key value rest

/-- The value of the first member of that key. -/
def member? (key : String) : List (String × Json) → Option Json
  | [] => none
  | (k, v) :: rest => if k = key then some v else member? key rest

end Json

end BehaviorTree
