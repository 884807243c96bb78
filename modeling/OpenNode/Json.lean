import Mathlib

namespace OpenNode

/-- A JSON document as the services hold it once parsed: objects keep the
order of their keys, and integers are distinct from floating-point numbers. -/
inductive Json where
  | null
  | bool (value : Bool)
  | int (value : Int)
  | float (value : Rat)
  | str (value : String)
  | arr (items : List Json)
  | obj (fields : List (String × Json))

namespace Json

/-- The value of a key of an object. -/
def find? (value : Json) (key : String) : Option Json :=
  match value with
  | .obj fields => fields.lookup key
  | _ => none

/-- The value of `dict.get(key)`; a missing key reads as `None`. -/
def get (value : Json) (key : String) : Json :=
  (value.find? key).getD .null

def isObj : Json → Bool
  | .obj _ => true
  | _ => false

/-- Whether the keys of an object are those of a set. -/
def hasExactly (value : Json) (keys : List String) : Bool :=
  match value with
  | .obj fields => fields.all (fun field => keys.contains field.1) && keys.all fun key =>
    (fields.map Prod.fst).contains key
  | _ => false

def items? : Json → Option (List Json)
  | .arr items => some items
  | _ => none

def str? : Json → Option String
  | .str text => some text
  | _ => none

def bool? : Json → Option Bool
  | .bool value => some value
  | _ => none

/-- Truth of a value in a condition of the source. -/
def truthy : Json → Bool
  | .null => false
  | .bool value => value
  | .int value => value != 0
  | .float value => value != 0
  | .str text => text != ""
  | .arr items => !items.isEmpty
  | .obj fields => !fields.isEmpty

/-- The number a value stands for in a comparison: booleans count as 0 and 1. -/
def number? : Json → Option Rat
  | .bool value => some (if value then 1 else 0)
  | .int value => some value
  | .float value => some value
  | _ => none

mutual

/-- The `==` of the source: numbers compare by value and objects without
regard to the order of their keys. -/
def equal : Json → Json → Bool
  | .null, .null => true
  | .str a, .str b => a == b
  | .arr xs, .arr ys => equalItems xs ys
  | .obj xs, .obj ys => xs.length == ys.length && equalFields xs ys
  | a, b =>
    match a.number?, b.number? with
    | some x, some y => x == y
    | _, _ => false

def equalItems : List Json → List Json → Bool
  | [], [] => true
  | x :: xs, y :: ys => equal x y && equalItems xs ys
  | _, _ => false

def equalFields : List (String × Json) → List (String × Json) → Bool
  | [], _ => true
  | (key, x) :: xs, ys =>
    (match ys.lookup key with
      | some y => equal x y
      | none => false) && equalFields xs ys

end

end Json

end OpenNode
