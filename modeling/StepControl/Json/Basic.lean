/-
JSON values, and the parts of a value that decoders ask for.

A number that is written as an integer is an `int`; any other number keeps its literal and is never taken for an integer.
The fields of an object keep their order. Every decoder says nothing (`none`) where a value does not have its shape.
-/

namespace StepControl

/-- a JSON value -/
inductive Json where
  | null
  | bool (b : Bool)
  | int (n : Int)
  /-- a number with a fraction or an exponent, or the negative zero -/
  | real (literal : String)
  | text (s : String)
  | list (items : List Json)
  | object (fields : List (String × Json))
  deriving Inhabited

namespace Json

/-- the integer of a natural number -/
def nat (n : Nat) : Json := .int (Int.ofNat n)

def isNull : Json → Bool
  | .null => true
  | _ => false

def bool? : Json → Option Bool
  | .bool b => some b
  | _ => none

def text? : Json → Option String
  | .text s => some s
  | _ => none

def list? : Json → Option (List Json)
  | .list items => some items
  | _ => none

/-- an integer below a bound and not below zero -/
def natBelow? (bound : Nat) : Json → Option Nat
  | .int (.ofNat n) => if n < bound then some n else none
  | _ => none

def byte? (j : Json) : Option UInt8 := (j.natBelow? UInt8.size).map UInt8.ofNat

def word32? (j : Json) : Option UInt32 := (j.natBelow? UInt32.size).map UInt32.ofNat

def word64? (j : Json) : Option UInt64 := (j.natBelow? UInt64.size).map UInt64.ofNat

/-- the value of a key that occurs exactly once -/
def only? (key : String) (fields : List (String × Json)) : Option Json :=
  match fields.filter (·.1 == key) with
  | [field] => some field.2
  | _ => none

/-- the field of an object; `null` where there is none -/
def get (key : String) : Json → Json
  | .object fields => (fields.lookup key).getD .null
  | _ => .null

/-- the values of a record with the given keys: an object that has every key, or a list of exactly that many values. A
closed record has no other keys -/
def record? (keys : List String) (closed : Bool) : Json → Option (List Json)
  | .list items => if items.length = keys.length then some items else none
  | .object fields =>
    if closed && fields.any (fun field => !keys.contains field.1) then none
    else keys.mapM fun key => only? key fields
  | _ => none

/-- the name of a variant with its payload: a text alone, or an object with one key -/
def variant? : Json → Option (String × Option Json)
  | .text name => some (name, none)
  | .object [(name, payload)] => some (name, some payload)
  | _ => none

end Json

end StepControl
