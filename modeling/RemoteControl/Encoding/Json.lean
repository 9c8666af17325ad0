import Mathlib.Data.Rat.Defs

/-!
# JSON Values

What a client may send as the payload of a message, and the questions a check
of a payload asks of it: whether it is an object, what a field holds, and
whether it has fields that are not expected.

An object is the list of its fields in the order they were written. The first
field of a name counts.

## Main definitions

* `Json`: A value.
* `Json.fields`: The fields of an object.
* `field`: The value of a field, or null when there is none.
* `onlyHas`: There are no other fields than these.
-/

namespace Encoding

/-- A value, as a client sends it. -/
inductive Json where
  | null
  | bool (value : Bool)
  | number (value : Rat)
  | string (value : String)
  | array (items : List Json)
  | object (fields : List (String × Json))

/-- The fields of an object. Nothing else has any, an array least of all. -/
def Json.fields : Json → Option (List (String × Json))
  | .object fields => some fields
  | _ => none

/-- The value of a field, or null when there is none. -/
def field (fields : List (String × Json)) (name : String) : Json :=
  (fields.lookup name).getD .null

/-- There are no other fields than these. -/
def onlyHas (fields : List (String × Json)) (names : List String) : Bool :=
  fields.all (fun f => decide (f.1 ∈ names))

/-- A string, if the value is one. -/
def Json.asString : Json → Option String
  | .string value => some value
  | _ => none

/-- A whole number between the two. -/
def Json.asIntWithin (least greatest : Nat) : Json → Option Nat
  | .number value =>
    if value.den = 1 ∧ (least : Int) ≤ value.num ∧ value.num ≤ greatest then
      some value.num.toNat
    else none
  | _ => none

end Encoding
