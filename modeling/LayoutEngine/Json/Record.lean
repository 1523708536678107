import LayoutEngine.Json.Basic

/-!
# Records in JSON

A record is written as an object or, in the order of its fields, as an array. `Document.fields?`
takes a document apart into the fields that a record has, each given or missing. An object may hold
other members, which are not looked at, but no field of the record twice; an array may stop early
but not go on beyond the last field. Whether a missing field has a default is for the reader of the
record to say.

The remaining functions read the kinds of fields: text, truth values, natural numbers, lists.
-/

namespace LayoutEngine.Json.Document

/-- The documents of the members called `name`. -/
def membersNamed (name : String) (members : List (String × Document)) : List Document :=
  members.filterMap fun (key, item) => if key = name then some item else none

/-- A field that an object may have once. -/
def objectField? (members : List (String × Document)) (name : String) :
    Option (Option Document) :=
  match membersNamed name members with
  | [] => some none
  | [item] => some (some item)
  | _ => none

/-- The members of an object under their decoded keys. -/
def decodeKeys? (members : List (List TextUnit × Document)) : Option (List (String × Document)) :=
  members.mapM fun (key, item) => (unitText? key).map (·, item)

/-- The fields of a record, in the order of their names. -/
def fields? (names : List String) : Document → Option (List (Option Document))
  | .object members => do
    let members ← decodeKeys? members
    names.mapM (objectField? members)
  | .array items =>
    if items.length ≤ names.length then
      some (items.map some ++ List.replicate (names.length - items.length) none)
    else none
  | _ => none

/-- A string. -/
def text? : Document → Option String
  | .string units => unitText? units
  | _ => none

/-- A truth value. -/
def bool? : Document → Option Bool
  | .bool b => some b
  | _ => none

/-- A number written as an integer without minus sign, below the bound. -/
def natBelow? (bound : Nat) : Document → Option Nat
  | .number n =>
    match n.integer? with
    | some (.ofNat m) => if m < bound then some m else none
    | _ => none
  | _ => none

/-- The items of an array. -/
def items? : Document → Option (List Document)
  | .array items => some items
  | _ => none

end LayoutEngine.Json.Document
