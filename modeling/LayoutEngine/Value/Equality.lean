import LayoutEngine.Entries
import LayoutEngine.Value.Basic

/-!
# Equality of values

Two values are equal if they are of one kind and have equal contents. Floating-point numbers are
compared as numbers, so that a value that holds no number equals nothing, not even itself. Objects
are equal if they have equal fields, in whatever order; everywhere else order counts.
-/

namespace LayoutEngine

mutual

/-- Values are equal; no float that is no number is, and objects do not depend on the order of their
fields. -/
def Value.equals : Value → Value → Bool
  | .null, .null => true
  | .bool a, .bool b => a == b
  | .int m, .int n => m == n
  | .float x, .float y => x.equals y
  | .string s, .string t => s == t
  | .array xs, .array ys => Value.itemsEqual xs ys
  | .object xs, .object ys => xs.length == ys.length && Value.fieldsWithin xs ys
  | .binding a, .binding b => a == b
  | .layout a, .layout b => a.equals b
  | _, _ => false
termination_by structural value => value

/-- Items are equal one by one. -/
def Value.itemsEqual : List Value → List Value → Bool
  | [], [] => true
  | x :: xs, y :: ys => x.equals y && Value.itemsEqual xs ys
  | _, _ => false
termination_by structural items => items

/-- Each field of the first object has an equal one in the second. -/
def Value.fieldsWithin : List (String × Value) → Fields → Bool
  | [], _ => true
  | (key, x) :: rest, ys =>
    (match Entries.get? key ys with
      | some y => x.equals y
      | none => false) && Value.fieldsWithin rest ys
termination_by structural fields => fields

/-- Attributes have the same number and equal values. -/
def Attribute.equals : Attribute → Attribute → Bool
  | ⟨i, x⟩, ⟨j, y⟩ => i == j && x.equals y
termination_by structural a => a

/-- Attributes are equal one by one. -/
def Layout.attributesEqual : List Attribute → List Attribute → Bool
  | [], [] => true
  | a :: rest, b :: others => a.equals b && Layout.attributesEqual rest others
  | _, _ => false
termination_by structural attributes => attributes

/-- Layouts have the same type, equal attributes and the same descriptors. -/
def Layout.equals : Layout → Layout → Bool
  | ⟨type, attributes, tags⟩, ⟨type', attributes', tags'⟩ =>
    type == type' && Layout.attributesEqual attributes attributes' && tags == tags'
termination_by structural layout => layout

end

end LayoutEngine
