import LayoutEngine.Binding
import LayoutEngine.Floating.Basic
import LayoutEngine.Json.Printer

/-!
# Values and layouts

A `Value` is what an attribute or the data holds: JSON with two additions. A string of the form
`@{path}` is a binding into the data, and a value may be a layout. A `Layout` describes one widget:
its type, its attributes, named by number, and the declared attributes as text, kept for editing.
The children of a container travel as an attribute whose value is an array of layouts, so that
values and layouts are defined together.
-/

namespace LayoutEngine

/-- The text of a declared attribute. -/
structure Descriptor where
  name : String
  value : String
deriving DecidableEq, Repr

namespace Descriptor

/-- The declared text of a JSON value: a string as it stands, anything else as JSON. -/
def ofJson (name : String) : Json → Descriptor
  | .string s => ⟨name, s⟩
  | json => ⟨name, json.text⟩

end Descriptor

mutual

/-- A value. Integers are those of 64 bits with sign; an object's keys are distinct. -/
inductive Value where
  | null
  | bool (b : Bool)
  | int (n : Int)
  | float (x : Double)
  | string (s : String)
  | array (items : List Value)
  | object (fields : List (String × Value))
  | binding (b : Binding)
  | layout (l : Layout)

/-- An attribute: the number of its name and its value. -/
structure Attribute where
  id : Int
  value : Value

/-- The description of a widget. `tags` holds the declared attributes, if any were declared. -/
structure Layout where
  viewType : String
  attributes : List Attribute
  tags : Option (List Descriptor)

end

/-- The data that bindings refer to: values under distinct keys, in order. -/
abbrev Fields := List (String × Value)

namespace Value

/-- The number that a JSON integer is: beyond 64 bits with sign, the nearest floating-point
number. -/
def ofInteger (n : Int) : Value :=
  if Numeral.fitsSigned 64 n then .int n else .float (.ofInt .binary64 n)

mutual

/-- The value of a JSON value. -/
def ofJson : Json → Value
  | .null => .null
  | .bool b => .bool b
  | .int n => ofInteger n
  | .float x => .float x
  | .string s =>
    match Binding.parse? s with
    | some b => .binding b
    | none => .string s
  | .array items => .array (itemsOfJson items)
  | .object members => .object (fieldsOfJson members)
termination_by structural json => json

/-- The values of the items of an array. -/
def itemsOfJson : List Json → List Value
  | [] => []
  | item :: rest => ofJson item :: itemsOfJson rest
termination_by structural items => items

/-- The fields of a JSON object's members. -/
def fieldsOfJson : List (String × Json) → Fields
  | [] => []
  | (key, item) :: rest => (key, ofJson item) :: fieldsOfJson rest
termination_by structural members => members

end

/-- A value is a binding. -/
def isBinding : Value → Bool
  | .binding _ => true
  | _ => false

/-- A value is null. -/
def isNull : Value → Bool
  | .null => true
  | _ => false

/-- A value is a layout. -/
def isLayout : Value → Bool
  | .layout _ => true
  | _ => false

end Value

namespace Fields

/-- The data that a JSON value is: an object's fields, and no data for anything else. -/
def ofJson : Json → Fields
  | .object members => Value.fieldsOfJson members
  | _ => []

end Fields

namespace Layout

/-- Some attribute is bound to the data. -/
def hasBindings (l : Layout) : Bool := l.attributes.any (·.value.isBinding)

end Layout

end LayoutEngine
