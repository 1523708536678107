import LayoutEngine.Entries
import LayoutEngine.Value.Basic

/-!
# Resolving bindings

`Segment.step?` goes from a value to a part of it: by key into an object, by place into an array,
by the data index into an array. A path is walked from the data, taken as an object; where a step
leads nowhere the result is null. A path that is the data index alone is the index itself.
-/

namespace LayoutEngine

/-- The data index of an inflation that is not part of a repeated collection. -/
def noDataIndex : Int := -1

/-- The item at a place. -/
def itemAt? (items : List Value) (place : Int) : Option Value :=
  if 0 ≤ place then items[place.toNat]? else none

namespace Segment

/-- The part of a value that a step leads to. -/
def step? (index : Int) : Segment → Value → Option Value
  | .key name, .object fields => Entries.get? name fields
  | .key name, .array items => (Numeral.unsigned? 64 name.toList).bind (items[·]?)
  | .dataIndex, .array items => itemAt? items index
  | _, _ => none

end Segment

namespace Value

/-- Walks a path from a value on. -/
def walk? (index : Int) : List Segment → Value → Option Value
  | [], value => some value
  | segment :: rest, value => (segment.step? index value).bind (walk? index rest)

end Value

namespace Binding

/-- The value that a path leads to in the data. -/
def evaluate (data : Fields) (index : Int) (b : Binding) : Value :=
  match b.segments with
  | [] => .null
  | [.dataIndex] => .int index
  | segments => (Value.walk? index segments (.object data)).getD .null

end Binding

namespace Value

/-- A binding's value in the data; any other value as it is. -/
def resolve (data : Fields) (index : Int) : Value → Value
  | .binding b => b.evaluate data index
  | value => value

end Value

end LayoutEngine
