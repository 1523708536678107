import LayoutEngine.Entries
import LayoutEngine.IdTable

/-!
# Sets of attributes

What a kind of widget understands is a set of attributes, each under the number that the session
has given its name. `AttributeSet.allocate` numbers the names of a list of attributes and makes the
set.
-/

namespace LayoutEngine

/-- Attributes by the numbers of their names. -/
structure AttributeSet (α : Type) where
  entries : List (Int × α)

namespace AttributeSet

variable {α : Type}

/-- Numbers the names of attributes one by one and adds each attribute under its number. -/
def allocateFrom (nameOf : α → String) (entries : List (Int × α)) :
    List α → IdTable → List (Int × α) × IdTable
  | [], ids => (entries, ids)
  | a :: rest, ids =>
    let (id, ids) := ids.intern (nameOf a)
    allocateFrom nameOf (Entries.put id a entries) rest ids

/-- The set of the attributes in a list, and the table in which all their names have numbers. -/
def allocate (nameOf : α → String) (attributes : List α) (ids : IdTable) :
    AttributeSet α × IdTable :=
  let (entries, ids) := allocateFrom nameOf [] attributes ids
  (⟨entries⟩, ids)

/-- The attribute with a number. -/
def get? (id : Int) (set : AttributeSet α) : Option α := Entries.get? id set.entries

/-- There is an attribute with a number in the set. -/
def contains (id : Int) (set : AttributeSet α) : Bool := (set.get? id).isSome

/-- How many numbers the set has. -/
def size (set : AttributeSet α) : Nat := set.entries.length

end AttributeSet

end LayoutEngine
