import LayoutEngine.Entries
import LayoutEngine.Value.Basic

/-!
# Declared attributes of widgets

The tag table keeps, for each widget, the attributes that its layout declared and the edits since:
descriptors in order, none of them twice. Recording replaces what a widget had. Setting a
descriptor leaves one of its name, in the place of the first, or at the end if there was none.
-/

namespace LayoutEngine

/-- The identity of a widget: widgets are numbered from one in the order of their creation. -/
structure WidgetId where
  number : Nat
deriving DecidableEq, Repr

namespace WidgetId

/-- How a message names a widget. -/
def text (id : WidgetId) : String := "#" ++ toString id.number

end WidgetId

namespace Descriptor

/-- The first occurrences, in order. -/
def distinct : List Descriptor → List Descriptor
  | [] => []
  | d :: rest => d :: (distinct rest).filter (· ≠ d)

/-- The list in which `d` is the only descriptor of its name, in the place of the first or at the
end. -/
def upsert (d : Descriptor) : List Descriptor → List Descriptor
  | [] => [d]
  | e :: rest =>
    if e.name = d.name then d :: rest.filter (·.name ≠ d.name) else e :: upsert d rest

end Descriptor

/-- The declared attributes of widgets, for those that have any. -/
structure TagTable where
  entries : List (WidgetId × List Descriptor)

namespace TagTable

/-- The table without entries. -/
def empty : TagTable := ⟨[]⟩

/-- The descriptors of a widget that has an entry. -/
def get? (widget : WidgetId) (table : TagTable) : Option (List Descriptor) :=
  Entries.get? widget table.entries

/-- There are declared attributes of a widget. -/
def contains (widget : WidgetId) (table : TagTable) : Bool := (table.get? widget).isSome

/-- How many widgets have an entry. -/
def size (table : TagTable) : Nat := table.entries.length

/-- The table in which a widget has the descriptors, repeated ones dropped. -/
def record (widget : WidgetId) (descriptors : List Descriptor) (table : TagTable) : TagTable :=
  ⟨Entries.put widget (Descriptor.distinct descriptors) table.entries⟩

/-- The table in which a widget has the descriptor and no other of its name. -/
def upsert (widget : WidgetId) (descriptor : Descriptor) (table : TagTable) : TagTable :=
  let descriptors := (table.get? widget).getD []
  ⟨Entries.put widget (descriptor.upsert descriptors) table.entries⟩

/-- The table without a widget's entry. -/
def remove (widget : WidgetId) (table : TagTable) : TagTable :=
  ⟨Entries.erase widget table.entries⟩

end TagTable

end LayoutEngine
