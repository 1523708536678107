import LayoutEngine.Text.Split

/-!
# Numbered names

A session numbers the names it meets, from one on, in the order of first use. `IdTable.intern`
gives a name its number, a new one if the name is new; a number once given is never changed or used
again. Attributes and views share one table: the view called `title` is numbered under the key
`@id/title`, so that it does not meet the attribute of the same name.
-/

namespace LayoutEngine

/-- The names that have numbers, by number. -/
structure IdTable where
  names : List String
  nodup : names.Nodup

namespace IdTable

/-- The table without names. -/
def empty : IdTable := ⟨[], by simp⟩

/-- How many names have a number. -/
def size (table : IdTable) : Nat := table.names.length

/-- The number of a name that has one. -/
def get? (name : String) (table : IdTable) : Option Int :=
  if name ∈ table.names then some (table.names.idxOf name + 1) else none

/-- The number of a name, and the table in which it has one. -/
def intern (name : String) (table : IdTable) : Int × IdTable :=
  if h : name ∈ table.names then (table.names.idxOf name + 1, table)
  else
    (table.names.length + 1,
      ⟨table.names ++ [name], List.nodup_append.2 ⟨table.nodup, by simp, by grind⟩⟩)

/-- The name that a number was given to. -/
def nameOf? (id : Int) (table : IdTable) : Option String :=
  if 1 ≤ id then table.names[(id - 1).toNat]? else none

/-- What the key of a view starts with. -/
def viewLead : List Char := ['@', 'i', 'd', '/']

/-- The key under which the view with a name is numbered. -/
def viewKey (name : String) : String := String.ofList (viewLead ++ name.toList)

/-- The number of the view with a name, and the table in which it has one. -/
def internView (name : String) (table : IdTable) : Int × IdTable := table.intern (viewKey name)

/-- The number of the view with a name, if it has one. -/
def viewId? (name : String) (table : IdTable) : Option Int := table.get? (viewKey name)

/-- The name of the view that a number was given to; none for the numbers of attributes. -/
def viewNameOf? (id : Int) (table : IdTable) : Option String := do
  let key ← table.nameOf? id
  let name ← Text.after? viewLead key.toList
  return String.ofList name

/-- A number for a reader: the view's name, or the number itself. -/
def describeView (id : Int) (table : IdTable) : String :=
  (table.viewNameOf? id).getD (toString id)

end IdTable

end LayoutEngine
