import LayoutEngine.Entries
import LayoutEngine.Layout.Compile
import LayoutEngine.Notice

/-!
# Named layouts

A store holds layouts under names. `Loader.load` adds the layouts of a document one by one, once all
of them have been compiled.
-/

namespace LayoutEngine

/-- Layouts under the names they were loaded under. -/
structure LayoutStore where
  layouts : List (String × Layout)

namespace LayoutStore

/-- The store without layouts. -/
def empty : LayoutStore := ⟨[]⟩

/-- The layout with a name. -/
def get? (name : String) (store : LayoutStore) : Option Layout :=
  Entries.get? name store.layouts

/-- There is a layout with a name. -/
def contains (name : String) (store : LayoutStore) : Bool := (store.get? name).isSome

/-- How many layouts there are. -/
def size (store : LayoutStore) : Nat := store.layouts.length

/-- The names in use, in the order of their code points. -/
def names (store : LayoutStore) : List String :=
  (Entries.keys store.layouts).mergeSort fun a b => decide (a ≤ b)

/-- The store in which a name stands for the layout. -/
def insert (name : String) (l : Layout) (store : LayoutStore) : LayoutStore :=
  ⟨Entries.put name l store.layouts⟩

/-- The store in which each name stands for its layout. -/
def insertAll (named : List (String × Layout)) (store : LayoutStore) : LayoutStore :=
  named.foldl (fun store (name, l) => store.insert name l) store

/-- The layouts of named sources, in order. -/
def compileAll : List (String × LayoutSource) → Compiler (List (String × Layout))
  | [] => return []
  | (name, source) :: rest => do
    let l ← source.compile
    let more ← compileAll rest
    return (name, l) :: more

/-- The layouts of a JSON document, under their names. -/
def compileText (text : String) : Compiler (List (String × Layout)) := do
  match LayoutSource.namedOfText? text with
  | some sources => compileAll sources
  | none => throw .invalidJson

end LayoutStore

/-- What loading layouts changes: the store, the numbers of names, and the log. -/
structure Loading where
  store : LayoutStore
  ids : IdTable
  log : List Notice

/-- A step of loading that may fail. What it changed before it failed stays changed. -/
abbrev Loader := ExceptT LayoutError (StateM Loading)

namespace Loader

/-- A compilation, with the numbers of names that there are. -/
def compiling {α : Type} (step : Compiler α) : Loader α := fun w =>
  let (result, ids) := step w.ids
  (result, { w with ids })

/-- Adds a layout under its name. -/
def add (name : String) (l : Layout) : Loader Unit := ExceptT.lift <| modify fun w =>
  { w with store := w.store.insert name l, log := w.log ++ [.layoutLoaded name l.viewType] }

/-- Adds layouts under their names, one by one. -/
def addAll : List (String × Layout) → Loader Unit
  | [] => return ()
  | (name, l) :: rest => do
    add name l
    addAll rest

/-- Adds the layouts of a JSON document and says how many they are. -/
def load (text : String) : Loader Nat := do
  let named ← compiling (LayoutStore.compileText text)
  addAll named
  return named.length

end Loader

end LayoutEngine
