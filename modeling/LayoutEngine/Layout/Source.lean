import LayoutEngine.Json.Printer
import LayoutEngine.Json.Record

/-!
# Layouts as written

A layout document gives each widget a type, attributes by name, and children. In JSON it is a
record of the fields `type`, `attributes` and `children`, an attribute one of `id` and `value`; only
attributes and children may be left out. `LayoutSource.json` is the record written out again,
without children where there are none.
-/

namespace LayoutEngine

/-- An attribute as written. -/
structure AttributeSource where
  id : String
  value : Json

/-- A layout as written. -/
structure LayoutSource where
  viewType : String
  attributes : List AttributeSource
  children : List LayoutSource

namespace AttributeSource

/-- The attribute that a document is, if it nests no deeper than the levels. -/
def read? : Nat → Json.Document → Option AttributeSource
  | 0, _ => none
  | levels + 1, document => do
    match ← document.fields? ["id", "value"] with
    | [some id, some value] => return ⟨← id.text?, ← value.json? levels⟩
    | _ => none

/-- The attribute as it is saved. -/
def json (source : AttributeSource) : Json :=
  .object [("id", .string source.id), ("value", source.value)]

end AttributeSource

namespace LayoutSource

/-- The list that a field of a record holds, none if the field is missing. The list takes one level,
its items are read with the others. -/
def listed? {α : Type} (read : Nat → Json.Document → Option α) :
    Nat → Option Json.Document → Option (List α)
  | _, none => some []
  | 0, some _ => none
  | levels + 1, some document => do (← document.items?).mapM (read levels)

mutual

/-- The layout that a document is, if it nests no deeper than the levels. -/
def read? : Nat → Json.Document → Option LayoutSource
  | 0, _ => none
  | levels + 1, document => do
    match ← document.fields? ["type", "attributes", "children"] with
    | [some type, attributes, children] =>
      return ⟨← type.text?, ← listed? AttributeSource.read? levels attributes,
        ← children? levels children⟩
    | _ => none
termination_by structural levels => levels

/-- The children that a field holds, none if it is missing. -/
def children? : Nat → Option Json.Document → Option (List LayoutSource)
  | _, none => some []
  | 0, some _ => none
  | levels + 1, some document => do (← document.items?).mapM fun child => read? levels child
termination_by structural levels => levels

end

/-- Children are read as a list of layouts is. -/
theorem children?_eq_listed? : children? = listed? read? := by
  funext levels document?
  cases levels <;> cases document? <;> rfl

/-- The layout that a JSON text is. -/
def ofText? (text : String) : Option LayoutSource := do
  let document ← Json.Document.read? text
  read? Json.maxLevels document

mutual

/-- The layout as JSON. -/
def json : LayoutSource → Json
  | ⟨type, attributes, children⟩ =>
    let attributes := attributes.map AttributeSource.json
    let children := match children with
      | [] => []
      | _ :: _ => [("children", Json.array (childrenJson children))]
    .object ([("type", .string type), ("attributes", .array attributes)] ++ children)
termination_by structural source => source

/-- The children as they are saved. -/
def childrenJson : List LayoutSource → List Json
  | [] => []
  | child :: rest => json child :: childrenJson rest
termination_by structural children => children

end

/-- The named layouts that a JSON text is, in order. A name may be repeated. -/
def entriesOfText? (text : String) : Option (List (String × LayoutSource)) := do
  match ← Json.Document.read? text with
  | .object members =>
    members.mapM fun (name, source) => do
      return (← Json.unitText? name, ← read? (Json.maxLevels - 1) source)
  | _ => none

/-- The layouts under their names that a JSON text is: of a repeated name the last. -/
def namedOfText? (text : String) : Option (List (String × LayoutSource)) :=
  (entriesOfText? text).map Entries.ofList

end LayoutSource

end LayoutEngine
