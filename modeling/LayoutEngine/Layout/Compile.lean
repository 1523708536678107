import LayoutEngine.IdTable
import LayoutEngine.Layout.Source
import LayoutEngine.Text.Blank
import LayoutEngine.Value.Basic

/-!
# Compiling layouts

`LayoutSource.compile` turns a layout as written into a layout: attribute names become numbers,
strings of the form `@{path}` bindings, and compiled children the value of a last attribute called
`children`. The declared attributes are kept as text beside it. A type or an attribute name that is
blank is refused; the names numbered until then stay numbered.
-/

namespace LayoutEngine

/-- Why a layout cannot be had. -/
inductive LayoutError where
  | emptyType
  | emptyAttributeName (viewType : String)
  | invalidJson
deriving DecidableEq, Repr

namespace LayoutError

/-- The text of what is wrong with a layout. -/
def message : LayoutError → String
  | .emptyType => "layout type must not be empty"
  | .emptyAttributeName viewType =>
    "attribute name must not be empty (layout type '" ++ viewType ++ "')"
  | .invalidJson => "invalid layout JSON"

end LayoutError

/-- Compilation numbers names as it goes, also when it fails later. -/
abbrev Compiler := ExceptT LayoutError (StateM IdTable)

namespace Compiler

/-- The number of a name. -/
def idOf (name : String) : Compiler Int := ExceptT.lift (modifyGet (·.intern name))

end Compiler

namespace Layout

/-- The name of the attribute that holds the children of a container. -/
def childrenName : String := "children"

/-- A layout without attributes, if its type is not blank. -/
def ofType (viewType : String) : Except LayoutError Layout :=
  if Text.trim viewType.toList = [] then .error .emptyType else .ok ⟨viewType, [], none⟩

/-- The layout with attributes added at the end. -/
def addAttributes (attributes : List Attribute) (l : Layout) : Layout :=
  ⟨l.viewType, l.attributes ++ attributes, l.tags⟩

/-- The layout with its declared attributes as text. -/
def withTags (tags : List Descriptor) (l : Layout) : Layout :=
  ⟨l.viewType, l.attributes, some tags⟩

end Layout

namespace LayoutSource

/-- A declared attribute under the number of its name, and its text. -/
def compileAttribute (viewType : String) (source : AttributeSource) :
    Compiler (Attribute × Descriptor) := do
  let name := Text.trimmed source.id
  if name = "" then throw (.emptyAttributeName viewType)
  let id ← Compiler.idOf name
  return (⟨id, .ofJson source.value⟩, .ofJson name source.value)

/-- Declared attributes, in order. -/
def compileAttributes (viewType : String) :
    List AttributeSource → Compiler (List (Attribute × Descriptor))
  | [] => return []
  | source :: rest => do
    let declared ← compileAttribute viewType source
    let more ← compileAttributes viewType rest
    return declared :: more

mutual

/-- The layout that a source describes. -/
def compile : LayoutSource → Compiler Layout
  | ⟨viewType, attributes, children⟩ => do
    let l ← ExceptT.mk (pure (Layout.ofType viewType))
    let declared ← compileAttributes viewType attributes
    let l := match declared with
      | [] => l
      | _ :: _ => (l.addAttributes (declared.map Prod.fst)).withTags (declared.map Prod.snd)
    match children with
    | [] => return l
    | _ :: _ =>
      let compiled ← compileChildren children
      let id ← Compiler.idOf Layout.childrenName
      return l.addAttributes [⟨id, .array (compiled.map Value.layout)⟩]
termination_by structural source => source

/-- The layouts that sources describe, in order. -/
def compileChildren : List LayoutSource → Compiler (List Layout)
  | [] => return []
  | child :: rest => do
    let child ← compile child
    let rest ← compileChildren rest
    return child :: rest
termination_by structural children => children

end

/-- The layout that a JSON text describes. -/
def compileText (text : String) : Compiler Layout := do
  match ofText? text with
  | some source => compile source
  | none => throw .invalidJson

end LayoutSource

end LayoutEngine
