import LayoutEngine.Widget.EditText
import LayoutEngine.Widget.RelativeLayout
import LayoutEngine.Widget.Text
import LayoutEngine.Widget.View

/-!
# Widgets

A widget is of a kind, with the state that its kind has, and owns a view, its children and, once it
has been given one, the manager that ties it to its layout and data. `stub` is a kind without state
of its own that no layout type makes: hosts use it for widgets the engine knows nothing about.
-/

namespace LayoutEngine

/-- The kind of a widget and its state. -/
inductive Item where
  | view
  | stub
  | text (state : TextState)
  | editText (state : EditTextState)
  | relativeLayout (state : RelativeLayoutState)
deriving DecidableEq, Repr

namespace Item

/-- The kind as descriptions name it. -/
def kind : Item → String
  | .view => "view"
  | .stub => "stub"
  | .text _ => "text"
  | .editText _ => "edit-text"
  | .relativeLayout _ => "relative-layout"

/-- The item of a new widget of a kind; a stub for a kind without name here. -/
def ofKind (kind : String) : Item :=
  if kind = "view" then .view
  else if kind = "text" then .text .initial
  else if kind = "edit-text" then .editText .initial
  else if kind = "relative-layout" then .relativeLayout .initial
  else .stub

/-- What a description of the widget tells about its state. -/
def summary : Item → String
  | .view | .stub => ""
  | .text state => state.summary
  | .editText state => state.summary
  | .relativeLayout state => state.summary

/-- A new widget of the kind may take the focus. Editable fields may not, lest a new form take it by
itself. -/
def startsFocusable : Item → Bool
  | .editText _ => false
  | _ => true

end Item

/-- The identity of a manager: managers are numbered from zero in the order of their creation. -/
structure ManagerId where
  number : Nat
deriving DecidableEq, Repr

/-- A widget: its item, the state of its view, its manager and its children. -/
structure Widget where
  item : Item
  view : ViewState
  manager : Option ManagerId
  children : List WidgetId
deriving DecidableEq, Repr

namespace Widget

/-- A new widget. -/
def ofItem (item : Item) : Widget :=
  ⟨item, { ViewState.initial with focusable := item.startsFocusable }, none, []⟩

end Widget

end LayoutEngine
