import LayoutEngine.Session.Basic

/-!
# Applying properties

`Session.applyProperty` applies an attribute that concerns one widget alone: the value is resolved
in the widget's data and changes its view or its item. The answer is whether the attribute was
accepted. A widget of another kind than the attribute's accepts nothing.
-/

namespace LayoutEngine.Session

/-- Applies a common attribute to a view. -/
def applyCommon (id : WidgetId) (a : CommonAttribute) (value : Value) (s : Session) :
    Bool × Session :=
  match s.widget? id with
  | none => (false, s)
  | some widget =>
    match a.applied? (s.resolve id value) widget.view s.ids with
    | none => (false, s)
    | some (view, ids) => (true, { s.changeView id fun _ => view with ids := ids })

/-- Applies an attribute of the item, if the widget's item takes one. -/
def applyItem (id : WidgetId) (applied? : Item → Option Item) (s : Session) : Bool × Session :=
  match (s.widget? id).bind fun widget => applied? widget.item with
  | none => (false, s)
  | some item => (true, s.setItem id item)

/-- A text attribute's effect on an item. -/
def textItem? (a : TextAttribute) (value : Value) : Item → Option Item
  | .text state => (a.applied? value state).map .text
  | _ => none

/-- A field attribute's effect on an item. -/
def editTextItem? (a : EditTextAttribute) (value : Value) : Item → Option Item
  | .editText state => (a.applied? value state).map .editText
  | _ => none

/-- The effect of a gravity on an item. -/
def gravityItem? (value : Value) : Item → Option Item
  | .relativeLayout state => (state.applyGravity? value).map .relativeLayout
  | _ => none

/-- Tells that a text attribute has come to a widget that shows no text. -/
def noteNotText (id : WidgetId) (a : TextAttribute) (s : Session) : Session :=
  match (s.widget? id).map Widget.item with
  | none | some (Item.text _) => s
  | some item => s.note (.notText item.kind a.name)

/-- Applies a property to a widget; whether it was accepted. -/
def applyProperty (id : WidgetId) (p : Property) (value : Value) (s : Session) : Bool × Session :=
  match p with
  | .common a => s.applyCommon id a value
  | .text a => (s.noteNotText id a).applyItem id (textItem? a (s.resolve id value))
  | .editText a => s.applyItem id (editTextItem? a (s.resolve id value))
  | .gravity => s.applyItem id (gravityItem? (s.resolve id value))

end LayoutEngine.Session
