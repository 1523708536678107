import LayoutEngine.AttributeSet
import LayoutEngine.Widget.Basic

/-!
# Parsers of layout types

The parser of a layout type says which widget a layout of that type makes and what the widget does
with attributes. `Handler` is the second half: a set of attributes of the kind's own, and the
common ones behind it. `Handler.route` says where an attribute goes.

Hosts bring parsers of their own. Such a parser may give out one and the same widget every time, it
hands its attributes to a handler it was made with, and it wants to be told what is asked of it:
`observers` are the names to tell, the innermost first.
-/

namespace LayoutEngine

/-- An attribute that changes the state of one widget. -/
inductive Property where
  | common (a : CommonAttribute)
  | text (a : TextAttribute)
  | editText (a : EditTextAttribute)
  | gravity
deriving DecidableEq, Repr

/-- Where an attribute goes. `presence` takes any value but null and does nothing with it. -/
inductive Route where
  | children
  | property (p : Property)
  | presence
  | unknown
deriving DecidableEq, Repr

/-- What widgets do with attributes. -/
inductive Handler where
  | view (common : AttributeSet CommonAttribute)
  | text (own : AttributeSet TextAttribute) (common : AttributeSet CommonAttribute)
  | editText (own : AttributeSet EditTextAttribute) (common : AttributeSet CommonAttribute)
  | container (own : AttributeSet ContainerAttribute) (common : AttributeSet CommonAttribute)
  | presence

namespace Handler

/-- Where the common attributes go. -/
def routeCommon (common : AttributeSet CommonAttribute) (id : Int) : Route :=
  match common.get? id with
  | some a => .property (.common a)
  | none => .unknown

/-- Where the attribute with a number goes: to the kind's own state if it is one of its own, and to
the view otherwise. -/
def route (id : Int) : Handler → Route
  | .view common => routeCommon common id
  | .text own common =>
    match own.get? id with
    | some a => .property (.text a)
    | none => routeCommon common id
  | .editText own common =>
    match own.get? id with
    | some a => .property (.editText a)
    | none => routeCommon common id
  | .container own common =>
    match own.get? id with
    | some .children => .children
    | some .gravity => .property .gravity
    | none => routeCommon common id
  | .presence => .presence

end Handler

/-- Which widget a parser gives out: a new one every time, or the one it made the first time, kept
in a place of its own. -/
inductive Creation where
  | fresh (item : Item)
  | kept (place : Nat) (item : Item)
deriving DecidableEq, Repr

/-- The parser of a layout type. -/
structure ViewParser where
  typeName : String
  creation : Creation
  handler : Handler
  observers : List String

namespace ViewParser

/-- Someone wants to be told what is asked of the parser. -/
def isObserved (parser : ViewParser) : Bool := !parser.observers.isEmpty

/-- The parser of plain views. -/
def view (ids : IdTable) : ViewParser × IdTable :=
  let (common, ids) := AttributeSet.allocate CommonAttribute.name CommonAttribute.all ids
  (⟨"view", .fresh .view, .view common, []⟩, ids)

/-- The parser of text widgets. -/
def text (ids : IdTable) : ViewParser × IdTable :=
  let (own, ids) := AttributeSet.allocate TextAttribute.name TextAttribute.all ids
  let (common, ids) := AttributeSet.allocate CommonAttribute.name CommonAttribute.all ids
  (⟨"text", .fresh (.text .initial), .text own common, []⟩, ids)

/-- The parser of editable fields. -/
def editText (ids : IdTable) : ViewParser × IdTable :=
  let (own, ids) := AttributeSet.allocate EditTextAttribute.name EditTextAttribute.all ids
  let (common, ids) := AttributeSet.allocate CommonAttribute.name CommonAttribute.all ids
  (⟨"edit-text", .fresh (.editText .initial), .editText own common, []⟩, ids)

/-- The parser of containers. -/
def relativeLayout (ids : IdTable) : ViewParser × IdTable :=
  let (own, ids) := AttributeSet.allocate ContainerAttribute.name ContainerAttribute.all ids
  let (common, ids) := AttributeSet.allocate CommonAttribute.name CommonAttribute.all ids
  (⟨"relative-layout", .fresh (.relativeLayout .initial), .container own common, []⟩, ids)

/-- The parsers that the engine itself has. -/
def builtins : List (IdTable → ViewParser × IdTable) := [view, text, editText, relativeLayout]

/-- The parser that the engine itself has for a type. -/
def builtin? (typeName : String) : Option (IdTable → ViewParser × IdTable) :=
  if typeName = "view" then some view
  else if typeName = "text" then some text
  else if typeName = "edit-text" then some editText
  else if typeName = "relative-layout" then some relativeLayout
  else none

end ViewParser

end LayoutEngine
