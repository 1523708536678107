import LayoutEngine.Session.Inflate

/-!
# Editing

An editing tool sees the declared attributes of a widget and changes them one at a time. An edit
goes through the widget's own parser, as the attribute of a layout would. If it is accepted the
descriptor of the attribute is replaced, or added if the widget never declared it.
-/

namespace LayoutEngine

/-- Why an edit fails. -/
inductive EditError where
  | noManager (widget : WidgetId)
  | layout (e : LayoutError)
  | rejected (name viewType : String)
  | inflate (e : InflateError)
deriving DecidableEq, Repr

namespace EditError

/-- The text of why an edit has failed. -/
def message : EditError → String
  | .noManager widget => "widget " ++ widget.text ++ " has no view manager"
  | .layout e => "invalid attribute value: " ++ e.message
  | .rejected name viewType =>
    "attribute '" ++ name ++ "' was rejected by the '" ++ viewType ++ "' parser"
  | .inflate e => e.message

end EditError

namespace Session

/-- The declared attributes of a widget. -/
def attributesOf (s : Session) (id : WidgetId) : List Descriptor := (s.tags.get? id).getD []

/-- The session in which an edit has been recorded. -/
def recordEdit (id : WidgetId) (name : String) (json : Json) (s : Session) : Session :=
  { s.note (.attributeEdited id name (Value.ofJson json).text) with
    tags := s.tags.upsert id (.ofJson name json) }

end Session

namespace Context

/-- Gives an attribute of a widget a new value, where parsers are those of a host. -/
def editBy (context : Context) (host : Host) (id : WidgetId) (name : String) (json : Json) :
    ExceptT EditError (StateM Session) Unit := do
  let s ← get
  match s.managerOf? id with
  | none => throw (.noManager id)
  | some manager =>
    let name := Text.trimmed name
    if name = "" then throw (.layout (.emptyAttributeName manager.layout.viewType))
    let a ← modifyGet (·.intern name)
    let accepted ← ((Value.ofJson json).applyBy context host manager.parser id a).adapt
      EditError.inflate
    if accepted then modify (·.recordEdit id name json)
    else throw (.rejected name manager.layout.viewType)

/-- Gives an attribute of a widget a new value. -/
def edit (context : Context) (id : WidgetId) (name : String) (json : Json) :
    ExceptT EditError (StateM Session) Unit :=
  context.editBy context.host id name json

end Context

end LayoutEngine
