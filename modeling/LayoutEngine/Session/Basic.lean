import LayoutEngine.Layout.Store
import LayoutEngine.Notice
import LayoutEngine.Parser.Registry
import LayoutEngine.Value.Resolve

/-!
# Sessions

A session is the state that inflating, editing and updating change: the numbered names, the
declared attributes, the widgets with their children, the managers, and what has been told to the
reader of the log and to observing hosts. Widgets and managers are only ever added; whoever refers
to one keeps its identity. `Attaching` keeps track of managers that are being made; nothing that the
engine answers depends on what it records.

A `Context` is what inflation looks up and does not change: parsers, named layouts, what to do with
types that have no parser, and whether to tell about each attribute. `Engine` is a step that changes
the session and may fail; the changes made until then stay.
-/

namespace LayoutEngine

/-- What ties a widget to its layout: the parser that made it, its parent, the data of its
inflation and its place in a repeated collection. -/
structure Manager where
  widget : WidgetId
  layout : Layout
  parser : ViewParser
  parent : Option WidgetId
  index : Int
  data : Fields

/-- What an observing host is told. -/
inductive HostCall where
  | create (parser viewType : String) (index : Int)
  | created (parser : String) (parent : Option WidgetId) (index : Int)
  | manager (parser : String)
  | handled (parser name : String) (value : Value) (result : Option Bool)
  | unknown (viewType : String) (attributes fields : Nat) (index : Int)

/-- What the engine asks a parser for while it gives a widget its manager. -/
inductive ParserCall where
  | setUp (widget : WidgetId)
  | manager (widget : WidgetId)
deriving DecidableEq, Repr

/-- How widgets come by their managers: the widgets whose places for a manager are locked, as the
engine is about to fill them, and all that parsers have been asked for on the way, in order. -/
structure Attaching where
  locked : List WidgetId
  asked : List ParserCall
deriving DecidableEq, Repr

/-- The state that inflating, editing and updating change. -/
structure Session where
  ids : IdTable
  tags : TagTable
  widgets : List Widget
  managers : List Manager
  /-- The widgets that parsers keep, by the parser's place. -/
  kept : List (Nat × WidgetId)
  log : List Notice
  calls : List HostCall
  attaching : Attaching

/-- What to do with a layout of a type that has no parser. -/
inductive FallbackAnswer where
  | nothing
  | newView
  | placeholder
  | widget (id : WidgetId)
  | layout (name : String)
deriving DecidableEq, Repr

/-- What inflation looks up and does not change. -/
structure Context where
  registry : Registry
  layouts : LayoutStore
  /-- The answer of the host for each type that has no parser, if there is a host to ask. -/
  fallback : Option (String → FallbackAnswer)
  verbose : Bool

/-- Why an inflation fails. `endless` is for layouts that stand for themselves. -/
inductive InflateError where
  | layoutNotFound (name : String)
  | unresolvedType (viewType : String)
  | callbackReturnedNothing (viewType : String)
  | endless
deriving DecidableEq, Repr

namespace InflateError

/-- The text of an error. -/
def message : InflateError → String
  | .layoutNotFound name => "layout not found: '" ++ name ++ "'"
  | .unresolvedType viewType =>
    "no parser registered for view type '" ++ viewType ++
      "' and no unknown-type callback is set"
  | .callbackReturnedNothing viewType =>
    "unknown-type callback returned no widget for view type '" ++ viewType ++ "'"
  | .endless => "inflation does not end"

end InflateError

/-- A step that changes a session and may fail. -/
abbrev Engine := ExceptT InflateError (StateM Session)

namespace Session

/-- A session without widgets in which some names have numbers. -/
def ofIds (ids : IdTable) : Session := ⟨ids, .empty, [], [], [], [], [], ⟨[], []⟩⟩

/-- The widget with an identity. -/
def widget? (s : Session) : WidgetId → Option Widget
  | ⟨0⟩ => none
  | ⟨n + 1⟩ => s.widgets[n]?

/-- The manager with an identity. -/
def manager? (s : Session) (id : ManagerId) : Option Manager := s.managers[id.number]?

/-- The manager of a widget. -/
def managerOf? (s : Session) (id : WidgetId) : Option Manager := do
  let widget ← s.widget? id
  s.manager? (← widget.manager)

/-- The children of a widget. -/
def childrenOf (s : Session) (id : WidgetId) : List WidgetId :=
  ((s.widget? id).map (·.children)).getD []

/-- The session with a widget changed. -/
def changeWidget (id : WidgetId) (change : Widget → Widget) (s : Session) : Session :=
  match id with
  | ⟨0⟩ => s
  | ⟨n + 1⟩ => { s with widgets := s.widgets.modify n change }

/-- The session with a view changed. -/
def changeView (id : WidgetId) (change : ViewState → ViewState) (s : Session) : Session :=
  s.changeWidget id fun widget => { widget with view := change widget.view }

/-- The session with a widget's item replaced. -/
def setItem (id : WidgetId) (item : Item) (s : Session) : Session :=
  s.changeWidget id fun widget => { widget with item := item }

/-- The session with a widget's children replaced. -/
def setChildren (id : WidgetId) (children : List WidgetId) (s : Session) : Session :=
  s.changeWidget id fun widget => { widget with children := children }

/-- The session with a manager's data changed. -/
def setData (id : ManagerId) (data : Fields) (s : Session) : Session :=
  { s with managers := s.managers.modify id.number fun manager => { manager with data := data } }

/-- A new widget, and the session that has it. -/
def create (item : Item) (s : Session) : WidgetId × Session :=
  (⟨s.widgets.length + 1⟩, { s with widgets := s.widgets ++ [Widget.ofItem item] })

/-- The session in which a widget has a new manager. -/
def addManager (id : WidgetId) (manager : Manager) (s : Session) : Session :=
  { s.changeWidget id fun widget => { widget with manager := some ⟨s.managers.length⟩ } with
    managers := s.managers ++ [manager] }

/-- The session in which a widget has a manager, unless it already had one; and whether it had
none. -/
def setManager (id : WidgetId) (manager : ManagerId) (s : Session) : Bool × Session :=
  match (s.widget? id).bind (·.manager) with
  | some _ => (false, s)
  | none => (true, s.changeWidget id fun widget => { widget with manager := some manager })

/-- The session in which a parser has been asked for something. -/
def ask (call : ParserCall) (s : Session) : Session :=
  { s with attaching.asked := s.attaching.asked ++ [call] }

/-- The session in which a widget's place for a manager is locked. -/
def lock (id : WidgetId) (s : Session) : Session :=
  { s with attaching.locked := id :: s.attaching.locked }

/-- The session in which a widget's place for a manager is no longer locked. -/
def unlock (id : WidgetId) (s : Session) : Session :=
  { s with attaching.locked := s.attaching.locked.erase id }

/-- The session with something more to tell. -/
def note (notice : Notice) (s : Session) : Session := { s with log := s.log ++ [notice] }

/-- The session in which a host has been told something. -/
def tell (call : HostCall) (s : Session) : Session := { s with calls := s.calls ++ [call] }

/-- The number of a name. -/
def intern (name : String) (s : Session) : Int × Session :=
  let (id, ids) := s.ids.intern name
  (id, { s with ids := ids })

/-- The name that a number stands for, or the number itself. -/
def attributeName (s : Session) (id : Int) : String := (s.ids.nameOf? id).getD (toString id)

/-- A value in a widget's data. A widget without manager has no data. -/
def resolve (s : Session) (id : WidgetId) (value : Value) : Value :=
  match s.managerOf? id with
  | some manager => value.resolve manager.data manager.index
  | none => value.resolve [] noDataIndex

end Session

end LayoutEngine
