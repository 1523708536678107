import LayoutEngine.Session.Property

/-!
# Inflation

Inflation makes a widget of a layout, and of the layouts among its children in turn. The parser of
the layout's type gives out a widget; a widget that has no manager yet gets one, learns its parent,
and from then on keeps both. The layout's attributes are then applied in order. One that is
rejected does no harm; one whose children cannot be inflated makes the whole inflation fail.

A layout of a type without parser is left to `unknown`, whatever that does. `Context.inflate` gives
it the meaning that the context's fallback has. Where the fallback is itself a named layout, its
inflation may again come upon an unknown type; since the answer depends on the type alone, a chain
of more such layouts than the store holds would never end, and is given up.
-/

namespace LayoutEngine

namespace Engine

/-- A step that cannot fail. -/
def act {α : Type} (step : Session → α × Session) : Engine α := ExceptT.lift step

/-- A change of the session. -/
def change (step : Session → Session) : Engine Unit := act fun s => ((), step s)

/-- What the session holds. -/
def look {α : Type} (read : Session → α) : Engine α := act fun s => (read s, s)

end Engine

namespace ViewParser

/-- The session in which the parser's observers have been told something, if it has any. -/
def report (parser : ViewParser) (call : HostCall) (s : Session) : Session :=
  if parser.isObserved then s.tell call else s

/-- The widget that a parser gives out for a layout of a type. -/
def giveOut (parser : ViewParser) (viewType : String) (index : Int) (s : Session) :
    WidgetId × Session :=
  let s := parser.report (.create parser.typeName viewType index) s
  match parser.creation with
  | .fresh item => s.create item
  | .kept place item =>
    match Entries.get? place s.kept with
    | some widget => (widget, s)
    | none =>
      let (widget, s) := s.create item
      (widget, { s with kept := Entries.put place widget s.kept })

/-- The session in which a widget knows its parent, and the observers that it was created. -/
def setUp (parser : ViewParser) (id : WidgetId) (parent : Option WidgetId) (index : Int)
    (s : Session) : Session :=
  (parser.report (.created parser.typeName parent index) s).changeView id (·.attach parent)

/-- The session in which the observers have been told how an attribute was handled. -/
def reportHandled (parser : ViewParser) (id : Int) (value : Value) (result : Option Bool)
    (s : Session) : Session :=
  parser.observers.foldl
    (fun s name => s.tell (.handled name (s.attributeName id) value result)) s

/-- Handles an attribute and tells the observers. -/
def observe (parser : ViewParser) (id : Int) (value : Value) (handle : Engine Bool) :
    Engine Bool :=
  ExceptT.mk fun s =>
    match handle s with
    | (.ok result, s) => (.ok result, parser.reportHandled id value (some result) s)
    | (.error e, s) => (.error e, parser.reportHandled id value none s)

end ViewParser

namespace Session

/-- The session in which a widget has the children and no others. -/
def replaceChildren (id : WidgetId) (children : List WidgetId) (s : Session) : Session :=
  let previous := s.childrenOf id
  let s := s.setChildren id children
  if previous.isEmpty then s else s.note (.childrenReplaced previous.length id)

/-- The session in which it was told how an attribute of a layout fared. -/
def noteOutcome (id : WidgetId) (viewType : String) (a : Int) (value : Value) (accepted : Bool)
    (s : Session) : Session :=
  let name := s.attributeName a
  if accepted then s.note (.attributeHandled id viewType name value.text)
  else s.note (.attributeRejected id viewType name value.text)

/-- The session in which the declared attributes of an inflated layout have been recorded. -/
def recordTags (id : WidgetId) (l : Layout) (s : Session) : Session :=
  if l.attributes.isEmpty then s
  else
    match l.tags with
    | some tags => { s with tags := s.tags.record id tags }
    | none => s

end Session

/-- What happens to a layout whose type has no parser. -/
abbrev UnknownType := Layout → Fields → Int → Engine WidgetId

/-- What the engine leaves to others. To parsers: the widget that a layout gets, its set-up and its
manager, and how an attribute is handled, given how the engine's own parsers would. A manager is
made on behalf of a parser, which need not be the one that makes it. To a host: what happens to a
layout whose type has no parser. `enter` comes before the engine looks into a widget's place for a
manager; one who has come back to the engine from the widget's set-up gets no further. -/
structure Host where
  create : ViewParser → Layout → Fields → Option WidgetId → Int → Engine WidgetId
  enter : WidgetId → Engine Unit
  setUp : ViewParser → WidgetId → Option WidgetId → Int → Engine Unit
  manager (maker keeper : ViewParser) :
    WidgetId → Layout → Fields → Option WidgetId → Int → Engine Manager
  handle : ViewParser → WidgetId → Int → Value → Engine Bool → Engine Bool
  unknown : UnknownType

namespace Host

/-- All parsers are the engine's own, or such of a host as `Creation` and `Handler` describe. None
of them comes back to the engine while a place for a manager is locked. -/
def own (unknown : UnknownType) : Host where
  create parser l _ _ index := Engine.act (parser.giveOut l.viewType index)
  enter _ := return ()
  setUp parser id parent index := Engine.change (parser.setUp id parent index)
  manager maker keeper id l data parent index := do
    Engine.change (maker.report (.manager maker.typeName))
    return ⟨id, l, keeper, parent, index, data⟩
  handle parser _ a value own := parser.observe a value own
  unknown := unknown

/-- Gives a widget a manager. Its place for one is locked while parsers are asked. -/
def fill (host : Host) (verbose : Bool) (parser : ViewParser) (l : Layout) (data : Fields)
    (parent : Option WidgetId) (index : Int) (id : WidgetId) : Engine Unit := do
  Engine.change fun s => (s.lock id).ask (.setUp id)
  host.setUp parser id parent index
  Engine.change (·.ask (.manager id))
  let manager ← host.manager parser parser id l data parent index
  Engine.change fun s => (s.addManager id manager).unlock id
  if verbose then Engine.change (·.note (.managerAttached l.viewType id))

/-- Gives a widget a manager, unless it has one. -/
def attach (host : Host) (verbose : Bool) (parser : ViewParser) (l : Layout) (data : Fields)
    (parent : Option WidgetId) (index : Int) (id : WidgetId) : Engine Unit := do
  host.enter id
  match ← Engine.look fun s => (s.widget? id).bind (·.manager) with
  | some _ => if verbose then Engine.change (·.note (.managerKept id))
  | none => host.fill verbose parser l data parent index id

end Host

mutual

/-- The widget of a layout. -/
def Layout.inflateBy (context : Context) (host : Host) (data : Fields) (parent : Option WidgetId)
    (index : Int) : Layout → Engine WidgetId
  | ⟨viewType, attributes, tags⟩ => do
    match context.registry.get? viewType with
    | none =>
      Engine.change (·.note (.noParser viewType))
      host.unknown ⟨viewType, attributes, tags⟩ data index
    | some parser =>
      let l : Layout := ⟨viewType, attributes, tags⟩
      let id ← host.create parser l data parent index
      host.attach context.verbose parser l data parent index id
      Engine.change (·.recordTags id l)
      Layout.applyAttributesBy context host parser viewType id attributes
      return id
termination_by structural l => l

/-- Applies the attributes of a layout in order. -/
def Layout.applyAttributesBy (context : Context) (host : Host) (parser : ViewParser)
    (viewType : String) (id : WidgetId) : List Attribute → Engine Unit
  | [] => return ()
  | ⟨a, value⟩ :: rest => do
    let accepted ← Value.applyBy context host parser id a value
    if context.verbose then Engine.change (·.noteOutcome id viewType a value accepted)
    Layout.applyAttributesBy context host parser viewType id rest
termination_by structural attributes => attributes

/-- Applies the attribute with number `a` to a widget, as a parser handles it; whether it was
accepted. Children come as an array of layouts, for a widget that has a manager. All of them are
inflated before they take the place of those that were there. -/
def Value.applyBy (context : Context) (host : Host) (parser : ViewParser) (id : WidgetId)
    (a : Int) : Value → Engine Bool
  | .array items =>
    host.handle parser id a (.array items) <|
      match parser.handler.route a with
      | .children => do
        match ← Engine.look (·.managerOf? id) with
        | none =>
          Engine.change (·.note (.noManagerForChildren id))
          return false
        | some manager =>
          if items.all Value.isLayout then
            let children ← Value.inflateAllBy context host manager.data id manager.index items
            Engine.change (·.replaceChildren id children)
            return true
          else
            Engine.change (·.note (.childNoLayout id))
            return false
      | .property p => Engine.act (·.applyProperty id p (.array items))
      | .presence => return true
      | .unknown => return false
  | value =>
    host.handle parser id a value <|
      match parser.handler.route a with
      | .property p => Engine.act (·.applyProperty id p value)
      | .presence => return !value.isNull
      | .children | .unknown => return false
termination_by structural value => value

/-- The widgets of the layouts among values, in order, as children of a widget. -/
def Value.inflateAllBy (context : Context) (host : Host) (data : Fields) (parent : WidgetId)
    (index : Int) : List Value → Engine (List WidgetId)
  | [] => return []
  | .layout l :: rest => do
    let id ← Layout.inflateBy context host data (some parent) index l
    let more ← Value.inflateAllBy context host data parent index rest
    return id :: more
  | _ :: rest => Value.inflateAllBy context host data parent index rest
termination_by structural items => items

end

section

variable (context : Context) (unknown : UnknownType)

/-- The widget of a layout, as the engine's own parsers have it. -/
def Layout.inflate (data : Fields) (parent : Option WidgetId) (index : Int) (l : Layout) :
    Engine WidgetId :=
  l.inflateBy context (.own unknown) data parent index

/-- Applies the attributes of a layout in order, as the engine's own parsers do. -/
def Layout.applyAttributes (parser : ViewParser) (viewType : String) (id : WidgetId)
    (attributes : List Attribute) : Engine Unit :=
  Layout.applyAttributesBy context (.own unknown) parser viewType id attributes

/-- Applies an attribute to a widget, as the engine's own parsers do; whether it was accepted. -/
def Value.apply (parser : ViewParser) (id : WidgetId) (a : Int) (value : Value) : Engine Bool :=
  value.applyBy context (.own unknown) parser id a

/-- The widgets of the layouts among values, as the engine's own parsers have them. -/
def Value.inflateAll (data : Fields) (parent : WidgetId) (index : Int) (items : List Value) :
    Engine (List WidgetId) :=
  Value.inflateAllBy context (.own unknown) data parent index items

end

namespace Context

/-- A layout of a type without parser, as the context's fallback would have it. The budget bounds
how many named layouts may stand for each other. -/
def unknown (context : Context) : Nat → UnknownType
  | budget, l, data, index => do
    match context.fallback with
    | none => throw (.unresolvedType l.viewType)
    | some answer =>
      Engine.change (·.tell (.unknown l.viewType l.attributes.length data.length index))
      match answer l.viewType with
      | .nothing => throw (.callbackReturnedNothing l.viewType)
      | .newView => Engine.act (·.create .view)
      | .placeholder =>
        Engine.change (·.note (.placeholder l.viewType))
        Engine.act (·.create .view)
      | .widget id => return id
      | .layout name =>
        match context.layouts.get? name, budget with
        | none, _ => throw (.callbackReturnedNothing l.viewType)
        | some _, 0 => throw .endless
        | some named, budget + 1 =>
          tryCatch (named.inflate context (unknown context budget) data none index) fun
            | .endless => throw .endless
            | _ => throw (.callbackReturnedNothing l.viewType)

/-- The engine's own parsers, and the fallback for other types. -/
def host (context : Context) : Host :=
  .own (context.unknown context.layouts.size)

/-- Inflates a layout. -/
def inflate (context : Context) (l : Layout) (data : Fields) (parent : Option WidgetId)
    (index : Int) : Engine WidgetId :=
  l.inflate context (context.unknown context.layouts.size) data parent index

/-- Inflates a named layout with a host. -/
def inflateNamedBy (context : Context) (host : Host) (name : String) (data : Fields)
    (parent : Option WidgetId) (index : Int) : Engine WidgetId := do
  match context.layouts.get? name with
  | none => throw (.layoutNotFound name)
  | some l => l.inflateBy context host data parent index

/-- Inflates a named layout. -/
def inflateNamed (context : Context) (name : String) (data : Fields) (parent : Option WidgetId)
    (index : Int) : Engine WidgetId :=
  context.inflateNamedBy context.host name data parent index

/-- Applies an attribute to a widget, as a parser handles it. -/
def apply (context : Context) (parser : ViewParser) (id : WidgetId) (a : Int) (value : Value) :
    Engine Bool :=
  value.apply context (context.unknown context.layouts.size) parser id a

end Context

end LayoutEngine
