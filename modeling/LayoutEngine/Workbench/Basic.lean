import LayoutEngine.Session.Edit
import LayoutEngine.Session.Tree
import LayoutEngine.Session.Update

/-!
# Workbenches

A host works with one context and one session. Layouts, widgets and managers that it wants to come
back to it puts aside, each under a name of its own choosing; a name used again stands for the new
thing. `Workbench` is all of this, `Setup` what the host decides before it starts, and `Work` a step
on the workbench that may fail.

A widget lives as long as the host has put it aside, a parser keeps it, or a living widget has it as
a child: `Workbench.isAlive`.
-/

namespace LayoutEngine

/-- All that a host works with: the context, the session, and its own names for layouts, widgets and
managers. -/
structure Workbench where
  context : Context
  session : Session
  layouts : List (String × Layout)
  widgets : List (String × WidgetId)
  managers : List (String × ManagerId)
  /-- The widget that the host has at hand for layouts of types without parser. -/
  spare : Option WidgetId

/-- Why a step on a workbench fails. -/
inductive WorkError where
  | noWidget (name : String)
  | noLayout (name : String)
  | noParser (viewType : String)
  | invalidJson
  | layout (e : LayoutError)
  | inflate (e : InflateError)
  | edit (e : EditError)
deriving DecidableEq, Repr

/-- A step on a workbench. What it changed before it failed stays changed. -/
abbrev Work := ExceptT WorkError (StateM Workbench)

/-- What a host decides before it starts to work. -/
structure Setup where
  /-- The engine's own parsers are registered. -/
  builtins : Bool
  parsers : List HostParser
  /-- Further names for types that have a parser. -/
  aliases : List (String × String)
  /-- A document of named layouts. -/
  layouts : Option String
  /-- What to do with a layout of a type without parser, given a widget to have at hand. -/
  fallback : Option (WidgetId → String → FallbackAnswer)
  verbose : Bool

namespace Setup

/-- Registers the host's parsers one by one. A parser whose name is taken replaces the one that has
it, which is worth a notice. -/
def registerHosts : List HostParser → Registry → Registry × List Notice
  | [], registry => (registry, [])
  | host :: rest, registry =>
    let (changed, notices) := registerHosts rest (registry.registerHost host)
    (changed, if registry.contains host.name then .parserReplaced host.name :: notices else notices)

/-- Registers further names. One for a type without parser is passed over. -/
def registerAliases (aliases : List (String × String)) (registry : Registry) : Registry :=
  aliases.foldl
    (fun registry (name, viewType) =>
      match registry.get? viewType with
      | some parser => registry.addAlias name parser
      | none => registry)
    registry

/-- Loads the document of named layouts, if there is one, and says how many layouts it has, or why
none were loaded. -/
def loadLayouts (setup : Setup) (w : Loading) : Option (Except LayoutError Nat) × Loading :=
  match setup.layouts with
  | none => (none, w)
  | some text =>
    let (result, w) := (Loader.load text).run w
    (some result, w)

/-- The session with a spare widget, if the host wants one. -/
def spareWidget (setup : Setup) (s : Session) : Option WidgetId × Session :=
  match setup.fallback with
  | none => (none, s)
  | some _ =>
    let (id, s) := s.create .view
    (some id, s)

/-- The host's answer for each type without parser. -/
def answers (setup : Setup) (spare : Option WidgetId) : Option (String → FallbackAnswer) := do
  return (← setup.fallback) (← spare)

/-- The workbench that a host starts with, and how many layouts were loaded, or why none. -/
def workbench (setup : Setup) : Workbench × Option (Except LayoutError Nat) :=
  let (registry, ids) :=
    if setup.builtins then Registry.withBuiltins .empty else (.empty, .empty)
  let (registry, replaced) := registerHosts setup.parsers registry
  let registry := registerAliases setup.aliases registry
  let (loaded, w) := setup.loadLayouts ⟨.empty, ids, replaced⟩
  let (spare, session) := setup.spareWidget (.ofIds w.ids)
  let context : Context := ⟨registry, w.store, setup.answers spare, setup.verbose⟩
  (⟨context, { session with log := w.log }, [], [], [], spare⟩, loaded)

end Setup

namespace Workbench

/-- The widgets that something other than a widget holds. -/
def held (bench : Workbench) : List WidgetId :=
  bench.widgets.map Prod.snd ++ bench.session.kept.map Prod.snd ++ bench.spare.toList

/-- The widget is still there. -/
def isAlive (bench : Workbench) (id : WidgetId) : Bool :=
  (bench.session.living bench.held).contains id

/-- The log and the calls so far, and the workbench with both of them empty. -/
def takeReports (bench : Workbench) : (List Notice × List HostCall) × Workbench :=
  ((bench.session.log, bench.session.calls),
    { bench with session := { bench.session with log := [], calls := [] } })

/-- A step that cannot fail. -/
def act {α : Type} (step : Workbench → α × Workbench) : Work α := ExceptT.lift step

/-- What the session holds. -/
def look {α : Type} (read : Session → α) : Work α := act fun bench => (read bench.session, bench)

/-- A change of the session. -/
def change (step : Session → Session) : Work Unit :=
  act fun bench => ((), { bench with session := step bench.session })

/-- A step of the session that may fail. -/
def run {ε α : Type} (wrap : ε → WorkError) (step : ExceptT ε (StateM Session) α) : Work α :=
  ExceptT.mk fun bench =>
    let (result, session) := step.run bench.session
    (result.mapError wrap, { bench with session := session })

/-- The numbering of names as a step of the session. -/
def compiling {α : Type} (compiler : Compiler α) : ExceptT LayoutError (StateM Session) α :=
  ExceptT.mk fun s =>
    let (result, ids) := compiler.run s.ids
    (result, { s with ids := ids })

/-- The widget put aside under a name. -/
def widget (name : String) : Work WidgetId := do
  match Entries.get? name (← get).widgets with
  | some id => return id
  | none => throw (.noWidget name)

/-- The layout put aside under a name. -/
def layout (name : String) : Work Layout := do
  match Entries.get? name (← get).layouts with
  | some l => return l
  | none => throw (.noLayout name)

/-- Puts a widget aside, if there is a name for it. -/
def keepWidget (name : Option String) (id : WidgetId) : Work Unit :=
  match name with
  | none => return ()
  | some name => modify fun bench => { bench with widgets := Entries.put name id bench.widgets }

/-- Puts a layout aside, if there is a name for it. -/
def keepLayout (name : Option String) (l : Layout) : Work Unit :=
  match name with
  | none => return ()
  | some name => modify fun bench => { bench with layouts := Entries.put name l bench.layouts }

/-- Puts a manager aside, if there is a name for it. -/
def keepManager (name : Option String) (id : ManagerId) : Work Unit :=
  match name with
  | none => return ()
  | some name => modify fun bench => { bench with managers := Entries.put name id bench.managers }

end Workbench

end LayoutEngine
