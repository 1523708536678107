import LayoutEngine.Session.Edit
import LayoutEngine.Session.Update

/-!
# Code of a host

What a host brings is code: parsers, the answer for types that have no parser, and the program that
uses the engine. `Program` is such code as the engine meets it. It reads the session and does what a
host may do to it (`HostAct`), step by step, each step depending on what came of those before; among
the steps are those that come back to the engine. `HostCode` says which parsers are a host's own and
what code they have. Code that needs to remember something can leave it in the session.

Code may come back to the engine while the engine waits for it, which may wait for code again, and
so on. `HostCode.host` lets it do so to a depth. What goes deeper ends as `endless`, and so does
what would wait for ever, or what no host can do: to ask for a place for a manager that is locked,
and to name a widget or manager that there is none of. No code gets to see that.
-/

namespace LayoutEngine

/-! ## Code -/

/-- What code of a host may do to a session. The last ones come back to the engine: to what
inflates, to a parser, to what edits, and to a manager. -/
inductive HostAct where
  | create (item : Item)
  | changeView (id : WidgetId) (change : ViewState → ViewState)
  | setItem (id : WidgetId) (item : Item)
  | setChildren (id : WidgetId) (children : List WidgetId)
  | makeManager (manager : Manager)
  | setManager (id : WidgetId) (manager : ManagerId)
  | keep (place : Nat) (id : WidgetId)
  | intern (name : String)
  | changeTags (change : TagTable → TagTable)
  | note (notice : Notice)
  | tell (call : HostCall)
  | inflate (l : Layout) (data : Fields) (parent : Option WidgetId) (index : Int)
  | inflateNamed (name : String) (data : Fields) (parent : Option WidgetId) (index : Int)
  | createView (parser : ViewParser) (l : Layout) (data : Fields) (parent : Option WidgetId)
    (index : Int)
  | setUp (parser : ViewParser) (id : WidgetId) (parent : Option WidgetId) (index : Int)
  | manager (maker keeper : ViewParser) (id : WidgetId) (l : Layout) (data : Fields)
    (parent : Option WidgetId) (index : Int)
  | handle (parser : ViewParser) (id : WidgetId) (a : Int) (value : Value)
  | edit (id : WidgetId) (name : String) (json : Json)
  | update (alive : WidgetId → Bool) (id : ManagerId) (data : Fields)

namespace HostAct

/-- What code learns of something that it does. -/
abbrev Answer : HostAct → Type
  | .create _ | .createView .. => WidgetId
  | .makeManager _ => ManagerId
  | .setManager .. => Bool
  | .intern _ => Int
  | .inflate .. | .inflateNamed .. => Except InflateError WidgetId
  | .manager .. => Manager
  | .handle .. => Except InflateError Bool
  | .edit .. => Except EditError Unit
  | .update .. => Except InflateError Nat
  | .changeView .. | .setItem .. | .setChildren .. | .keep .. | .changeTags _ | .note _ | .tell _
  | .setUp .. => Unit

/-- The code has a manager updated. -/
def IsUpdate : HostAct → Prop
  | .update .. => True
  | _ => False

end HostAct

/-- Code of a host. It looks at the session, does something, and goes on by what came of it. -/
inductive Program (α : Type) where
  | done (a : α)
  | look (next : Session → Program α)
  | step (act : HostAct) (next : act.Answer → Program α)

/-- The code of a host's parser. The set-up and the manager are those of the engine's own parsers if
nothing else is said. -/
structure ParserCode where
  create : Layout → Fields → Option WidgetId → Int → Program WidgetId
  setUp : WidgetId → Option WidgetId → Int → Program Unit :=
    fun id parent _ => .step (.changeView id (·.attach parent)) .done
  manager : ViewParser → WidgetId → Layout → Fields → Option WidgetId → Int → Program Manager :=
    fun keeper id l data parent index => .done ⟨id, l, keeper, parent, index, data⟩
  handle : WidgetId → Int → Value → Program (Except InflateError Bool)

/-- The code that a host brings: for parsers of its own, and for types that have no parser. -/
structure HostCode where
  parser : ViewParser → Option ParserCode
  unknown : Option (Layout → Fields → Int → Program (Option WidgetId))

/-! ## Running it -/

namespace InflateError

/-- What has failed has come to an end. -/
def ends : InflateError → Bool
  | .endless => false
  | _ => true

end InflateError

namespace EditError

/-- What has failed has come to an end. -/
def ends : EditError → Bool
  | .inflate e => e.ends
  | _ => true

end EditError

namespace Engine

variable {ε α : Type}

/-- What comes of a step, be it a failure. What does not end comes to nothing. -/
def attempt (ends : ε → Bool) (x : ExceptT ε (StateM Session) α) : Engine (Except ε α) :=
  ExceptT.mk fun s =>
    match x s with
    | (.ok a, s) => (.ok (.ok a), s)
    | (.error e, s) => (if ends e then .ok (.error e) else .error .endless, s)

/-- Goes on if something holds of the session. -/
def insist (p : Session → Bool) : Engine Unit := do
  if ← look p then return () else throw .endless

end Engine

namespace Session

/-- A manager that no widget has so far, and the session that has it. -/
def makeManager (manager : Manager) (s : Session) : ManagerId × Session :=
  (⟨s.managers.length⟩, { s with managers := s.managers ++ [manager] })

/-- The session in which a widget is kept in a place. -/
def keep (place : Nat) (id : WidgetId) (s : Session) : Session :=
  { s with kept := Entries.put place id s.kept }

/-- A widget's place for a manager is not locked. -/
def isOpen (id : WidgetId) (s : Session) : Bool := !s.attaching.locked.contains id

end Session

namespace HostAct

/-- Does what code asks for, where the engine is one that has the given host. -/
def run (context : Context) (host : Host) : (act : HostAct) → Engine act.Answer
  | .create item => Engine.act (·.create item)
  | .changeView id change => Engine.change (·.changeView id change)
  | .setItem id item => Engine.change (·.setItem id item)
  | .setChildren id children => Engine.change (·.setChildren id children)
  | .makeManager m => Engine.act (·.makeManager m)
  | .setManager id mid => do
    Engine.insist fun s => s.isOpen id && (s.manager? mid).isSome
    Engine.act (·.setManager id mid)
  | .keep place id => do
    Engine.insist fun s => (s.widget? id).isSome
    Engine.change (·.keep place id)
  | .intern name => Engine.act (·.intern name)
  | .changeTags change => Engine.change fun s => { s with tags := change s.tags }
  | .note notice => Engine.change (·.note notice)
  | .tell call => Engine.change (·.tell call)
  | .inflate l data parent index =>
    Engine.attempt InflateError.ends (l.inflateBy context host data parent index)
  | .inflateNamed name data parent index =>
    Engine.attempt InflateError.ends (context.inflateNamedBy host name data parent index)
  | .createView parser l data parent index => host.create parser l data parent index
  | .setUp parser id parent index => host.setUp parser id parent index
  | .manager maker keeper id l data parent index =>
    host.manager maker keeper id l data parent index
  | .handle parser id a value =>
    Engine.attempt InflateError.ends (value.applyBy context host parser id a)
  | .edit id name json => Engine.attempt EditError.ends (context.editBy host id name json)
  | .update alive id data =>
    Engine.attempt InflateError.ends (context.updateBy host alive id data)

end HostAct

namespace Program

/-- Runs code, where the engine it comes back to is one that has the given host. -/
def run {α : Type} (context : Context) (host : Host) : Program α → Engine α
  | .done a => return a
  | .look next => do (next (← Engine.look id)).run context host
  | .step act next => do (next (← act.run context host)).run context host

end Program

/-- Whoever is asked anything does not come to an end. -/
def Host.silent : Host where
  create _ _ _ _ _ := throw .endless
  enter _ := throw .endless
  setUp _ _ _ _ := throw .endless
  manager _ _ _ _ _ _ _ := throw .endless
  handle _ _ _ _ _ := throw .endless
  unknown _ _ _ := throw .endless

namespace HostCode

/-- The widget that code has given out, which must be there. -/
def present (id : WidgetId) : Engine WidgetId := do
  Engine.insist fun s => (s.widget? id).isSome
  return id

/-- The parsers and the answers of a host's code, where the engine that the code comes back to is
one that has the host `inner`. Parsers without code are as `Host.own` has them. -/
def atop (code : HostCode) (context : Context) (inner : Host) : Host where
  create parser l data parent index :=
    match code.parser parser with
    | some own => do present (← (own.create l data parent index).run context inner)
    | none => Engine.act (parser.giveOut l.viewType index)
  enter id := Engine.insist (·.isOpen id)
  setUp parser id parent index :=
    match code.parser parser with
    | some own => (own.setUp id parent index).run context inner
    | none => Engine.change (parser.setUp id parent index)
  manager maker keeper id l data parent index :=
    match code.parser maker with
    | some own => (own.manager keeper id l data parent index).run context inner
    | none => do
      Engine.change (maker.report (.manager maker.typeName))
      return ⟨id, l, keeper, parent, index, data⟩
  handle parser id a value own :=
    match code.parser parser with
    | some parserCode => do
      match ← (parserCode.handle id a value).run context inner with
      | .ok accepted => return accepted
      | .error e => throw e
    | none => parser.observe a value own
  unknown l data index :=
    match code.unknown with
    | some answer => do
      match ← (answer l data index).run context inner with
      | some id => present id
      | none => throw (.callbackReturnedNothing l.viewType)
    | none => throw (.unresolvedType l.viewType)

/-- The host that some code makes, where the code comes back to the engine to a depth. -/
def host (code : HostCode) (context : Context) : Nat → Host
  | 0 => .silent
  | depth + 1 => code.atop context (code.host context depth)

end HostCode

end LayoutEngine
