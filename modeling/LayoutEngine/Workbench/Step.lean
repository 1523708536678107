import LayoutEngine.Workbench.Basic

/-!
# Steps on a workbench

What a host does with the things it has put aside: it makes layouts, inflates them, gives widgets
attributes, edits them and updates their data, and moves widgets about. Texts are read before names
are looked up, so that of two mistakes the one in the text is reported.
-/

namespace LayoutEngine

/-- A value as a host writes it down: JSON text, a layout put aside, or an array of values. -/
inductive ValueSource where
  | json (text : String)
  | layout (name : String)
  | array (items : List ValueSource)
deriving Inhabited

/-- The layout to inflate: one that the host has put aside, or one that the context has a name
for. -/
inductive LayoutSelection where
  | kept (name : String)
  | stored (name : String)
deriving DecidableEq, Repr

/-- The manager to speak of: that of a widget put aside, or one put aside itself. -/
inductive ManagerSelection where
  | ofWidget (name : String)
  | kept (name : String)
deriving DecidableEq, Repr

namespace Workbench

/-! ## Reading what the host writes -/

/-- The JSON that a text is. -/
def readJson (text : String) : Work Json :=
  match Json.ofText? text with
  | some json => return json
  | none => throw .invalidJson

/-- The data that a JSON text is; none without a text. -/
def readData (text : Option String) : Work Fields :=
  match text with
  | none => return []
  | some text => return .ofJson (← readJson text)

mutual

/-- The value that the host has written down. -/
def readValue : ValueSource → Work Value
  | .json text => return .ofJson (← readJson text)
  | .layout name => return .layout (← layout name)
  | .array items => return .array (← readValues items)
termination_by structural source => source

/-- The values that the host has written down. -/
def readValues : List ValueSource → Work (List Value)
  | [] => return []
  | item :: rest => do
    let value ← readValue item
    let more ← readValues rest
    return value :: more
termination_by structural items => items

end

/-- The manager that is spoken of, if there is one. -/
def managerOf (selection : ManagerSelection) : Work (Option ManagerId) := do
  match selection with
  | .kept name => return Entries.get? name (← get).managers
  | .ofWidget name =>
    let id ← widget name
    return (← look (·.widget? id)).bind (·.manager)

/-! ## Layouts -/

/-- Compiles a layout and puts it aside. -/
def compile (name : Option String) (text : String) : Work Layout := do
  let l ← run .layout (compiling (LayoutSource.compileText text))
  keepLayout name l
  return l

/-- Attributes under the numbers of their names. -/
def buildAttributes : List (String × ValueSource) → Work (List Attribute)
  | [] => return []
  | (name, source) :: rest => do
    let id ← run .layout (compiling (Compiler.idOf name))
    let value ← readValue source
    let more ← buildAttributes rest
    return ⟨id, value⟩ :: more

/-- Builds a layout by hand and puts it aside. -/
def build (name : Option String) (viewType : String) (attributes : List (String × ValueSource))
    (tags : Option (List Descriptor)) : Work Layout := do
  let l ← run .layout (ExceptT.mk (pure (Layout.ofType viewType)))
  let l := l.addAttributes (← buildAttributes attributes)
  let l := match tags with
    | some tags => l.withTags tags
    | none => l
  keepLayout name l
  return l

/-! ## Widgets -/

/-- Makes a widget of a kind, without manager, and puts it aside. -/
def create (name : Option String) (kind : String) : Work WidgetId := do
  let id ← act fun bench =>
    let (id, session) := bench.session.create (.ofKind kind)
    (id, { bench with session := session })
  keepWidget name id
  return id

/-- Inflates a layout and puts the widget aside. -/
def inflate (name : Option String) (selection : LayoutSelection) (data : Fields)
    (parent : Option String) (index : Int) : Work WidgetId := do
  let parent ← parent.mapM widget
  let context := (← get).context
  let id ← match selection with
    | .kept name => do
      let l ← layout name
      run .inflate (context.inflate l data parent index)
    | .stored name => run .inflate (context.inflateNamed name data parent index)
  keepWidget name id
  return id

/-- Puts a widget aside that was found on the way, if one was. -/
def keepFound (name : Option String) (found : Option WidgetId) : Work Unit :=
  match found with
  | some id => keepWidget name id
  | none => return ()

/-- The child of a widget at a place. -/
def child (name : Option String) (parent : String) (place : Nat) : Work (Option WidgetId) := do
  let id ← widget parent
  let found := (← look (·.childrenOf id))[place]?
  keepFound name found
  return found

/-- The first widget in a tree whose view has a number. -/
def findView (name : Option String) (root : String) (view : Session → Option Int) :
    Work (Option WidgetId) := do
  let id ← widget root
  match ← look view with
  | none => return none
  | some view =>
    match ← look (·.findView? view id) with
    | none => throw (.inflate .endless)
    | some found =>
      keepFound name found
      return found

/-- Forgets the widget of a name; whether there was one. -/
def drop (name : String) : Work Bool :=
  act fun bench =>
    (Entries.contains name bench.widgets,
      { bench with widgets := Entries.erase name bench.widgets })

/-- Adds a child to a widget; how many it has then. -/
def addChild (parent child : String) : Work Nat := do
  let parent ← widget parent
  let child ← widget child
  change fun s => s.setChildren parent (s.childrenOf parent ++ [child])
  return (← look (·.childrenOf parent)).length

/-- Gives a widget other children; those it had. -/
def replaceChildren (parent : String) (children : List String) : Work (List WidgetId) := do
  let parent ← widget parent
  let children ← children.mapM widget
  let previous ← look (·.childrenOf parent)
  change (·.setChildren parent children)
  return previous

/-- Puts a widget's view under a parent, or under none. -/
def attach (child : String) (parent : Option String) : Work (Option WidgetId) := do
  let id ← widget child
  let parent ← parent.mapM widget
  change (·.changeView id (·.attach parent))
  return parent

/-- Gives a widget's view a number. -/
def setViewId (name : String) (view : Int) : Work Unit := do
  let id ← widget name
  change (·.changeView id fun state => { state with id := some view })

/-- The number of the view with a name. -/
def viewId (name : String) : Work Int :=
  run .layout <| compiling fun ids =>
    let (id, ids) := ids.internView name
    (.ok id, ids)

/-- Removes the declared attributes of a widget; what they were. -/
def untag (name : String) : Work (Option (List Descriptor)) := do
  let id ← widget name
  let removed ← look (·.tags.get? id)
  change fun s => { s with tags := s.tags.remove id }
  return removed

/-! ## Attributes and data -/

/-- Gives a widget an attribute through the parser of a type; whether it was accepted. -/
def handle (name viewType attributeName : String) (source : ValueSource) : Work Bool := do
  let id ← widget name
  let value ← readValue source
  let context := (← get).context
  match context.registry.get? viewType with
  | none => throw (.noParser viewType)
  | some parser =>
    let a ← run .layout (compiling (Compiler.idOf attributeName))
    run .inflate (context.apply parser id a value)

/-- Edits an attribute of a widget. -/
def edit (name attributeName text : String) : Work Unit := do
  let json ← readJson text
  let id ← widget name
  run .edit ((← get).context.edit id attributeName json)

/-- The value in a widget's data. -/
def resolve (name : String) (source : ValueSource) : Work Value := do
  let id ← widget name
  let value ← readValue source
  look (·.resolve id value)

/-- Updates a manager; how many bound attributes were accepted, if there is a manager. -/
def update (selection : ManagerSelection) (data : Fields) : Work (Option Nat) := do
  match ← managerOf selection with
  | none => return none
  | some manager =>
    let bench ← get
    let living := bench.session.living bench.held
    return some (← run .inflate (bench.context.update living.contains manager data))

/-- Puts a widget's manager aside; whether it has one. -/
def hold (name : Option String) (widgetName : String) : Work Bool := do
  match ← managerOf (.ofWidget widgetName) with
  | none => return false
  | some manager =>
    keepManager name manager
    return true

/-- Gives a widget a manager that was put aside, unless it has one; whether it had none. There is no
answer without such a manager. -/
def setManager (widgetName managerName : String) : Work (Option Bool) := do
  let id ← widget widgetName
  match ← managerOf (.kept managerName) with
  | none => return none
  | some manager =>
    act fun bench =>
      let (given, session) := bench.session.setManager id manager
      (some given, { bench with session := session })

/-- What would come of giving a widget a manager whose making fails: whether it fails, and whether
the widget has a manager. Where there is one already none is made. -/
def failingManager (name : String) : Work (Bool × Bool) := do
  let attached := (← managerOf (.ofWidget name)).isSome
  return (!attached, attached)

end Workbench

end LayoutEngine
