import LayoutEngine.Parser.Basic

/-!
# The registry of parsers

A registry maps layout types to parsers. A parser is registered under its own type name, where it
replaces what was there, and perhaps under further names. A host's parser takes the handler it
delegates to from the registry at the time it is registered.
-/

namespace LayoutEngine

/-- Parsers by the types that they serve. -/
structure Registry where
  parsers : List (String × ViewParser)
  /-- How many parsers that keep their widget have been registered. -/
  places : Nat

/-- A parser that a host brings: its name, the widgets it makes, whether it makes only one, and the
type whose parser handles its attributes. -/
structure HostParser where
  name : String
  item : Item
  reuses : Bool
  base : Option String
deriving DecidableEq, Repr

namespace Registry

/-- The registry without parsers. -/
def empty : Registry := ⟨[], 0⟩

/-- The parser of a type. -/
def get? (viewType : String) (registry : Registry) : Option ViewParser :=
  Entries.get? viewType registry.parsers

/-- There is a parser of a type. -/
def contains (viewType : String) (registry : Registry) : Bool := (registry.get? viewType).isSome

/-- How many types have a parser. -/
def size (registry : Registry) : Nat := registry.parsers.length

/-- The types in use, in the order of their code points. -/
def names (registry : Registry) : List String :=
  (Entries.keys registry.parsers).mergeSort fun a b => decide (a ≤ b)

/-- The registry with the parser under its own name. -/
def register (parser : ViewParser) (registry : Registry) : Registry :=
  { registry with parsers := Entries.put parser.typeName parser registry.parsers }

/-- The registry with the parser under another name as well. -/
def addAlias (name : String) (parser : ViewParser) (registry : Registry) : Registry :=
  { registry with parsers := Entries.put name parser registry.parsers }

/-- The registry of parsers that are made one after the other, each numbering its names. -/
def registerAll : List (IdTable → ViewParser × IdTable) → Registry → IdTable → Registry × IdTable
  | [], registry, ids => (registry, ids)
  | make :: rest, registry, ids =>
    let (parser, ids) := make ids
    registerAll rest (registry.register parser) ids

/-- The registry of the engine's own parsers. -/
def withBuiltins (ids : IdTable) : Registry × IdTable := registerAll ViewParser.builtins empty ids

/-- The parser that a host brings, made with what is registered now. -/
def hostParser (host : HostParser) (registry : Registry) : ViewParser :=
  let base := host.base.bind registry.get?
  { typeName := host.name
    creation := if host.reuses then .kept registry.places host.item else .fresh host.item
    handler := (base.map (·.handler)).getD .presence
    observers := (base.map (·.observers)).getD [] ++ [host.name] }

/-- The registry with a host's parser. -/
def registerHost (host : HostParser) (registry : Registry) : Registry :=
  let parser := registry.hostParser host
  { registry.register parser with
    places := if host.reuses then registry.places + 1 else registry.places }

end Registry

end LayoutEngine
