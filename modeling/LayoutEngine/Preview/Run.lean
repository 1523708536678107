import LayoutEngine.Config
import LayoutEngine.Preview.Arguments
import LayoutEngine.Session.Inflate
import LayoutEngine.Session.Tree

/-!
# Previewing a layout

A preview reads a configuration, data and a layouts document, inflates one of the layouts and shows
the widgets as text. `run` has the text or the first thing that went wrong, and the notices up to
then. Types without parser make it fail, unless placeholders are asked for: then plain views take
their place.
-/

namespace LayoutEngine.Preview

/-- Why a preview fails. -/
inductive PreviewError where
  | config (path : String) (e : ConfigError)
  | dataFile (path : String) (e : FileError)
  | dataSyntax (path : String)
  | dataKind (json : Json)
  | layoutsFile (path : String) (e : FileError)
  | layouts (path : String) (e : LayoutError)
  | inflate (layout : String) (e : InflateError)

namespace PreviewError

/-- The text of what has gone wrong, without its cause. -/
def message : PreviewError → String
  | .config path _ => "failed to load config " ++ path
  | .dataFile path _ => "failed to read data " ++ path
  | .dataSyntax path => "invalid data JSON in " ++ path
  | .dataKind json => "data must be a JSON object, got " ++ json.text
  | .layoutsFile path _ => "failed to read layouts " ++ path
  | .layouts path _ => "invalid layouts in " ++ path
  | .inflate layout _ => "failed to inflate '" ++ layout ++ "'"

/-- What lies beneath the error. -/
def cause? : PreviewError → Option String
  | .config _ e => some e.message
  | .dataFile _ e | .layoutsFile _ e => some e.message
  | .dataSyntax _ => some "invalid JSON"
  | .dataKind _ => none
  | .layouts _ e => some e.message
  | .inflate _ e => some e.message

end PreviewError

namespace Arguments

/-- The configuration that is asked for, and what there is to say about the environment. -/
def configuration (args : Arguments) (read : FileReader) (environment : Option String) :
    Except PreviewError (Config × List Notice) := do
  let config ← match args.config with
    | some path => (Config.load read path).mapError (.config path)
    | none => .ok .default
  let (config, notices) := config.override environment
  return (if 0 < args.verbose then ⟨true⟩ else config, notices)

/-- The data that is asked for. -/
def readData (args : Arguments) (read : FileReader) : Except PreviewError Fields :=
  match args.data with
  | none => .ok []
  | some path => do
    let text ← (read path).mapError (.dataFile path)
    match Json.ofText? text with
    | none => throw (.dataSyntax path)
    | some (.object members) => return Fields.ofJson (.object members)
    | some json => throw (.dataKind json)

/-- Types without parser become plain views if placeholders are asked for. -/
def fallback (args : Arguments) : Option (String → FallbackAnswer) :=
  if args.placeholders then some fun _ => .placeholder else none

/-- The layouts that are asked for, and the names that have numbers then. -/
def readLayouts (args : Arguments) (read : FileReader) :
    Except PreviewError (List (String × Layout) × IdTable) := do
  let text ← (read args.layouts).mapError (.layoutsFile args.layouts)
  match (LayoutStore.compileText text).run .empty with
  | (.ok named, ids) => return (named, ids)
  | (.error e, _) => throw (.layouts args.layouts e)

/-- What there is to say about loaded layouts. -/
def layoutNotices (args : Arguments) (named : List (String × Layout)) : List Notice :=
  named.map (fun (name, l) => .layoutLoaded name l.viewType) ++
    [.layoutsLoaded named.length args.layouts]

/-- Inflates the layout that is asked for and describes the widgets. -/
def inflate (args : Arguments) (config : Config) (data : Fields)
    (named : List (String × Layout)) (ids : IdTable) :
    Except PreviewError String × List Notice :=
  let (registry, ids) := Registry.withBuiltins ids
  let context : Context :=
    ⟨registry, LayoutStore.empty.insertAll named, args.fallback, config.verbose⟩
  match (context.inflateNamed args.layout data none args.index).run (.ofIds ids) with
  | (.error e, s) => (.error (.inflate args.layout e), s.log)
  | (.ok root, s) =>
    match s.describe? root with
    | some tree => (.ok tree, s.log)
    | none => (.error (.inflate args.layout .endless), s.log)

end Arguments

/-- The text of a preview, or why there is none; and the notices on the way. -/
def run (read : FileReader) (environment : Option String) (args : Arguments) :
    Except PreviewError String × List Notice :=
  match args.configuration read environment with
  | .error e => (.error e, [])
  | .ok (config, notices) =>
    match args.readData read with
    | .error e => (.error e, notices)
    | .ok data =>
      match args.readLayouts read with
      | .error e => (.error e, notices)
      | .ok (named, ids) =>
        let (result, log) := args.inflate config data named ids
        (result, notices ++ args.layoutNotices named ++ log)

end LayoutEngine.Preview
