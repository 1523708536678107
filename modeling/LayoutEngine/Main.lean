import LayoutEngine.Preview.Run

/-!
# The command line of the preview

`main` reads the files that the arguments name, lets `Preview.run` do the work, and prints: the
widgets on standard output, notices and errors on standard error.
-/

namespace LayoutEngine.Preview

/-- What the program is called. -/
def programName : String := "layout-preview"

/-- The text that tells how the program is called. -/
def usage : String :=
  "Usage: " ++ programName ++ " [OPTIONS] --layout <LAYOUT> <LAYOUTS>\n\n" ++
  "  -l, --layout <LAYOUT>  name of the layout to inflate\n" ++
  "  -d, --data <DATA>      JSON object used as the data context\n" ++
  "  -i, --index <INDEX>    data index of one item of a repeated collection\n" ++
  "  -c, --config <CONFIG>  configuration file\n" ++
  "      --placeholders     plain views in place of unknown types\n" ++
  "  -v, --verbose          tell more\n" ++
  "  -h, --help             print help\n" ++
  "  -V, --version          print version"

/-- What the system says of a file that it cannot read. -/
def fileError : IO.Error → FileError
  | .noFileOrDirectory .. => .notFound
  | e => .other (toString e)

/-- The text of the file at a path. -/
def readFile (path : String) : IO (Except FileError String) := do
  try
    let bytes ← IO.FS.readBinFile path
    return fileText bytes.toList
  catch e => return .error (fileError e)

/-- The texts of the files that the arguments name. -/
def readFiles (args : Arguments) : IO FileReader := do
  let paths := args.layouts :: args.data.toList ++ args.config.toList
  let texts ← paths.mapM fun path => return (path, ← readFile path)
  return fun path => (Entries.get? path texts).getD (.error .notFound)

/-- A notice is shown if it is a warning or more is asked for. -/
def isShown (args : Arguments) (notice : Notice) : Bool :=
  notice.level == .warn || 0 < args.verbose

/-- Makes the preview and prints it. -/
def runAndPrint (args : Arguments) : IO UInt32 := do
  let environment ← IO.getEnv verboseVariable
  let (result, notices) := run (← readFiles args) environment args
  for notice in notices.filter (isShown args) do
    IO.eprintln notice.line
  match result with
  | .ok tree =>
    IO.print tree
    return 0
  | .error e =>
    IO.eprintln ("Error: " ++ e.message)
    for cause in e.cause?.toList do
      IO.eprintln ("\nCaused by:\n    " ++ cause)
    return 1

end LayoutEngine.Preview

open LayoutEngine.Preview in
/-- The preview of a layout, as the arguments ask for it. -/
def main (args : List String) : IO UInt32 := do
  match Arguments.ofList args with
  | .ok args => runAndPrint args
  | .error .displayHelp =>
    IO.println usage
    return 0
  | .error .displayVersion =>
    IO.println (programName ++ " 0.1.0")
    return 0
  | .error e =>
    IO.eprintln ("error: " ++ e.message ++ "\n\n" ++ usage)
    return 2
