import LayoutEngine.FileSystem
import LayoutEngine.Json.Record
import LayoutEngine.Notice
import LayoutEngine.Text.Blank

/-!
# Configuration

The engine can be told to be verbose: to tell of each attribute what became of it. A configuration
is a JSON record of one field, `verbose`, which may be missing; an environment variable overrides
it with a word for yes or no.
-/

namespace LayoutEngine

/-- What a configuration file can say. -/
structure Config where
  verbose : Bool
deriving DecidableEq, Repr

/-- Why a configuration cannot be had. -/
inductive ConfigError where
  | file (e : FileError)
  | invalidJson
deriving DecidableEq, Repr

namespace ConfigError

/-- The text of what is wrong with a configuration. -/
def message : ConfigError → String
  | .file e => "failed to read config: " ++ e.message
  | .invalidJson => "invalid config JSON"

end ConfigError

namespace Config

/-- The configuration without a file: nothing is told beyond what must be. -/
def default : Config := ⟨false⟩

/-- The configuration that a JSON text is. -/
def ofText? (text : String) : Option Config := do
  match ← (← Json.Document.read? text).fields? ["verbose"] with
  | [some verbose] => return ⟨← verbose.bool?⟩
  | _ => return default

/-- The configuration in a file. -/
def load (read : FileReader) (path : String) : Except ConfigError Config := do
  let text ← (read path).mapError .file
  match ofText? text with
  | some config => return config
  | none => throw .invalidJson

/-- The configuration that the value of the environment variable makes of one, and what there is to
say about a value that is no word for yes or no. -/
def override (value : Option String) (config : Config) : Config × List Notice :=
  match value with
  | none => (config, [])
  | some value =>
    let word := String.ofList ((Text.trim value.toList).map Char.toLower)
    if word ∈ ["1", "true", "yes", "on"] then (⟨true⟩, [])
    else if word ∈ ["0", "false", "no", "off"] then (⟨false⟩, [])
    else (config, [.overrideIgnored word])

end Config

end LayoutEngine
