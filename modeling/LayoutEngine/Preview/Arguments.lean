import LayoutEngine.Numeral
import LayoutEngine.Text.Split
import LayoutEngine.Value.Resolve

/-!
# Arguments of the preview

The preview takes the path of a layouts document and options. An option is written long, after two
dashes, or short, after one; its value follows in the next argument or is attached, to the long form
by an equals sign, to the short one also without. Short flags may be joined. Two dashes alone make
all that follows positional.

Arguments are read one by one. A value is not checked where it stands but when the next option or
positional argument is met, or at the end; so an unknown option is complained of before a bad value
in front of it. An option may be given once; only `verbose` counts how often it is given.
-/

namespace LayoutEngine.Preview

/-- What a preview is asked to do. -/
structure Arguments where
  layouts : String
  layout : String
  data : Option String
  index : Int
  config : Option String
  placeholders : Bool
  verbose : Nat
deriving DecidableEq, Repr

/-- Why arguments are not taken. Showing help and showing the version are such reasons, too. -/
inductive UsageError where
  | unknownArgument
  | invalidValue
  | valueValidation
  | argumentConflict
  | tooManyValues
  | missingRequiredArgument
  | displayHelp
  | displayVersion
deriving DecidableEq, Repr

namespace UsageError

/-- What is wrong with the arguments, in words. -/
def message : UsageError → String
  | .unknownArgument => "there is an argument that is not known"
  | .invalidValue => "a value is missing or empty"
  | .valueValidation => "the index is no integer of 32 bits"
  | .argumentConflict => "an option is given twice"
  | .tooManyValues => "a value is given to an option that takes none"
  | .missingRequiredArgument => "the layouts or the layout is missing"
  | .displayHelp => "help is asked for"
  | .displayVersion => "the version is asked for"

end UsageError

/-- The arguments that have a value. -/
inductive Parameter where
  | layouts
  | layout
  | data
  | index
  | config
deriving DecidableEq, Repr

/-- The options that have none. -/
inductive Flag where
  | placeholders
  | verbose
  | help
  | version
deriving DecidableEq, Repr

/-- What an option stands for. -/
inductive OptionName where
  | parameter (p : Parameter)
  | flag (f : Flag)
deriving DecidableEq, Repr

namespace OptionName

/-- The option with a long name. -/
def ofLong? (name : String) : Option OptionName :=
  if name = "layout" then some (.parameter .layout)
  else if name = "data" then some (.parameter .data)
  else if name = "index" then some (.parameter .index)
  else if name = "config" then some (.parameter .config)
  else if name = "placeholders" then some (.flag .placeholders)
  else if name = "verbose" then some (.flag .verbose)
  else if name = "help" then some (.flag .help)
  else if name = "version" then some (.flag .version)
  else none

/-- The option with a short name. -/
def ofShort? (c : Char) : Option OptionName :=
  if c = 'l' then some (.parameter .layout)
  else if c = 'd' then some (.parameter .data)
  else if c = 'i' then some (.parameter .index)
  else if c = 'c' then some (.parameter .config)
  else if c = 'v' then some (.flag .verbose)
  else if c = 'h' then some (.flag .help)
  else if c = 'V' then some (.flag .version)
  else none

end OptionName

/-- What the arguments read so far have given. `pending` is a parameter that is not yet checked,
with its value, if that has come. -/
structure Reading where
  layouts : Option String
  layout : Option String
  data : Option String
  index : Option Int
  config : Option String
  placeholders : Bool
  verbose : Nat
  pending : Option (Parameter × Option String)
  /-- Everything that follows is positional. -/
  positionalOnly : Bool
  /-- The one positional argument has been met. -/
  positionalMet : Bool
deriving DecidableEq, Repr

namespace Reading

/-- Before any argument has been read. -/
def initial : Reading := ⟨none, none, none, none, none, false, 0, none, false, false⟩

/-- Sets a parameter that must not be set already. -/
def once {α : Type} (current : Option α) (value : Except UsageError α) (set : α → Reading) :
    Except UsageError Reading :=
  match current with
  | some _ => .error .argumentConflict
  | none => value.map set

/-- A path; an empty one is none. -/
def path (value : String) : Except UsageError String :=
  if value = "" then .error .invalidValue else .ok value

/-- A data index. -/
def indexOf (value : String) : Except UsageError Int :=
  match Numeral.signed? 32 value.toList with
  | some n => .ok n
  | none => .error .valueValidation

/-- Gives a parameter its value. -/
def give (r : Reading) (p : Parameter) (value : Option String) : Except UsageError Reading :=
  match value with
  | none => .error .invalidValue
  | some value =>
    match p with
    | .layouts => once r.layouts (path value) fun v => { r with layouts := some v }
    | .layout => once r.layout (.ok value) fun v => { r with layout := some v }
    | .data => once r.data (path value) fun v => { r with data := some v }
    | .index => once r.index (indexOf value) fun v => { r with index := some v }
    | .config => once r.config (path value) fun v => { r with config := some v }

/-- Checks the pending parameter. -/
def settle (r : Reading) : Except UsageError Reading :=
  match r.pending with
  | none => .ok r
  | some (p, value) => { r with pending := none }.give p value

/-- Takes a flag. -/
def take (r : Reading) (f : Flag) : Except UsageError Reading := do
  let r ← r.settle
  match f with
  | .placeholders =>
    if r.placeholders then throw .argumentConflict else return { r with placeholders := true }
  | .verbose => return { r with verbose := min (r.verbose + 1) 255 }
  | .help => throw .displayHelp
  | .version => throw .displayVersion

/-- Takes a parameter whose value is attached, or is to follow. -/
def begin (r : Reading) (p : Parameter) (attached : Option String) :
    Except UsageError Reading := do
  let r ← r.settle
  match attached with
  | some value => r.give p (some value)
  | none => return { r with pending := some (p, none) }

/-- Takes a positional argument. A second one is not known. -/
def positional (r : Reading) (value : String) : Except UsageError Reading := do
  if r.positionalMet then throw .unknownArgument
  let r ← r.settle
  return { r with pending := some (.layouts, some value), positionalMet := true }

/-- Takes a long option, given without its dashes. -/
def long (r : Reading) (text : List Char) : Except UsageError Reading :=
  let (name, attached) := match Text.cutAt? ['='] text with
    | some (name, value) => (name, some (String.ofList value))
    | none => (text, none)
  match OptionName.ofLong? (String.ofList name) with
  | none => .error .unknownArgument
  | some (.parameter p) => r.begin p attached
  | some (.flag f) =>
    match attached with
    | some _ => .error .tooManyValues
    | none => r.take f

/-- The value attached to a short option. -/
def attachedValue : List Char → Option String
  | [] => none
  | '=' :: value => some (String.ofList value)
  | value => some (String.ofList value)

/-- Takes joined short options, given without their dash. -/
def short (r : Reading) : List Char → Except UsageError Reading
  | [] => .ok r
  | c :: rest =>
    match OptionName.ofShort? c with
    | none => .error .unknownArgument
    | some (.parameter p) => r.begin p (attachedValue rest)
    | some (.flag f) => do
      let r ← r.take f
      r.short rest

/-- Digits, perhaps with a point after the first and, after that, an exponent: what follows the dash
of a negative number. `seen` counts the characters before, `point` and `exponent` tell what was
among them. -/
def isNumberTail (seen : Nat) (point exponent : Bool) : List Char → Bool
  | [] => true
  | c :: rest =>
    if '0' ≤ c ∧ c ≤ '9' then isNumberTail (seen + 1) point exponent rest
    else if c = '.' then
      0 < seen && !point && !exponent && isNumberTail (seen + 1) true exponent rest
    else if c = 'e' ∨ c = 'E' then
      0 < seen && !exponent && !rest.isEmpty && isNumberTail (seen + 1) point true rest
    else false

/-- A data index is awaited, and the text after a dash makes a negative number. -/
def takesNegative (r : Reading) (text : List Char) : Bool :=
  r.pending == some (.index, none) && isNumberTail 0 false false text

/-- Takes an argument that is no option: the value that is awaited, or a positional argument. -/
def plain (r : Reading) (arg : String) : Except UsageError Reading :=
  match r.pending with
  | some (p, none) => .ok { r with pending := some (p, some arg) }
  | _ => r.positional arg

/-- Takes the next argument. -/
def next (r : Reading) (arg : String) : Except UsageError Reading :=
  if r.positionalOnly then r.positional arg
  else
    match arg.toList with
    | ['-', '-'] => .ok { r with positionalOnly := true }
    | '-' :: '-' :: text => r.long text
    | '-' :: c :: text =>
      if r.takesNegative (c :: text) then r.plain arg else r.short (c :: text)
    | _ => r.plain arg

/-- The arguments that have been read, if none is missing. -/
def finish (r : Reading) : Except UsageError Arguments := do
  let r ← r.settle
  match r.layouts, r.layout with
  | some layouts, some layout =>
    return ⟨layouts, layout, r.data, r.index.getD noDataIndex, r.config, r.placeholders, r.verbose⟩
  | _, _ => throw .missingRequiredArgument

end Reading

namespace Arguments

/-- The arguments of a command line, the name of the program left out. -/
def ofList (args : List String) : Except UsageError Arguments := do
  (← args.foldlM Reading.next .initial).finish

end Arguments

end LayoutEngine.Preview
