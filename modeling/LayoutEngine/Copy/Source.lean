import LayoutEngine.FileSystem
import LayoutEngine.Text.Blank
import LayoutEngine.Text.Percent

/-!
# Sources of copies

The source of a copy is a path or a URI of the scheme `file`, percent-encoded in either case.
`sourcePath?` gives the path behind it. The copy is called what the last name of the path is;
a path that ends in two dots, or is the root, has no name to give.
-/

namespace LayoutEngine

/-- Why a copy fails. -/
inductive CopyError where
  | unsupportedScheme (scheme : String)
  | noFileName (source : String)
  | encoding (fault : Text.Utf8.Fault)
  | file (e : FileError)
deriving DecidableEq, Repr

namespace CopyError

/-- The text of what has gone wrong, as the last event of a copy has it. -/
def message : CopyError → String
  | .unsupportedScheme scheme => "unsupported source scheme: " ++ scheme
  | .noFileName source => "source has no file name: " ++ source
  | .encoding fault => "invalid source encoding: " ++ fault.message
  | .file e => e.message

end CopyError

namespace Copy

/-- The path of a source as written, still encoded: the source itself, or what follows the scheme
`file`. -/
def encodedPath (source : List Char) : Except CopyError (List Char) :=
  match Text.cutAt? [':', '/', '/'] source with
  | none => .ok source
  | some (scheme, rest) =>
    if scheme = ['f', 'i', 'l', 'e'] then .ok rest
    else .error (.unsupportedScheme (String.ofList scheme))

/-- The path that percent-encoded text stands for. -/
def decodePath (encoded : List Char) : Except CopyError String :=
  let bytes := Text.Percent.decode (Text.Utf8.encode (String.ofList encoded))
  (Text.Utf8.decode bytes).mapError .encoding

/-- The path that a source stands for. -/
def sourcePath? (source : String) : Except CopyError String := do
  decodePath (← encodedPath (Text.trim source.toList))

/-- A piece of a path that names nothing: between two slashes, or a dot. -/
def isIdlePiece (piece : List Char) : Bool := piece == [] || piece == ['.']

/-- The last name of a path, if the path ends in one. -/
def fileName? (path : String) : Option String :=
  match (Text.pieces '/' path.toList).reverse.dropWhile isIdlePiece with
  | [] => none
  | piece :: _ => if piece = ['.', '.'] then none else some (String.ofList piece)

/-- The path of a name in a directory. -/
def pathIn (directory name : String) : String :=
  match directory.toList.getLast? with
  | none | some '/' => directory ++ name
  | some _ => directory ++ "/" ++ name

end Copy

end LayoutEngine
