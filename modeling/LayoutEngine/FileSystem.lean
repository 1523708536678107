import LayoutEngine.Entries
import LayoutEngine.Text.Split
import LayoutEngine.Text.Utf8

/-!
# Files

A file system is a tree of directories and files without links. Here it is a table from places to
what is there, where a place is the list of names on the way from the root. `FileSystem.place?`
follows a path: from the root if it starts with a slash, from the working directory otherwise;
every name but the last has to be that of a directory, two dots go back up. The last name need not
exist, so that a file can be made there.
-/

namespace LayoutEngine

/-- Why a file cannot be opened or read. `other` is for what a real system may add. -/
inductive FileError where
  | notFound
  | notADirectory
  | isADirectory
  | embeddedNul
  | notUtf8
  | other (reason : String)
deriving DecidableEq, Repr

namespace FileError

/-- The text of a file error, as the operating system has it. -/
def message : FileError → String
  | .notFound => "No such file or directory (os error 2)"
  | .notADirectory => "Not a directory (os error 20)"
  | .isADirectory => "Is a directory (os error 21)"
  | .embeddedNul => "file name contained an unexpected NUL byte"
  | .notUtf8 => "stream did not contain valid UTF-8"
  | .other reason => reason

end FileError

/-- What reading the text of the file at a path gives. -/
abbrev FileReader := String → Except FileError String

/-- The text of a file with the bytes. -/
def fileText (bytes : List UInt8) : Except FileError String :=
  (Text.Utf8.decode bytes).mapError fun _ => .notUtf8

/-- What is at a place. -/
inductive FileNode where
  | directory
  | file (bytes : List UInt8)
deriving DecidableEq, Repr

/-- The bytes of a file. A directory has none to read. -/
def FileNode.bytes : FileNode → List UInt8
  | .directory => []
  | .file bytes => bytes

/-- The names on the way from the root. -/
abbrev Place := List String

/-- The files and directories there are, and the directory that relative paths start from. -/
structure FileSystem where
  nodes : List (Place × FileNode)
  workingDirectory : Place

namespace FileSystem

/-- A root directory with an empty working directory in it. -/
def empty : FileSystem := ⟨[(["work"], .directory)], ["work"]⟩

/-- What is at a place. The root is always a directory. -/
def get? (fs : FileSystem) (place : Place) : Option FileNode :=
  if place = [] then some .directory else Entries.get? place fs.nodes

/-- The file system with something at a place. -/
def put (place : Place) (node : FileNode) (fs : FileSystem) : FileSystem :=
  { fs with nodes := Entries.put place node fs.nodes }

/-- Follows the pieces of a path from a place. -/
def follow (fs : FileSystem) (place : Place) : List (List Char) → Except FileError Place
  | [] => .ok place
  | piece :: rest =>
    match fs.get? place with
    | none => .error .notFound
    | some (.file _) => .error .notADirectory
    | some .directory =>
      if piece = [] ∨ piece = ['.'] then fs.follow place rest
      else if piece = ['.', '.'] then fs.follow place.dropLast rest
      else fs.follow (place ++ [String.ofList piece]) rest

/-- The place that a path leads to. -/
def place? (fs : FileSystem) (path : String) : Except FileError Place :=
  let cs := path.toList
  if '\x00' ∈ cs then .error .embeddedNul
  else
    match cs with
    | [] => .error .notFound
    | '/' :: _ => fs.follow [] (Text.pieces '/' cs)
    | _ => fs.follow fs.workingDirectory (Text.pieces '/' cs)

/-- The place of something that exists, and what it is. -/
def openNode (fs : FileSystem) (path : String) : Except FileError (Place × FileNode) := do
  let place ← fs.place? path
  match fs.get? place with
  | some node => return (place, node)
  | none => throw .notFound

/-- The place of a file that may be written: one that is there, or one that can be made. -/
def writable (fs : FileSystem) (path : String) : Except FileError Place := do
  let place ← fs.place? path
  match fs.get? place with
  | some .directory => throw .isADirectory
  | _ => return place

/-- What an open file still has to give after its first bytes. A directory can be opened but not
read. -/
def readFrom (fs : FileSystem) (place : Place) (start : Nat) : Except FileError (List UInt8) :=
  match fs.get? place with
  | some .directory => .error .isADirectory
  | some (.file bytes) => .ok (bytes.drop start)
  | none => .ok []

/-- The file system with more bytes at the end of a file. -/
def append (place : Place) (more : List UInt8) (fs : FileSystem) : FileSystem :=
  match fs.get? place with
  | some (.file bytes) => fs.put place (.file (bytes ++ more))
  | _ => fs

/-- The text of a file. -/
def readText (fs : FileSystem) : FileReader := fun path => do
  match ← fs.openNode path with
  | (_, .directory) => throw .isADirectory
  | (_, .file bytes) => fileText bytes

/-- The file system with a directory at a place, and all directories above it. -/
def makeDirectories (place : Place) (fs : FileSystem) : FileSystem :=
  (List.range place.length).foldl (fun fs n => fs.put (place.take (n + 1)) .directory) fs

/-- The file system with a file at a place, and all directories above it. -/
def addFile (place : Place) (bytes : List UInt8) (fs : FileSystem) : FileSystem :=
  (fs.makeDirectories place.dropLast).put place (.file bytes)

/-- The name and contents of a node that is a file in a directory. -/
def fileIn? (directory : Place) : Place × FileNode → Option (String × List UInt8)
  | (place, .file bytes) => do
    let name ← place.getLast?
    if place = directory ++ [name] then some (name, bytes) else none
  | (_, .directory) => none

/-- The files in a directory, by name. -/
def filesIn (fs : FileSystem) (directory : Place) : List (String × List UInt8) :=
  (fs.nodes.filterMap (fileIn? directory)).mergeSort fun a b => decide (a.1 ≤ b.1)

end FileSystem

end LayoutEngine
