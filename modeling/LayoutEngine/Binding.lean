import LayoutEngine.Text.Blank
import LayoutEngine.Text.Split

/-!
# Bindings

A binding names a place in the data of an inflation: `@{user.name}`, `@{rows[$index].title}`. Its
path is a list of segments. A dot or an opening bracket ends a segment, closing brackets at the end
of one are dropped, and so is white space around it; what is then empty is no segment.
`Binding.parse?` takes a text for a binding if it has the braces and at least one segment.
-/

namespace LayoutEngine

/-- A step of a path: to a key of an object or a place in an array, or to the place of the data
index. -/
inductive Segment where
  | key (name : String)
  | dataIndex
deriving DecidableEq, Repr

/-- A path into the data, and the text it was read from. -/
structure Binding where
  expression : String
  segments : List Segment
deriving DecidableEq, Repr

namespace Binding

/-- Drops the closing brackets at the end. -/
def dropClosing (cs : List Char) : List Char := (cs.reverse.dropWhile (· == ']')).reverse

/-- The segment that a piece of a path is, unless the piece is empty. -/
def segment? (piece : List Char) : Option Segment :=
  match Text.trim (dropClosing piece) with
  | [] => none
  | ['$', 'i', 'n', 'd', 'e', 'x'] => some .dataIndex
  | key => some (.key (String.ofList key))

/-- The pieces of a path between dots and opening brackets. -/
def pathPieces (path : List Char) : List (List Char) :=
  (Text.pieces '.' path).flatMap (Text.pieces '[')

/-- The text between `@{` and the last brace, without white space around it. -/
def path? (text : List Char) : Option (List Char) := do
  let rest ← Text.after? ['@', '\x7b'] text
  let inner ← Text.before? ['\x7d'] rest
  return Text.trim inner

/-- The binding that a text is, if it is one. White space around it is no part of it. -/
def parse? (text : String) : Option Binding := do
  let trimmed := Text.trim text.toList
  let path ← path? trimmed
  match (pathPieces path).filterMap segment? with
  | [] => none
  | segments => some ⟨String.ofList trimmed, segments⟩

end Binding

end LayoutEngine
