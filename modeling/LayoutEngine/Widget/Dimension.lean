import LayoutEngine.Value.Reading

/-!
# Dimensions

The size of a view along one axis fills its parent, wraps its content, or is a number of pixels of
32 bits. Text gives it as a keyword or as a number, which a unit may follow.
-/

namespace LayoutEngine

/-- How wide or high a view is to be. -/
inductive Dimension where
  | matchParent
  | wrapContent
  | pixels (n : Int)
deriving DecidableEq, Repr

namespace Dimension

/-- The text without the unit it ends in, if it ends in one. -/
def dropUnit (text : List Char) : List Char :=
  ((Text.before? ['p', 'x'] text).orElse fun _ =>
    (Text.before? ['d', 'p'] text).orElse fun _ =>
      Text.before? ['s', 'p'] text).getD text

/-- The dimension that a text without white space around it stands for. -/
def ofText? (text : List Char) : Option Dimension :=
  let word := String.ofList text
  if word = "match_parent" ∨ word = "fill_parent" then some .matchParent
  else if word = "wrap_content" then some .wrapContent
  else (Numeral.signed? 32 (Text.trim (dropUnit text))).map .pixels

/-- The dimension that a value stands for. -/
def ofValue? (value : Value) : Option Dimension :=
  match value.int? with
  | some n => if Numeral.fitsSigned 32 n then some (.pixels n) else none
  | none => value.string?.bind fun s => ofText? (Text.trim s.toList)

end Dimension

end LayoutEngine
