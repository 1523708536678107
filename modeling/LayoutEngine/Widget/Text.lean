import LayoutEngine.Text.Quoted
import LayoutEngine.Value.Reading

/-!
# Text widgets

A text widget shows a text in a size and a color. `TextAttribute.applied?` says what each of its
attributes does; a value that the attribute has no use for is rejected.
-/

namespace LayoutEngine

/-- What a text widget holds. -/
structure TextState where
  text : String
  size : Single
  color : Option String
deriving DecidableEq, Repr

namespace TextState

/-- No text, in size 14. -/
def initial : TextState := ⟨"", .ofInt .binary32 14, none⟩

/-- What a description says of a text widget. -/
def summary (state : TextState) : String := Text.quoted state.text

end TextState

/-- The attributes that text widgets have besides those of all views. -/
inductive TextAttribute where
  | text
  | size
  | color
deriving DecidableEq, Repr

namespace TextAttribute

/-- The name of an attribute in layouts. -/
def name : TextAttribute → String
  | .text => "text"
  | .size => "textSize"
  | .color => "textColor"

/-- The attributes of text widgets, in order. -/
def all : List TextAttribute := [.text, .size, .color]

/-- The color that a value sets, if it sets one: a text, or none at all. -/
def color? : Value → Option (Option String)
  | .null => some none
  | .string s => some (some s)
  | _ => none

/-- The state after an attribute with a value is applied, unless it rejects the value. -/
def applied? (a : TextAttribute) (value : Value) (state : TextState) : Option TextState :=
  match a with
  | .text => some { state with text := value.text }
  | .size =>
    (value.float?.filter (·.isPositive)).map fun x => { state with size := x.convert .binary32 }
  | .color => (color? value).map fun color => { state with color := color }

end TextAttribute

end LayoutEngine
