import LayoutEngine.Text.Quoted
import LayoutEngine.Value.Reading

/-!
# Editable fields

An editable field holds a text, a hint to show while there is none, and the class of its content.
`EditTextAttribute.applied?` says what each of its attributes does.
-/

namespace LayoutEngine

/-- The class of an editable field's content. -/
inductive InputType where
  | text
  | number
  | email
  | password
  | phone
  | multiline
deriving DecidableEq, Repr

namespace InputType

/-- The name of a type of input, as it is shown. -/
def name : InputType → String
  | .text => "Text"
  | .number => "Number"
  | .email => "Email"
  | .password => "Password"
  | .phone => "Phone"
  | .multiline => "Multiline"

/-- The words that stand for a class in a layout. -/
def words : InputType → List String
  | .text => ["text"]
  | .number => ["number"]
  | .email => ["textEmailAddress", "email"]
  | .password => ["textPassword", "password"]
  | .phone => ["phone"]
  | .multiline => ["textMultiLine", "multiline"]

/-- The class that a text stands for. -/
def ofText? (s : String) : Option InputType :=
  [text, number, email, password, phone, multiline].find? fun t => Text.trimmed s ∈ t.words

end InputType

/-- What an input field holds. -/
structure EditTextState where
  text : String
  hint : Option String
  inputType : InputType
deriving DecidableEq, Repr

namespace EditTextState

/-- A new input field. -/
def initial : EditTextState := ⟨"", none, .text⟩

/-- What a description says of an input field. -/
def summary (state : EditTextState) : String :=
  match state.hint with
  | some hint => Text.quoted state.text ++ " hint=" ++ Text.quoted hint
  | none => Text.quoted state.text

end EditTextState

/-- The attributes that input fields have besides those of all views. -/
inductive EditTextAttribute where
  | text
  | hint
  | inputType
deriving DecidableEq, Repr

namespace EditTextAttribute

/-- The name of an attribute in layouts. -/
def name : EditTextAttribute → String
  | .text => "text"
  | .hint => "hint"
  | .inputType => "inputType"

/-- The attributes of input fields, in order. -/
def all : List EditTextAttribute := [.text, .hint, .inputType]

/-- The state after an attribute with a value is applied, unless it rejects the value. -/
def applied? (a : EditTextAttribute) (value : Value) (state : EditTextState) :
    Option EditTextState :=
  match a with
  | .text => some { state with text := value.text }
  | .hint => some { state with hint := if value.isNull then none else some value.text }
  | .inputType =>
    (value.string?.bind InputType.ofText?).map fun t => { state with inputType := t }

end EditTextAttribute

end LayoutEngine
