import LayoutEngine.Floating.Text
import LayoutEngine.Value.Basic

/-!
# Reading values

Whoever uses a value asks for it as what he needs: text, a truth value, an integer, a number. A
string is taken for the truth value or number that it spells, white space around it apart, and an
integral floating-point number for an integer. `Value.text` is the text of any value, shown where
text is wanted.
-/

namespace LayoutEngine.Value

-- Powers of numbers are those of the core library, whichever others are known.
attribute [local instance (high)] instPowNat

/-- The string that a value is. -/
def string? : Value → Option String
  | .string s => some s
  | _ => none

/-- The layout that a value is. -/
def layout? : Value → Option Layout
  | .layout l => some l
  | _ => none

/-- The truth value that a value is or spells. -/
def bool? : Value → Option Bool
  | .bool b => some b
  | .string s =>
    let word := Text.trimmed s
    if word = "true" then some true else if word = "false" then some false else none
  | _ => none

/-- The nearest integer of 64 bits. -/
def saturate (n : Int) : Int := max (-(2 ^ (63 : Nat))) (min n (2 ^ (63 : Nat) - 1))

/-- The integer of 64 bits that a value is or spells. An integral floating-point number out of
range counts as the last integer on its side. -/
def int? : Value → Option Int
  | .int n => some n
  | .float x => x.toInt?.map saturate
  | .string s => Numeral.signed? 64 (Text.trim s.toList)
  | _ => none

/-- The number that a value is or spells, to the nearest floating-point number. -/
def float? : Value → Option Double
  | .int n => some (.ofInt .binary64 n)
  | .float x => some x
  | .string s => Numeral.float? .binary64 (Text.trim s.toList)
  | _ => none

mutual

/-- The text of a value. -/
def text : Value → String
  | .null => ""
  | .bool b => if b then "true" else "false"
  | .int n => Numeral.decimal n
  | .float x => FloatStyle.plain.text x
  | .string s => s
  | .array items => "[" ++ itemsText items ++ "]"
  | .object fields => "\x7b" ++ fieldsText fields ++ "\x7d"
  | .binding b => b.expression
  | .layout l => "<" ++ l.viewType ++ ">"
termination_by structural value => value

/-- The texts of the items, separated by commas. -/
def itemsText : List Value → String
  | [] => ""
  | [item] => text item
  | item :: rest => text item ++ ", " ++ itemsText rest
termination_by structural items => items

/-- The fields, each as key and text, separated by commas. -/
def fieldsText : List (String × Value) → String
  | [] => ""
  | [(key, value)] => key ++ ": " ++ text value
  | (key, value) :: rest => key ++ ": " ++ text value ++ ", " ++ fieldsText rest
termination_by structural fields => fields

end

end LayoutEngine.Value
