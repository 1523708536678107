import LayoutEngine.Floating.Text
import LayoutEngine.Json.Basic

/-!
# Printing JSON

`Json.text` writes a value without white space. In strings only what must be escaped is: the quote,
the backslash and control characters, by a letter where there is one and by the code unit
otherwise.
-/

namespace LayoutEngine.Json

/-- A control character as the escape of its code unit. -/
def unitEscape (c : Char) : List Char :=
  ['\\', 'u', '0', '0', Nat.digitChar (c.toNat / 16), Nat.digitChar (c.toNat % 16)]

/-- How one character stands in a string literal. -/
def escapeChar (c : Char) : List Char :=
  if c = '"' then ['\\', '"']
  else if c = '\\' then ['\\', '\\']
  else if c = '\x08' then ['\\', 'b']
  else if c = '\x0c' then ['\\', 'f']
  else if c = '\n' then ['\\', 'n']
  else if c = '\r' then ['\\', 'r']
  else if c = '\t' then ['\\', 't']
  else if c.toNat < 0x20 then unitEscape c
  else [c]

/-- A string literal. -/
def stringChars (s : String) : List Char := '"' :: s.toList.flatMap escapeChar ++ ['"']

mutual

/-- The text of a value. -/
def chars : Json → List Char
  | .null => ['n', 'u', 'l', 'l']
  | .bool true => ['t', 'r', 'u', 'e']
  | .bool false => ['f', 'a', 'l', 's', 'e']
  | .int n => (Numeral.decimal n).toList
  | .float x => (FloatStyle.json.text x).toList
  | .string s => stringChars s
  | .array items => '[' :: itemsChars items
  | .object members => '{' :: membersChars members
termination_by structural json => json

/-- The text of the items that are left, up to the closing bracket. -/
def itemsChars : List Json → List Char
  | [] => [']']
  | [item] => chars item ++ [']']
  | item :: rest => chars item ++ ',' :: itemsChars rest
termination_by structural items => items

/-- The text of the members that are left, up to the closing brace. -/
def membersChars : List (String × Json) → List Char
  | [] => ['}']
  | [(key, item)] => stringChars key ++ ':' :: chars item ++ ['}']
  | (key, item) :: rest => stringChars key ++ ':' :: chars item ++ ',' :: membersChars rest
termination_by structural members => members

end

/-- The compact text of a value. -/
def text (json : Json) : String := String.ofList json.chars

end LayoutEngine.Json
