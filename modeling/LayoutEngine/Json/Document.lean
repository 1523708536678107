import LayoutEngine.Floating.Decimal
import LayoutEngine.Text.Split

/-!
# JSON documents

`Document` is the syntax tree of a JSON text, with nothing yet interpreted: numbers keep their
digits, strings their escapes of UTF-16 code units, objects their repeated keys. `Document.read?`
reads one from text. It refuses what the grammar does not have: other white space than space, tab
and line ends, control characters within strings, superfluous zeros, text after the value. It does
not refuse what only an interpretation can: a number too large, half a surrogate pair, deep
nesting. So a field that nobody asks for is held to the grammar alone.
-/

namespace LayoutEngine.Json

/-- A piece of a string literal: a character, or a UTF-16 code unit written as an escape. -/
inductive TextUnit where
  | char (c : Char)
  | unit (n : Nat)
deriving DecidableEq, Repr

/-- A number as written: digits, digits after a point if there is one, an exponent if there is
one. -/
structure NumberLiteral where
  negative : Bool
  whole : List Nat
  fraction : Option (List Nat)
  exponent : Option Int
deriving DecidableEq, Repr

/-- A JSON text as it is parsed, with numbers and strings as they are spelled. -/
inductive Document where
  | null
  | bool (b : Bool)
  | number (n : NumberLiteral)
  | string (units : List TextUnit)
  | array (items : List Document)
  | object (members : List (List TextUnit × Document))

namespace Reader

/-- Space, tab, line feed and carriage return. -/
def isSpace (c : Char) : Bool := c == ' ' || c == '\t' || c == '\n' || c == '\r'

/-- What is left after white space. -/
def skipSpace (cs : List Char) : List Char := cs.dropWhile isSpace

/-- The value of a hexadecimal digit of either case. -/
def hexDigit? (c : Char) : Option Nat :=
  if '0' ≤ c ∧ c ≤ '9' then some (c.toNat - '0'.toNat)
  else if 'a' ≤ c ∧ c ≤ 'f' then some (c.toNat - 'a'.toNat + 10)
  else if 'A' ≤ c ∧ c ≤ 'F' then some (c.toNat - 'A'.toNat + 10)
  else none

/-- The number that four hexadecimal digits spell. -/
def hexUnit? (a b c d : Char) : Option Nat := do
  let a ← hexDigit? a
  let b ← hexDigit? b
  let c ← hexDigit? c
  let d ← hexDigit? d
  return ((a * 16 + b) * 16 + c) * 16 + d

/-- The character that one letter after a backslash stands for. -/
def shortEscape? (c : Char) : Option Char :=
  if c = '"' ∨ c = '\\' ∨ c = '/' then some c
  else if c = 'b' then some '\x08'
  else if c = 'f' then some '\x0c'
  else if c = 'n' then some '\n'
  else if c = 'r' then some '\r'
  else if c = 't' then some '\t'
  else none

/-- A string literal after its opening quote, and what follows its closing one. -/
def stringTail : List Char → Option (List TextUnit × List Char)
  | '"' :: rest => some ([], rest)
  | '\\' :: 'u' :: a :: b :: c :: d :: rest => do
    let n ← hexUnit? a b c d
    let (units, rest) ← stringTail rest
    return (.unit n :: units, rest)
  | '\\' :: c :: rest => do
    let c ← shortEscape? c
    let (units, rest) ← stringTail rest
    return (.char c :: units, rest)
  | c :: rest => do
    guard (0x20 ≤ c.toNat ∧ c ≠ '\\')
    let (units, rest) ← stringTail rest
    return (.char c :: units, rest)
  | [] => none

/-- The digits in front of a point or exponent: no zero in front of others. -/
def whole? (cs : List Char) : Option (List Nat × List Char) :=
  match Numeral.spanDigits cs with
  | ([], _) => none
  | (0 :: _ :: _, _) => none
  | found => some found

/-- A point and the digits after it, if there is a point. -/
def fraction? : List Char → Option (Option (List Nat) × List Char)
  | '.' :: cs =>
    match Numeral.spanDigits cs with
    | ([], _) => none
    | (digits, rest) => some (some digits, rest)
  | cs => some (none, cs)

/-- The sign and digits of an exponent. -/
def exponentDigits? (cs : List Char) : Option (Int × List Char) :=
  let (negative, cs) := match cs with
    | '-' :: rest => (true, rest)
    | '+' :: rest => (false, rest)
    | _ => (false, cs)
  match Numeral.spanDigits cs with
  | ([], _) => none
  | (digits, rest) =>
    let n : Int := Numeral.ofDigits 0 digits
    some (if negative then -n else n, rest)

/-- An exponent, if there is one. -/
def exponent? : List Char → Option (Option Int × List Char)
  | c :: cs =>
    if c = 'e' ∨ c = 'E' then (exponentDigits? cs).map fun (n, rest) => (some n, rest)
    else some (none, c :: cs)
  | [] => some (none, [])

/-- A number, and what follows it. -/
def number? (cs : List Char) : Option (NumberLiteral × List Char) := do
  let (negative, cs) := match cs with
    | '-' :: rest => (true, rest)
    | _ => (false, cs)
  let (whole, cs) ← whole? cs
  let (fraction, cs) ← fraction? cs
  let (exponent, cs) ← exponent? cs
  return (⟨negative, whole, fraction, exponent⟩, cs)

mutual

/-- A value, and what follows it. The fuel bounds the number of nested calls. -/
def value : Nat → List Char → Option (Document × List Char)
  | 0, _ => none
  | fuel + 1, cs =>
    match skipSpace cs with
    | 'n' :: rest => (Text.after? ['u', 'l', 'l'] rest).map (.null, ·)
    | 't' :: rest => (Text.after? ['r', 'u', 'e'] rest).map (.bool true, ·)
    | 'f' :: rest => (Text.after? ['a', 'l', 's', 'e'] rest).map (.bool false, ·)
    | '"' :: rest => (stringTail rest).map fun (units, rest) => (.string units, rest)
    | '[' :: rest =>
      match skipSpace rest with
      | ']' :: rest => some (.array [], rest)
      | rest => (items fuel rest).map fun (items, rest) => (.array items, rest)
    | '{' :: rest =>
      match skipSpace rest with
      | '}' :: rest => some (.object [], rest)
      | rest => (members fuel rest).map fun (members, rest) => (.object members, rest)
    | cs => (number? cs).map fun (n, rest) => (.number n, rest)

/-- The values up to a closing bracket, at least one. -/
def items : Nat → List Char → Option (List Document × List Char)
  | 0, _ => none
  | fuel + 1, cs => do
    let (item, rest) ← value fuel cs
    match skipSpace rest with
    | ']' :: rest => return ([item], rest)
    | ',' :: rest =>
      let (more, rest) ← items fuel rest
      return (item :: more, rest)
    | _ => none

/-- The members up to a closing brace, at least one. -/
def members : Nat → List Char → Option (List (List TextUnit × Document) × List Char)
  | 0, _ => none
  | fuel + 1, cs =>
    match skipSpace cs with
    | '"' :: rest => do
      let (key, rest) ← stringTail rest
      match skipSpace rest with
      | ':' :: rest =>
        let (item, rest) ← value fuel rest
        match skipSpace rest with
        | '}' :: rest => return ([(key, item)], rest)
        | ',' :: rest =>
          let (more, rest) ← members fuel rest
          return ((key, item) :: more, rest)
        | _ => none
      | _ => none
    | _ => none

end

end Reader

namespace Document

/-- The document that a text is. Two calls for each character suffice: a call of `value` takes a
character or hands on to the list of its items, which comes after a bracket. -/
def readChars? (cs : List Char) : Option Document :=
  match Reader.value (2 * cs.length + 2) cs with
  | some (document, rest) => if Reader.skipSpace rest = [] then some document else none
  | none => none

/-- The document of a text, if it is one. -/
def read? (text : String) : Option Document := readChars? text.toList

end Document

end LayoutEngine.Json
