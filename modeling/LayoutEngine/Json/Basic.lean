import LayoutEngine.Entries
import LayoutEngine.Json.Document

/-!
# JSON values

`Json` is what a document means: numbers are integers where they are written as integers of 64 bits
and floating-point numbers otherwise, strings are text, and a key that an object repeats has its
first place and its last value. `Document.json?` interprets a document. It has none if a number has
no finite value, if a string holds half a surrogate pair, or if arrays and objects nest deeper than
the levels allowed.

Floating-point numbers are read in steps that are each rounded: up to 64 bits of the digits, and the
power of ten. Mostly that is the number nearest to what is written, but not always.
-/

namespace LayoutEngine

-- Powers of numbers are those of the core library, whichever others are known.
attribute [local instance (high)] instPowNat

/-- A JSON value. Integers lie between `-2 ^ 63` and `2 ^ 64 - 1`. -/
inductive Json where
  | null
  | bool (b : Bool)
  | int (n : Int)
  | float (x : Double)
  | string (s : String)
  | array (items : List Json)
  | object (members : List (String × Json))
deriving Inhabited

namespace Json

/-- How deeply arrays and objects may nest in a text. -/
def maxLevels : Nat := 127

/-- The first half of a pair of units that stands for one character. -/
def isHighSurrogate (n : Nat) : Bool := 0xD800 ≤ n && n ≤ 0xDBFF

/-- The second half of such a pair. -/
def isLowSurrogate (n : Nat) : Bool := 0xDC00 ≤ n && n ≤ 0xDFFF

/-- The character of a surrogate pair. -/
def pairChar (high low : Nat) : Char :=
  Char.ofNat (0x10000 + (high - 0xD800) * 0x400 + (low - 0xDC00))

/-- The characters that pieces of a string literal stand for, after a high surrogate if one is
given. -/
def unitChars? : Option Nat → List TextUnit → Option (List Char)
  | none, [] => some []
  | none, .char c :: rest => (unitChars? none rest).map (c :: ·)
  | none, .unit n :: rest =>
    if isHighSurrogate n then unitChars? (some n) rest
    else if isLowSurrogate n then none
    else (unitChars? none rest).map (Char.ofNat n :: ·)
  | some high, .unit n :: rest =>
    if isLowSurrogate n then (unitChars? none rest).map (pairChar high n :: ·) else none
  | some _, _ => none

/-- The text that a string literal stands for. -/
def unitText? (units : List TextUnit) : Option String :=
  (unitChars? none units).map String.ofList

namespace NumberLiteral

/-- The integer that a literal without point and exponent spells, if it is one of 64 bits, signed
or not. Zero with a minus sign is none. -/
def integer? (n : NumberLiteral) : Option Int :=
  if n.fraction.isSome || n.exponent.isSome then none
  else
    let m := Numeral.ofDigits 0 n.whole
    if n.negative then (if 0 < m ∧ m ≤ 2 ^ (63 : Nat) then some (-m) else none)
    else if m < UInt64.size then some m
    else none

/-- The number that digits spell after the number `front`, up to the first digit with which it would
no longer fit into 64 bits; and the digits from there on. -/
def leading (front : Nat) : List Nat → Nat × List Nat
  | [] => (front, [])
  | d :: ds =>
    if front * 10 + d < UInt64.size then leading (front * 10 + d) ds else (front, d :: ds)

/-- The literal without its sign, as a decimal whose digits fit into 64 bits. Digits of the whole
part that do not fit count as places, those of the fraction are dropped. -/
def decimal (n : NumberLiteral) : Decimal :=
  let fraction := n.fraction.getD []
  let (whole, surplus) := leading 0 n.whole
  let (digits, dropped) := leading whole fraction
  ⟨digits, n.exponent.getD 0 + surplus.length - (fraction.length - dropped.length)⟩

/-- The greatest power of ten that is a finite number. -/
def maxPower : Nat := 308

/-- The number nearest to a power of ten. -/
def power (k : Nat) : Double := .ofRatio .binary64 false (10 ^ k) 1

/-- A number of at most 64 bits times a power of ten, if it is finite. Each step is rounded: the
power, then the product or the quotient, of which there are two below the least power. -/
def scaled? (x : Double) (e : Int) : Option Double :=
  if x.magnitude = 0 then some x
  else if 0 ≤ e then
    if e ≤ maxPower then (some (x.product (power e.toNat))).filter (·.isFinite) else none
  else
    let k := (-e).toNat
    if k ≤ maxPower then some (x.quotient (power k))
    else some ((x.quotient (power maxPower)).quotient (power (min (k - maxPower) maxPower)))

/-- The number that a literal stands for, if it is finite. Its digits are made a floating-point
number first and scaled then, so the result need not be the nearest to what is written. -/
def json? (n : NumberLiteral) : Option Json :=
  match n.integer? with
  | some i => some (.int i)
  | none =>
    let d := n.decimal
    (scaled? (.ofRatio .binary64 n.negative d.digits 1) d.exponent).map .float

end NumberLiteral

namespace Document

mutual

/-- What a document means, if its arrays and objects nest no deeper than the levels. -/
def json? (levels : Nat) : Document → Option Json
  | .null => some .null
  | .bool b => some (.bool b)
  | .number n => n.json?
  | .string units => (unitText? units).map .string
  | .array items =>
    match levels with
    | 0 => none
    | levels + 1 => (itemsJson? levels items).map .array
  | .object members =>
    match levels with
    | 0 => none
    | levels + 1 => (membersJson? levels members).map fun pairs => .object (Entries.ofList pairs)
termination_by structural document => document

/-- The values of the items of an array, if all of them have one. -/
def itemsJson? (levels : Nat) : List Document → Option (List Json)
  | [] => some []
  | item :: rest => do
    let item ← json? levels item
    let rest ← itemsJson? levels rest
    return item :: rest
termination_by structural items => items

/-- The keys and values of the members of an object, if all of them have them. -/
def membersJson? (levels : Nat) : List (List TextUnit × Document) → Option (List (String × Json))
  | [] => some []
  | (key, item) :: rest => do
    let key ← unitText? key
    let item ← json? levels item
    let rest ← membersJson? levels rest
    return (key, item) :: rest
termination_by structural members => members

end

end Document

/-- The value that a JSON text stands for. -/
def ofText? (text : String) : Option Json := do
  let document ← Document.read? text
  document.json? maxLevels

end Json

end LayoutEngine
