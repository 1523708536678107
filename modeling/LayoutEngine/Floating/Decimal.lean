import LayoutEngine.Floating.Basic
import LayoutEngine.Numeral

/-!
# Decimals and floating point

A `Decimal` is a natural number times a power of ten. `Floating.ofDecimal` gives the number of a
format that is nearest to one. `Floating.shortest` goes back: among the decimals that give a number
back it takes one with the fewest digits, and of those the nearest. `Numeral.float?` reads the
numerals people write for floating-point numbers.
-/

namespace LayoutEngine

-- Powers of numbers are those of the core library, whichever others are known.
attribute [local instance (high)] instPowNat

/-- The number `digits` times ten to the `exponent`. -/
structure Decimal where
  digits : Nat
  exponent : Int
deriving DecidableEq, Repr

namespace Decimal

/-- Counts decimal digits, with fuel for as many. -/
def countDigits : Nat → Nat → Nat
  | 0, _ => 1
  | k + 1, n => if n < 10 then 1 else countDigits k (n / 10) + 1

/-- How many decimal digits a number has; zero has one. -/
def digitCount (n : Nat) : Nat := countDigits (n.log2 + 1) n

/-- Drops zeros at the end, with fuel for as many. -/
def dropZeros : Nat → Decimal → Decimal
  | 0, d => d
  | k + 1, d => if d.digits % 10 = 0 then dropZeros k ⟨d.digits / 10, d.exponent + 1⟩ else d

/-- The same positive number, the last digit of which is not zero. -/
def reduced (d : Decimal) : Decimal := dropZeros (digitCount d.digits) d

/-- The numerator of a decimal as a fraction. -/
def numerator (d : Decimal) : Nat := d.digits * 10 ^ d.exponent.toNat

/-- The denominator of a decimal as a fraction, a power of ten. -/
def denominator (d : Decimal) : Nat := 10 ^ (-d.exponent).toNat

/-- The exponent of ten above a positive quotient: `10 ^ (t - 1) ≤ num / den < 10 ^ t`. -/
def order (num den : Nat) : Int :=
  if den ≤ num then digitCount (num / den)
  else
    let d := digitCount (den / num)
    if den ≤ num * 10 ^ (d - 1) then 2 - d else 1 - d

end Decimal

/-- What becomes of a number that lies just between two decimals with as many digits. -/
inductive DecimalTie where
  | up
  | even
deriving DecidableEq, Repr

namespace Floating

variable {f : FloatFormat}

/-- The number nearest to a decimal with a sign. Decimals out of the format's reach are not worked
out. -/
def ofDecimal (f : FloatFormat) (negative : Bool) (d : Decimal) : Floating f :=
  let top : Int := Decimal.digitCount d.digits + d.exponent
  if d.digits = 0 then ofMagnitude f negative 0
  else if (f.reach : Int) + 1 < top then infinity f negative
  else if top < -(f.reach : Int) then ofMagnitude f negative 0
  else ofRatio f negative d.numerator d.denominator

/-- The decimal with the digits and exponent gives the magnitude back. -/
def readsBack (f : FloatFormat) (magnitude : Nat) (d : Decimal) : Bool :=
  (ofDecimal f false d).magnitude == magnitude

/-- The decimal of `n` digits nearest to `num / den`, if it or its neighbour on the other side of
the number gives the magnitude back. -/
def candidate? (f : FloatFormat) (tie : DecimalTie) (magnitude num den n : Nat) : Option Decimal :=
  let u := Decimal.order num den - n
  let num' := num * 10 ^ (-u).toNat
  let den' := den * 10 ^ u.toNat
  let low := num' / den'
  let r := num' % den'
  let below : Decimal := ⟨low, u⟩
  let above : Decimal := ⟨low + 1, u⟩
  match readsBack f magnitude below, readsBack f magnitude above with
  | false, false => none
  | true, false => some below
  | false, true => some above
  | true, true =>
    if 2 * r < den' then some below
    else if den' < 2 * r then some above
    else
      match tie with
      | .up => some above
      | .even => if low % 2 = 0 then some below else some above

/-- As many digits as any number of the format needs. -/
def maxDigits (f : FloatFormat) : Nat := (f.fractionBits + 1) * 30103 / 100000 + 2

/-- All digits of the positive number `m` times two to the `e`. -/
def exactDecimal (m : Nat) (e : Int) : Decimal :=
  ⟨m * 2 ^ e.toNat * 5 ^ (-e).toNat, min e 0⟩

/-- The shortest decimal that gives the positive number `m` times two to the `e` back, the nearest
of those with as many digits. -/
def shortest (f : FloatFormat) (tie : DecimalTie) (magnitude m : Nat) (e : Int) : Decimal :=
  let num := m * 2 ^ e.toNat
  let den := 2 ^ (-e).toNat
  let found := (List.range' 1 (maxDigits f)).findSome? (candidate? f tie magnitude num den)
  (found.getD (exactDecimal m e)).reduced

end Floating

namespace Numeral

/-- The digits in front of a text, and what follows them. -/
def spanDigits : List Char → List Nat × List Char
  | [] => ([], [])
  | c :: cs =>
    match digit? c with
    | some d => let (ds, rest) := spanDigits cs; (d :: ds, rest)
    | none => ([], c :: cs)

/-- An exponent, if the text is one: `e` or `E`, a sign that may be missing, digits. No text at all
is the exponent zero. -/
def exponentPart? : List Char → Option Int
  | [] => some 0
  | c :: cs => if c = 'e' ∨ c = 'E' then integer? cs else none

/-- A decimal without sign: digits with at most one point among them or at an end, and at least one
digit; then perhaps an exponent. -/
def decimal? (cs : List Char) : Option Decimal :=
  let (whole, rest) := spanDigits cs
  let (fraction, rest) := match rest with
    | '.' :: more => spanDigits more
    | _ => ([], rest)
  if whole.isEmpty && fraction.isEmpty then none
  else (exponentPart? rest).map fun e => ⟨ofDigits 0 (whole ++ fraction), e - fraction.length⟩

/-- A floating-point numeral without its sign: a decimal, or one of the words `inf`, `infinity` and
`nan` in any case of ASCII letters. -/
def unsignedFloat? (f : FloatFormat) (negative : Bool) (cs : List Char) : Option (Floating f) :=
  let word := String.ofList (cs.map Char.toLower)
  if word = "inf" ∨ word = "infinity" then some (.infinity f negative)
  else if word = "nan" then some (.nan f)
  else (decimal? cs).map (.ofDecimal f negative)

/-- The number that a floating-point numeral spells. -/
def float? (f : FloatFormat) : List Char → Option (Floating f)
  | '-' :: cs => unsignedFloat? f true cs
  | '+' :: cs => unsignedFloat? f false cs
  | cs => unsignedFloat? f false cs

end Numeral

end LayoutEngine
