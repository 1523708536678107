/-!
# Binary floating point

`FloatFormat` describes the binary interchange formats, `Floating f` is a number in one of them,
given by its bits, and `Floating.datum` says which number the bits stand for: an integer times a
power of two, an infinity, or none at all. Everything else is exact arithmetic on naturals:
`ofRatio` gives the number nearest to a quotient, an exact half going to the even neighbour, and
the conversions are made from it.
-/

namespace LayoutEngine

-- Powers of numbers are those of the core library, whichever others are known.
attribute [local instance (high)] instPowNat

/-- A binary interchange format: a sign bit, exponent bits, fraction bits. -/
structure FloatFormat where
  fractionBits : Nat
  exponentBits : Nat
deriving DecidableEq, Repr

namespace FloatFormat

/-- The format of 32 bits. -/
def binary32 : FloatFormat := ⟨23, 8⟩

/-- The format of 64 bits. -/
def binary64 : FloatFormat := ⟨52, 11⟩

/-- The number of bits, with the one for the sign. -/
def width (f : FloatFormat) : Nat := f.fractionBits + f.exponentBits + 1

/-- The exponent of the last place of the smallest numbers. -/
def minExponent (f : FloatFormat) : Int := 2 - 2 ^ (f.exponentBits - 1) - f.fractionBits

/-- The bits of infinity. Larger ones, the sign bit apart, are no number. -/
def infinityBits (f : FloatFormat) : Nat := (2 ^ f.exponentBits - 1) * 2 ^ f.fractionBits

/-- No finite number reaches this power of two, nor does half the smallest positive one fall below
its inverse. -/
def reach (f : FloatFormat) : Nat := 2 ^ (f.exponentBits - 1) + f.fractionBits

end FloatFormat

/-- A number of a format, by its bits. -/
structure Floating (f : FloatFormat) where
  bits : BitVec f.width
deriving DecidableEq, Repr

/-- A number of 64 bits. -/
abbrev Double := Floating .binary64

/-- A number of 32 bits. -/
abbrev Single := Floating .binary32

/-- What the bits of a number stand for. The finite number is `significand` times two to the
`exponent`; zero keeps its sign. -/
inductive Datum where
  | nan
  | infinite (negative : Bool)
  | finite (negative : Bool) (significand : Nat) (exponent : Int)
deriving DecidableEq, Repr

/-- A quotient of naturals, rounded to the nearest integer, a half to the even one. -/
def nearestQuotient (num den : Nat) : Nat :=
  let q := num / den
  let r := num % den
  if 2 * r < den then q
  else if den < 2 * r then q + 1
  else q + q % 2

/-- The greatest power of two that does not exceed the positive quotient. -/
def ratioLog2 (num den : Nat) : Int :=
  let k : Int := (num.log2 : Int) - den.log2
  if den * 2 ^ k.toNat ≤ num * 2 ^ (-k).toNat then k else k - 1

namespace Floating

variable {f : FloatFormat}

/-- The number with a sign and the given other bits. -/
def ofMagnitude (f : FloatFormat) (negative : Bool) (magnitude : Nat) : Floating f :=
  ⟨BitVec.ofNat f.width ((if negative then 2 ^ (f.width - 1) else 0) + magnitude)⟩

/-- The bit for the sign is set. -/
def negative (x : Floating f) : Bool := 2 ^ (f.width - 1) ≤ x.bits.toNat

/-- The bits without the sign. -/
def magnitude (x : Floating f) : Nat := x.bits.toNat % 2 ^ (f.width - 1)

/-- The zero without sign. -/
def zero (f : FloatFormat) : Floating f := ofMagnitude f false 0

/-- The infinity of either sign. -/
def infinity (f : FloatFormat) (negative : Bool) : Floating f :=
  ofMagnitude f negative f.infinityBits

/-- The one bit pattern made for what is no number. -/
def nan (f : FloatFormat) : Floating f :=
  ofMagnitude f false (f.infinityBits + 2 ^ (f.fractionBits - 1))

/-- The number that the bits stand for. -/
def datum (x : Floating f) : Datum :=
  let m := x.magnitude
  if f.infinityBits < m then .nan
  else if m = f.infinityBits then .infinite x.negative
  else
    let biased := m / 2 ^ f.fractionBits
    let fraction := m % 2 ^ f.fractionBits
    if biased = 0 then .finite x.negative fraction f.minExponent
    else .finite x.negative (2 ^ f.fractionBits + fraction) (f.minExponent + biased - 1)

/-- No number: greater in magnitude than the infinities. -/
def isNaN (x : Floating f) : Bool := f.infinityBits < x.magnitude

/-- Neither infinite nor no number. -/
def isFinite (x : Floating f) : Bool := x.magnitude < f.infinityBits

/-- Equality of numbers: no number equals what is none, and the two zeros are equal. -/
def equals (x y : Floating f) : Bool :=
  !x.isNaN && !y.isNaN && (x == y || (x.magnitude == 0 && y.magnitude == 0))

/-- Above zero, infinity included. -/
def isPositive (x : Floating f) : Bool := !x.isNaN && !x.negative && 0 < x.magnitude

/-- The bits, sign apart, of the number nearest to a positive quotient. Counting from the exponent
of the smallest numbers, each exponent takes as many bit patterns as there are fractions, so that a
significand rounded up to the next power of two is that number's pattern as it stands. -/
def nearestMagnitude (f : FloatFormat) (num den : Nat) : Nat :=
  let e := max (ratioLog2 num den - f.fractionBits) f.minExponent
  let significand := nearestQuotient (num * 2 ^ (-e).toNat) (den * 2 ^ e.toNat)
  min ((e - f.minExponent).toNat * 2 ^ f.fractionBits + significand) f.infinityBits

/-- The number nearest to a quotient with a sign. -/
def ofRatio (f : FloatFormat) (negative : Bool) (num den : Nat) : Floating f :=
  ofMagnitude f negative (if num = 0 then 0 else nearestMagnitude f num den)

/-- The number nearest to an integer. -/
def ofInt (f : FloatFormat) (n : Int) : Floating f := ofRatio f (n < 0) n.natAbs 1

/-- The integer that a finite number is, if it is one. -/
def toInt? (x : Floating f) : Option Int :=
  match x.datum with
  | .finite negative m e =>
    let scale := 2 ^ (-e).toNat
    if m % scale = 0 then
      let n : Int := m / scale * 2 ^ e.toNat
      some (if negative then -n else n)
    else none
  | _ => none

/-- The nearest number of another format. -/
def convert (g : FloatFormat) (x : Floating f) : Floating g :=
  match x.datum with
  | .nan => nan g
  | .infinite negative => infinity g negative
  | .finite negative m e => ofRatio g negative (m * 2 ^ e.toNat) (2 ^ (-e).toNat)

/-- The number nearest to the product of two finite ones. -/
def product (x y : Floating f) : Floating f :=
  match x.datum, y.datum with
  | .finite n m e, .finite n' m' e' =>
    let u := e + e'
    ofRatio f (n != n') (m * m' * 2 ^ u.toNat) (2 ^ (-u).toNat)
  | _, _ => nan f

/-- The number nearest to the quotient of a finite number and one that is finite and not zero. -/
def quotient (x y : Floating f) : Floating f :=
  match x.datum, y.datum with
  | .finite n m e, .finite n' m' e' =>
    let u := e - e'
    ofRatio f (n != n') (m * 2 ^ u.toNat) (m' * 2 ^ (-u).toNat)
  | _, _ => nan f

/-- A number kept between zero and one. What is no number stays so, and so does the zero below
zero. -/
def clampUnit (x : Floating f) : Floating f :=
  if x.isNaN then x
  else if x.negative then (if x.magnitude = 0 then x else zero f)
  else
    let one := ofInt f 1
    if one.magnitude < x.magnitude then one else x

end Floating

end LayoutEngine
