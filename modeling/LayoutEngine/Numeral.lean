/-!
# Reading integers

An integer is read from a sign, which may be missing, and one or more ASCII digits; leading zeros
are allowed and nothing else is. `integer?` gives the number whatever its size, `signed?` and
`unsigned?` keep it to a number of bits. A minus sign is no part of an unsigned numeral, not even
in front of zero.
-/

namespace LayoutEngine.Numeral

-- Powers of numbers are those of the core library, whichever others are known.
attribute [local instance (high)] instPowNat

/-- The value of an ASCII digit. -/
def digit? (c : Char) : Option Nat :=
  if '0' ≤ c ∧ c ≤ '9' then some (c.toNat - '0'.toNat) else none

/-- The number that digits spell after the number `front`. -/
def ofDigits (front : Nat) : List Nat → Nat
  | [] => front
  | d :: ds => ofDigits (front * 10 + d) ds

/-- The number that one or more digits spell. -/
def natural? (cs : List Char) : Option Nat :=
  if cs.isEmpty then none else (cs.mapM digit?).map (ofDigits 0)

/-- The number that a sign, if there is one, and digits spell. -/
def integer? : List Char → Option Int
  | '-' :: cs => (natural? cs).map fun n => -(n : Int)
  | '+' :: cs => (natural? cs).map fun n => (n : Int)
  | cs => (natural? cs).map fun n => (n : Int)

/-- A number that a two's complement word of `bits` bits holds. -/
def fitsSigned (bits : Nat) (n : Int) : Bool :=
  -(2 ^ (bits - 1) : Int) ≤ n && n < (2 ^ (bits - 1) : Int)

/-- The number a numeral spells, if a signed word of `bits` bits holds it. -/
def signed? (bits : Nat) (cs : List Char) : Option Int :=
  (integer? cs).filter (fitsSigned bits)

/-- The number a numeral without minus sign spells, if `bits` bits hold it. -/
def unsigned? (bits : Nat) (cs : List Char) : Option Nat :=
  let digits := match cs with
    | '+' :: rest => rest
    | _ => cs
  (natural? digits).filter (· < 2 ^ bits)

/-- An integer in decimal digits, with a minus sign if it is negative. -/
def decimal (n : Int) : String :=
  if n < 0 then "-" ++ n.natAbs.repr else n.natAbs.repr

end LayoutEngine.Numeral
