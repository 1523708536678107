import LayoutEngine.Floating.Decimal

/-!
# The text of floating-point numbers

A number is written with the digits of its shortest decimal, positionally or with an exponent. A
`FloatStyle` holds what differs from one use to another: which magnitudes are written positionally,
whether an integer keeps a point and a zero, whether a positive exponent has a plus sign, and which
way a tie between two shortest decimals goes. The three styles of this library stand below it.
-/

namespace LayoutEngine

/-- How numbers are written: which of them positionally, and what is added to their digits. -/
structure FloatStyle where
  /-- The least exponent of the first digit that is written positionally; none is no limit. -/
  positionalFrom : Option Int
  /-- The greatest exponent of the first digit that is written positionally; none is no limit. -/
  positionalTo : Option Int
  /-- An integer written positionally ends in a point and a zero. -/
  pointZero : Bool
  /-- A positive exponent has a plus sign. -/
  plusSign : Bool
  tie : DecimalTie
deriving DecidableEq, Repr

namespace FloatStyle

/-- The text of a value: all digits positionally, and no point after an integer. -/
def plain : FloatStyle := ⟨none, none, false, false, .up⟩

/-- Numbers in JSON: positional from `0.00001` up to below `1e+16`. -/
def json : FloatStyle := ⟨some (-5), some 15, true, true, .even⟩

/-- Numbers in a record shown for inspection: positional from `0.0001` up to below `1e16`. -/
def inspection : FloatStyle := ⟨some (-4), some 15, true, false, .up⟩

/-- A number whose first digit has the exponent `e` is written positionally. -/
def isPositional (style : FloatStyle) (e : Int) : Bool :=
  style.positionalFrom.all (· ≤ e) && style.positionalTo.all (e ≤ ·)

/-- The digits with the point after the digit of exponent zero, where `e` is the exponent of the
first one. -/
def positional (style : FloatStyle) (digits : List Char) (e : Int) : List Char :=
  if e < 0 then
    ['0', '.'] ++ List.replicate (-e - 1).toNat '0' ++ digits
  else
    let whole := e.toNat + 1
    if digits.length ≤ whole then
      digits ++ List.replicate (whole - digits.length) '0' ++
        (if style.pointZero then ['.', '0'] else [])
    else digits.take whole ++ '.' :: digits.drop whole

/-- The digits with the point after the first one, and its exponent. -/
def scientific (style : FloatStyle) (digits : List Char) (e : Int) : List Char :=
  let significand := match digits with
    | d :: rest@(_ :: _) => d :: '.' :: rest
    | _ => digits
  let sign := if 0 ≤ e && style.plusSign then ['+'] else []
  significand ++ 'e' :: sign ++ (Numeral.decimal e).toList

/-- A positive decimal. -/
def decimal (style : FloatStyle) (d : Decimal) : List Char :=
  let digits := (Nat.repr d.digits).toList
  let e := d.exponent + digits.length - 1
  if style.isPositional e then style.positional digits e else style.scientific digits e

/-- A number in the style. -/
def text {f : FloatFormat} (style : FloatStyle) (x : Floating f) : String :=
  match x.datum with
  | .nan => "NaN"
  | .infinite negative => if negative then "-inf" else "inf"
  | .finite negative m e =>
    let sign := if negative then ['-'] else []
    let number :=
      if m = 0 then style.positional ['0'] 0
      else style.decimal (Floating.shortest f style.tie x.magnitude m e)
    String.ofList (sign ++ number)

end FloatStyle

end LayoutEngine
