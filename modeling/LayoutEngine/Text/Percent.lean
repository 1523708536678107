/-!
# Percent encoding

A percent sign and two hexadecimal digits, of either case, stand for the byte with that number. A
percent sign that two such digits do not follow stands for itself.
-/

namespace LayoutEngine.Text.Percent

/-- The value of an ASCII hexadecimal digit. -/
def hexValue? (b : UInt8) : Option UInt8 :=
  if 0x30 ≤ b && b ≤ 0x39 then some (b - 0x30)
  else if 0x41 ≤ b && b ≤ 0x46 then some (b - 0x37)
  else if 0x61 ≤ b && b ≤ 0x66 then some (b - 0x57)
  else none

/-- The byte that two hexadecimal digits spell. -/
def hexPair? (high low : UInt8) : Option UInt8 := do
  return (← hexValue? high) * 16 + (← hexValue? low)

/-- The bytes behind a percent-encoded text. -/
def decode : List UInt8 → List UInt8
  | 0x25 :: high :: low :: rest =>
    match hexPair? high low with
    | some b => b :: decode rest
    | none => 0x25 :: decode (high :: low :: rest)
  | b :: rest => b :: decode rest
  | [] => []

end LayoutEngine.Text.Percent
