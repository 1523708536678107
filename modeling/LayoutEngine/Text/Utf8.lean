/-!
# UTF-8

`decode` reads a sequence of bytes as UTF-8 and, where it is not, says where and how: at the first
byte of the first sequence that no character has, either a number of bytes that can start no
character, or a character cut short by the end. `encode` is its inverse.

The reader goes byte by byte. Between characters it stands at `start`; within one it knows how many
bytes are owed, the bounds on the next of them, and the bits collected so far.
-/

namespace LayoutEngine.Text.Utf8

/-- How a sequence of bytes fails to be UTF-8: at which byte, and how many bytes belong to the
sequence that no character has; none when the end cut a character short. -/
structure Fault where
  index : Nat
  length : Option Nat
deriving DecidableEq, Repr

/-- The text of what is wrong with the bytes. -/
def Fault.message (f : Fault) : String :=
  match f.length with
  | some n => "invalid utf-8 sequence of " ++ n.repr ++ " bytes from index " ++ f.index.repr
  | none => "incomplete utf-8 byte sequence from index " ++ f.index.repr

/-- Where the reader stands after some bytes of a character: how many it has seen, how many are
owed, the bounds on the next one, and the bits so far. -/
structure Pending where
  seen : Nat
  owed : Nat
  low : Nat
  high : Nat
  bits : Nat

/-- The reader after the first byte of a character of several bytes. Overlong forms, surrogates and
code points above 0x10FFFF are excluded by the bounds on the second byte. -/
def lead? (b : Nat) : Option Pending :=
  if 0xC2 ≤ b && b ≤ 0xDF then some ⟨1, 1, 0x80, 0xBF, b - 0xC0⟩
  else if b == 0xE0 then some ⟨1, 2, 0xA0, 0xBF, 0⟩
  else if 0xE1 ≤ b && b ≤ 0xEC then some ⟨1, 2, 0x80, 0xBF, b - 0xE0⟩
  else if b == 0xED then some ⟨1, 2, 0x80, 0x9F, 0xD⟩
  else if 0xEE ≤ b && b ≤ 0xEF then some ⟨1, 2, 0x80, 0xBF, b - 0xE0⟩
  else if b == 0xF0 then some ⟨1, 3, 0x90, 0xBF, 0⟩
  else if 0xF1 ≤ b && b ≤ 0xF3 then some ⟨1, 3, 0x80, 0xBF, b - 0xF0⟩
  else if b == 0xF4 then some ⟨1, 3, 0x80, 0x8F, 4⟩
  else none

/-- Reads on at byte `index`, with `pending` bytes of a character before it. -/
def decodeFrom (index : Nat) : Option Pending → List UInt8 → Except Fault (List Char)
  | none, [] => .ok []
  | some p, [] => .error ⟨index - p.seen, none⟩
  | none, b :: rest =>
    if b.toNat < 0x80 then do
      let cs ← decodeFrom (index + 1) none rest
      return Char.ofNat b.toNat :: cs
    else
      match lead? b.toNat with
      | some p => decodeFrom (index + 1) (some p) rest
      | none => .error ⟨index, some 1⟩
  | some p, b :: rest =>
    if p.low ≤ b.toNat && b.toNat ≤ p.high then
      let bits := p.bits * 64 + (b.toNat - 0x80)
      if p.owed ≤ 1 then do
        let cs ← decodeFrom (index + 1) none rest
        return Char.ofNat bits :: cs
      else decodeFrom (index + 1) (some ⟨p.seen + 1, p.owed - 1, 0x80, 0xBF, bits⟩) rest
    else .error ⟨index - p.seen, some p.seen⟩

/-- The text that the bytes encode. -/
def decode (bytes : List UInt8) : Except Fault String :=
  (decodeFrom 0 none bytes).map String.ofList

/-- The bytes of a text. -/
def encode (s : String) : List UInt8 := s.toList.flatMap String.utf8EncodeChar

end LayoutEngine.Text.Utf8
