import LayoutEngine.Text.Extending
import LayoutEngine.Text.Unprintable

/-!
# Quoted text

A text is shown to a reader between double quotes, in one line and without characters that cannot
be seen: quote and backslash are escaped, tab, line feed, carriage return and NUL have short
escapes, and any other character that has no glyph, extends its neighbour or is ignored by default
is written as its code point in hexadecimal between braces.
-/

namespace LayoutEngine.Text

/-- The code point lies in one of the ranges. -/
def inRanges (ranges : List (Nat × Nat)) (n : Nat) : Bool :=
  ranges.any fun (low, high) => low ≤ n && n ≤ high

/-- The letters among the characters that are ignored by default: the fillers of Hangul syllables.
The other ignorable characters have no glyph or extend their neighbour. -/
def isFiller (n : Nat) : Bool := n == 0x115F || n == 0x1160 || n == 0x3164 || n == 0xFFA0

/-- A character that quoted text writes as its code point. -/
def needsCodePoint (c : Char) : Bool :=
  inRanges unprintableRanges c.toNat || inRanges extendingRanges c.toNat || isFiller c.toNat

/-- The code point between braces, in lower-case hexadecimal without leading zeros. -/
def codePointEscape (c : Char) : List Char :=
  ['\\', 'u', '\x7b'] ++ Nat.toDigits 16 c.toNat ++ ['\x7d']

/-- How one character stands in quoted text. -/
def quoteChar (c : Char) : List Char :=
  if c = '\x00' then ['\\', '0']
  else if c = '\t' then ['\\', 't']
  else if c = '\r' then ['\\', 'r']
  else if c = '\n' then ['\\', 'n']
  else if c = '"' then ['\\', '"']
  else if c = '\\' then ['\\', '\\']
  else if 0x20 ≤ c.toNat && c.toNat < 0x7F then [c]
  else if needsCodePoint c then codePointEscape c
  else [c]

/-- A text between double quotes. -/
def quoted (s : String) : String :=
  String.ofList ('"' :: s.toList.flatMap quoteChar ++ ['"'])

end LayoutEngine.Text
