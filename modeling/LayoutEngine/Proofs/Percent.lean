import LayoutEngine.Proofs.Utf8
import LayoutEngine.Text.Percent

/-!
# Percent-encoded texts

`Encodes` relates a text to its percent-encodings, whatever they escape and in whichever case, and
`Decodes` a text to the bytes that it stands for, a percent sign that starts no escape included. The
decoder works on bytes; as a digit is a character of one byte, it gives what the characters of the
text say (`decodes_iff`). An encoding that escapes every percent sign stands for the bytes of what
it encodes (`Encodes.decodes`), and shows at its ends an escape or what the text has there
(`Encodes.head?`, `Encodes.getLast?`).
-/

namespace LayoutEngine.Text.Percent

/-- A hexadecimal digit, of either case, and its number. -/
def HexDigit (c : Char) (n : Nat) : Prop :=
  n < 16 ∧ (c = Nat.digitChar n ∨ c = (Nat.digitChar n).toUpper)

/-- Text that escapes every one of the bytes. -/
inductive Escapes : List UInt8 → List Char → Prop
  | nil : Escapes [] []
  | cons {b : UInt8} {bytes : List UInt8} {high low : Char} {m n : Nat} {text : List Char}
      (hm : HexDigit high m) (hn : HexDigit low n) (hb : b.toNat = m * 16 + n)
      (h : Escapes bytes text) : Escapes (b :: bytes) ('%' :: high :: low :: text)

/-- A percent-encoding of a text: each character has its bytes escaped, or stays, if it may. -/
inductive Encodes (keep : Char → Prop) : List Char → List Char → Prop
  | nil : Encodes keep [] []
  | plain {c : Char} {cs text : List Char} (hc : keep c) (h : Encodes keep cs text) :
      Encodes keep (c :: cs) (c :: text)
  | escaped {c : Char} {cs word text : List Char}
      (hw : Escapes (String.utf8EncodeChar c) word) (h : Encodes keep cs text) :
      Encodes keep (c :: cs) (word ++ text)

/-- A text that starts with a percent sign and two hexadecimal digits. -/
def StartsEscape (text : List Char) : Prop :=
  ∃ high low m n rest, text = '%' :: high :: low :: rest ∧ HexDigit high m ∧ HexDigit low n

/-- The bytes that a text stands for: the byte of each escape, and its own bytes for each character
that starts none. -/
inductive Decodes : List Char → List UInt8 → Prop
  | nil : Decodes [] []
  | escape {high low : Char} {m n : Nat} {b : UInt8} {text : List Char} {bytes : List UInt8}
      (hm : HexDigit high m) (hn : HexDigit low n) (hb : b.toNat = m * 16 + n)
      (h : Decodes text bytes) : Decodes ('%' :: high :: low :: text) (b :: bytes)
  | char {c : Char} {text : List Char} {bytes : List UInt8} (hc : ¬ StartsEscape (c :: text))
      (h : Decodes text bytes) : Decodes (c :: text) (String.utf8EncodeChar c ++ bytes)

variable {c high low : Char} {m n : Nat} {b : UInt8} {bytes : List UInt8} {cs text : List Char}
  {keep : Char → Prop}

instance : Decidable (HexDigit c n) := inferInstanceAs (Decidable (_ ∧ _))

/-! ## Digits -/

/-- Where the hexadecimal digits are among the characters. -/
theorem hexDigit_iff : HexDigit c n ↔
    (n < 10 ∧ c.toNat = n + 0x30) ∨
      (10 ≤ n ∧ n < 16 ∧ (c.toNat = n + 0x37 ∨ c.toNat = n + 0x57)) := by
  by_cases hn : n < 16
  · simp only [HexDigit, hn, true_and, ← Char.toNat_inj]
    interval_cases n <;> simp [Nat.digitChar] <;> omega
  · simp only [HexDigit]
    omega

/-- Hexadecimal digits are ASCII characters. -/
theorem HexDigit.toNat_lt (h : HexDigit c n) : c.toNat < 0x80 := by
  have := hexDigit_iff.1 h
  omega

/-- So a byte that is one is below 128. -/
theorem toNat_lt_of_hexDigit (h : HexDigit (Char.ofNat b.toNat) n) : b.toNat < 0x80 := by
  have hb := b.toNat_lt
  rw [← Utf8.toNat_ofNat (n := b.toNat) (by omega)]
  exact h.toNat_lt

/-- The value of a byte is that of the digit. -/
theorem hexValue?_eq_some_iff {v : UInt8} :
    hexValue? b = some v ↔ HexDigit (Char.ofNat b.toNat) v.toNat := by
  have hb := b.toNat_lt
  have hv := v.toNat_lt
  rw [hexDigit_iff, Utf8.toNat_ofNat (by omega)]
  unfold hexValue?
  simp only [Bool.and_eq_true, decide_eq_true_eq, UInt8.le_iff_toNat_le, UInt8.reduceToNat]
  split_ifs
  case neg =>
    rw [false_iff]
    omega
  all_goals
    simp only [Option.some.injEq, ← UInt8.toNat_inj, UInt8.toNat_sub, UInt8.reduceToNat]
    omega

/-- Two bytes make one if both are digits. -/
theorem hexPair?_eq_some_iff {high low : UInt8} :
    hexPair? high low = some b ↔
      ∃ m n, HexDigit (Char.ofNat high.toNat) m ∧ HexDigit (Char.ofNat low.toNat) n ∧
        b.toNat = m * 16 + n := by
  simp only [hexPair?, Option.bind_eq_bind, Option.pure_def, Option.bind_eq_some_iff,
    hexValue?_eq_some_iff, Option.some.injEq]
  constructor
  · rintro ⟨v, hm, w, hn, rfl⟩
    refine ⟨_, _, hm, hn, ?_⟩
    have := hm.1
    have := hn.1
    simp only [UInt8.toNat_add, UInt8.toNat_mul, UInt8.reduceToNat]
    omega
  · rintro ⟨m, n, hm, hn, hb⟩
    have := hm.1
    have := hn.1
    refine ⟨UInt8.ofNat m, ?_, UInt8.ofNat n, ?_, ?_⟩
    · rwa [UInt8.toNat_ofNat', Nat.mod_eq_of_lt (by omega)]
    · rwa [UInt8.toNat_ofNat', Nat.mod_eq_of_lt (by omega)]
    · simp only [← UInt8.toNat_inj, UInt8.toNat_add, UInt8.toNat_mul, UInt8.toNat_ofNat',
        UInt8.reduceToNat]
      omega

/-! ## Bytes and what they stand for -/

/-- What stands in front without percent signs is left as it is. -/
theorem decode_append_of_not_mem {front : List UInt8} (h : 0x25 ∉ front) :
    decode (front ++ bytes) = front ++ decode bytes := by
  induction front with
  | nil => rfl
  | cons b front ih =>
    obtain ⟨hb, hfront⟩ := not_or.1 (mt List.mem_cons.2 h)
    rw [List.cons_append, decode, ih hfront, List.cons_append]
    rintro _ _ _ rfl
    exact absurd rfl hb

/-- An escape stands for one byte. -/
theorem decode_escape {high low : UInt8} (h : hexPair? high low = some b) :
    decode (0x25 :: high :: low :: bytes) = b :: decode bytes := by
  rw [decode, h]

/-- A percent sign that starts no escape stands for itself. -/
theorem decode_percent
    (h : ∀ high low rest, bytes = high :: low :: rest → hexPair? high low = none) :
    decode (0x25 :: bytes) = 0x25 :: decode bytes := by
  match bytes with
  | high :: low :: rest => rw [decode, h high low rest rfl]
  | [_] => rfl
  | [] => rfl

/-- Percent-decoding the bytes of a text. -/
def decodeText (text : List Char) : List UInt8 := decode (text.flatMap String.utf8EncodeChar)

/-- An escape in a text stands for one byte. -/
theorem decodeText_escape (hm : HexDigit high m) (hn : HexDigit low n) (hb : b.toNat = m * 16 + n) :
    decodeText ('%' :: high :: low :: text) = b :: decodeText text := by
  have hhigh := hm.toNat_lt
  have hlow := hn.toNat_lt
  have hpair : hexPair? (UInt8.ofNat high.toNat) (UInt8.ofNat low.toNat) = some b := by
    rw [hexPair?_eq_some_iff, UInt8.toNat_ofNat', UInt8.toNat_ofNat', Nat.mod_eq_of_lt (by omega),
      Nat.mod_eq_of_lt (by omega), Char.ofNat_toNat, Char.ofNat_toNat]
    exact ⟨m, n, hm, hn, hb⟩
  rw [decodeText, List.flatMap_cons, List.flatMap_cons, List.flatMap_cons,
    Utf8.utf8EncodeChar_of_lt hhigh, Utf8.utf8EncodeChar_of_lt hlow]
  exact decode_escape hpair

/-- No other character has a percent sign among its bytes. -/
theorem not_mem_utf8EncodeChar (hc : c ≠ '%') : 0x25 ∉ String.utf8EncodeChar c := by
  intro hmem
  by_cases hascii : c.toNat < 0x80
  · rw [Utf8.utf8EncodeChar_of_lt hascii, List.mem_singleton, ← UInt8.toNat_inj,
      UInt8.toNat_ofNat', Nat.mod_eq_of_lt (by omega)] at hmem
    exact hc (Char.toNat_inj.1 hmem.symm)
  · exact absurd (Utf8.le_of_mem_utf8EncodeChar (by omega) hmem) (by decide)

/-- A character that starts no escape stands for its bytes. -/
theorem decodeText_char (hc : ¬ StartsEscape (c :: text)) :
    decodeText (c :: text) = String.utf8EncodeChar c ++ decodeText text := by
  rw [decodeText, List.flatMap_cons]
  by_cases hpercent : c = '%'
  · subst hpercent
    refine decode_percent fun high low rest htext => ?_
    -- Two bytes that are digits would be the next two characters.
    rw [← Option.not_isSome_iff_eq_none, Option.isSome_iff_exists]
    rintro ⟨b, hb⟩
    obtain ⟨m, n, hm, hn, -⟩ := hexPair?_eq_some_iff.1 hb
    obtain ⟨more, rfl, hmore⟩ := Utf8.exists_of_flatMap_eq_cons htext (toNat_lt_of_hexDigit hm)
    obtain ⟨_, rfl, -⟩ := Utf8.exists_of_flatMap_eq_cons hmore (toNat_lt_of_hexDigit hn)
    exact hc ⟨_, _, m, n, _, rfl, hm, hn⟩
  · exact decode_append_of_not_mem (not_mem_utf8EncodeChar hpercent)

/-- Every text decodes to something. -/
theorem decodes_decodeText : ∀ text, Decodes text (decodeText text)
  | [] => .nil
  | c :: text => by
    by_cases hc : StartsEscape (c :: text)
    · obtain ⟨high, low, m, n, rest, htext, hm, hn⟩ := hc
      obtain ⟨rfl, rfl⟩ := List.cons.inj htext
      have hb : (UInt8.ofNat (m * 16 + n)).toNat = m * 16 + n := by
        have := hm.1
        have := hn.1
        rw [UInt8.toNat_ofNat', Nat.mod_eq_of_lt (by omega)]
      rw [decodeText_escape hm hn hb]
      exact .escape hm hn hb (decodes_decodeText rest)
    · rw [decodeText_char hc]
      exact .char hc (decodes_decodeText text)
termination_by text => text.length

/-- A text decodes to what decoding it gives, and nothing else. -/
theorem decodes_iff : Decodes text bytes ↔ decodeText text = bytes := by
  constructor
  · intro h
    induction h with
    | nil => rfl
    | escape hm hn hb _ ih => rw [decodeText_escape hm hn hb, ih]
    | char hc _ ih => rw [decodeText_char hc, ih]
  · rintro rfl
    exact decodes_decodeText text

/-! ## Encoded texts -/

/-- Escapes in front of a text decode to the bytes that they are of. -/
theorem Escapes.decodes_append {word : List Char} {escaped : List UInt8}
    (hw : Escapes escaped word) (h : Decodes text bytes) :
    Decodes (word ++ text) (escaped ++ bytes) := by
  induction hw with
  | nil => exact h
  | cons hm hn hb _ ih => exact .escape hm hn hb ih

/-- Encodings stand one after the other. -/
theorem Encodes.append {cs' text' : List Char} (h : Encodes keep cs text)
    (h' : Encodes keep cs' text') : Encodes keep (cs ++ cs') (text ++ text') := by
  induction h with
  | nil => exact h'
  | plain hc _ ih => exact .plain hc ih
  | escaped hw _ ih =>
    rw [List.append_assoc]
    exact .escaped hw ih

/-- More characters may be kept. -/
theorem Encodes.mono {keep' : Char → Prop} (hkeep : ∀ c, keep c → keep' c)
    (h : Encodes keep cs text) : Encodes keep' cs text := by
  induction h with
  | nil => exact .nil
  | plain hc _ ih => exact .plain (hkeep _ hc) ih
  | escaped hw _ ih => exact .escaped hw ih

/-- An encoding that escapes every percent sign stands for the bytes of the text. -/
theorem Encodes.decodes (h : Encodes (· ≠ '%') cs text) :
    Decodes text (cs.flatMap String.utf8EncodeChar) := by
  induction h with
  | nil => exact .nil
  | plain hc _ ih =>
    refine .char ?_ ih
    rintro ⟨_, _, _, _, _, heq, -, -⟩
    exact hc (List.cons.inj heq).1
  | escaped hw _ ih => exact hw.decodes_append ih

/-! ## The ends of encoded texts -/

/-- What is escaped starts with a percent sign. -/
theorem Escapes.head? (h : Escapes bytes text) : ∀ x ∈ text.head?, x = '%' := by
  cases h with
  | nil => nofun
  | cons => rintro _ ⟨⟩; rfl

/-- What is escaped ends with a hexadecimal digit. -/
theorem Escapes.getLast? (h : Escapes bytes text) : ∀ x ∈ text.getLast?, ∃ n, HexDigit x n := by
  induction h with
  | nil => nofun
  | @cons _ _ high low m n text hm hn _ _ ih =>
    intro x hx
    rw [show '%' :: high :: low :: text = ['%', high, low] ++ text from rfl,
      List.getLast?_append, Option.mem_def, Option.or_eq_some_iff] at hx
    obtain hx | ⟨-, hx⟩ := hx
    · exact ih x hx
    · cases hx
      exact ⟨n, hn⟩

/-- No character is escaped to nothing. -/
theorem Escapes.ne_nil (h : Escapes (String.utf8EncodeChar c) text) : text ≠ [] := by
  rintro rfl
  generalize hbytes : String.utf8EncodeChar c = bytes at h
  cases h
  exact String.utf8EncodeChar_ne_nil hbytes

/-- An encoding starts with a percent sign or with the first character, kept. -/
theorem Encodes.head? (h : Encodes keep cs text) :
    ∀ x ∈ text.head?, x = '%' ∨ keep x ∧ x ∈ cs.head? := by
  cases h with
  | nil => nofun
  | plain hc => rintro _ ⟨⟩; exact .inr ⟨hc, rfl⟩
  | escaped hw =>
    intro x hx
    rw [List.head?_append_of_ne_nil _ hw.ne_nil] at hx
    exact .inl (hw.head? x hx)

/-- Only nothing is encoded to nothing. -/
theorem Encodes.eq_nil (h : Encodes keep cs []) : cs = [] := by
  generalize htext : [] = text at h
  cases h with
  | nil => rfl
  | plain => cases htext
  | escaped hw => exact absurd (List.append_eq_nil_iff.1 htext.symm).1 hw.ne_nil

/-- An encoding ends with a hexadecimal digit or with the last character, kept. -/
theorem Encodes.getLast? (h : Encodes keep cs text) :
    ∀ x ∈ text.getLast?, (∃ n, HexDigit x n) ∨ keep x ∧ x ∈ cs.getLast? := by
  induction h with
  | nil => nofun
  | @plain c cs text hc h ih =>
    intro x hx
    rw [← List.singleton_append, List.getLast?_append, Option.mem_def,
      Option.or_eq_some_iff] at hx
    obtain hx | ⟨htext, hx⟩ := hx
    · exact (ih x hx).imp_right (And.imp_right List.mem_getLast?_cons)
    · rw [List.getLast?_eq_none_iff] at htext
      subst htext
      cases hx
      exact .inr ⟨hc, by rw [h.eq_nil]; rfl⟩
  | @escaped c cs word text hw h ih =>
    intro x hx
    rw [List.getLast?_append, Option.mem_def, Option.or_eq_some_iff] at hx
    obtain hx | ⟨-, hx⟩ := hx
    · exact (ih x hx).imp_right (And.imp_right List.mem_getLast?_cons)
    · exact .inl (hw.getLast? x hx)

end LayoutEngine.Text.Percent
