import LayoutEngine.Text.Utf8
import Mathlib.Data.List.Basic
import Mathlib.Tactic.IntervalCases

/-!
# Decoding is the inverse of encoding

The first byte of a character tells how many more follow, and each number of bytes has its bounds:
`utf8EncodeChar_eq_one_iff` to `utf8EncodeChar_eq_four_iff` say which bytes are a character and
which one. The reader keeps these bounds, so it reads a character from its bytes
(`decodeFrom_utf8EncodeChar_append`), and where it reads anything it read a character's bytes
(`exists_of_decodeFrom_cons`). Hence bytes are decoded to the text that they encode
(`decode_eq_ok_iff`), and to none if they are not UTF-8 (`exists_decode_eq_error_iff`).
-/

namespace LayoutEngine.Text.Utf8

variable {c : Char} {b₀ b₁ b₂ b₃ : UInt8}

/-! ## The bytes of a character -/

/-- A character is no surrogate, and there are no others beyond the last plane. -/
theorem toNat_valid (c : Char) : c.toNat < 0xD800 ∨ 0xDFFF < c.toNat ∧ c.toNat < 0x110000 :=
  c.valid

/-- Such a number is that of a character. -/
theorem toNat_ofNat {n : Nat} (hn : n < 0xD800 ∨ 0xDFFF < n ∧ n < 0x110000) :
    (Char.ofNat n).toNat = n := by
  rw [Char.ofNat, dif_pos hn]
  rfl

/-- The characters of one byte. -/
theorem utf8EncodeChar_eq_one_iff :
    String.utf8EncodeChar c = [b₀] ↔ b₀.toNat < 0x80 ∧ c.toNat = b₀.toNat := by
  rw [String.utf8EncodeChar.eq_1, Char.toNat_val]
  split_ifs
  all_goals
    simp only [List.cons.injEq, reduceCtorEq, and_true, and_false, false_iff, ← UInt8.toNat_inj,
      UInt8.toNat_ofNat', Nat.reducePow]
    omega

/-- The characters of two bytes. -/
theorem utf8EncodeChar_eq_two_iff :
    String.utf8EncodeChar c = [b₀, b₁] ↔
      (0xC2 ≤ b₀.toNat ∧ b₀.toNat ≤ 0xDF) ∧ (0x80 ≤ b₁.toNat ∧ b₁.toNat ≤ 0xBF) ∧
      c.toNat = (b₀.toNat - 0xC0) * 64 + (b₁.toNat - 0x80) := by
  rw [String.utf8EncodeChar.eq_1, Char.toNat_val]
  split_ifs
  all_goals
    simp only [List.cons.injEq, reduceCtorEq, and_true, and_false, false_iff, ← UInt8.toNat_inj,
      UInt8.toNat_ofNat', Nat.reducePow]
    omega

/-- The characters of three bytes. -/
theorem utf8EncodeChar_eq_three_iff :
    String.utf8EncodeChar c = [b₀, b₁, b₂] ↔
      (0xE0 ≤ b₀.toNat ∧ b₀.toNat ≤ 0xEF) ∧
      ((if b₀.toNat = 0xE0 then 0xA0 else 0x80) ≤ b₁.toNat ∧
        b₁.toNat ≤ if b₀.toNat = 0xED then 0x9F else 0xBF) ∧
      (0x80 ≤ b₂.toNat ∧ b₂.toNat ≤ 0xBF) ∧
      c.toNat = ((b₀.toNat - 0xE0) * 64 + (b₁.toNat - 0x80)) * 64 + (b₂.toNat - 0x80) := by
  have := toNat_valid c
  rw [String.utf8EncodeChar.eq_1, Char.toNat_val]
  split_ifs
  all_goals
    simp only [List.cons.injEq, reduceCtorEq, and_true, and_false, false_iff, ← UInt8.toNat_inj,
      UInt8.toNat_ofNat', Nat.reducePow]
    omega

/-- The characters of four bytes. -/
theorem utf8EncodeChar_eq_four_iff :
    String.utf8EncodeChar c = [b₀, b₁, b₂, b₃] ↔
      (0xF0 ≤ b₀.toNat ∧ b₀.toNat ≤ 0xF4) ∧
      ((if b₀.toNat = 0xF0 then 0x90 else 0x80) ≤ b₁.toNat ∧
        b₁.toNat ≤ if b₀.toNat = 0xF4 then 0x8F else 0xBF) ∧
      (0x80 ≤ b₂.toNat ∧ b₂.toNat ≤ 0xBF) ∧ (0x80 ≤ b₃.toNat ∧ b₃.toNat ≤ 0xBF) ∧
      c.toNat = (((b₀.toNat - 0xF0) * 64 + (b₁.toNat - 0x80)) * 64 + (b₂.toNat - 0x80)) * 64
        + (b₃.toNat - 0x80) := by
  have := toNat_valid c
  rw [String.utf8EncodeChar.eq_1, Char.toNat_val]
  split_ifs
  all_goals
    simp only [List.cons.injEq, reduceCtorEq, and_true, and_false, false_iff, ← UInt8.toNat_inj,
      UInt8.toNat_ofNat', Nat.reducePow]
    omega

/-- A character has one to four bytes. -/
theorem exists_utf8EncodeChar (c : Char) :
    (∃ b₀, String.utf8EncodeChar c = [b₀]) ∨ (∃ b₀ b₁, String.utf8EncodeChar c = [b₀, b₁]) ∨
      (∃ b₀ b₁ b₂, String.utf8EncodeChar c = [b₀, b₁, b₂]) ∨
      ∃ b₀ b₁ b₂ b₃, String.utf8EncodeChar c = [b₀, b₁, b₂, b₃] := by
  rw [String.utf8EncodeChar.eq_1]
  split_ifs <;> simp

/-! ## Characters of one byte -/

section
variable {b : UInt8} {bytes : List UInt8} {cs : List Char}

/-- A character below 128 is its own byte. -/
theorem utf8EncodeChar_of_lt (hc : c.toNat < 0x80) :
    String.utf8EncodeChar c = [UInt8.ofNat c.toNat] := by
  rw [String.utf8EncodeChar.eq_1, Char.toNat_val, if_pos (by omega)]

/-- The bytes of any other character are 128 or more. -/
theorem le_of_mem_utf8EncodeChar (hc : 0x80 ≤ c.toNat) (hb : b ∈ String.utf8EncodeChar c) :
    0x80 ≤ b.toNat := by
  rw [String.utf8EncodeChar.eq_1, Char.toNat_val, if_neg (by omega)] at hb
  split_ifs at hb <;> simp only [List.mem_cons, List.not_mem_nil, or_false] at hb
  · obtain rfl | rfl := hb <;> rw [UInt8.toNat_ofNat'] <;> omega
  · obtain rfl | rfl | rfl := hb <;> rw [UInt8.toNat_ofNat'] <;> omega
  · obtain rfl | rfl | rfl | rfl := hb <;> rw [UInt8.toNat_ofNat'] <;> omega

/-- An ASCII byte is a character of its own. -/
theorem exists_of_flatMap_eq_cons (h : cs.flatMap String.utf8EncodeChar = b :: bytes)
    (hb : b.toNat < 0x80) :
    ∃ rest, cs = Char.ofNat b.toNat :: rest ∧ rest.flatMap String.utf8EncodeChar = bytes := by
  cases cs with
  | nil => cases h
  | cons c rest =>
    rw [List.flatMap_cons] at h
    by_cases hc : c.toNat < 0x80
    · rw [utf8EncodeChar_of_lt hc] at h
      obtain ⟨rfl, rfl⟩ := List.cons.inj h
      refine ⟨rest, ?_, rfl⟩
      rw [UInt8.toNat_ofNat', Nat.mod_eq_of_lt (by omega), Char.ofNat_toNat]
    · cases hchar : String.utf8EncodeChar c with
      | nil => exact absurd hchar String.utf8EncodeChar_ne_nil
      | cons b' more =>
        have hb' := le_of_mem_utf8EncodeChar (by omega) (hchar ▸ List.mem_cons_self)
        rw [hchar] at h
        obtain ⟨rfl, -⟩ := List.cons.inj h
        omega

end

/-! ## The first byte -/

/-- A byte that leads two. -/
theorem lead?_two {b : Nat} (h : 0xC2 ≤ b ∧ b ≤ 0xDF) :
    lead? b = some ⟨1, 1, 0x80, 0xBF, b - 0xC0⟩ := by
  simp [lead?, h]

/-- A byte that leads three. -/
theorem lead?_three {b : Nat} (h : 0xE0 ≤ b ∧ b ≤ 0xEF) :
    lead? b = some ⟨1, 2, if b = 0xE0 then 0xA0 else 0x80, if b = 0xED then 0x9F else 0xBF,
      b - 0xE0⟩ := by
  obtain ⟨hlow, hhigh⟩ := h
  interval_cases b <;> rfl

/-- A byte that leads four. -/
theorem lead?_four {b : Nat} (h : 0xF0 ≤ b ∧ b ≤ 0xF4) :
    lead? b = some ⟨1, 3, if b = 0xF0 then 0x90 else 0x80, if b = 0xF4 then 0x8F else 0xBF,
      b - 0xF0⟩ := by
  obtain ⟨hlow, hhigh⟩ := h
  interval_cases b <;> rfl

/-- No other byte leads. -/
theorem range_of_lead? {b : Nat} {p : Pending} (h : lead? b = some p) :
    (0xC2 ≤ b ∧ b ≤ 0xDF) ∨ (0xE0 ≤ b ∧ b ≤ 0xEF) ∨ (0xF0 ≤ b ∧ b ≤ 0xF4) := by
  unfold lead? at h
  simp only [Bool.and_eq_true, decide_eq_true_eq, beq_iff_eq] at h
  split_ifs at h <;> omega

/-! ## One byte of a reading -/

section
variable {i : Nat} {p : Pending} {bytes rest : List UInt8} {cs : List Char}

/-- A byte below 128 is a character. -/
theorem decodeFrom_one (h : b₀.toNat < 0x80) :
    decodeFrom i none (b₀ :: bytes) = .ok cs ↔
      ∃ cs', cs = Char.ofNat b₀.toNat :: cs' ∧ decodeFrom (i + 1) none bytes = .ok cs' := by
  rw [decodeFrom, if_pos h]
  cases decodeFrom (i + 1) none bytes <;>
    simp [bind, Except.bind, pure, Except.pure, eq_comm]

/-- A byte that leads leaves a character pending. -/
theorem decodeFrom_lead (h : lead? b₀.toNat = some p) :
    decodeFrom i none (b₀ :: bytes) = decodeFrom (i + 1) (some p) bytes := by
  have hb : ¬ b₀.toNat < 0x80 := by
    have := range_of_lead? h
    omega
  simp [decodeFrom, hb, h]

/-- Any other byte that can be decoded leads. -/
theorem lead?_of_decodeFrom (h₀ : ¬ b₀.toNat < 0x80)
    (h : decodeFrom i none (b₀ :: bytes) = .ok cs) : ∃ p, lead? b₀.toNat = some p := by
  rw [← Option.isSome_iff_exists, ← Option.ne_none_iff_isSome]
  intro hn
  simp [decodeFrom, h₀, hn] at h

/-- A pending character that owes more than one byte takes the next one. -/
theorem decodeFrom_more (hp : 1 < p.owed) :
    decodeFrom i (some p) bytes = .ok cs ↔
      ∃ b rest, bytes = b :: rest ∧ (p.low ≤ b.toNat ∧ b.toNat ≤ p.high) ∧
        decodeFrom (i + 1)
          (some ⟨p.seen + 1, p.owed - 1, 0x80, 0xBF, p.bits * 64 + (b.toNat - 0x80)⟩)
          rest = .ok cs := by
  cases bytes with
  | nil => simp [decodeFrom]
  | cons b rest =>
    rw [decodeFrom]
    by_cases hb : p.low ≤ b.toNat ∧ b.toNat ≤ p.high
    · simp [hb, Nat.not_le.2 hp]
    · simp [hb]

/-- A pending character that owes one byte is complete with it. -/
theorem decodeFrom_last (hp : p.owed ≤ 1) :
    decodeFrom i (some p) bytes = .ok cs ↔
      ∃ b rest cs', bytes = b :: rest ∧ (p.low ≤ b.toNat ∧ b.toNat ≤ p.high) ∧
        cs = Char.ofNat (p.bits * 64 + (b.toNat - 0x80)) :: cs' ∧
        decodeFrom (i + 1) none rest = .ok cs' := by
  cases bytes with
  | nil => simp [decodeFrom]
  | cons b rest =>
    rw [decodeFrom]
    by_cases hb : p.low ≤ b.toNat ∧ b.toNat ≤ p.high
    · cases hd : decodeFrom (i + 1) none rest <;>
        simp [hb, hp, hd, bind, Except.bind, pure, Except.pure, eq_comm]
    · simp [hb]

/-! ## One character of a reading -/

/-- A character is read from its bytes. -/
theorem decodeFrom_utf8EncodeChar_append (c : Char)
    (h : decodeFrom (i + (String.utf8EncodeChar c).length) none rest = .ok cs) :
    decodeFrom i none (String.utf8EncodeChar c ++ rest) = .ok (c :: cs) := by
  obtain ⟨b₀, hc⟩ | ⟨b₀, b₁, hc⟩ | ⟨b₀, b₁, b₂, hc⟩ | ⟨b₀, b₁, b₂, b₃, hc⟩ :=
    exists_utf8EncodeChar c <;> rw [hc] at h ⊢
  · obtain ⟨h₀, hn⟩ := utf8EncodeChar_eq_one_iff.1 hc
    exact (decodeFrom_one h₀).2 ⟨cs, by rw [← hn, Char.ofNat_toNat], h⟩
  · obtain ⟨h₀, h₁, hn⟩ := utf8EncodeChar_eq_two_iff.1 hc
    refine (decodeFrom_lead (lead?_two h₀)).trans ((decodeFrom_last le_rfl).2 ?_)
    exact ⟨b₁, rest, cs, rfl, h₁, by rw [← hn, Char.ofNat_toNat], h⟩
  · obtain ⟨h₀, h₁, h₂, hn⟩ := utf8EncodeChar_eq_three_iff.1 hc
    refine (decodeFrom_lead (lead?_three h₀)).trans ((decodeFrom_more (by simp)).2 ?_)
    refine ⟨b₁, b₂ :: rest, rfl, h₁, (decodeFrom_last le_rfl).2 ?_⟩
    exact ⟨b₂, rest, cs, rfl, h₂, by rw [← hn, Char.ofNat_toNat], h⟩
  · obtain ⟨h₀, h₁, h₂, h₃, hn⟩ := utf8EncodeChar_eq_four_iff.1 hc
    refine (decodeFrom_lead (lead?_four h₀)).trans ((decodeFrom_more (by simp)).2 ?_)
    refine ⟨b₁, b₂ :: b₃ :: rest, rfl, h₁, (decodeFrom_more (by simp)).2 ?_⟩
    refine ⟨b₂, b₃ :: rest, rfl, h₂, (decodeFrom_last le_rfl).2 ?_⟩
    exact ⟨b₃, rest, cs, rfl, h₃, by rw [← hn, Char.ofNat_toNat], h⟩

/-- What is read from bytes starts with a character whose bytes they start with. -/
theorem exists_of_decodeFrom_cons (h : decodeFrom i none (b₀ :: bytes) = .ok cs) :
    ∃ c cs' j rest, cs = c :: cs' ∧ b₀ :: bytes = String.utf8EncodeChar c ++ rest ∧
      decodeFrom j none rest = .ok cs' := by
  by_cases h₀ : b₀.toNat < 0x80
  · rw [decodeFrom_one h₀] at h
    obtain ⟨cs', rfl, h⟩ := h
    refine ⟨_, cs', _, bytes, rfl, ?_, h⟩
    rw [utf8EncodeChar_eq_one_iff.2 ⟨h₀, toNat_ofNat (by omega)⟩]
    rfl
  obtain ⟨p, hp⟩ := lead?_of_decodeFrom h₀ h
  -- The first byte says how many more there are.
  obtain h₀ | h₀ | h₀ := range_of_lead? hp
  · rw [decodeFrom_lead (lead?_two h₀), decodeFrom_last le_rfl] at h
    obtain ⟨b₁, rest, cs', rfl, h₁, rfl, h⟩ := h
    refine ⟨_, cs', _, rest, rfl, ?_, h⟩
    rw [utf8EncodeChar_eq_two_iff.2 ⟨h₀, h₁, toNat_ofNat (by dsimp only at h₁ ⊢; omega)⟩]
    rfl
  · rw [decodeFrom_lead (lead?_three h₀), decodeFrom_more (by simp)] at h
    obtain ⟨b₁, bytes, rfl, h₁, h⟩ := h
    rw [decodeFrom_last le_rfl] at h
    obtain ⟨b₂, rest, cs', rfl, h₂, rfl, h⟩ := h
    refine ⟨_, cs', _, rest, rfl, ?_, h⟩
    have hn : (Char.ofNat (((b₀.toNat - 0xE0) * 64 + (b₁.toNat - 0x80)) * 64 +
        (b₂.toNat - 0x80))).toNat = _ :=
      toNat_ofNat (by dsimp only at h₁ h₂; split_ifs at h₁ <;> omega)
    rw [utf8EncodeChar_eq_three_iff.2 ⟨h₀, h₁, h₂, hn⟩]
    rfl
  · rw [decodeFrom_lead (lead?_four h₀), decodeFrom_more (by simp)] at h
    obtain ⟨b₁, bytes, rfl, h₁, h⟩ := h
    rw [decodeFrom_more (by simp)] at h
    obtain ⟨b₂, bytes, rfl, h₂, h⟩ := h
    rw [decodeFrom_last le_rfl] at h
    obtain ⟨b₃, rest, cs', rfl, h₃, rfl, h⟩ := h
    refine ⟨_, cs', _, rest, rfl, ?_, h⟩
    have hn : (Char.ofNat ((((b₀.toNat - 0xF0) * 64 + (b₁.toNat - 0x80)) * 64 +
        (b₂.toNat - 0x80)) * 64 + (b₃.toNat - 0x80))).toNat = _ :=
      toNat_ofNat (by dsimp only at h₁ h₂ h₃; split_ifs at h₁ <;> omega)
    rw [utf8EncodeChar_eq_four_iff.2 ⟨h₀, h₁, h₂, h₃, hn⟩]
    rfl

/-! ## A whole reading -/

/-- Characters are read from their bytes and from nothing else. -/
theorem decodeFrom_eq_ok_iff :
    decodeFrom i none bytes = .ok cs ↔ cs.flatMap String.utf8EncodeChar = bytes := by
  constructor
  · intro h
    induction cs generalizing i bytes with
    | nil =>
      cases bytes with
      | nil => rfl
      | cons b bytes =>
        obtain ⟨_, _, _, _, hcs, -⟩ := exists_of_decodeFrom_cons h
        cases hcs
    | cons c cs ih =>
      cases bytes with
      | nil => cases h
      | cons b bytes =>
        obtain ⟨_, _, _, rest, hcs, hb, h⟩ := exists_of_decodeFrom_cons h
        obtain ⟨rfl, rfl⟩ := List.cons.inj hcs
        rw [hb, List.flatMap_cons, ih h]
  · rintro rfl
    induction cs generalizing i with
    | nil => rfl
    | cons c cs ih => exact decodeFrom_utf8EncodeChar_append c ih

end

variable {bytes : List UInt8} {s : String}

/-- Bytes are decoded to a text just if they are its bytes. -/
theorem decode_eq_ok_iff : decode bytes = .ok s ↔ encode s = bytes := by
  rw [decode, encode, ← decodeFrom_eq_ok_iff (i := 0)]
  cases decodeFrom 0 none bytes with
  | error fault => simp [Except.map]
  | ok cs => rw [Except.map, Except.ok.injEq, Except.ok.injEq, ← String.toList_inj,
      String.toList_ofList]

/-- Valid bytes are those of a text. -/
theorem isValidUTF8_iff : bytes.toByteArray.IsValidUTF8 ↔ ∃ s, encode s = bytes := by
  constructor
  · rintro ⟨cs, h⟩
    refine ⟨String.ofList cs, ?_⟩
    rw [encode, String.toList_ofList]
    simpa [List.utf8Encode] using congrArg (fun a => a.data.toList) h.symm
  · rintro ⟨s, rfl⟩
    exact ByteArray.isValidUTF8_utf8Encode

/-- Decoding fails on what is not UTF-8. -/
theorem exists_decode_eq_error_iff :
    (∃ fault, decode bytes = .error fault) ↔ ¬ bytes.toByteArray.IsValidUTF8 := by
  simp only [isValidUTF8_iff, ← decode_eq_ok_iff]
  cases decode bytes <;> simp

end LayoutEngine.Text.Utf8
