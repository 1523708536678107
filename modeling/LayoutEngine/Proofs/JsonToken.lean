import LayoutEngine.Json.Printer
import Mathlib.Data.List.Basic
import Mathlib.Data.Option.Basic

/-!
# Numbers and strings that have been printed

The reader takes the text of an integer for the literal that spells it (`Json.number?_decimal`), and
the text of a string for one unit after the other (`Json.stringTail_chars`); both mean what has been
printed (`Json.integer?_literal`, `Json.unitText?_units`). A number ends where a value ends
(`Json.Reader.number?_append`): neither a comma nor a closing bracket or brace is part of one.
-/

namespace LayoutEngine

-- Powers of numbers are those of the core library, whichever others are known.
attribute [local instance (high)] instPowNat

/-! ## Digits -/

namespace Numeral

/-- The decimal digits of a number. -/
def digits (n : Nat) : List Nat := (Nat.toDigits 10 n).map fun c => c.toNat - '0'.toNat

/-- A digit is read as its distance from zero. -/
theorem digit?_of_isDigit {c : Char} (h : c.isDigit = true) :
    digit? c = some (c.toNat - '0'.toNat) := by
  simp only [Char.isDigit, Bool.and_eq_true, decide_eq_true_eq] at h
  exact if_pos h

/-- The digits of a number make that number. -/
theorem ofDigits_digits (n : Nat) : ofDigits 0 (digits n) = n := by
  have hfold : ∀ (cs : List Char) (front : Nat),
      ofDigits front (cs.map fun c => c.toNat - '0'.toNat) = Nat.ofDigitChars 10 cs front := by
    intro cs
    induction cs with
    | nil => exact fun _ => rfl
    | cons c cs ih =>
      intro front
      rw [List.map_cons, ofDigits, ih, Nat.mul_comm]
      rfl
  rw [digits, hfold, Nat.ofDigitChars_toDigits (by decide) (by decide)]

/-- No number but zero starts with a zero. -/
theorem head?_digits {n : Nat} (h : 0 < n) : (digits n).head? ≠ some 0 := by
  induction n using Nat.strongRecOn with
  | ind n ih =>
    rcases Nat.lt_or_ge n 10 with hlt | hge
    · rw [digits, Nat.toDigits_of_lt_base hlt, List.map_singleton, List.head?_singleton,
        Nat.toNat_digitChar_of_lt_ten hlt]
      intro hzero
      have hn : 48 + n - 48 = 0 := Option.some.inj hzero
      omega
    · have hfront := ih (n / 10) (by omega) (by omega)
      have hne : (digits (n / 10)).head? ≠ none := by
        simp [digits, Nat.toDigits_ne_nil]
      rw [digits, Nat.toDigits_of_base_le (by decide) hge, List.map_append, ← digits,
        List.head?_append_of_ne_nil _ (by simpa using hne)]
      exact hfront

end Numeral

namespace Json.Reader

/-- What may follow a value. -/
def Ends (rest : List Char) : Prop := ∀ c ∈ rest.head?, c = ',' ∨ c = ']' ∨ c = '}'

variable {cs more rest : List Char}

/-- What follows a value does not go on with a number. -/
theorem Ends.cases (h : Ends rest) :
    rest = [] ∨ ∃ c more, rest = c :: more ∧ Numeral.digit? c = none ∧ c ≠ '.' ∧ c ≠ 'e' ∧
      c ≠ 'E' := by
  cases rest with
  | nil => exact .inl rfl
  | cons c more => rcases h c rfl with rfl | rfl | rfl <;> exact .inr ⟨_, more, rfl, by decide⟩

/-- Digits are read up to the first character that is none. -/
theorem spanDigits_cons (c : Char) (cs : List Char) :
    Numeral.spanDigits (c :: cs) = match Numeral.digit? c with
      | some d => (d :: (Numeral.spanDigits cs).1, (Numeral.spanDigits cs).2)
      | none => ([], c :: cs) := rfl

/-- Digits end where a value ends. -/
theorem spanDigits_append {ds : List Nat} (h : Numeral.spanDigits cs = (ds, more))
    (hrest : Ends rest) : Numeral.spanDigits (cs ++ rest) = (ds, more ++ rest) := by
  induction cs generalizing ds more with
  | nil =>
    cases h
    rcases hrest.cases with rfl | ⟨c, more, rfl, hc, -⟩
    · rfl
    · rw [List.nil_append, spanDigits_cons, hc]
  | cons c cs ih =>
    rw [List.cons_append, spanDigits_cons]
    rw [spanDigits_cons] at h
    cases hc : Numeral.digit? c with
    | none =>
      rw [hc] at h
      cases h
      rfl
    | some d =>
      rw [hc] at h
      cases h
      rw [ih rfl]

/-- A whole part has digits, and no leading zero. -/
theorem whole?_eq_some_iff {ds : List Nat} :
    whole? cs = some (ds, more) ↔
      Numeral.spanDigits cs = (ds, more) ∧ ds ≠ [] ∧ (ds.head? = some 0 → ds = [0]) := by
  unfold whole?
  rcases Numeral.spanDigits cs with ⟨_ | ⟨d, _ | ⟨d', ds'⟩⟩, more'⟩
  · simp only [reduceCtorEq, Prod.mk.injEq, false_iff, not_and]
    rintro ⟨rfl, rfl⟩ hne
    exact absurd rfl hne
  · simp only [Option.some.injEq, Prod.mk.injEq]
    constructor
    · rintro ⟨rfl, rfl⟩
      simp
    · rintro ⟨h, -⟩
      exact h
  · rcases d with _ | d
    · simp only [reduceCtorEq, Prod.mk.injEq, false_iff, not_and]
      rintro ⟨rfl, rfl⟩ - hzero
      cases hzero rfl
    · simp only [Option.some.injEq, Prod.mk.injEq]
      constructor
      · rintro ⟨rfl, rfl⟩
        simp
      · rintro ⟨h, -⟩
        exact h

/-- A whole part is read in the same way in front of what no number goes on with. -/
theorem whole?_append {ds : List Nat} (h : whole? cs = some (ds, more)) (hrest : Ends rest) :
    whole? (cs ++ rest) = some (ds, more ++ rest) := by
  rw [whole?_eq_some_iff] at h ⊢
  exact ⟨spanDigits_append h.1 hrest, h.2⟩

/-- Without a point there is no fraction. -/
theorem fraction?_of_ne {c : Char} (h : c ≠ '.') (cs : List Char) :
    fraction? (c :: cs) = some (none, c :: cs) := by
  unfold fraction?
  split
  · next heq =>
    cases heq
    exact absurd rfl h
  · rfl

/-- A fraction is read in the same way in front of what no number goes on with. -/
theorem fraction?_append {fraction : Option (List Nat)} (h : fraction? cs = some (fraction, more))
    (hrest : Ends rest) : fraction? (cs ++ rest) = some (fraction, more ++ rest) := by
  cases cs with
  | nil =>
    cases h
    rcases hrest.cases with rfl | ⟨c, more, rfl, -, hpoint, -⟩
    · rfl
    · exact fraction?_of_ne hpoint more
  | cons c cs =>
    by_cases hc : c = '.'
    · subst hc
      rcases hspan : Numeral.spanDigits cs with ⟨_ | ⟨d, ds⟩, more'⟩
      all_goals simp only [fraction?, hspan] at h
      · cases h
      · cases h
        simp only [List.cons_append, fraction?, spanDigits_append hspan hrest]
    · rw [fraction?_of_ne hc] at h
      cases h
      exact fraction?_of_ne hc _

/-- The sign of an exponent, and what follows it. -/
def exponentSign (cs : List Char) : Bool × List Char :=
  match cs with
  | '-' :: rest => (true, rest)
  | '+' :: rest => (false, rest)
  | _ => (false, cs)

/-- The sign of an exponent is read in the same way in front of anything. -/
theorem exponentSign_append (hne : cs ≠ []) (rest : List Char) :
    exponentSign (cs ++ rest) = ((exponentSign cs).1, (exponentSign cs).2 ++ rest) := by
  obtain ⟨c, cs, rfl⟩ := List.exists_cons_of_ne_nil hne
  have hother : c ≠ '-' → c ≠ '+' → ∀ cs, exponentSign (c :: cs) = (false, c :: cs) := by
    intro hminus hplus cs
    unfold exponentSign
    split <;> simp_all
  by_cases hminus : c = '-'
  · subst hminus
    rfl
  by_cases hplus : c = '+'
  · subst hplus
    rfl
  · rw [List.cons_append, hother hminus hplus, hother hminus hplus]
    rfl

/-- An exponent has digits after its sign, if it has one. -/
theorem exponentDigits?_eq (cs : List Char) :
    exponentDigits? cs = match Numeral.spanDigits (exponentSign cs).2 with
      | ([], _) => none
      | (digits, rest) =>
        some (if (exponentSign cs).1 then -(Numeral.ofDigits 0 digits : Int)
          else Numeral.ofDigits 0 digits, rest) := rfl

/-- The digits of an exponent are read in the same way in front of what no number goes on with. -/
theorem exponentDigits?_append {n : Int} (h : exponentDigits? cs = some (n, more))
    (hrest : Ends rest) : exponentDigits? (cs ++ rest) = some (n, more ++ rest) := by
  have hne : cs ≠ [] := by
    rintro rfl
    cases h
  rw [exponentDigits?_eq] at h ⊢
  rw [exponentSign_append hne]
  rcases hspan : Numeral.spanDigits (exponentSign cs).2 with ⟨_ | ⟨d, ds⟩, more'⟩
  all_goals rw [hspan] at h
  · cases h
  · cases h
    rw [spanDigits_append hspan hrest]

/-- An exponent starts with its letter. -/
theorem exponent?_cons (c : Char) (cs : List Char) :
    exponent? (c :: cs) =
      if c = 'e' ∨ c = 'E' then (exponentDigits? cs).map fun (n, rest) => (some n, rest)
      else some (none, c :: cs) := rfl

/-- An exponent is read in the same way in front of what no number goes on with. -/
theorem exponent?_append {exponent : Option Int} (h : exponent? cs = some (exponent, more))
    (hrest : Ends rest) : exponent? (cs ++ rest) = some (exponent, more ++ rest) := by
  cases cs with
  | nil =>
    cases h
    rcases hrest.cases with rfl | ⟨c, more, rfl, -, -, hlower, hupper⟩
    · rfl
    · exact if_neg (not_or.2 ⟨hlower, hupper⟩)
  | cons c cs =>
    rw [exponent?_cons] at h
    rw [List.cons_append, exponent?_cons]
    split at h
    · next hc =>
      rw [if_pos hc]
      obtain ⟨⟨n, more'⟩, hdigits, heq⟩ := Option.map_eq_some_iff.1 h
      cases heq
      rw [exponentDigits?_append hdigits hrest]
      rfl
    · next hc =>
      rw [if_neg hc]
      cases h
      rfl

/-- The sign of a number, and what follows it. -/
def numberSign (cs : List Char) : Bool × List Char :=
  match cs with
  | '-' :: rest => (true, rest)
  | _ => (false, cs)

/-- Without a minus a number is not negative. -/
theorem numberSign_of_ne {c : Char} (h : c ≠ '-') (cs : List Char) :
    numberSign (c :: cs) = (false, c :: cs) := by
  unfold numberSign
  split
  · next heq =>
    cases heq
    exact absurd rfl h
  · rfl

/-- A number is its whole part, its fraction and its exponent, one after the other. -/
theorem number?_eq_some_iff {n : NumberLiteral} :
    number? cs = some (n, more) ↔ ∃ more₁ more₂,
      whole? (numberSign cs).2 = some (n.whole, more₁) ∧
        fraction? more₁ = some (n.fraction, more₂) ∧ exponent? more₂ = some (n.exponent, more) ∧
        n.negative = (numberSign cs).1 := by
  constructor
  · intro h
    unfold number? at h
    obtain ⟨⟨whole, more₁⟩, hwhole, h⟩ := Option.bind_eq_some_iff.1 h
    obtain ⟨⟨fraction, more₂⟩, hfraction, h⟩ := Option.bind_eq_some_iff.1 h
    obtain ⟨⟨exponent, more₃⟩, hexponent, h⟩ := Option.bind_eq_some_iff.1 h
    cases h
    exact ⟨more₁, more₂, hwhole, hfraction, hexponent, rfl⟩
  · rintro ⟨more₁, more₂, hwhole, hfraction, hexponent, hnegative⟩
    refine Option.bind_eq_some_iff.2 ⟨_, hwhole, Option.bind_eq_some_iff.2 ⟨_, hfraction,
      Option.bind_eq_some_iff.2 ⟨_, hexponent, ?_⟩⟩⟩
    exact congrArg (fun negative => some ({ n with negative := negative }, more)) hnegative.symm

/-- A number ends where a value ends. -/
theorem number?_append {n : NumberLiteral} (h : number? cs = some (n, [])) (hrest : Ends rest) :
    number? (cs ++ rest) = some (n, rest) := by
  obtain ⟨more₁, more₂, hwhole, hfraction, hexponent, hnegative⟩ := number?_eq_some_iff.1 h
  have hsign : numberSign (cs ++ rest) = ((numberSign cs).1, (numberSign cs).2 ++ rest) := by
    cases cs with
    | nil => cases hwhole
    | cons c cs =>
      by_cases hc : c = '-'
      · subst hc
        rfl
      · rw [List.cons_append, numberSign_of_ne hc, numberSign_of_ne hc]
        rfl
  refine number?_eq_some_iff.2 ⟨more₁ ++ rest, more₂ ++ rest, ?_, ?_, ?_, ?_⟩
  · rw [hsign]
    exact whole?_append hwhole hrest
  · exact fraction?_append hfraction hrest
  · exact exponent?_append hexponent hrest
  · rw [hsign, hnegative]

/-- All digits are read. -/
theorem spanDigits_of_isDigit (h : ∀ c ∈ cs, c.isDigit = true) :
    Numeral.spanDigits cs = (cs.map fun c => c.toNat - '0'.toNat, []) := by
  induction cs with
  | nil => rfl
  | cons c cs ih =>
    obtain ⟨hc, hcs⟩ := List.forall_mem_cons.1 h
    rw [spanDigits_cons, Numeral.digit?_of_isDigit hc, ih hcs]
    rfl

/-- A number is written in digits. -/
theorem isDigit_of_mem_toDigits {n : Nat} : ∀ c ∈ Nat.toDigits 10 n, c.isDigit = true :=
  fun _ => Nat.isDigit_of_mem_toDigits (by decide) (by decide)

/-- A number written in digits is a whole part. -/
theorem whole?_toDigits (n : Nat) :
    whole? (Nat.toDigits 10 n) = some (Numeral.digits n, []) := by
  refine whole?_eq_some_iff.2 ⟨spanDigits_of_isDigit isDigit_of_mem_toDigits, ?_, fun hzero => ?_⟩
  · simp [Numeral.digits, Nat.toDigits_ne_nil]
  · obtain rfl : n = 0 := by
      by_contra hne
      exact Numeral.head?_digits (Nat.pos_of_ne_zero hne) hzero
    rfl

end Json.Reader

namespace Json

open Reader

/-- How an integer is written. -/
def literal (n : Int) : NumberLiteral := ⟨n < 0, Numeral.digits n.natAbs, none, none⟩

/-- An integer of 64 bits, signed or not. -/
def IsWord (n : Int) : Prop := -(2 ^ (63 : Nat) : Nat) ≤ n ∧ n < UInt64.size

/-- An integer in decimal is read as a number without fraction and exponent. -/
theorem number?_decimal (n : Int) :
    number? (Numeral.decimal n).toList = some (literal n, []) := by
  rw [number?_eq_some_iff]
  refine ⟨[], [], ?_, rfl, rfl, ?_⟩
  all_goals
    unfold Numeral.decimal
    split
    · next hn => simp [numberSign, literal, hn, whole?_toDigits]
    · next hn =>
      obtain ⟨c, cs, hcs⟩ :=
        List.exists_cons_of_ne_nil (Nat.toDigits_ne_nil (n := n.natAbs) (b := 10))
      have hc : c.isDigit = true := isDigit_of_mem_toDigits c (hcs ▸ List.mem_cons_self)
      have hminus : c ≠ '-' := by
        rintro rfl
        cases hc
      have hsign : numberSign n.natAbs.repr.toList = (false, Nat.toDigits 10 n.natAbs) := by
        rw [Nat.toList_repr, hcs, numberSign_of_ne hminus]
      rw [hsign]
      first | exact whole?_toDigits n.natAbs | exact decide_eq_false hn

/-- Such a number is that integer, if it fits. -/
theorem integer?_literal {n : Int} (h : IsWord n) : (literal n).integer? = some n := by
  obtain ⟨hlow, hhigh⟩ := h
  have hdigits : Numeral.ofDigits 0 (literal n).whole = n.natAbs := Numeral.ofDigits_digits _
  unfold NumberLiteral.integer?
  rw [if_neg (by simp [literal]), hdigits]
  by_cases hn : n < 0
  · have hbound : 0 < n.natAbs ∧ n.natAbs ≤ 2 ^ (63 : Nat) := by omega
    simp only [literal, hn, decide_true, if_true, hbound, and_self, Option.some.injEq]
    omega
  · have hbound : n.natAbs < UInt64.size := by omega
    simp only [literal, hn, decide_false, Bool.false_eq_true, if_false, hbound, if_true,
      Option.some.injEq]
    omega

/-! ## Strings -/

/-- How one character stands in the document of a string literal. -/
def unitOf (c : Char) : TextUnit :=
  if c.toNat < 0x20 ∧ c ∉ ['\x08', '\x0c', '\n', '\r', '\t'] then .unit c.toNat else .char c

/-- A hexadecimal digit is read back. -/
theorem hexDigit?_digitChar : ∀ d < 16, hexDigit? (Nat.digitChar d) = some d := by decide

/-- One escape is read for one control character. -/
theorem hexUnit?_unitEscape {c : Char} (h : c.toNat < 0x20) :
    hexUnit? '0' '0' (Nat.digitChar (c.toNat / 16)) (Nat.digitChar (c.toNat % 16)) =
      some c.toNat := by
  have hzero : hexDigit? '0' = some 0 := rfl
  simp only [hexUnit?, hzero, hexDigit?_digitChar _ (show c.toNat / 16 < 16 by omega),
    hexDigit?_digitChar _ (show c.toNat % 16 < 16 by omega), Option.bind_eq_bind,
    Option.bind_some, Option.pure_def, Option.some.injEq]
  omega

/-- A letter after a backslash stands for a character. -/
theorem stringTail_short {c d : Char} (hd : shortEscape? d = some c) (cs : List Char) :
    stringTail ('\\' :: d :: cs) =
      (stringTail cs).map fun (units, rest) => (.char c :: units, rest) := by
  have hu : d ≠ 'u' := by
    rintro rfl
    cases hd
  rw [stringTail.eq_def]
  split
  · next heq => cases heq
  · next heq =>
    cases heq
    exact absurd rfl hu
  · next heq =>
    cases heq
    rw [hd]
    cases stringTail cs <;> rfl
  · next hnone heq =>
    cases heq
    exact (hnone d cs rfl rfl).elim
  · next heq => cases heq

/-- Most characters of a string stand for themselves. -/
theorem stringTail_plain {c : Char} (hquote : c ≠ '"') (hescape : c ≠ '\\') (h : 0x20 ≤ c.toNat)
    (cs : List Char) :
    stringTail (c :: cs) = (stringTail cs).map fun (units, rest) => (.char c :: units, rest) := by
  rw [stringTail.eq_def]
  split
  · next heq =>
    cases heq
    exact absurd rfl hquote
  · next heq =>
    cases heq
    exact absurd rfl hescape
  · next heq =>
    cases heq
    exact absurd rfl hescape
  · next heq =>
    cases heq
    rw [guard, if_pos ⟨h, hescape⟩]
    cases stringTail cs <;> rfl
  · next heq => cases heq

/-- Each character is read back from its escape. -/
theorem stringTail_escapeChar (c : Char) (cs : List Char) :
    stringTail (escapeChar c ++ cs) =
      (stringTail cs).map fun (units, rest) => (unitOf c :: units, rest) := by
  unfold escapeChar
  iterate 7
    split
    · next h =>
      subst h
      exact stringTail_short rfl cs
  split
  · next h =>
    have hunit : unitOf c = .unit c.toNat := by simp_all [unitOf]
    rw [hunit, unitEscape]
    simp only [List.cons_append, List.nil_append, stringTail, hexUnit?_unitEscape h]
    cases stringTail cs <;> rfl
  · next hquote hescape _ _ _ _ _ h =>
    have hunit : unitOf c = .char c := if_neg fun hc => h hc.1
    rw [hunit]
    exact stringTail_plain hquote hescape (Nat.le_of_not_lt h) cs

/-- The characters of a string are read back from their escapes. -/
theorem stringTail_chars (cs rest : List Char) :
    stringTail (cs.flatMap escapeChar ++ '"' :: rest) = some (cs.map unitOf, rest) := by
  induction cs with
  | nil => rfl
  | cons c cs ih =>
    rw [List.flatMap_cons, List.append_assoc, stringTail_escapeChar, ih]
    rfl

/-- The characters of a string are read back. -/
theorem unitText?_units (s : String) : unitText? (s.toList.map unitOf) = some s := by
  have hchars : ∀ cs : List Char, unitChars? none (cs.map unitOf) = some cs := by
    intro cs
    induction cs with
    | nil => rfl
    | cons c cs ih =>
      rw [List.map_cons, unitOf]
      split
      · next hc =>
        have hhigh : isHighSurrogate c.toNat = false := by
          simp only [isHighSurrogate, Bool.and_eq_false_iff, decide_eq_false_iff_not]
          omega
        have hlow : isLowSurrogate c.toNat = false := by
          simp only [isLowSurrogate, Bool.and_eq_false_iff, decide_eq_false_iff_not]
          omega
        rw [unitChars?, hhigh, hlow, ih]
        simp
      · rw [unitChars?, ih]
        rfl
  rw [unitText?, hchars, Option.map_some, String.ofList_toList]

end Json

end LayoutEngine
