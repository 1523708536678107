import LayoutEngine.Numeral
import LayoutEngine.Proofs.Trim
import Mathlib.Data.Nat.Digits.Defs
import Mathlib.Data.Option.Basic
import Mathlib.Tactic.Ring

/-!
# What numerals denote

A numeral is a sign, which may be missing, and one or more ASCII digits, each of which counts by its
place (`Numeral.Spells`). The readers of integers accept numerals and nothing else, and give the
number that is denoted, if it is in range (`Numeral.integer?_eq_some_iff`,
`Numeral.signed?_eq_some_iff`, `Numeral.unsigned?_eq_some_iff`).
-/

namespace LayoutEngine.Numeral

/-- A text of one or more ASCII digits. -/
def IsDigits (cs : List Char) : Prop := cs ≠ [] ∧ ∀ c ∈ cs, c.isDigit = true

/-- The value of each digit, the last one first. -/
def places (cs : List Char) : List Nat := cs.reverse.map fun c => c.toNat - '0'.toNat

/-- The number that digits denote. -/
def denoted (cs : List Char) : Nat := Nat.ofDigits 10 (places cs)

/-- A numeral and the number that it denotes. -/
inductive Spells : List Char → Int → Prop
  | plain {cs : List Char} (digits : IsDigits cs) : Spells cs (denoted cs)
  | plus {cs : List Char} (digits : IsDigits cs) : Spells ('+' :: cs) (denoted cs)
  | minus {cs : List Char} (digits : IsDigits cs) : Spells ('-' :: cs) (-(denoted cs : Int))

variable {c : Char} {cs : List Char} {n : Int} {bits : Nat}

/-! ## Digits -/

/-- Where the digits are among the characters. -/
theorem toNat_of_isDigit (h : c.isDigit = true) : 48 ≤ c.toNat ∧ c.toNat ≤ 57 := by
  simp only [Char.isDigit, Bool.and_eq_true, decide_eq_true_eq] at h
  exact h

/-- A digit is read as its distance from zero. -/
theorem digit?_eq_some_iff {d : Nat} :
    digit? c = some d ↔ c.isDigit = true ∧ d = c.toNat - '0'.toNat := by
  unfold digit?
  simp only [Char.isDigit, Bool.and_eq_true, decide_eq_true_eq]
  split
  · next h => exact ⟨fun hd => ⟨h, (Option.some.inj hd).symm⟩, fun hd => congrArg some hd.2.symm⟩
  · next h => exact ⟨nofun, fun hd => absurd hd.1 h⟩

/-- Digits are read one by one. -/
theorem mapM_digit?_eq_some_iff {ds : List Nat} :
    cs.mapM digit? = some ds ↔
      (∀ c ∈ cs, c.isDigit = true) ∧ ds = cs.map fun c => c.toNat - '0'.toNat := by
  induction cs generalizing ds with
  | nil => exact ⟨fun h => ⟨nofun, (Option.some.inj h).symm⟩, fun h => congrArg some h.2.symm⟩
  | cons c cs ih =>
    simp only [List.mapM_cons, Option.bind_eq_bind, Option.pure_def, Option.bind_eq_some_iff,
      digit?_eq_some_iff, ih, Option.some.injEq, List.forall_mem_cons, List.map_cons]
    constructor
    · rintro ⟨d, ⟨hc, rfl⟩, ds', ⟨hcs, rfl⟩, rfl⟩
      exact ⟨⟨hc, hcs⟩, rfl⟩
    · rintro ⟨⟨hc, hcs⟩, rfl⟩
      exact ⟨_, ⟨hc, rfl⟩, _, ⟨hcs, rfl⟩, rfl⟩

/-- Read from the front, each further digit moves those before it up by a place. -/
theorem ofDigits_eq (front : Nat) (ds : List Nat) :
    ofDigits front ds = front * 10 ^ ds.length + Nat.ofDigits 10 ds.reverse := by
  induction ds generalizing front with
  | nil => simp [ofDigits]
  | cons d ds ih =>
    rw [ofDigits, ih, List.reverse_cons, Nat.ofDigits_append, Nat.ofDigits_singleton,
      List.length_reverse, List.length_cons]
    ring

/-- Digits read from the front are the number that they denote. -/
theorem ofDigits_map (cs : List Char) :
    ofDigits 0 (cs.map fun c => c.toNat - '0'.toNat) = denoted cs := by
  rw [ofDigits_eq, Nat.zero_mul, Nat.zero_add, ← List.map_reverse, denoted, places]

/-- A natural number is read from digits, and is what they denote. -/
theorem natural?_eq_some_iff {m : Nat} : natural? cs = some m ↔ IsDigits cs ∧ m = denoted cs := by
  unfold natural? IsDigits
  split
  · next hnil => simp [List.isEmpty_iff.1 hnil]
  · next hne =>
    simp only [Option.map_eq_some_iff, mapM_digit?_eq_some_iff]
    rw [List.isEmpty_iff] at hne
    constructor
    · rintro ⟨ds, ⟨hcs, rfl⟩, rfl⟩
      exact ⟨⟨hne, hcs⟩, ofDigits_map cs⟩
    · rintro ⟨⟨-, hcs⟩, rfl⟩
      exact ⟨_, ⟨hcs, rfl⟩, ofDigits_map cs⟩

/-! ## Signs -/

/-- What is no digit is not among digits. -/
theorem IsDigits.not_mem (h : IsDigits cs) (hc : c.isDigit = false) : c ∉ cs := by
  intro hmem
  rw [h.2 c hmem] at hc
  cases hc

/-- With a plus, digits spell what they denote. -/
theorem spells_plus_iff : Spells ('+' :: cs) n ↔ IsDigits cs ∧ n = denoted cs := by
  constructor
  · intro h
    cases h with
    | plain digits => exact absurd List.mem_cons_self (digits.not_mem (by decide))
    | plus digits => exact ⟨digits, rfl⟩
  · rintro ⟨h, rfl⟩
    exact .plus h

/-- With a minus, digits spell the negative of what they denote. -/
theorem spells_minus_iff : Spells ('-' :: cs) n ↔ IsDigits cs ∧ n = -(denoted cs : Int) := by
  constructor
  · intro h
    cases h with
    | plain digits => exact absurd List.mem_cons_self (digits.not_mem (by decide))
    | minus digits => exact ⟨digits, rfl⟩
  · rintro ⟨h, rfl⟩
    exact .minus h

/-- Without a sign a numeral is its digits. -/
theorem spells_unsigned_iff (hplus : ∀ ds, cs ≠ '+' :: ds) (hminus : ∀ ds, cs ≠ '-' :: ds) :
    Spells cs n ↔ IsDigits cs ∧ n = denoted cs := by
  constructor
  · intro h
    cases h with
    | plain digits => exact ⟨digits, rfl⟩
    | plus => exact absurd rfl (hplus _)
    | minus => exact absurd rfl (hminus _)
  · rintro ⟨h, rfl⟩
    exact .plain h

/-- A numeral has nothing in it but digits and signs. -/
theorem Spells.isDigit_or (h : Spells cs n) (hc : c ∈ cs) :
    c.isDigit = true ∨ c = '+' ∨ c = '-' := by
  cases h with
  | plain digits => exact .inl (digits.2 c hc)
  | plus digits | minus digits =>
    rcases List.mem_cons.1 hc with rfl | hc
    · simp
    · exact .inl (digits.2 c hc)

/-! ## White space -/

/-- A digit is no white space. -/
theorem isBlank_of_isDigit (h : c.isDigit = true) : Text.isBlank c = false := by
  have hdigit := toNat_of_isDigit h
  simp only [Text.isBlank, Bool.or_eq_false_iff, Bool.and_eq_false_iff, decide_eq_false_iff_not,
    beq_eq_false_iff_ne, ne_eq]
  omega

/-- A numeral has no white space in it. -/
theorem Spells.isBlank_of_mem (h : Spells cs n) (hc : c ∈ cs) : Text.isBlank c = false := by
  rcases h.isDigit_or hc with hdigit | rfl | rfl
  · exact isBlank_of_isDigit hdigit
  · decide
  · decide

/-- There are no blanks around what spells an integer. -/
theorem Spells.trim_eq (h : Spells cs n) : Text.trim cs = cs :=
  Text.trim_eq_self_iff.2 ⟨fun _ hc => h.isBlank_of_mem (List.mem_of_mem_head? hc),
    fun _ hc => h.isBlank_of_mem (List.mem_of_getLast? hc)⟩

/-! ## The readers -/

/-- The sign comes to what the digits denote. -/
theorem map_natural?_eq_some_iff {f : Int → Int} :
    Option.map f (do let m ← natural? cs; return (m : Int)) = some n ↔
      IsDigits cs ∧ n = f (denoted cs) := by
  simp only [Option.map_eq_some_iff, Option.bind_eq_bind, Option.pure_def,
    Option.bind_eq_some_iff, natural?_eq_some_iff, Option.some.injEq]
  constructor
  · rintro ⟨_, ⟨_, ⟨hdigits, rfl⟩, rfl⟩, rfl⟩
    exact ⟨hdigits, rfl⟩
  · rintro ⟨hdigits, rfl⟩
    exact ⟨_, ⟨_, ⟨hdigits, rfl⟩, rfl⟩, rfl⟩

/-- An integer is read just if it is spelled. -/
theorem integer?_eq_some_iff : integer? cs = some n ↔ Spells cs n := by
  unfold integer?
  split
  · rw [map_natural?_eq_some_iff, spells_minus_iff]
  · rw [map_natural?_eq_some_iff, spells_plus_iff]
  · next hminus hplus => rw [map_natural?_eq_some_iff, spells_unsigned_iff hplus hminus]

/-- An integer of so many bits is read just if it is spelled and fits. -/
theorem signed?_eq_some_iff :
    signed? bits cs = some n ↔ Spells cs n ∧ fitsSigned bits n = true := by
  rw [signed?, Option.filter_eq_some_iff, integer?_eq_some_iff]

/-- A minus sign is no part of an unsigned numeral. -/
theorem unsigned?_eq_some_iff {m : Nat} :
    unsigned? bits cs = some m ↔ Spells cs m ∧ '-' ∉ cs ∧ m < 2 ^ bits := by
  unfold unsigned?
  rw [Option.filter_eq_some_iff, decide_eq_true_eq, natural?_eq_some_iff, ← and_assoc]
  refine and_congr_left fun _ => ?_
  split
  · next ds =>
    rw [spells_plus_iff]
    constructor
    · rintro ⟨h, rfl⟩
      exact ⟨⟨h, rfl⟩, by simpa using h.not_mem (c := '-') (by decide)⟩
    · rintro ⟨⟨h, hm⟩, -⟩
      exact ⟨h, Int.ofNat_inj.1 hm⟩
  · next hplus =>
    constructor
    · rintro ⟨h, rfl⟩
      exact ⟨.plain h, h.not_mem (by decide)⟩
    · rintro ⟨h, hmem⟩
      have hminus : ∀ ds, cs ≠ '-' :: ds := by
        rintro ds rfl
        exact hmem List.mem_cons_self
      obtain ⟨hdigits, hm⟩ := (spells_unsigned_iff hplus hminus).1 h
      exact ⟨hdigits, Int.ofNat_inj.1 hm⟩

end LayoutEngine.Numeral
