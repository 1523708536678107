import LayoutEngine.Proofs.JsonText
import LayoutEngine.Proofs.Numeral
import LayoutEngine.Proofs.Rounding
import LayoutEngine.Value.Reading

/-!
# Integers, written as numbers and as strings

An integer literal of JSON may be of any length (`Numeral.Literal`). As a string it is read by its
digits and gives the integer that it denotes, if 64 bits hold it. As a number it is read to at most
64 bits and a power of ten, and what is no integer of 64 bits becomes a floating-point number. That
is integral and, at each step, no smaller than the power of two below (`Floating.Reaches`), so that
it counts as the last integer on its side. The two readings agree exactly on the integers of 64 bits
(`Value.int?_literal`).
-/

namespace LayoutEngine

-- Powers of numbers are those of the core library, whichever others are known.
attribute [local instance (high)] instPowNat

/-! ## Great numbers -/

namespace Floating

/-- The least exponent of a number of 64 bits. -/
theorem minExponent_binary64 : FloatFormat.binary64.minExponent = -1074 := by decide

/-- A double that, its sign apart, is at least a power of two, be it infinite. -/
def Reaches (k : ℕ) (x : Double) : Prop := (1023 + k) * 2 ^ 52 ≤ x.magnitude

variable {num den : ℕ} {x y : Double} {j k : ℕ}

/-- The exponents of doubles are biased by 1023. -/
theorem exponent_binary64 (k : ℕ) : FloatFormat.binary64.minExponent + ((1023 + k : ℕ) : ℤ) - 1 +
    (FloatFormat.binary64.fractionBits : ℕ) = k := by
  have hbits : FloatFormat.binary64.fractionBits = 52 := rfl
  rw [minExponent_binary64, hbits]
  omega

/-- A ratio that is a power of two or more is rounded to such a number. -/
theorem reaches_ofRatio (negative : Bool) (hden : 0 < den) (hk : k ≤ 1024)
    (h : (2 : ℚ) ^ k ≤ num / den) : Reaches k (ofRatio .binary64 negative num den) := by
  have hnum : 0 < num := by
    by_contra hzero
    rw [Nat.eq_zero_of_not_pos hzero, Nat.cast_zero, zero_div] at h
    exact absurd h (not_le.2 (by positivity))
  rw [← zpow_natCast, ← exponent_binary64 k] at h
  rw [Reaches, magnitude_ofRatio negative hnum]
  refine le_trans (le_min le_rfl ?_) (le_nearestMagnitude (by omega) hnum hden h)
  calc (1023 + k) * 2 ^ 52 ≤ (1023 + 1024) * 2 ^ 52 := by gcongr
    _ = FloatFormat.binary64.infinityBits := by decide

/-- A number that reaches a power has at least that magnitude. -/
theorem Reaches.le_magnitudeValue (h : Reaches k x) :
    (2 : ℚ) ^ k ≤ magnitudeValue .binary64 x.magnitude := by
  have hbiased : 1023 + k ≤ x.magnitude / 2 ^ FloatFormat.binary64.fractionBits :=
    (Nat.le_div_iff_mul_le (by positivity)).2 h
  rw [magnitudeValue, if_neg (by omega), ← zpow_natCast, ← exponent_binary64 k, add_comm,
    zpow_add₀ two_ne_zero, zpow_natCast]
  gcongr
  · push_cast
    linarith
  · exact one_le_two

/-- The product of two numbers is as great as theirs together. -/
theorem Reaches.product (hx : Reaches j x) (hy : Reaches k y) (hjk : j + k ≤ 1024)
    (hfinite : (x.product y).isFinite = true) :
    Reaches (j + k) (x.product y) ∧ (x.product y).negative = (x.negative != y.negative) := by
  have hnan : (nan .binary64).isFinite = false := by decide
  unfold Floating.product at hfinite ⊢
  split at hfinite
  · next negative m e negative' m' e' hxdatum hydatum =>
    obtain ⟨rfl, hxvalue, -⟩ := datum_eq_finite hxdatum
    obtain ⟨rfl, hyvalue, -⟩ := datum_eq_finite hydatum
    refine ⟨reaches_ofRatio _ (Nat.two_pow_pos _) hjk ?_, negative_ofRatio _ _ _⟩
    calc (2 : ℚ) ^ (j + k) = 2 ^ j * 2 ^ k := pow_add 2 j k
      _ ≤ (m * 2 ^ e) * (m' * 2 ^ e') := by
        rw [← hxvalue, ← hyvalue]
        exact mul_le_mul hx.le_magnitudeValue hy.le_magnitudeValue (by positivity)
          (hx.le_magnitudeValue.trans' (by positivity))
      _ = m * m' * 2 ^ (e + e') := by rw [zpow_add₀ two_ne_zero]; ring
      _ = (m * m' * 2 ^ (e + e').toNat : ℕ) / (2 ^ (-(e + e')).toNat : ℕ) := by
        rw [two_zpow_eq]
        push_cast
        ring
  · rw [hnan] at hfinite
    cases hfinite

/-- Either zero is the integer. -/
theorem toInt?_of_magnitude_eq_zero (h : x.magnitude = 0) : x.toInt? = some 0 := by
  have hdatum : x.datum = .finite x.negative 0 FloatFormat.binary64.minExponent := by
    rw [datum, h, if_neg (by decide), if_neg (by decide)]
    dsimp only
    rw [Nat.zero_div, if_pos rfl, Nat.zero_mod]
  rw [toInt?, hdatum]
  dsimp only
  rw [if_pos (Nat.zero_mod _), Nat.cast_zero, Int.zero_ediv, Int.zero_mul, Int.neg_zero, ite_self]

/-- A finite double that reaches the last place of integers is one. -/
theorem Reaches.exists_toInt?_eq (h : Reaches k x) (hk : 52 ≤ k) (hfinite : x.isFinite = true) :
    ∃ n : ℕ, 2 ^ k ≤ n ∧ x.toInt? = some (if x.negative then -(n : ℤ) else n) := by
  obtain ⟨m, e, hdatum⟩ := exists_datum_eq (of_decide_eq_true hfinite)
  obtain ⟨-, hvalue, hm⟩ := datum_eq_finite hdatum
  have hle := h.le_magnitudeValue
  rw [hvalue] at hle
  have he : 0 ≤ e := by
    by_contra hneg
    have hhalf : (2 : ℚ) ^ e ≤ 2 ^ (-1 : ℤ) := zpow_le_zpow_right₀ one_le_two (by omega)
    have hm' : (m : ℚ) < 2 ^ 53 := by exact_mod_cast hm
    have hlt : (m : ℚ) * 2 ^ e < 2 ^ 52 := by
      calc (m : ℚ) * 2 ^ e ≤ m * 2 ^ (-1 : ℤ) := by gcongr
        _ < 2 ^ 53 * 2 ^ (-1 : ℤ) := by gcongr
        _ = 2 ^ 52 := by norm_num
    exact absurd (hle.trans_lt hlt) (not_lt.2 (pow_le_pow_right₀ one_le_two hk))
  have hscale : (-e).toNat = 0 := by omega
  refine ⟨m * 2 ^ e.toNat, ?_, ?_⟩
  · rw [two_zpow_eq, hscale, pow_zero, div_one] at hle
    exact_mod_cast hle
  · rw [toInt?, hdatum]
    simp only [hscale, Nat.pow_zero, Nat.mod_one, if_true, Int.natCast_one, Int.ediv_one]
    push_cast
    rfl

end Floating

/-! ## Literals -/

namespace Numeral

/-- The digits of a number as JSON has them: no zero in front of others. -/
def IsWhole (cs : List Char) : Prop := IsDigits cs ∧ (cs.head? = some '0' → cs = ['0'])

instance (cs : List Char) : Decidable (IsDigits cs) :=
  decidable_of_iff (cs ≠ [] ∧ cs.all Char.isDigit = true) (by rw [IsDigits, List.all_eq_true])

instance (cs : List Char) : Decidable (IsWhole cs) := inferInstanceAs (Decidable (_ ∧ (_ → _)))

/-- An integer literal of JSON, and the integer that it denotes. -/
inductive Literal : List Char → Int → Prop
  | plain {cs : List Char} (digits : IsWhole cs) : Literal cs (denoted cs)
  | minus {cs : List Char} (digits : IsWhole cs) : Literal ('-' :: cs) (-(denoted cs : Int))

variable {cs : List Char} {n : ℤ}

/-- A literal spells its integer. -/
theorem Literal.spells (h : Literal cs n) : Spells cs n := by
  cases h with
  | plain digits => exact .plain digits.1
  | minus digits => exact .minus digits.1

open Json Json.Reader

/-- A whole number is read as its digits. -/
theorem IsWhole.whole? (h : IsWhole cs) :
    Reader.whole? cs = some (cs.map fun c => c.toNat - '0'.toNat, []) := by
  obtain ⟨⟨hne, hdigits⟩, hzero⟩ := h
  refine whole?_eq_some_iff.2 ⟨spanDigits_of_isDigit hdigits, by simpa using hne, fun hhead => ?_⟩
  obtain ⟨c, cs', rfl⟩ := List.exists_cons_of_ne_nil hne
  have hlow := (toNat_of_isDigit (hdigits c List.mem_cons_self)).1
  have hc : c = '0' := by
    rw [List.map_cons, List.head?_cons, Option.some.injEq] at hhead
    exact Char.toNat_inj.1 (Nat.le_antisymm (Nat.le_of_sub_eq_zero hhead) hlow)
  rw [hzero (congrArg some hc)]
  rfl

/-- Its digits are less than ten. -/
theorem IsWhole.lt_ten (h : IsWhole cs) : ∀ d ∈ cs.map fun c => c.toNat - '0'.toNat, d < 10 := by
  intro d hd
  obtain ⟨c, hc, rfl⟩ := List.mem_map.1 hd
  have hhigh := (toNat_of_isDigit (h.1.2 c hc)).2
  have hzero : '0'.toNat = 48 := rfl
  omega

/-- A literal is a number without point and exponent. -/
theorem Literal.exists_number? (h : Literal cs n) :
    ∃ negative digits, number? cs = some (⟨negative, digits, none, none⟩, []) ∧
      (∀ d ∈ digits, d < 10) ∧
      n = if negative then -(ofDigits 0 digits : ℤ) else ofDigits 0 digits := by
  cases h with
  | @plain cs digits =>
    obtain ⟨c, cs', rfl⟩ := List.exists_cons_of_ne_nil digits.1.1
    have hminus : c ≠ '-' := by
      rintro rfl
      exact digits.1.not_mem (by decide) List.mem_cons_self
    have hsign := numberSign_of_ne hminus cs'
    refine ⟨false, _, number?_eq_some_iff.2 ⟨[], [], ?_, rfl, rfl, ?_⟩, digits.lt_ten, ?_⟩
    · rw [hsign]
      exact digits.whole?
    · rw [hsign]
    · rw [if_neg Bool.false_ne_true, ofDigits_map]
  | @minus cs digits =>
    refine ⟨true, _, number?_eq_some_iff.2 ⟨[], [], digits.whole?, rfl, rfl, rfl⟩,
      digits.lt_ten, ?_⟩
    rw [if_pos rfl, ofDigits_map]

/-- Further digits make a number no less. -/
theorem le_ofDigits (front : Nat) (ds : List Nat) : front ≤ ofDigits front ds := by
  induction ds generalizing front with
  | nil => exact Nat.le_refl front
  | cons d ds ih => exact (by omega : front ≤ front * 10 + d).trans (ih _)

end Numeral

namespace Json.NumberLiteral

open Numeral (ofDigits)

/-- Either all digits fit into 64 bits, or those in front do and with the next one they do not. -/
theorem leading_cases (front : Nat) (ds : List Nat) :
    leading front ds = (ofDigits front ds, []) ∨
      ∃ digits d more, leading front ds = (digits, d :: more) ∧ d ∈ ds ∧
        UInt64.size ≤ digits * 10 + d ∧ UInt64.size ≤ ofDigits front ds := by
  induction ds generalizing front with
  | nil => exact .inl rfl
  | cons d ds ih =>
    rw [leading]
    split
    · rcases ih (front * 10 + d) with h | ⟨digits, d', more, h, hmem, hsize⟩
      · exact .inl h
      · exact .inr ⟨digits, d', more, h, List.mem_cons_of_mem d hmem, hsize⟩
    · next hlt =>
      have hsize := Nat.le_of_not_lt hlt
      exact .inr ⟨front, d, ds, rfl, List.mem_cons_self, hsize,
        hsize.trans (Numeral.le_ofDigits _ _)⟩

/-- A number without fraction and exponent is the integer of its leading digits, times a power of
ten. -/
theorem decimal_integer (negative : Bool) (ds : List Nat) :
    decimal ⟨negative, ds, none, none⟩ = ⟨(leading 0 ds).1, (leading 0 ds).2.length⟩ := by
  simp [decimal, leading]

/-- A power of ten is as great as a power of two below it. -/
theorem reaches_power {e k : ℕ} (hk : k ≤ 1024) (h : 2 ^ k ≤ 10 ^ e) :
    (power e).Reaches k := by
  refine Floating.reaches_ofRatio false one_pos hk ?_
  rw [Nat.cast_one, div_one]
  exact_mod_cast h

/-- A power of two is not negative. -/
theorem negative_power (e : ℕ) : (power e).negative = false :=
  Floating.negative_ofRatio _ _ _

/-- A number of 64 bits times a power of ten, where they are as great as powers of two. -/
theorem reaches_of_scaled? {digits e j k : ℕ} {negative : Bool} {y : Double}
    (h : scaled? (.ofRatio .binary64 negative digits 1) e = some y)
    (hdigits : 2 ^ j ≤ digits) (he : 2 ^ k ≤ 10 ^ e) (hjk : j + k ≤ 1024) :
    y.Reaches (j + k) ∧ y.isFinite = true ∧ y.negative = negative := by
  have hx : Floating.Reaches j (.ofRatio .binary64 negative digits 1) := by
    refine Floating.reaches_ofRatio negative one_pos (by omega) ?_
    rw [Nat.cast_one, div_one]
    exact_mod_cast hdigits
  have hpos : (Floating.ofRatio .binary64 negative digits 1).magnitude ≠ 0 := by
    have hle : (1023 + j) * 2 ^ 52 ≤ _ := hx
    omega
  unfold scaled? at h
  rw [if_neg hpos, if_pos (Int.natCast_nonneg e), Int.toNat_natCast] at h
  split at h
  · obtain ⟨hy, hfinite⟩ := Option.filter_eq_some_iff.1 h
    cases hy
    obtain ⟨hreaches, hnegative⟩ := hx.product (reaches_power (by omega) he) hjk hfinite
    refine ⟨hreaches, hfinite, ?_⟩
    rw [hnegative, negative_power, Floating.negative_ofRatio]
    cases negative <;> rfl
  · cases h

/-- A literal of an integer from `2 ^ 63` on, the sign apart, that is none of 64 bits stands for a
double that is as great. -/
theorem exists_float_of_json? {negative : Bool} {ds : List Nat} {json : Json}
    (hinteger : integer? ⟨negative, ds, none, none⟩ = none)
    (h : json? ⟨negative, ds, none, none⟩ = some json) (hds : ∀ d ∈ ds, d < 10)
    (hsize : 2 ^ 63 ≤ ofDigits 0 ds) :
    ∃ y : Double, json = .float y ∧ y.Reaches 63 ∧ y.isFinite = true ∧ y.negative = negative := by
  rw [json?, hinteger] at h
  dsimp only at h
  rw [decimal_integer] at h
  obtain ⟨y, hy, rfl⟩ := Option.map_eq_some_iff.1 h
  refine ⟨y, rfl, ?_⟩
  have hword : UInt64.size = 2 ^ 64 := rfl
  rcases leading_cases 0 ds with hall | ⟨digits, d, more, hleading, hd, hover, -⟩
  · rw [hall] at hy
    exact reaches_of_scaled? (j := 63) (k := 0) hy hsize (by norm_num) (by norm_num)
  · rw [hleading] at hy
    dsimp only at hy
    have hten := hds d hd
    refine reaches_of_scaled? (j := 60) (k := 3) hy (by omega) ?_ (by norm_num)
    calc 2 ^ 3 ≤ 10 ^ 1 := by norm_num
      _ ≤ 10 ^ (d :: more).length := Nat.pow_le_pow_right (by norm_num) (by simp)

/-- A literal without sign is an integer if 64 bits suffice. -/
theorem integer?_plain (ds : List Nat) : integer? ⟨false, ds, none, none⟩ =
    if ofDigits 0 ds < UInt64.size then some (ofDigits 0 ds : ℤ) else none := rfl

/-- A literal with a minus is an integer if 64 bits with a sign suffice. -/
theorem integer?_minus (ds : List Nat) : integer? ⟨true, ds, none, none⟩ =
    if 0 < ofDigits 0 ds ∧ ofDigits 0 ds ≤ 2 ^ 63 then some (-(ofDigits 0 ds : ℤ)) else none := rfl

/-- Zero with a minus sign stands for the double below zero. -/
theorem json?_of_ofDigits_eq_zero {ds : List Nat} (h : ofDigits 0 ds = 0) :
    json? ⟨true, ds, none, none⟩ = some (.float (.ofRatio .binary64 true 0 1)) := by
  have hinteger : integer? ⟨true, ds, none, none⟩ = none :=
    (integer?_minus ds).trans (if_neg fun hpos => hpos.1.ne' h)
  have hleading : leading 0 ds = (0, []) := by
    rcases leading_cases 0 ds with hall | ⟨_, _, _, -, -, -, hsize⟩
    · rw [hall, h]
    · have hword : UInt64.size = 2 ^ 64 := rfl
      omega
  rw [json?, hinteger]
  dsimp only
  rw [decimal_integer, hleading]
  rfl

/-- What an integer literal stands for: the integer, if it is one of 64 bits, signed or not, zero
with its minus sign, or a double that is out of the range of the integers of 64 bits. -/
theorem json?_cases {negative : Bool} {ds : List Nat} {n : ℤ} {json : Json}
    (h : json? ⟨negative, ds, none, none⟩ = some json) (hds : ∀ d ∈ ds, d < 10)
    (hn : n = if negative then -(ofDigits 0 ds : ℤ) else ofDigits 0 ds) :
    (json = .int n ∧ -2 ^ 63 ≤ n ∧ n < 2 ^ 64) ∨
      (json = .float (.ofRatio .binary64 true 0 1) ∧ n = 0) ∨
      ∃ y : Double, json = .float y ∧ y.Reaches 63 ∧ y.isFinite = true ∧
        (if y.negative then n < -2 ^ 63 else 2 ^ 63 ≤ n) := by
  have hword : UInt64.size = 2 ^ 64 := rfl
  have hint {i : ℤ} (hi : integer? ⟨negative, ds, none, none⟩ = some i) : json = .int i := by
    rw [json?, hi] at h
    exact (Option.some.inj h).symm
  cases negative with
  | false =>
    rw [if_neg Bool.false_ne_true] at hn
    rcases lt_or_ge (ofDigits 0 ds) UInt64.size with hlt | hge
    · exact .inl ⟨hn ▸ hint ((integer?_plain ds).trans (if_pos hlt)), by omega, by omega⟩
    · obtain ⟨y, hy, hreaches, hfinite, hnegative⟩ :=
        exists_float_of_json? ((integer?_plain ds).trans (if_neg hge.not_gt)) h hds (by omega)
      refine .inr (.inr ⟨y, hy, hreaches, hfinite, ?_⟩)
      rw [hnegative, if_neg Bool.false_ne_true]
      omega
  | true =>
    rw [if_pos rfl] at hn
    rcases Nat.eq_zero_or_pos (ofDigits 0 ds) with hzero | hpos
    · rw [json?_of_ofDigits_eq_zero hzero, Option.some.injEq] at h
      exact .inr (.inl ⟨h.symm, by omega⟩)
    rcases le_or_gt (ofDigits 0 ds) (2 ^ 63) with hle | hgt
    · exact .inl ⟨hn ▸ hint ((integer?_minus ds).trans (if_pos ⟨hpos, hle⟩)), by omega, by omega⟩
    · obtain ⟨y, hy, hreaches, hfinite, hnegative⟩ :=
        exists_float_of_json? ((integer?_minus ds).trans (if_neg fun hboth => hgt.not_ge hboth.2))
          h hds hgt.le
      refine .inr (.inr ⟨y, hy, hreaches, hfinite, ?_⟩)
      rw [hnegative, if_pos rfl]
      omega

/-- Integers of 64 bits stand for something. -/
theorem exists_json? {negative : Bool} {ds : List Nat}
    (h : ofDigits 0 ds < 2 ^ 63 ∨ negative = true ∧ ofDigits 0 ds = 2 ^ 63) :
    ∃ json, json? ⟨negative, ds, none, none⟩ = some json := by
  have hword : UInt64.size = 2 ^ 64 := rfl
  have hint {i : ℤ} (hi : integer? ⟨negative, ds, none, none⟩ = some i) :
      ∃ json, json? ⟨negative, ds, none, none⟩ = some json := ⟨.int i, by rw [json?, hi]⟩
  cases negative with
  | false => exact hint ((integer?_plain ds).trans (if_pos (by omega)))
  | true =>
    rcases Nat.eq_zero_or_pos (ofDigits 0 ds) with hzero | hpos
    · exact ⟨_, json?_of_ofDigits_eq_zero hzero⟩
    · exact hint ((integer?_minus ds).trans (if_pos ⟨hpos, by omega⟩))

end Json.NumberLiteral

/-- A text that is a number stands for that number. -/
theorem Json.ofText?_of_number? {t : String} {l : NumberLiteral}
    (h : Reader.number? t.toList = some (l, [])) : Json.ofText? t = l.json? := by
  have hread : Document.read? t = some (.number l) := by
    rw [Document.read?, Document.readChars?, value_number h]
    rfl
  rw [ofText?, hread]
  rfl

/-! ## Reading integers -/

namespace Value

variable {n : ℤ}

/-- A float that is out of range is cut off at the end of the range. -/
theorem int?_of_reaches {y : Double} (h : y.Reaches 63) (hfinite : y.isFinite = true) :
    (Value.float y).int? = some (if y.negative then -2 ^ 63 else 2 ^ 63 - 1) := by
  obtain ⟨n, hn, hint⟩ := h.exists_toInt?_eq (by norm_num) hfinite
  rw [int?, hint, Option.map_some, saturate]
  congr 1
  cases y.negative <;> simp <;> omega

/-- The integers of JSON that are greater than those of 64 bits with sign. -/
theorem reaches_ofInt (hn : 2 ^ 63 ≤ n) (hn' : n < 2 ^ 64) :
    Floating.Reaches 63 (.ofInt .binary64 n) ∧ (Floating.ofInt .binary64 n).isFinite = true := by
  have hpos : 0 < n.natAbs := by omega
  have hlow : 2 ^ 63 ≤ n.natAbs := by omega
  have hhigh : n.natAbs ≤ 2 ^ 64 := by omega
  constructor
  · refine Floating.reaches_ofRatio _ one_pos (by norm_num) ?_
    rw [Nat.cast_one, div_one]
    exact_mod_cast hlow
  · have hle : (n.natAbs : ℚ) / (1 : ℕ) ≤ 2 ^ ((64 : ℕ) : ℤ) := by
      rw [Nat.cast_one, div_one, zpow_natCast]
      exact_mod_cast hhigh
    rw [← Floating.exponent_binary64 64] at hle
    have hbits := Floating.nearestMagnitude_le_of_le (by norm_num) hpos one_pos hle
    rw [Floating.isFinite, decide_eq_true_eq, Floating.ofInt, Floating.magnitude_ofRatio _ hpos]
    exact hbits.trans_lt (by decide)

/-- An integer that JSON can have is read as itself, or cut off. -/
theorem int?_ofInteger (hn : -2 ^ 63 ≤ n) (hn' : n < 2 ^ 64) :
    (ofInteger n).int? = some (if n < 2 ^ 63 then n else 2 ^ 63 - 1) := by
  rw [ofInteger]
  rcases lt_or_ge n (2 ^ 63) with hlt | hge
  · rw [if_pos (by simp [Numeral.fitsSigned]; omega), if_pos hlt, int?]
  · have hfits : ¬Numeral.fitsSigned 64 n = true := by
      simp [Numeral.fitsSigned]
      omega
    obtain ⟨hreaches, hfinite⟩ := reaches_ofInt hge hn'
    rw [if_neg hfits, if_neg hge.not_gt, int?_of_reaches hreaches hfinite, Floating.ofInt,
      Floating.negative_ofRatio]
    have hpos : ¬n < 0 := by omega
    simp [hpos]

/-- The number that an integer literal stands for is read as the integer, or as the last one of 64
bits on its side. -/
theorem int?_of_json? {negative : Bool} {ds : List Nat} {json : Json}
    (h : Json.NumberLiteral.json? ⟨negative, ds, none, none⟩ = some json) (hds : ∀ d ∈ ds, d < 10)
    (hn : n = if negative then -(Numeral.ofDigits 0 ds : ℤ) else Numeral.ofDigits 0 ds) :
    (ofJson json).int? =
      some (if n < -2 ^ 63 then -2 ^ 63 else if n < 2 ^ 63 then n else 2 ^ 63 - 1) := by
  rcases Json.NumberLiteral.json?_cases h hds hn with
    ⟨rfl, hlow, hhigh⟩ | ⟨rfl, rfl⟩ | ⟨y, rfl, hreaches, hfinite, hside⟩
  · rw [ofJson, int?_ofInteger hlow hhigh, if_neg (show ¬n < -2 ^ 63 by omega)]
  · rw [ofJson, int?, Floating.toInt?_of_magnitude_eq_zero Floating.magnitude_ofRatio_zero]
    rfl
  · rw [ofJson, int?_of_reaches hreaches hfinite]
    split_ifs at hside ⊢
    all_goals first | rfl | omega

/-- The integers of 64 bits. -/
theorem fitsSigned_64_iff : Numeral.fitsSigned 64 n = true ↔ -2 ^ 63 ≤ n ∧ n < 2 ^ 63 := by
  simp only [Numeral.fitsSigned, Bool.and_eq_true, decide_eq_true_eq]

/-- A literal is no binding. -/
theorem ofJson_string_of_literal {t : String} (ht : Numeral.Literal t.toList n) :
    ofJson (.string t) = .string t := by
  have hopen : Text.after? ['@', '\x7b'] t.toList = none := by
    refine Option.eq_none_iff_forall_ne_some.2 fun rest hrest => ?_
    have hmem : '@' ∈ t.toList := by
      rw [Text.after?_eq_some_iff.1 hrest]
      exact List.mem_cons_self
    exact absurd (ht.spells.isDigit_or hmem) (by decide)
  have hparse : Binding.parse? t = none := by
    rw [Binding.parse?, ht.spells.trim_eq, Binding.path?, hopen]
    rfl
  rw [ofJson, hparse]

/-- A text that spells an integer is read as it if it fits. -/
theorem int?_string_of_literal {t : String} (ht : Numeral.Literal t.toList n) :
    (ofJson (.string t)).int? = if -2 ^ 63 ≤ n ∧ n < 2 ^ 63 then some n else none := by
  rw [ofJson_string_of_literal ht, int?, ht.spells.trim_eq, Numeral.signed?,
    Numeral.integer?_eq_some_iff.2 ht.spells, Option.filter_some]
  exact if_congr fitsSigned_64_iff rfl rfl

/-- Integer literals, as strings and as numbers. The string gives the integer, if it is one of 64
bits, and nothing otherwise. The number, which there is at least for these integers, gives the
integer as well, but otherwise the last one of 64 bits on its side. So the two agree exactly on the
integers of 64 bits. -/
theorem int?_literal {t : String} (ht : Numeral.Literal t.toList n) :
    (ofJson (.string t)).int? = (if -2 ^ 63 ≤ n ∧ n < 2 ^ 63 then some n else none) ∧
    (-2 ^ 63 ≤ n ∧ n < 2 ^ 63 → ∃ json, Json.ofText? t = some json) ∧
    ∀ json, Json.ofText? t = some json →
      (ofJson json).int? =
        some (if n < -2 ^ 63 then -2 ^ 63 else if n < 2 ^ 63 then n else 2 ^ 63 - 1) ∧
      ((ofJson json).int? = (ofJson (.string t)).int? ↔ -2 ^ 63 ≤ n ∧ n < 2 ^ 63) := by
  obtain ⟨negative, digits, hnumber, hsmall, hn⟩ := ht.exists_number?
  have hstring := int?_string_of_literal ht
  rw [Json.ofText?_of_number? hnumber]
  refine ⟨hstring, fun hrange => Json.NumberLiteral.exists_json? ?_, fun json hjson => ?_⟩
  · cases negative with
    | false =>
      rw [if_neg Bool.false_ne_true] at hn
      exact .inl (by omega)
    | true =>
      rw [if_pos rfl] at hn
      exact (show Numeral.ofDigits 0 digits < 2 ^ 63 ∨ _ by omega).imp_right fun heq => ⟨rfl, heq⟩
  · rw [hstring, int?_of_json? hjson hsmall hn]
    refine ⟨rfl, ?_⟩
    split_ifs <;> simp <;> omega

/-- The least integer of 64 bits is read alike from the number and from the string. -/
theorem int?_literal_least :
    Numeral.Literal "-9223372036854775808".toList (-9223372036854775808) ∧
    ∃ json, Json.ofText? "-9223372036854775808" = some json ∧
      (ofJson json).int? = some (-9223372036854775808) ∧
      (ofJson (.string "-9223372036854775808")).int? = some (-9223372036854775808) := by
  have hliteral : Numeral.Literal "-9223372036854775808".toList (-9223372036854775808) :=
    .minus (show Numeral.IsWhole "9223372036854775808".toList by decide)
  obtain ⟨hstring, hexists, hnumber⟩ := int?_literal hliteral
  obtain ⟨json, hjson⟩ := hexists (by norm_num)
  exact ⟨hliteral, json, hjson, (hnumber json hjson).1, hstring⟩

/-- The integer after the greatest one of 64 bits is read from the number as the greatest one, and
not at all from the string. -/
theorem int?_literal_above :
    ∃ json, Json.ofText? "9223372036854775808" = some json ∧
      (ofJson json).int? = some 9223372036854775807 ∧
      (ofJson (.string "9223372036854775808")).int? = none := by
  have hliteral : Numeral.Literal "9223372036854775808".toList 9223372036854775808 :=
    .plain (show Numeral.IsWhole "9223372036854775808".toList by decide)
  refine ⟨.int 9223372036854775808, ?_, ?_, ?_⟩
  · exact (Json.ofText?_of_number?
      (l := ⟨false, [9, 2, 2, 3, 3, 7, 2, 0, 3, 6, 8, 5, 4, 7, 7, 5, 8, 0, 8], none, none⟩)
      (by decide +kernel)).trans rfl
  · exact int?_ofInteger (by norm_num) (by norm_num)
  · exact int?_string_of_literal hliteral

end Value

end LayoutEngine
