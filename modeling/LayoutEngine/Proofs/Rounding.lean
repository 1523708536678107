import LayoutEngine.Floating.Basic
import Mathlib.Algebra.Order.Field.Power
import Mathlib.Data.Rat.Cast.Order
import Mathlib.Tactic.FieldSimp
import Mathlib.Tactic.Linarith
import Mathlib.Tactic.NormNum
import Mathlib.Tactic.Ring

/-!
# What is left of a number in another format

The number nearest to a quotient has a significand that is the quotient over a power of two, rounded
to an integer (`Floating.nearestMagnitude_eq`). So a positive number of double precision is zero in
single precision if it is at most half the smallest positive number there, and infinite if it is at
least halfway from the greatest number to the next power of two; all others stay finite and positive
(`Floating.isSize_convert_iff`). A number between zero and one stays one
(`Floating.inUnit_convert_clampUnit_iff`).
-/

namespace LayoutEngine

/-! ## Quotients and powers of two -/

/-- A power of two as a fraction of integers, whatever the sign of the exponent. -/
theorem two_zpow_eq (e : ℤ) : (2 : ℚ) ^ e = 2 ^ e.toNat / 2 ^ (-e).toNat := by
  have he : e = e.toNat - (-e).toNat := by omega
  conv_lhs => rw [he]
  rw [zpow_sub₀ two_ne_zero, zpow_natCast, zpow_natCast]

/-- A fraction in units of a power of two, with its numerator and denominator scaled. -/
theorem cast_scaled (num den : ℕ) (e : ℤ) :
    ((num * 2 ^ (-e).toNat : ℕ) : ℚ) / (den * 2 ^ e.toNat : ℕ) = num / den / 2 ^ e := by
  rw [two_zpow_eq e]
  push_cast
  field_simp

/-- Fractions are compared with powers of two as integers. -/
theorem two_zpow_le_div_iff {num den : ℕ} (hden : 0 < den) (k : ℤ) :
    (2 : ℚ) ^ k ≤ num / den ↔ den * 2 ^ k.toNat ≤ num * 2 ^ (-k).toNat := by
  have hden' : (0 : ℚ) < den := by exact_mod_cast hden
  rw [two_zpow_eq, div_le_div_iff₀ (by positivity) hden', mul_comm]
  exact_mod_cast Iff.rfl

/-- The power of two that `ratioLog2` gives does not exceed the quotient, and the next one does. -/
theorem ratioLog2_spec {num den : ℕ} (hnum : 0 < num) (hden : 0 < den) :
    (2 : ℚ) ^ ratioLog2 num den ≤ num / den ∧ (num : ℚ) / den < 2 ^ (ratioLog2 num den + 1) := by
  have hden' : (0 : ℚ) < den := by exact_mod_cast hden
  have hbounds : ∀ n : ℕ, 0 < n →
      (2 : ℚ) ^ (n.log2 : ℤ) ≤ n ∧ (n : ℚ) < 2 ^ ((n.log2 : ℤ) + 1) := by
    intro n hn
    exact ⟨by exact_mod_cast Nat.log2_self_le hn.ne', by exact_mod_cast Nat.lt_log2_self⟩
  obtain ⟨hnumLow, hnumHigh⟩ := hbounds num hnum
  obtain ⟨hdenLow, hdenHigh⟩ := hbounds den hden
  have hlow : (2 : ℚ) ^ ((num.log2 : ℤ) - den.log2 - 1) ≤ num / den := by
    rw [le_div_iff₀ hden']
    calc (2 : ℚ) ^ ((num.log2 : ℤ) - den.log2 - 1) * den
        ≤ 2 ^ ((num.log2 : ℤ) - den.log2 - 1) * 2 ^ ((den.log2 : ℤ) + 1) := by gcongr
      _ = 2 ^ (num.log2 : ℤ) := by rw [← zpow_add₀ two_ne_zero]; congr 1; ring
      _ ≤ num := hnumLow
  have hhigh : (num : ℚ) / den < 2 ^ ((num.log2 : ℤ) - den.log2 + 1) := by
    rw [div_lt_iff₀ hden']
    calc (num : ℚ) < 2 ^ ((num.log2 : ℤ) + 1) := hnumHigh
      _ = 2 ^ ((num.log2 : ℤ) - den.log2 + 1) * 2 ^ (den.log2 : ℤ) := by
        rw [← zpow_add₀ two_ne_zero]; congr 1; ring
      _ ≤ 2 ^ ((num.log2 : ℤ) - den.log2 + 1) * den := by gcongr
  rw [ratioLog2]
  split
  · next hle => exact ⟨(two_zpow_le_div_iff hden _).2 hle, hhigh⟩
  · next hlt =>
    rw [← two_zpow_le_div_iff hden, not_le] at hlt
    exact ⟨hlow, by rwa [sub_add_cancel]⟩

/-- A quotient is rounded to `n` or more exactly if it is at most half below `n`, where a half
counts if `n` is even. -/
theorem le_nearestQuotient_iff {num den n : ℕ} (hden : 0 < den) :
    n ≤ nearestQuotient num den ↔
      if n % 2 = 0 then (n : ℚ) - 1 / 2 ≤ num / den else (n : ℚ) - 1 / 2 < num / den := by
  have hden' : (0 : ℚ) < den := by exact_mod_cast hden
  have hle : (n : ℚ) - 1 / 2 ≤ num / den ↔ 2 * n * den ≤ 2 * num + den := by
    rw [le_div_iff₀ hden', ← Nat.cast_le (α := ℚ)]
    push_cast
    constructor <;> intro h <;> linarith
  have hlt : (n : ℚ) - 1 / 2 < num / den ↔ 2 * n * den < 2 * num + den := by
    rw [lt_div_iff₀ hden', ← Nat.cast_lt (α := ℚ)]
    push_cast
    constructor <;> intro h <;> linarith
  rw [hle, hlt]
  -- With quotient and remainder the products are of the divisor and small numbers.
  obtain ⟨q, r, hr, rfl⟩ : ∃ q r, r < den ∧ num = den * q + r :=
    ⟨num / den, num % den, Nat.mod_lt _ hden, (Nat.div_add_mod num den).symm⟩
  have hq : (den * q + r) / den = q := by
    rw [Nat.mul_add_div hden, Nat.div_eq_of_lt hr, Nat.add_zero]
  have hmod : (den * q + r) % den = r := by
    rw [Nat.mul_add_mod, Nat.mod_eq_of_lt hr]
  rw [nearestQuotient, hq, hmod, Nat.mul_assoc]
  rcases Nat.lt_trichotomy n (q + 1) with hlow | rfl | hhigh
  · have hproduct : n * den ≤ den * q := by
      rw [Nat.mul_comm]
      exact Nat.mul_le_mul_left den (Nat.le_of_lt_succ hlow)
    split_ifs <;> omega
  · have hproduct : (q + 1) * den = den * q + den := by ring
    split_ifs <;> omega
  · have hproduct : den * q + 2 * den ≤ n * den := by
      calc den * q + 2 * den = (q + 2) * den := by ring
        _ ≤ n * den := Nat.mul_le_mul_right den hhigh
    split_ifs <;> omega

namespace Floating

variable {f : FloatFormat} {num den : ℕ}

/-- The bits of the number nearest to a quotient count the powers of two from the smallest one on
and, in the last place of the one that is reached, the rounded quotient. That has all places unless
the power of two is the smallest. -/
theorem nearestMagnitude_eq (f : FloatFormat) (hnum : 0 < num) (hden : 0 < den) :
    ∃ powers significand : ℕ,
      nearestMagnitude f num den = min (powers * 2 ^ f.fractionBits + significand) f.infinityBits ∧
      (∀ n, n ≤ significand ↔
        if n % 2 = 0 then (n : ℚ) - 1 / 2 ≤ num / den / 2 ^ (f.minExponent + powers)
        else (n : ℚ) - 1 / 2 < num / den / 2 ^ (f.minExponent + powers)) ∧
      (num : ℚ) / den < 2 ^ (f.minExponent + powers + f.fractionBits + 1) ∧
      (0 < powers → (2 : ℚ) ^ (f.minExponent + powers + f.fractionBits) ≤ num / den) := by
  obtain ⟨hlow, hhigh⟩ := ratioLog2_spec hnum hden
  set k := ratioLog2 num den with hk
  have hpowers : f.minExponent + ((max (k - f.fractionBits) f.minExponent -
      f.minExponent).toNat : ℤ) = max (k - f.fractionBits) f.minExponent := by omega
  refine ⟨(max (k - f.fractionBits) f.minExponent - f.minExponent).toNat, _, rfl, ?_, ?_, ?_⟩
  · intro n
    rw [hpowers, le_nearestQuotient_iff (by positivity), cast_scaled]
  · rw [hpowers]
    exact hhigh.trans_le (zpow_le_zpow_right₀ one_le_two (by omega))
  · intro hpos
    rw [hpowers]
    exact (zpow_le_zpow_right₀ one_le_two (by omega)).trans hlow

/-- A positive quotient is not rounded to zero if it is more than half the smallest number. -/
theorem nearestMagnitude_pos_iff (hf : 0 < f.infinityBits) (hnum : 0 < num) (hden : 0 < den) :
    0 < nearestMagnitude f num den ↔ (2 : ℚ) ^ (f.minExponent - 1) < num / den := by
  obtain ⟨powers, significand, heq, hround, -, hfull⟩ := nearestMagnitude_eq f hnum hden
  rw [heq, lt_min_iff, and_iff_left hf]
  rcases Nat.eq_zero_or_pos powers with rfl | hpos
  · have hone := hround 1
    rw [if_neg (by decide), lt_div_iff₀ (by positivity)] at hone
    rw [Nat.zero_mul, Nat.zero_add, ← Nat.succ_le_iff, hone, zpow_sub_one₀ two_ne_zero]
    norm_num [mul_comm]
  · refine iff_of_true (by positivity) ((zpow_lt_zpow_right₀ one_lt_two ?_).trans_le (hfull hpos))
    omega

/-- A quotient that reaches a power of two is rounded to a number that does. -/
theorem le_nearestMagnitude {b : ℕ} (hb : 0 < b) (hnum : 0 < num) (hden : 0 < den)
    (h : (2 : ℚ) ^ (f.minExponent + b - 1 + f.fractionBits) ≤ num / den) :
    min (b * 2 ^ f.fractionBits) f.infinityBits ≤ nearestMagnitude f num den := by
  obtain ⟨powers, significand, heq, hround, hhigh, hfull⟩ := nearestMagnitude_eq f hnum hden
  have hpowers : b ≤ powers + 1 := by
    have hlt := (zpow_lt_zpow_iff_right₀ one_lt_two).1 (h.trans_lt hhigh)
    omega
  have hreached : (2 : ℚ) ^ (f.minExponent + powers + f.fractionBits) ≤ num / den := by
    rcases Nat.eq_zero_or_pos powers with rfl | hpos
    · have hone : b = 1 := by omega
      rw [hone] at h
      simpa using h
    · exact hfull hpos
  have hsignificand : 2 ^ f.fractionBits ≤ significand := by
    refine (hround _).2 ?_
    rw [zpow_add₀ two_ne_zero, zpow_natCast, mul_comm, ← le_div_iff₀ (by positivity)] at hreached
    split_ifs
    all_goals
      push_cast
      linarith
  rw [heq]
  refine min_le_min_right _ ?_
  calc b * 2 ^ f.fractionBits ≤ (powers + 1) * 2 ^ f.fractionBits := by gcongr
    _ = powers * 2 ^ f.fractionBits + 2 ^ f.fractionBits := by ring
    _ ≤ powers * 2 ^ f.fractionBits + significand := by gcongr

/-- A quotient that does not exceed a power of two is rounded to a number that does not. -/
theorem nearestMagnitude_le_of_le {b : ℕ} (hb : 0 < b) (hnum : 0 < num)
    (hden : 0 < den) (h : (num : ℚ) / den ≤ 2 ^ (f.minExponent + b - 1 + f.fractionBits)) :
    nearestMagnitude f num den ≤ b * 2 ^ f.fractionBits := by
  obtain ⟨powers, significand, heq, hround, hhigh, hfull⟩ := nearestMagnitude_eq f hnum hden
  have hpowers : powers + 1 ≤ b := by
    rcases Nat.eq_zero_or_pos powers with rfl | hpos
    · exact hb
    · have hle := (zpow_le_zpow_iff_right₀ one_lt_two).1 ((hfull hpos).trans h)
      omega
  have hbelow : ∀ {n : ℕ}, (num : ℚ) / den / 2 ^ (f.minExponent + powers) ≤ n →
      significand ≤ n := by
    intro n hn
    by_contra hlt
    have hover := (hround (n + 1)).1 (by omega)
    push_cast at hover
    split_ifs at hover <;> linarith
  rw [heq]
  refine (min_le_left _ _).trans ?_
  rcases hpowers.lt_or_eq with hless | rfl
  · have hsignificand : significand ≤ 2 ^ (f.fractionBits + 1) := by
      refine hbelow ?_
      rw [div_le_iff₀ (by positivity)]
      refine hhigh.le.trans_eq ?_
      rw [add_assoc, zpow_add₀ two_ne_zero, mul_comm]
      norm_cast
    calc powers * 2 ^ f.fractionBits + significand
        ≤ powers * 2 ^ f.fractionBits + 2 ^ (f.fractionBits + 1) := by gcongr
      _ = (powers + 2) * 2 ^ f.fractionBits := by ring
      _ ≤ b * 2 ^ f.fractionBits := by gcongr; omega
  · have hsignificand : significand ≤ 2 ^ f.fractionBits := by
      refine hbelow ?_
      rw [div_le_iff₀ (by positivity)]
      refine h.trans_eq ?_
      push_cast
      rw [← zpow_natCast, ← zpow_add₀ two_ne_zero]
      congr 1
      ring
    calc powers * 2 ^ f.fractionBits + significand
        ≤ powers * 2 ^ f.fractionBits + 2 ^ f.fractionBits := by gcongr
      _ = (powers + 1) * 2 ^ f.fractionBits := by ring

/-! ## Single precision -/

/-- The bits of the infinity of 32 bits. -/
theorem infinityBits_binary32 : FloatFormat.binary32.infinityBits = 255 * 2 ^ 23 := by decide

/-- The least exponent of a number of 32 bits. -/
theorem minExponent_binary32 : FloatFormat.binary32.minExponent = -149 := by decide

/-- The same in single precision: the significand has 24 places. -/
theorem nearestMagnitude_binary32 (hnum : 0 < num) (hden : 0 < den) :
    ∃ powers significand : ℕ,
      nearestMagnitude .binary32 num den = min (powers * 2 ^ 23 + significand) (255 * 2 ^ 23) ∧
      (∀ n, n ≤ significand ↔
        if n % 2 = 0 then ((n : ℚ) - 1 / 2) * 2 ^ ((powers : ℤ) - 149) ≤ num / den
        else ((n : ℚ) - 1 / 2) * 2 ^ ((powers : ℤ) - 149) < num / den) ∧
      significand ≤ 2 ^ 24 ∧ (num : ℚ) / den < 2 ^ ((powers : ℤ) - 125) ∧
      (0 < powers → 2 ^ 23 ≤ significand ∧ (2 : ℚ) ^ ((powers : ℤ) - 126) ≤ num / den) := by
  obtain ⟨powers, significand, heq, hround, hhigh, hfull⟩ :=
    nearestMagnitude_eq .binary32 hnum hden
  have hbits : ((FloatFormat.binary32.fractionBits : ℕ) : ℤ) = 23 := rfl
  have hunit : (-149 + powers : ℤ) = powers - 149 := by ring
  simp only [minExponent_binary32, hbits, hunit] at hround hhigh hfull
  have hpos : (0 : ℚ) < 2 ^ ((powers : ℤ) - 149) := by positivity
  have hscale : ∀ n : ℕ, (2 : ℚ) ^ ((powers : ℤ) - 149 + n) = 2 ^ n * 2 ^ ((powers : ℤ) - 149) := by
    intro n
    rw [zpow_add₀ two_ne_zero, zpow_natCast, mul_comm]
  have hhigh' : (num : ℚ) / den < 2 ^ 24 * 2 ^ ((powers : ℤ) - 149) := by
    rw [← hscale]
    exact hhigh.trans_eq (congrArg _ (by push_cast; ring))
  have hround' : ∀ n, n ≤ significand ↔
      if n % 2 = 0 then ((n : ℚ) - 1 / 2) * 2 ^ ((powers : ℤ) - 149) ≤ num / den
      else ((n : ℚ) - 1 / 2) * 2 ^ ((powers : ℤ) - 149) < num / den := by
    intro n
    rw [hround, le_div_iff₀ hpos, lt_div_iff₀ hpos]
  refine ⟨powers, significand, by rw [heq, infinityBits_binary32]; rfl, hround', ?_, ?_, ?_⟩
  -- A significand past the top would have come of a quotient past it.
  · by_contra hlt
    have hover := (hround' (2 ^ 24 + 1)).1 (by omega)
    rw [if_neg (by decide)] at hover
    push_cast at hover
    linarith
  · have hexponent : (powers : ℤ) - 125 = powers - 149 + (24 : ℕ) := by omega
    rwa [hexponent, hscale]
  · intro hpowers
    have hlow : (2 : ℚ) ^ 23 * 2 ^ ((powers : ℤ) - 149) ≤ num / den := by
      rw [← hscale]
      exact hfull hpowers
    have hexponent : (powers : ℤ) - 126 = powers - 149 + (23 : ℕ) := by omega
    refine ⟨(hround' (2 ^ 23)).2 ?_, by rwa [hexponent, hscale]⟩
    rw [if_pos (by decide)]
    push_cast
    linarith

/-- A quotient is not rounded to infinity if it is less than halfway from the greatest number to the
next power of two. -/
theorem nearestMagnitude_lt_iff (hnum : 0 < num) (hden : 0 < den) :
    nearestMagnitude .binary32 num den < 255 * 2 ^ 23 ↔ (num : ℚ) / den < 2 ^ 128 - 2 ^ 103 := by
  obtain ⟨powers, significand, heq, hround, hle, hhigh, hfull⟩ :=
    nearestMagnitude_binary32 hnum hden
  rw [heq, min_lt_iff, or_iff_left (lt_irrefl _)]
  rcases Nat.lt_trichotomy powers 253 with hless | rfl | hmore
  · -- The next power of two is finite as well.
    refine iff_of_true (by omega) (hhigh.trans_le ?_)
    calc (2 : ℚ) ^ ((powers : ℤ) - 125) ≤ 2 ^ (127 : ℤ) :=
          zpow_le_zpow_right₀ one_le_two (by omega)
      _ ≤ 2 ^ 128 - 2 ^ 103 := by norm_num
  · have hnext := hround (2 ^ 24)
    rw [if_pos (by decide)] at hnext
    rw [show 253 * 2 ^ 23 + significand < 255 * 2 ^ 23 ↔ ¬2 ^ 24 ≤ significand by omega, hnext,
      not_le]
    norm_num
  · obtain ⟨hsignificand, hlow⟩ := hfull (by omega)
    refine iff_of_false (by omega) (not_lt.2 (le_trans ?_ hlow))
    calc (2 : ℚ) ^ 128 - 2 ^ 103 ≤ 2 ^ (128 : ℤ) := by norm_num
      _ ≤ 2 ^ ((powers : ℤ) - 126) := zpow_le_zpow_right₀ one_le_two (by omega)

/-- A quotient that is at most one is rounded to a number that is. -/
theorem nearestMagnitude_le_one (hnum : 0 < num) (hden : 0 < den) (h : (num : ℚ) / den ≤ 1) :
    nearestMagnitude .binary32 num den ≤ 127 * 2 ^ 23 := by
  refine nearestMagnitude_le_of_le (f := .binary32) (b := 127) (by norm_num) hnum hden ?_
  rw [minExponent_binary32]
  exact h.trans_eq (zpow_zero 2).symm

end Floating

/-! ## Values -/

/-- The number that is meant, if it is finite. -/
def Datum.value? : Datum → Option ℚ
  | .finite negative m e => some ((if negative then -1 else 1) * (m * 2 ^ e))
  | _ => none

namespace Floating

variable {f g : FloatFormat} {x : Floating f} {q : ℚ} {num den : ℕ}

/-- The value of a finite number. -/
def value? (x : Floating f) : Option ℚ := x.datum.value?

/-- A number from zero to one. -/
def InUnit (x : Floating f) : Prop := ∃ q, x.value? = some q ∧ 0 ≤ q ∧ q ≤ 1

/-- A finite number above zero. -/
def IsSize (x : Floating f) : Prop := ∃ q, x.value? = some q ∧ 0 < q

/-- The bits of a number are its sign and its magnitude. -/
theorem toNat_ofMagnitude (f : FloatFormat) (negative : Bool) {m : ℕ}
    (hm : m < 2 ^ (f.width - 1)) :
    (ofMagnitude f negative m).bits.toNat = (if negative then 2 ^ (f.width - 1) else 0) + m := by
  have hwidth : 2 ^ f.width = 2 * 2 ^ (f.width - 1) := (pow_succ' 2 (f.width - 1))
  rw [ofMagnitude, BitVec.toNat_ofNat, Nat.mod_eq_of_lt]
  split <;> omega

/-- A number has the magnitude that it is made of. -/
theorem magnitude_ofMagnitude (negative : Bool) {m : ℕ} (hm : m < 2 ^ (f.width - 1)) :
    (ofMagnitude f negative m).magnitude = m := by
  rw [magnitude, toNat_ofMagnitude f negative hm]
  split
  · rw [Nat.add_mod_left, Nat.mod_eq_of_lt hm]
  · rw [Nat.zero_add, Nat.mod_eq_of_lt hm]

/-- A number has the sign that it is made of. -/
theorem negative_ofMagnitude (negative : Bool) {m : ℕ} (hm : m < 2 ^ (f.width - 1)) :
    (ofMagnitude f negative m).negative = negative := by
  rw [Floating.negative, toNat_ofMagnitude f negative hm]
  cases negative
  · simpa using hm
  · simp

/-- The bits of the infinity leave the one for the sign. -/
theorem infinityBits_lt (f : FloatFormat) : f.infinityBits < 2 ^ (f.width - 1) := by
  have hwidth : f.width - 1 = f.exponentBits + f.fractionBits := by
    rw [FloatFormat.width]
    omega
  rw [hwidth, FloatFormat.infinityBits, Nat.pow_add]
  gcongr
  exact Nat.sub_lt (Nat.two_pow_pos _) one_pos

/-- No ratio is rounded to more than the infinity. -/
theorem nearestMagnitude_le (f : FloatFormat) (num den : ℕ) :
    nearestMagnitude f num den ≤ f.infinityBits := min_le_right _ _

/-- The magnitude of a ratio is the nearest one. -/
theorem magnitude_ofRatio (negative : Bool) (hnum : 0 < num) :
    (ofRatio f negative num den).magnitude = nearestMagnitude f num den := by
  rw [ofRatio, if_neg hnum.ne',
    magnitude_ofMagnitude negative ((nearestMagnitude_le f num den).trans_lt (infinityBits_lt f))]

/-- Zero has the magnitude zero. -/
theorem magnitude_ofRatio_zero {negative : Bool} : (ofRatio f negative 0 den).magnitude = 0 := by
  rw [ofRatio, if_pos rfl, magnitude_ofMagnitude negative (Nat.two_pow_pos _)]

/-- A ratio has its sign. -/
theorem negative_ofRatio (negative : Bool) (num den : ℕ) :
    (ofRatio f negative num den).negative = negative := by
  rw [ofRatio]
  split
  · exact negative_ofMagnitude negative (Nat.two_pow_pos _)
  · exact negative_ofMagnitude negative
      ((nearestMagnitude_le f num den).trans_lt (infinityBits_lt f))

/-- The value that the bits of a finite number stand for, without its sign. -/
def magnitudeValue (f : FloatFormat) (m : ℕ) : ℚ :=
  if m / 2 ^ f.fractionBits = 0 then (m % 2 ^ f.fractionBits : ℕ) * 2 ^ f.minExponent
  else (2 ^ f.fractionBits + m % 2 ^ f.fractionBits : ℕ) *
    2 ^ (f.minExponent + (m / 2 ^ f.fractionBits : ℕ) - 1)

/-- What the bits of a finite number stand for. The significand has one place more than the
fraction. -/
theorem datum_eq_finite {negative : Bool} {m : ℕ} {e : ℤ} (h : x.datum = .finite negative m e) :
    x.negative = negative ∧ magnitudeValue f x.magnitude = m * 2 ^ e ∧
      m < 2 ^ (f.fractionBits + 1) := by
  have hfraction := Nat.mod_lt x.magnitude (Nat.two_pow_pos f.fractionBits)
  have hpow := Nat.pow_succ (n := 2) (m := f.fractionBits)
  unfold datum at h
  rw [magnitudeValue]
  dsimp only at h
  split_ifs at h ⊢
  all_goals
    cases h
    exact ⟨rfl, rfl, by omega⟩

/-- What is less than the infinity in magnitude is a finite number. -/
theorem exists_datum_eq (h : x.magnitude < f.infinityBits) :
    ∃ m e, x.datum = .finite x.negative m e := by
  rw [datum, if_neg (by omega), if_neg (by omega)]
  dsimp only
  split
  · exact ⟨_, _, rfl⟩
  · exact ⟨_, _, rfl⟩

/-- The value of a finite number is its sign and what its magnitude stands for. -/
theorem value?_of_lt (h : x.magnitude < f.infinityBits) :
    x.value? = some ((if x.negative then -1 else 1) * magnitudeValue f x.magnitude) := by
  obtain ⟨m, e, hdatum⟩ := exists_datum_eq h
  rw [value?, hdatum, (datum_eq_finite hdatum).2.1]
  rfl

/-- What is not finite has no value. -/
theorem value?_of_le (h : f.infinityBits ≤ x.magnitude) : x.value? = none := by
  rw [value?, datum]
  dsimp only
  split
  · rfl
  · rw [if_pos (by omega)]
    rfl

/-- The magnitude zero stands for zero. -/
theorem magnitudeValue_zero (f : FloatFormat) : magnitudeValue f 0 = 0 := by
  simp [magnitudeValue]

/-- Other magnitudes stand for more. -/
theorem magnitudeValue_pos {m : ℕ} (hm : 0 < m) : 0 < magnitudeValue f m := by
  rw [magnitudeValue]
  split
  · next hsmall =>
    have hrest := Nat.div_add_mod m (2 ^ f.fractionBits)
    rw [hsmall, Nat.mul_zero, Nat.zero_add] at hrest
    rw [hrest]
    positivity
  · positivity

/-- The bits of numbers that are at most one are at most those of one, which is a power of two. -/
theorem magnitudeValue_le_one {m : ℕ} (biased : ℕ)
    (hbiased : f.minExponent + biased - 1 + f.fractionBits = 0)
    (hm : m ≤ biased * 2 ^ f.fractionBits) : magnitudeValue f m ≤ 1 := by
  have hfraction := Nat.mod_lt m (Nat.two_pow_pos f.fractionBits)
  have hquotient : m / 2 ^ f.fractionBits ≤ biased :=
    Nat.div_le_of_le_mul (by rwa [Nat.mul_comm])
  have hone : ∀ {n k : ℕ} {e : ℤ}, n ≤ 2 ^ k → e + k ≤ 0 → (n : ℚ) * 2 ^ e ≤ 1 := by
    intro n k e hn he
    calc (n : ℚ) * 2 ^ e ≤ (2 ^ k : ℕ) * 2 ^ e := by gcongr
      _ = 2 ^ (e + k) := by
        rw [zpow_add₀ two_ne_zero, zpow_natCast, mul_comm]
        push_cast
        rfl
      _ ≤ 2 ^ (0 : ℤ) := zpow_le_zpow_right₀ one_le_two he
      _ = 1 := zpow_zero 2
  rw [magnitudeValue]
  split
  · rcases Nat.eq_zero_or_pos biased with hzero | hpos
    · rw [hzero, Nat.zero_mul, Nat.le_zero] at hm
      simp [hm]
    · exact hone hfraction.le (by omega)
  · rcases hquotient.lt_or_eq with hless | heq
    · have hless' : ((m / 2 ^ f.fractionBits : ℕ) : ℤ) + 1 ≤ biased := by exact_mod_cast hless
      refine hone (k := f.fractionBits + 1) (by rw [pow_succ]; omega) ?_
      rw [Nat.cast_succ]
      linarith
    · have hnone : m % 2 ^ f.fractionBits = 0 := by
        have hrest := Nat.div_add_mod m (2 ^ f.fractionBits)
        rw [heq, Nat.mul_comm] at hrest
        omega
      rw [hnone, heq]
      exact hone (k := f.fractionBits) le_rfl (by omega)

/-! ## From double to single precision -/

/-- A number above zero becomes the one nearest to the quotient that it is. -/
theorem exists_convert_eq (g : FloatFormat) (hx : x.value? = some q) (hq : 0 < q) :
    ∃ num den : ℕ, 0 < num ∧ 0 < den ∧ (num : ℚ) / den = q ∧
      x.convert g = ofMagnitude g false (nearestMagnitude g num den) := by
  rw [value?] at hx
  cases hdatum : x.datum with
  | nan | infinite => simp [hdatum, Datum.value?] at hx
  | finite negative m e =>
    rw [hdatum, Datum.value?, Option.some.injEq] at hx
    have hvalue : (0 : ℚ) ≤ m * 2 ^ e := by positivity
    have hnegative : negative = false := by
      cases negative with
      | false => rfl
      | true =>
        rw [if_pos rfl] at hx
        linarith
    subst hnegative
    have hm : 0 < m := by
      rcases Nat.eq_zero_or_pos m with rfl | hm
      · simp at hx
        linarith
      · exact hm
    refine ⟨m * 2 ^ e.toNat, 2 ^ (-e).toNat, by positivity, by positivity, ?_, ?_⟩
    · rw [← hx, two_zpow_eq]
      push_cast
      simp [mul_div_assoc]
    · rw [convert, hdatum]
      dsimp only
      rw [ofRatio, if_neg (by positivity)]

/-- Zero is converted to zero with its sign. -/
theorem convert_of_magnitude_eq_zero (g : FloatFormat) (hf : 0 < f.infinityBits)
    (hx : x.magnitude = 0) : x.convert g = ofMagnitude g x.negative 0 := by
  rw [convert, datum, hx, if_neg (by omega), if_neg (by omega)]
  simp [ofRatio]

/-- Zero and the numbers above it up to one stay between zero and one. -/
theorem inUnit_ofMagnitude {m : ℕ} (negative : Bool) (hm : m ≤ 127 * 2 ^ 23)
    (hzero : negative = true → m = 0) : (ofMagnitude .binary32 negative m).InUnit := by
  have hlt : m < 2 ^ (FloatFormat.binary32.width - 1) := hm.trans_lt (by decide)
  have hvalue := value?_of_lt (x := ofMagnitude .binary32 negative m)
    (by rw [magnitude_ofMagnitude negative hlt]; exact hm.trans_lt (by decide))
  rw [magnitude_ofMagnitude negative hlt, negative_ofMagnitude negative hlt] at hvalue
  refine ⟨_, hvalue, ?_⟩
  cases negative with
  | true => simp [hzero rfl, magnitudeValue_zero]
  | false =>
    have hone : magnitudeValue .binary32 m ≤ 1 :=
      magnitudeValue_le_one 127 (by decide) hm
    rcases Nat.eq_zero_or_pos m with rfl | hpos
    · simp [magnitudeValue_zero]
    · simpa using ⟨(magnitudeValue_pos hpos).le, hone⟩

/-- The bits of a double that is at most one are at most those of one. -/
theorem inUnit_convert {x : Double} (hnegative : x.negative = false)
    (hx : x.magnitude ≤ 1023 * 2 ^ 52) : (x.convert .binary32).InUnit := by
  rcases Nat.eq_zero_or_pos x.magnitude with hzero | hpos
  · rw [convert_of_magnitude_eq_zero _ (by decide) hzero]
    exact inUnit_ofMagnitude _ (Nat.zero_le _) fun _ => rfl
  · have hvalue := value?_of_lt (x := x) (hx.trans_lt (by decide))
    rw [hnegative, if_neg Bool.false_ne_true, one_mul] at hvalue
    have hone : magnitudeValue .binary64 x.magnitude ≤ 1 :=
      magnitudeValue_le_one 1023 (by decide) hx
    obtain ⟨num, den, hnum, hden, hquotient, heq⟩ :=
      exists_convert_eq .binary32 hvalue (magnitudeValue_pos hpos)
    rw [heq]
    exact inUnit_ofMagnitude _ (nearestMagnitude_le_one hnum hden (hquotient ▸ hone)) nofun

/-- What is no number is converted to no number. -/
theorem convert_of_isNaN (g : FloatFormat) (h : x.isNaN = true) : x.convert g = nan g := by
  have hdatum : x.datum = .nan := if_pos (of_decide_eq_true h)
  rw [convert, hdatum]

/-- Clamping makes no number of what is none. -/
theorem isNaN_convert_clampUnit {x : Double} (h : x.isNaN = true) :
    (x.clampUnit.convert .binary32).isNaN = true := by
  rw [clampUnit, if_pos h, convert_of_isNaN _ h]
  decide

/-- What is no number has no value. -/
theorem value?_nan : (nan .binary32).value? = none := value?_of_le (by decide)

/-- A number kept between zero and one is between zero and one in single precision. Only what is no
number is not. -/
theorem inUnit_convert_clampUnit_iff {x : Double} :
    (x.clampUnit.convert .binary32).InUnit ↔ x.isNaN = false := by
  rw [clampUnit]
  split
  · next hnan =>
    refine iff_of_false ?_ (by simp [hnan])
    rintro ⟨q, hq, -⟩
    rw [convert_of_isNaN _ hnan, value?_nan] at hq
    cases hq
  · next hnumber =>
    refine iff_of_true ?_ (by simpa using hnumber)
    have hone : (ofInt .binary64 1).magnitude = 1023 * 2 ^ 52 := by decide
    split
    · split
      · next hzero =>
        rw [convert_of_magnitude_eq_zero _ (by decide) hzero]
        exact inUnit_ofMagnitude _ (Nat.zero_le _) fun _ => rfl
      · exact inUnit_convert (by decide) (by decide)
    · next hnegative =>
      dsimp only
      split
      · exact inUnit_convert (by decide) hone.le
      · next hle =>
        exact inUnit_convert (by simpa using hnegative) (hone ▸ Nat.le_of_not_lt hle)

/-- A double above zero that is not so small that it is rounded to zero, nor so great that it is
rounded to infinity. -/
def Narrows (x : Double) : Prop :=
  ∃ q, x.value? = some q ∧ 2 ^ (-150 : ℤ) < q ∧ q < 2 ^ 128 - 2 ^ 103

/-- A size is any positive finite number. -/
theorem isSize_ofMagnitude_iff {m : ℕ} (hm : m ≤ 255 * 2 ^ 23) :
    (ofMagnitude .binary32 false m).IsSize ↔ 0 < m ∧ m < 255 * 2 ^ 23 := by
  have hlt : m < 2 ^ (FloatFormat.binary32.width - 1) := hm.trans_lt (by decide)
  have hmagnitude := magnitude_ofMagnitude (f := .binary32) false hlt
  rcases hm.lt_or_eq with hfinite | rfl
  · rw [and_iff_left hfinite, IsSize, value?_of_lt (by rwa [hmagnitude, infinityBits_binary32]),
      hmagnitude, negative_ofMagnitude false hlt]
    constructor
    · rintro ⟨q, hq, hpos⟩
      rcases Nat.eq_zero_or_pos m with rfl | hm
      · rw [magnitudeValue_zero] at hq
        simp at hq
        linarith
      · exact hm
    · intro hpos
      exact ⟨_, rfl, by simpa using magnitudeValue_pos hpos⟩
  · refine iff_of_false ?_ (by simp)
    rintro ⟨q, hq, -⟩
    rw [value?_of_le (by decide)] at hq
    cases hq

/-- What is converted to a size is a number. -/
theorem isNaN_of_isSize_convert {x : Double} (h : (x.convert .binary32).IsSize) :
    x.isNaN = false := by
  obtain ⟨q, hq, -⟩ := h
  rw [Bool.eq_false_iff]
  intro hnan
  rw [convert_of_isNaN _ hnan, value?_nan] at hq
  cases hq

/-- A number above zero becomes one, zero or infinity. -/
theorem exists_convert_eq_of_isPositive {x : Double} (hx : x.isPositive = true) :
    ∃ m ≤ 255 * 2 ^ 23, x.convert .binary32 = ofMagnitude .binary32 false m ∧
      (0 < m ∧ m < 255 * 2 ^ 23 ↔ x.Narrows) := by
  obtain ⟨⟨hnan, hnegative⟩, hpos⟩ : (x.isNaN = false ∧ x.negative = false) ∧ 0 < x.magnitude := by
    simpa [isPositive] using hx
  rcases Nat.lt_or_ge x.magnitude FloatFormat.binary64.infinityBits with hfinite | hinfinite
  · have hvalue := value?_of_lt hfinite
    rw [hnegative, if_neg Bool.false_ne_true, one_mul] at hvalue
    obtain ⟨num, den, hnum, hden, hquotient, heq⟩ :=
      exists_convert_eq .binary32 hvalue (magnitudeValue_pos hpos)
    refine ⟨_, nearestMagnitude_le .binary32 num den, heq, ?_⟩
    rw [nearestMagnitude_pos_iff (by decide) hnum hden, nearestMagnitude_lt_iff hnum hden, Narrows,
      hvalue, hquotient, minExponent_binary32]
    simp
  · have heq : x.magnitude = FloatFormat.binary64.infinityBits :=
      le_antisymm (by simpa [isNaN] using hnan) hinfinite
    have hdatum : x.datum = .infinite false := by
      rw [datum, if_neg heq.not_gt, if_pos heq, hnegative]
    refine ⟨_, le_rfl, by rw [convert, hdatum]; rfl, iff_of_false (by simp) ?_⟩
    rintro ⟨q, hq, -⟩
    rw [value?_of_le hinfinite] at hq
    cases hq

/-- It stays a finite number above zero exactly if it is neither too small nor too great. -/
theorem isSize_convert_iff {x : Double} (hx : x.isPositive = true) :
    (x.convert .binary32).IsSize ↔ x.Narrows := by
  obtain ⟨m, hm, heq, hiff⟩ := exists_convert_eq_of_isPositive hx
  rw [heq, isSize_ofMagnitude_iff hm, hiff]

end Floating

end LayoutEngine
