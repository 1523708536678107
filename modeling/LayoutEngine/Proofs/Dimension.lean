import LayoutEngine.Proofs.Numeral
import LayoutEngine.Proofs.Trim
import LayoutEngine.Widget.Dimension

/-!
# What texts stand for dimensions

A number of pixels is a numeral, alone or with white space, if any, and a unit behind it
(`Dimension.Measures`). Both are read alike, with the numbers that 32 bits hold, although the
numeral alone goes through the integers of 64 bits (`Dimension.ofValue?_string`). Together with the
keywords these are all the texts that stand for a dimension (`Dimension.ofValue?_grammar`).
-/

namespace LayoutEngine

open Text

namespace Numeral

variable {cs : List Char} {n : Int}

/-- The integers of 32 bits. -/
theorem fitsSigned_32_iff : fitsSigned 32 n = true ↔ -2147483648 ≤ n ∧ n < 2147483648 := by
  simp only [fitsSigned, Bool.and_eq_true, decide_eq_true_eq]
  exact Iff.rfl

end Numeral

namespace Dimension

/-- The units that may follow a number of pixels. All of them mean the same. -/
def units : List (List Char) := [['p', 'x'], ['d', 'p'], ['s', 'p']]

/-- A text that gives a number of pixels, of whatever size: a numeral, or a numeral with a unit
behind it, perhaps after white space. -/
inductive Measures : List Char → Int → Prop
  | bare {cs : List Char} {n : Int} (spells : Numeral.Spells cs n) : Measures cs n
  | withUnit {cs space unit : List Char} {n : Int} (spells : Numeral.Spells cs n)
    (blank : ∀ c ∈ space, isBlank c = true) (known : unit ∈ units) :
    Measures (cs ++ space ++ unit) n

variable {front text unit : List Char} {n : Int}

/-! ## Units -/

/-- A unit at the end is dropped. -/
theorem dropUnit_append (h : unit ∈ units) (front : List Char) :
    dropUnit (front ++ unit) = front := by
  have hown : before? unit (front ++ unit) = some front := before?_eq_some_iff.2 rfl
  have hother : ∀ other ∈ units, other ≠ unit → before? other (front ++ unit) = none := by
    intro other hmem hne
    rw [Option.eq_none_iff_forall_ne_some]
    intro rest hrest
    refine hne (List.append_inj_right' (before?_eq_some_iff.1 hrest).symm ?_)
    have hlength : ∀ unit ∈ units, unit.length = 2 := by decide
    rw [hlength other hmem, hlength unit h]
  simp only [units, List.mem_cons, List.not_mem_nil, or_false] at h
  unfold dropUnit
  rcases h with rfl | rfl | rfl
  · rw [hown]
    rfl
  · rw [hother ['p', 'x'] (by decide) (by decide), hown]
    rfl
  · rw [hother ['p', 'x'] (by decide) (by decide), hother ['d', 'p'] (by decide) (by decide), hown]
    rfl

/-- A unit at the end is dropped and nothing else. -/
theorem dropUnit_eq_self_or (text : List Char) :
    dropUnit text = text ∨ ∃ unit ∈ units, text = dropUnit text ++ unit := by
  unfold dropUnit
  cases hpx : before? ['p', 'x'] text with
  | some front => exact .inr ⟨_, by decide, before?_eq_some_iff.1 hpx⟩
  | none =>
    cases hdp : before? ['d', 'p'] text with
    | some front => exact .inr ⟨_, by decide, before?_eq_some_iff.1 hdp⟩
    | none =>
      cases hsp : before? ['s', 'p'] text with
      | some front => exact .inr ⟨_, by decide, before?_eq_some_iff.1 hsp⟩
      | none => exact .inl rfl

/-- Every unit has a `p`. -/
theorem mem_of_mem_units (h : unit ∈ units) : 'p' ∈ unit := by
  revert unit
  decide

/-- A numeral does not end in a unit. -/
theorem dropUnit_of_spells (h : Numeral.Spells text n) : dropUnit text = text := by
  rcases dropUnit_eq_self_or text with hself | ⟨unit, hunit, htext⟩
  · exact hself
  · have hmem : 'p' ∈ text := htext ▸ List.mem_append_right _ (mem_of_mem_units hunit)
    exact absurd (h.isDigit_or hmem) (by decide)

/-! ## Texts -/

namespace Measures

/-- All keywords have a line in them, and no number of pixels has. -/
theorem not_mem (h : Measures text n) : '_' ∉ text := by
  have hspells : ∀ {cs}, Numeral.Spells cs n → '_' ∉ cs := fun h hmem =>
    absurd (h.isDigit_or hmem) (by decide)
  cases h with
  | bare spells => exact hspells spells
  | @withUnit cs space unit _ spells blank known =>
    have hunits : ∀ unit ∈ units, '_' ∉ unit := by decide
    simp only [List.mem_append, not_or]
    exact ⟨⟨hspells spells, fun hmem => absurd (blank _ hmem) (by decide)⟩, hunits unit known⟩

/-- What is left without the unit is the numeral. -/
theorem spells_dropUnit (h : Measures text n) : Numeral.Spells (trim (dropUnit text)) n := by
  cases h with
  | bare spells =>
    rw [dropUnit_of_spells spells, spells.trim_eq]
    exact spells
  | withUnit spells blank known =>
    rw [dropUnit_append known, trim_append_blank blank, spells.trim_eq]
    exact spells

end Measures

/-- A text is a number of pixels if what is left without the unit is a numeral. -/
theorem measures_of_spells (htrim : trim text = text)
    (h : Numeral.Spells (trim (dropUnit text)) n) : Measures text n := by
  rcases dropUnit_eq_self_or text with hself | ⟨unit, hunit, htext⟩
  · rw [hself, htrim] at h
    exact .bare h
  · obtain ⟨before, after, hcut, hbefore, hafter⟩ := exists_eq_trim (dropUnit text)
    -- White space before the numeral would be white space in front of the whole text.
    have hnil : before = [] := by
      rcases before with _ | ⟨c, rest⟩
      · rfl
      · rw [htext, hcut] at htrim
        have hblank := (trim_eq_self_iff.1 htrim).1 c rfl
        rw [hbefore c List.mem_cons_self] at hblank
        cases hblank
    rw [hnil, List.nil_append] at hcut
    rw [htext, hcut]
    exact .withUnit h hafter hunit

/-- A text without blanks around it measures what is spelled once its unit is dropped. -/
theorem measures_iff (htrim : trim text = text) :
    Measures text n ↔ Numeral.Spells (trim (dropUnit text)) n :=
  ⟨Measures.spells_dropUnit, measures_of_spells htrim⟩

/-! ## Reading -/

/-- The two keywords for the size of the parent. -/
theorem ofText?_eq_matchParent_iff : ofText? text = some .matchParent ↔
    String.ofList text = "match_parent" ∨ String.ofList text = "fill_parent" := by
  unfold ofText?
  dsimp only
  split
  · next h => exact iff_of_true rfl h
  · next h =>
    refine iff_of_false ?_ h
    split <;> simp

/-- The keyword for the size of the content. -/
theorem ofText?_eq_wrapContent_iff :
    ofText? text = some .wrapContent ↔ String.ofList text = "wrap_content" := by
  unfold ofText?
  dsimp only
  split
  · next h =>
    refine iff_of_false nofun fun hwrap => ?_
    rw [hwrap] at h
    revert h
    decide
  · split
    · next h => exact iff_of_true rfl h
    · next h => exact iff_of_false (by simp) h

/-- A text that is no keyword is read as a number. -/
theorem ofText?_of_not_mem (h : '_' ∉ text) :
    ofText? text = (Numeral.signed? 32 (trim (dropUnit text))).map .pixels := by
  have hword : ∀ word : String, '_' ∈ word.toList → String.ofList text ≠ word := by
    rintro _ hmem rfl
    rw [String.toList_ofList] at hmem
    exact h hmem
  unfold ofText?
  dsimp only
  rw [if_neg (not_or.2 ⟨hword _ (by decide), hword _ (by decide)⟩), if_neg (hword _ (by decide))]

/-- A text that measures something is a length if it fits. -/
theorem ofText?_of_measures (h : Measures text n) :
    ofText? text = if Numeral.fitsSigned 32 n then some (.pixels n) else none := by
  rw [ofText?_of_not_mem h.not_mem, Numeral.signed?,
    Numeral.integer?_eq_some_iff.2 h.spells_dropUnit, Option.filter_some]
  split <;> rfl

/-- A text is a length just if it measures it and it fits. -/
theorem ofText?_eq_pixels_iff (htrim : trim text = text) :
    ofText? text = some (.pixels n) ↔ Measures text n ∧ Numeral.fitsSigned 32 n = true := by
  constructor
  · intro h
    have hsigned : (Numeral.signed? 32 (trim (dropUnit text))).map Dimension.pixels =
        some (.pixels n) := by
      revert h
      unfold ofText?
      dsimp only
      split
      · exact nofun
      · split
        · exact nofun
        · exact id
    obtain ⟨m, hm, hmn⟩ := Option.map_eq_some_iff.1 hsigned
    cases hmn
    rwa [Numeral.signed?_eq_some_iff, ← measures_iff htrim] at hm
  · rintro ⟨h, hfits⟩
    rw [ofText?_of_measures h, if_pos hfits]

/-- The way of a string through the integers of 64 bits gives what its text gives. -/
theorem ofValue?_string (s : String) : ofValue? (.string s) = ofText? (trim s.toList) := by
  have hint : (Value.string s).int? = Numeral.signed? 64 (trim s.toList) := rfl
  rw [ofValue?, hint]
  cases h : Numeral.signed? 64 (trim s.toList) with
  | none => rfl
  | some n => exact (ofText?_of_measures (.bare (Numeral.signed?_eq_some_iff.1 h).1)).symm

/-- An integer is a length if it fits. -/
theorem ofValue?_int (n : Int) :
    ofValue? (.int n) = if -2147483648 ≤ n ∧ n < 2147483648 then some (.pixels n) else none :=
  if_congr Numeral.fitsSigned_32_iff rfl rfl

/-- A text value is a length just if it measures it, blanks around it aside, and it fits. -/
theorem ofValue?_eq_pixels_iff {s : String} : ofValue? (.string s) = some (.pixels n) ↔
    Measures (trim s.toList) n ∧ -2147483648 ≤ n ∧ n < 2147483648 := by
  rw [ofValue?_string, ofText?_eq_pixels_iff (trim_trim _), Numeral.fitsSigned_32_iff]

/-- The dimensions that strings stand for, white space at their ends apart: the keywords stand for
theirs, and a numeral, alone or with a unit, for as many pixels, if 32 bits hold the number.
Nothing else stands for a dimension. An integer is the number of pixels that any of its numerals
is. -/
theorem ofValue?_grammar :
    (∀ (s : String) (n : Int), ofValue? (.string s) = some (.pixels n) ↔
      Measures (trim s.toList) n ∧ -2147483648 ≤ n ∧ n < 2147483648) ∧
    (∀ s : String, ofValue? (.string s) = some .matchParent ↔
      trimmed s = "match_parent" ∨ trimmed s = "fill_parent") ∧
    (∀ s : String, ofValue? (.string s) = some .wrapContent ↔ trimmed s = "wrap_content") ∧
    (∀ s : String, ofValue? (.string s) = none ↔
      trimmed s ∉ ["match_parent", "fill_parent", "wrap_content"] ∧
        ∀ n, Measures (trim s.toList) n → n < -2147483648 ∨ 2147483648 ≤ n) ∧
    (∀ n : Int, ofValue? (.int n) =
      if -2147483648 ≤ n ∧ n < 2147483648 then some (.pixels n) else none) ∧
    ∀ (s : String) (n : Int), Measures (trim s.toList) n →
      ofValue? (.string s) = ofValue? (.int n) := by
  have hmatch (s : String) : ofValue? (.string s) = some .matchParent ↔
      trimmed s = "match_parent" ∨ trimmed s = "fill_parent" := by
    rw [ofValue?_string, ofText?_eq_matchParent_iff, trimmed]
  have hwrap (s : String) :
      ofValue? (.string s) = some .wrapContent ↔ trimmed s = "wrap_content" := by
    rw [ofValue?_string, ofText?_eq_wrapContent_iff, trimmed]
  refine ⟨fun s n => ofValue?_eq_pixels_iff, hmatch, hwrap, fun s => ?_, ofValue?_int,
    fun s n h => ?_⟩
  · simp only [List.mem_cons, List.not_mem_nil, or_false, not_or, Option.eq_none_iff_forall_ne_some]
    constructor
    · intro hnone
      refine ⟨⟨?_, ?_, ?_⟩, fun n h => ?_⟩
      · exact fun hword => hnone _ ((hmatch s).2 (.inl hword))
      · exact fun hword => hnone _ ((hmatch s).2 (.inr hword))
      · exact fun hword => hnone _ ((hwrap s).2 hword)
      · have hrange : ¬(-2147483648 ≤ n ∧ n < 2147483648) := fun hrange =>
          hnone _ (ofValue?_eq_pixels_iff.2 ⟨h, hrange⟩)
        omega
    · rintro ⟨⟨hmatchWord, hfillWord, hwrapWord⟩, hrange⟩ (_ | _ | n) hsome
      · exact ((hmatch s).1 hsome).elim hmatchWord hfillWord
      · exact hwrapWord ((hwrap s).1 hsome)
      · obtain ⟨h, hlow, hhigh⟩ := ofValue?_eq_pixels_iff.1 hsome
        have := hrange n h
        omega
  · rw [ofValue?_string, ofText?_of_measures h, ofValue?_int]
    exact if_congr Numeral.fitsSigned_32_iff rfl rfl

example : ofValue? (.string " -007 px") = ofValue? (.int (-7)) := by decide +kernel

end Dimension

end LayoutEngine
