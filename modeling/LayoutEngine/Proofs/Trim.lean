import LayoutEngine.Text.Blank
import Mathlib.Data.List.DropRight
import Mathlib.Data.List.TakeWhile

/-!
# Trimmed text

White space at the ends of a text does not survive trimming, and nothing else is lost: what is
trimmed off a text is blank (`exists_eq_trim`), more white space at an end changes nothing
(`trim_blank_append`, `trim_append_blank`), and a text that has no white space at its ends stays
(`trim_eq_self_iff`). Between two parts that are not blank everything is kept
(`trim_append_of_not_blank`).
-/

namespace LayoutEngine.Text

/-- A text of white space only. -/
def Blank (s : String) : Prop := ∀ c ∈ s.toList, isBlank c = true

instance (s : String) : Decidable (Blank s) := inferInstanceAs (Decidable (∀ c ∈ s.toList, _))

variable {cs front back space : List Char}

/-- Only blanks are trimmed away as a whole from the start. -/
theorem trimStart_eq_nil_iff : trimStart cs = [] ↔ ∀ c ∈ cs, isBlank c = true :=
  List.dropWhile_eq_nil_iff

/-- Only blanks are trimmed away as a whole from the end. -/
theorem trimEnd_eq_nil_iff : trimEnd cs = [] ↔ ∀ c ∈ cs, isBlank c = true := by
  simp [trimEnd, List.dropWhile_eq_nil_iff]

/-- Trimming leaves nothing of a text exactly if it is blank. -/
theorem trim_eq_nil_iff : trim cs = [] ↔ ∀ c ∈ cs, isBlank c = true := by
  rw [trim, trimEnd_eq_nil_iff]
  constructor
  · intro h
    rw [← trimStart_eq_nil_iff]
    by_contra hne
    -- What trimming in front leaves starts with no white space.
    have hhead : isBlank ((trimStart cs).head hne) = false := List.head_dropWhile_not isBlank hne
    rw [h _ (List.head_mem hne)] at hhead
    cases hhead
  · intro h c hc
    rw [trimStart_eq_nil_iff.2 h] at hc
    cases hc

/-- Only blank texts are trimmed to nothing. -/
theorem trimmed_eq_empty_iff {s : String} : trimmed s = "" ↔ Blank s := by
  rw [← String.toList_inj, toList_trimmed, String.toList_empty, trim_eq_nil_iff, Blank]

/-! ## White space at the ends -/

/-- Trimming the start does not reach beyond what is not blank. -/
theorem trimStart_append_of_not_blank (h : ¬∀ c ∈ front, isBlank c = true) (back : List Char) :
    trimStart (front ++ back) = trimStart front ++ back := by
  rw [← trimStart_eq_nil_iff, trimStart, ← List.isEmpty_iff] at h
  rw [trimStart, List.dropWhile_append, if_neg h, trimStart]

/-- Trimming the end does not reach beyond what is not blank. -/
theorem trimEnd_append_of_not_blank (h : ¬∀ c ∈ back, isBlank c = true) (front : List Char) :
    trimEnd (front ++ back) = front ++ trimEnd back := by
  have hreverse : ¬∀ c ∈ back.reverse, isBlank c = true := by simpa using h
  have hstart := trimStart_append_of_not_blank hreverse front.reverse
  simp only [trimStart] at hstart
  simp [trimEnd, hstart]

/-- Between two parts that are not blank nothing is trimmed. -/
theorem trim_append_of_not_blank (hfront : ¬∀ c ∈ front, isBlank c = true)
    (hback : ¬∀ c ∈ back, isBlank c = true) :
    trim (front ++ back) = trimStart front ++ trimEnd back := by
  rw [trim, trimStart_append_of_not_blank hfront, trimEnd_append_of_not_blank hback]

/-- Blanks in front are trimmed away. -/
theorem trim_blank_append (h : ∀ c ∈ space, isBlank c = true) (cs : List Char) :
    trim (space ++ cs) = trim cs := by
  rw [trim, trim, trimStart, List.dropWhile_append_of_pos h, trimStart]

/-- Blanks at the end are trimmed away from there. -/
theorem trimEnd_append_blank (h : ∀ c ∈ space, isBlank c = true) (cs : List Char) :
    trimEnd (cs ++ space) = trimEnd cs := by
  rw [trimEnd, List.reverse_append, List.dropWhile_append_of_pos (by simpa using h), trimEnd]

/-- Blanks at the end are trimmed away. -/
theorem trim_append_blank (h : ∀ c ∈ space, isBlank c = true) (cs : List Char) :
    trim (cs ++ space) = trim cs := by
  by_cases hcs : ∀ c ∈ cs, isBlank c = true
  · rw [trim_blank_append hcs, trim_eq_nil_iff.2 h, trim_eq_nil_iff.2 hcs]
  · rw [trim, trimStart_append_of_not_blank hcs, trimEnd_append_blank h, trim]

/-- What trimming takes off is blank. -/
theorem exists_eq_trim (cs : List Char) : ∃ before after, cs = before ++ trim cs ++ after ∧
    (∀ c ∈ before, isBlank c = true) ∧ ∀ c ∈ after, isBlank c = true := by
  refine ⟨cs.takeWhile isBlank, ((trimStart cs).reverse.takeWhile isBlank).reverse, ?_, ?_, ?_⟩
  · have hend : trim cs ++ ((trimStart cs).reverse.takeWhile isBlank).reverse = trimStart cs := by
      rw [trim, trimEnd, ← List.reverse_append, List.takeWhile_append_dropWhile,
        List.reverse_reverse]
    rw [List.append_assoc, hend, trimStart, List.takeWhile_append_dropWhile]
  · exact fun c => List.mem_takeWhile_imp
  · exact fun c hc => List.mem_takeWhile_imp (List.mem_reverse.1 hc)

/-- Trimming twice is trimming once. -/
theorem trim_trim (cs : List Char) : trim (trim cs) = trim cs := by
  obtain ⟨before, after, hcs, hbefore, hafter⟩ := exists_eq_trim cs
  conv_rhs => rw [hcs]
  rw [trim_append_blank hafter, trim_blank_append hbefore]

/-- A text without blanks in front stays at its start. -/
theorem trimStart_eq_self_iff : trimStart cs = cs ↔ ∀ c ∈ cs.head?, isBlank c = false := by
  cases cs with
  | nil => simp [trimStart]
  | cons c cs =>
    simp only [trimStart, List.dropWhile_eq_self_iff, List.head?_cons, Option.mem_some_iff,
      forall_eq']
    simp

/-- A text without blanks at the end stays there. -/
theorem trimEnd_eq_self_iff : trimEnd cs = cs ↔ ∀ c ∈ cs.getLast?, isBlank c = false := by
  have hstart : trimStart cs.reverse = cs.reverse ↔ _ := trimStart_eq_self_iff
  rw [List.head?_reverse] at hstart
  rw [← hstart, trimEnd, trimStart, List.reverse_eq_iff]

/-- A text stays as it is if neither its first nor its last character is white space. -/
theorem trim_eq_self_iff :
    trim cs = cs ↔ (∀ c ∈ cs.head?, isBlank c = false) ∧ ∀ c ∈ cs.getLast?, isBlank c = false := by
  rw [← trimStart_eq_self_iff, ← trimEnd_eq_self_iff]
  constructor
  · intro h
    -- Nothing is left of `cs` but what trimming in front leaves, and that is a part of `cs`.
    have hlength : cs.length ≤ (trimStart cs).length := by
      conv_lhs => rw [← h]
      exact (List.rdropWhile_prefix isBlank (trimStart cs)).length_le
    have hstart : trimStart cs = cs := (List.dropWhile_suffix isBlank).eq_of_length_le hlength
    rw [trim, hstart] at h
    exact ⟨hstart, h⟩
  · rintro ⟨hstart, hend⟩
    rw [trim, hstart, hend]

end LayoutEngine.Text
