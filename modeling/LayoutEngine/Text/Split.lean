/-!
# Cutting text

`pieces` cuts a text at every occurrence of a character, `cutAt?` at the first occurrence of a
word, `after?` and `before?` take a word off the front or the back. All of them work on characters
and keep what they do not name: the pieces, joined by the separator, are the text again.
-/

namespace LayoutEngine.Text

/-- What follows `lead`, if the text starts with it. -/
def after? : List Char → List Char → Option (List Char)
  | [], cs => some cs
  | p :: ps, c :: cs => if p = c then after? ps cs else none
  | _ :: _, [] => none

/-- What comes before `tail`, if the text ends with it. -/
def before? (tail cs : List Char) : Option (List Char) :=
  (after? tail.reverse cs.reverse).map List.reverse

/-- The text before and after the first occurrence of `word`. -/
def cutAt? (word : List Char) : List Char → Option (List Char × List Char)
  | [] => (after? word []).map ([], ·)
  | c :: cs =>
    match after? word (c :: cs) with
    | some rest => some ([], rest)
    | none => (cutAt? word cs).map fun (front, rest) => (c :: front, rest)

/-- The pieces between the occurrences of `sep`: one more than it occurs, empty ones kept. -/
def pieces (sep : Char) : List Char → List (List Char)
  | [] => [[]]
  | c :: cs =>
    if c = sep then [] :: pieces sep cs
    else
      match pieces sep cs with
      | [] => [[c]]
      | piece :: rest => (c :: piece) :: rest

/-- Behind a lead comes the rest. -/
theorem after?_append (lead cs : List Char) : after? lead (lead ++ cs) = some cs := by
  induction lead with
  | nil => simp [after?]
  | cons p ps ih => simp [after?, ih]

/-- A rest is what comes behind the lead. -/
theorem after?_eq_some_iff {lead cs rest : List Char} :
    after? lead cs = some rest ↔ cs = lead ++ rest := by
  constructor
  · induction lead generalizing cs with
    | nil => simp [after?]
    | cons p ps ih =>
      cases cs with
      | nil => simp [after?]
      | cons c cs =>
        by_cases h : p = c
        · simpa [after?, h] using @ih cs
        · simp [after?, h]
  · rintro rfl
    exact after?_append lead rest

/-- A front is what comes before the tail. -/
theorem before?_eq_some_iff {tail cs front : List Char} :
    before? tail cs = some front ↔ cs = front ++ tail := by
  rw [before?, Option.map_eq_some_iff]
  simp only [after?_eq_some_iff]
  constructor
  · rintro ⟨rest, hcs, rfl⟩
    rw [← List.reverse_reverse cs, hcs, List.reverse_append, List.reverse_reverse]
  · rintro rfl
    exact ⟨front.reverse, List.reverse_append, List.reverse_reverse front⟩

/-- `word` occurs in a text after `front` and before `back`, and nowhere earlier. -/
def IsFirstCut (word cs front back : List Char) : Prop :=
  cs = front ++ word ++ back ∧
    ∀ front' back', cs = front' ++ word ++ back' → front.length ≤ front'.length

/-- A text has one first cut. -/
theorem IsFirstCut.unique {word cs front back front' back' : List Char}
    (h : IsFirstCut word cs front back) (h' : IsFirstCut word cs front' back') :
    front = front' ∧ back = back' := by
  have hlength : front.length = front'.length :=
    Nat.le_antisymm (h.2 _ _ h'.1) (h'.2 _ _ h.1)
  have heq := h.1.symm.trans h'.1
  rw [List.append_assoc, List.append_assoc] at heq
  obtain ⟨hfront, hrest⟩ := List.append_inj heq hlength
  exact ⟨hfront, List.append_cancel_left hrest⟩

/-- What is cut is cut at the first place. -/
theorem isFirstCut_of_cutAt? {word cs front back : List Char}
    (h : cutAt? word cs = some (front, back)) : IsFirstCut word cs front back := by
  induction cs generalizing front with
  | nil =>
    obtain ⟨rest, hrest, heq⟩ := Option.map_eq_some_iff.1 h
    cases heq
    exact ⟨after?_eq_some_iff.1 hrest, fun _ _ _ => Nat.zero_le _⟩
  | cons c cs ih =>
    rw [cutAt?] at h
    split at h
    · next rest hrest =>
      cases h
      exact ⟨after?_eq_some_iff.1 hrest, fun _ _ _ => Nat.zero_le _⟩
    · next hnone =>
      obtain ⟨⟨front, rest⟩, hcut, heq⟩ := Option.map_eq_some_iff.1 h
      cases heq
      obtain ⟨hcs, hfirst⟩ := ih hcut
      refine ⟨by rw [hcs]; rfl, fun front' back' heq => ?_⟩
      cases front' with
      | nil =>
        rw [List.nil_append] at heq
        rw [after?_eq_some_iff.2 heq] at hnone
        cases hnone
      | cons c' front' =>
        exact Nat.succ_le_succ (hfirst front' back' (List.cons.inj heq).2)

/-- Where the word occurs, there is a cut. -/
theorem exists_cutAt? (word front back : List Char) :
    ∃ cut, cutAt? word (front ++ word ++ back) = some cut := by
  induction front with
  | nil =>
    have hafter := after?_append word back
    rw [List.nil_append]
    cases hcs : word ++ back with
    | nil => exact ⟨_, by rw [cutAt?, ← hcs, hafter]; rfl⟩
    | cons c cs => exact ⟨_, by rw [cutAt?, ← hcs, hafter]⟩
  | cons c front ih =>
    obtain ⟨cut, hcut⟩ := ih
    rw [List.cons_append, List.cons_append, cutAt?, hcut]
    split <;> exact ⟨_, rfl⟩

/-- Texts are cut at the first place, and nowhere else. -/
theorem cutAt?_eq_some_iff {word cs front back : List Char} :
    cutAt? word cs = some (front, back) ↔ IsFirstCut word cs front back := by
  refine ⟨isFirstCut_of_cutAt?, fun h => ?_⟩
  obtain ⟨⟨front', back'⟩, hcut⟩ := exists_cutAt? word front back
  rw [← h.1] at hcut
  obtain ⟨rfl, rfl⟩ := h.unique (isFirstCut_of_cutAt? hcut)
  exact hcut

/-- A text without the word is not cut. -/
theorem cutAt?_eq_none_iff {word cs : List Char} : cutAt? word cs = none ↔ ¬ word <:+: cs := by
  constructor
  · rintro h ⟨front, back, rfl⟩
    obtain ⟨cut, hcut⟩ := exists_cutAt? word front back
    rw [h] at hcut
    cases hcut
  · intro h
    rw [Option.eq_none_iff_forall_ne_some]
    rintro ⟨front, back⟩ hcut
    exact h ⟨front, back, (isFirstCut_of_cutAt? hcut).1.symm⟩

/-- A text has a piece, if an empty one. -/
theorem pieces_ne_nil (sep : Char) (cs : List Char) : pieces sep cs ≠ [] := by
  induction cs with
  | nil => simp [pieces]
  | cons c cs ih =>
    rw [pieces]
    split
    · simp
    · split <;> simp

/-- The separator is in none of the pieces. -/
theorem not_mem_of_mem_pieces {sep : Char} {cs piece : List Char} (h : piece ∈ pieces sep cs) :
    sep ∉ piece := by
  induction cs generalizing piece with
  | nil =>
    rw [List.mem_singleton.1 h]
    exact List.not_mem_nil
  | cons c cs ih =>
    rw [pieces] at h
    split at h
    · rcases List.mem_cons.1 h with rfl | h
      · exact List.not_mem_nil
      · exact ih h
    · next hc =>
      cases hpieces : pieces sep cs with
      | nil => exact absurd hpieces (pieces_ne_nil sep cs)
      | cons first rest =>
        rw [hpieces] at h ih
        rcases List.mem_cons.1 h with rfl | h
        · rw [List.mem_cons, not_or]
          exact ⟨Ne.symm hc, ih List.mem_cons_self⟩
        · exact ih (List.mem_cons_of_mem _ h)

/-- A text without the separator is one piece. -/
theorem pieces_of_not_mem {sep : Char} {cs : List Char} (h : sep ∉ cs) : pieces sep cs = [cs] := by
  induction cs with
  | nil => rfl
  | cons c cs ih =>
    obtain ⟨hc, hcs⟩ := not_or.1 (mt List.mem_cons.2 h)
    rw [pieces, if_neg (Ne.symm hc), ih hcs]

/-- The pieces before a separator and those after it. -/
theorem pieces_append (sep : Char) (front back : List Char) :
    pieces sep (front ++ sep :: back) = pieces sep front ++ pieces sep back := by
  induction front with
  | nil => simp [pieces]
  | cons c front ih =>
    rw [List.cons_append, pieces, pieces, ih]
    split
    · rfl
    · cases hpieces : pieces sep front with
      | nil => exact absurd hpieces (pieces_ne_nil sep front)
      | cons first rest => rfl

end LayoutEngine.Text
