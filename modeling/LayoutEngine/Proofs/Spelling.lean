import LayoutEngine.Proofs.Trim
import LayoutEngine.Value.Resolve

/-!
# Bindings, however they are written

The path of a binding falls into pieces at dots and opening brackets, and each piece is a word with
closing brackets behind it and white space around it, or nothing. So a step of a path may be written
with a dot or with brackets: the binding is the same (`Binding.parse?_spelled`).

White space makes no difference where it ends up at an end of its piece once the closing brackets
are dropped, and only there (`Binding.spaced_iff`): it is harmless right behind a dot or an opening
bracket, but right behind a closing bracket that another segment follows it keeps the bracket in
the word.
-/

namespace LayoutEngine

open Text

/-- The segment that a word of a path stands for. -/
def Segment.ofWord (word : List Char) : Segment :=
  if word = ['$', 'i', 'n', 'd', 'e', 'x'] then .dataIndex else .key (String.ofList word)

/-- A segment is known from its word. -/
theorem Segment.ofWord_injective : Function.Injective Segment.ofWord := by
  intro word word' h
  unfold ofWord at h
  split at h <;> split at h
  · next h₁ h₂ => rw [h₁, h₂]
  · cases h
  · cases h
  · simpa using congrArg String.toList (Segment.key.inj h)

namespace Binding

/-! ## Pieces of a path -/

/-- The characters that a segment ends at. -/
def isSeparator (c : Char) : Bool := c == '.' || c == '['

variable {c : Char} {cs front back path space : List Char}

/-- What is neither a dot nor an opening bracket separates nothing. -/
theorem isSeparator_eq_false_iff : isSeparator c = false ↔ c ≠ '.' ∧ c ≠ '[' := by
  simp [isSeparator]

/-- White space separates nothing. -/
theorem isSeparator_of_isBlank (h : isBlank c = true) : isSeparator c = false := by
  rw [isSeparator_eq_false_iff]
  constructor <;> rintro rfl <;> revert h <;> decide

/-- A character that does not separate belongs to the first piece. -/
theorem pieces_cons_of_ne {sep : Char} (h : c ≠ sep) (cs : List Char) :
    pieces sep (c :: cs) = (pieces sep cs).modifyHead (c :: ·) := by
  rw [pieces, if_neg h]
  cases hpieces : pieces sep cs with
  | nil => exact absurd hpieces (pieces_ne_nil sep cs)
  | cons piece rest => rfl

/-- A separator ends an empty piece. -/
theorem pathPieces_cons_of_isSeparator (h : isSeparator c = true) (cs : List Char) :
    pathPieces (c :: cs) = [] :: pathPieces cs := by
  rcases (by simpa [isSeparator] using h : c = '.' ∨ c = '[') with rfl | rfl
  · simp [pathPieces, pieces]
  · rw [pathPieces, pathPieces, pieces_cons_of_ne (by decide)]
    cases hpieces : pieces '.' cs with
    | nil => exact absurd hpieces (pieces_ne_nil '.' cs)
    | cons piece rest => simp [pieces]

/-- Any other character belongs to the first piece. -/
theorem pathPieces_cons_of_not_isSeparator (h : isSeparator c = false) (cs : List Char) :
    pathPieces (c :: cs) = (pathPieces cs).modifyHead (c :: ·) := by
  obtain ⟨hdot, hbracket⟩ := isSeparator_eq_false_iff.1 h
  rw [pathPieces, pathPieces, pieces_cons_of_ne hdot]
  cases hpieces : pieces '.' cs with
  | nil => exact absurd hpieces (pieces_ne_nil '.' cs)
  | cons piece rest =>
    rw [List.modifyHead_cons, List.flatMap_cons, List.flatMap_cons, pieces_cons_of_ne hbracket]
    cases hpiece : pieces '[' piece with
    | nil => exact absurd hpiece (pieces_ne_nil '[' piece)
    | cons _ _ => rfl

/-- A path has a piece, if an empty one. -/
theorem pathPieces_ne_nil (path : List Char) : pathPieces path ≠ [] := by
  cases hpieces : pieces '.' path with
  | nil => exact absurd hpieces (pieces_ne_nil '.' path)
  | cons piece rest => simp [pathPieces, hpieces, pieces_ne_nil]

/-- A path without separators is one piece. -/
theorem pathPieces_of_plain (h : ∀ c ∈ path, isSeparator c = false) : pathPieces path = [path] := by
  induction path with
  | nil => rfl
  | cons c cs ih =>
    obtain ⟨hc, hcs⟩ := List.forall_mem_cons.1 h
    rw [pathPieces_cons_of_not_isSeparator hc, ih hcs, List.modifyHead_cons]

/-- The pieces before a separator and those after it. -/
theorem pathPieces_append (front : List Char) (h : isSeparator c = true) (back : List Char) :
    pathPieces (front ++ c :: back) = pathPieces front ++ pathPieces back := by
  induction front with
  | nil => rw [List.nil_append, pathPieces_cons_of_isSeparator h]; rfl
  | cons d front ih =>
    cases hd : isSeparator d with
    | true =>
      rw [List.cons_append, pathPieces_cons_of_isSeparator hd, pathPieces_cons_of_isSeparator hd,
        ih, List.cons_append]
    | false =>
      rw [List.cons_append, pathPieces_cons_of_not_isSeparator hd,
        pathPieces_cons_of_not_isSeparator hd, ih]
      cases hpieces : pathPieces front with
      | nil => exact absurd hpieces (pathPieces_ne_nil front)
      | cons piece rest => rfl

/-- The part of a path behind its last separator. -/
def lastPiece (front : List Char) : List Char := front.rtakeWhile (!isSeparator ·)

/-- The part of a path before its first separator. -/
def firstPiece (back : List Char) : List Char := back.takeWhile (!isSeparator ·)

/-- In the last piece nothing separates. -/
theorem mem_lastPiece (h : c ∈ lastPiece front) : isSeparator c = false := by
  simpa using List.mem_rtakeWhile_imp h

/-- Nor does anything in the first one. -/
theorem mem_firstPiece (h : c ∈ firstPiece back) : isSeparator c = false := by
  simpa using List.mem_takeWhile_imp h

/-- The last piece is all, or starts after a separator. -/
theorem eq_append_lastPiece (front : List Char) :
    front = lastPiece front ∨
      ∃ rest c, isSeparator c = true ∧ front = rest ++ c :: lastPiece front := by
  have hcut : front.rdropWhile (!isSeparator ·) ++ lastPiece front = front :=
    List.rdropWhile_append_rtakeWhile
  rcases List.eq_nil_or_concat (front.rdropWhile (!isSeparator ·)) with hnil | ⟨rest, c, hrest⟩
  · rw [hnil, List.nil_append] at hcut
    exact .inl hcut.symm
  · refine .inr ⟨rest, c, ?_, ?_⟩
    · have hlast := List.rdropWhile_last_not (!isSeparator ·) front (by rw [hrest]; simp)
      simpa [hrest] using hlast
    · rw [hrest] at hcut
      simpa using hcut.symm

/-- The first piece is all, or ends before a separator. -/
theorem eq_firstPiece_append (back : List Char) :
    back = firstPiece back ∨
      ∃ c rest, isSeparator c = true ∧ back = firstPiece back ++ c :: rest := by
  have hcut : firstPiece back ++ back.dropWhile (!isSeparator ·) = back :=
    List.takeWhile_append_dropWhile
  cases hrest : back.dropWhile (!isSeparator ·) with
  | nil =>
    rw [hrest, List.append_nil] at hcut
    exact .inl hcut.symm
  | cons c rest =>
    have hhead := List.head?_dropWhile_not (!isSeparator ·) back
    rw [hrest] at hhead hcut
    exact .inr ⟨c, rest, by simpa using hhead, hcut.symm⟩

/-- What stands between two parts of a path belongs to the piece around it. -/
theorem exists_pathPieces_eq (front back : List Char) : ∃ before after, ∀ space,
    (∀ c ∈ space, isSeparator c = false) → pathPieces (front ++ space ++ back) =
      before ++ (lastPiece front ++ space ++ firstPiece back) :: after := by
  obtain ⟨before, hbefore⟩ : ∃ before, ∀ cs, pathPieces (front ++ cs) =
      before ++ pathPieces (lastPiece front ++ cs) := by
    rcases eq_append_lastPiece front with h | ⟨rest, c, hc, h⟩
    · exact ⟨[], fun cs => by rw [← h, List.nil_append]⟩
    · refine ⟨pathPieces rest, fun cs => ?_⟩
      conv_lhs => rw [h, List.append_assoc, List.cons_append, pathPieces_append rest hc]
  have hplain : ∀ space, (∀ c ∈ space, isSeparator c = false) →
      ∀ c ∈ lastPiece front ++ space ++ firstPiece back, isSeparator c = false := by
    intro space hspace c hc
    simp only [List.mem_append] at hc
    rcases hc with (hc | hc) | hc
    · exact mem_lastPiece hc
    · exact hspace c hc
    · exact mem_firstPiece hc
  rcases eq_firstPiece_append back with h | ⟨c, rest, hc, h⟩
  · refine ⟨before, [], fun space hspace => ?_⟩
    rw [List.append_assoc, hbefore, ← List.append_assoc]
    conv_lhs => rw [h]
    rw [pathPieces_of_plain (hplain space hspace)]
  · refine ⟨before, pathPieces rest, fun space hspace => ?_⟩
    rw [List.append_assoc, hbefore, ← List.append_assoc]
    conv_lhs => rw [h]
    rw [← List.append_assoc, pathPieces_append _ hc, pathPieces_of_plain (hplain space hspace),
      List.singleton_append]

/-! ## Words -/

/-- The word that a piece of a path holds, if any. -/
def word (piece : List Char) : List Char := trim (dropClosing piece)

/-- A piece is a segment unless its word is empty. -/
theorem segment?_eq (piece : List Char) :
    segment? piece = if word piece = [] then none else some (.ofWord (word piece)) := by
  unfold segment? word
  split
  · next h => rw [if_pos h]
  · next h => rw [h]; rfl
  · next hne hindex => rw [if_neg hne, Segment.ofWord, if_neg hindex]

/-- Pieces are the same segment exactly if they hold the same word. -/
theorem segment?_eq_segment?_iff {piece piece' : List Char} :
    segment? piece = segment? piece' ↔ word piece = word piece' := by
  constructor
  · intro h
    rw [segment?_eq, segment?_eq] at h
    split at h <;> split at h
    · next h₁ h₂ => rw [h₁, h₂]
    · cases h
    · cases h
    · exact Segment.ofWord_injective (Option.some.inj h)
  · intro h
    rw [segment?_eq, segment?_eq, h]

/-- Only closing brackets are dropped as a whole. -/
theorem dropClosing_eq_nil_iff : dropClosing cs = [] ↔ ∀ c ∈ cs, c = ']' := by
  simp [dropClosing]

/-- Where all at the end is dropped, so is more before it. -/
theorem dropClosing_append_of_eq_nil (h : dropClosing back = []) (front : List Char) :
    dropClosing (front ++ back) = dropClosing front := by
  have hclosing : ∀ c ∈ back.reverse, (c == ']') = true := by
    simpa using dropClosing_eq_nil_iff.1 h
  rw [dropClosing, List.reverse_append, List.dropWhile_append_of_pos hclosing, dropClosing]

/-- Where not all at the end is dropped, nothing before it is. -/
theorem dropClosing_append_of_ne_nil (h : dropClosing back ≠ []) (front : List Char) :
    dropClosing (front ++ back) = front ++ dropClosing back := by
  have hrest : ¬(back.reverse.dropWhile (· == ']')).isEmpty = true := by
    rw [List.isEmpty_iff]
    exact fun hnil => h (by rw [dropClosing, hnil, List.reverse_nil])
  rw [dropClosing, List.reverse_append, List.dropWhile_append, if_neg hrest, List.reverse_append,
    List.reverse_reverse, dropClosing]

/-- Nothing is dropped from what does not end with a closing bracket. -/
theorem dropClosing_of_getLast? (h : cs.getLast? ≠ some ']') : dropClosing cs = cs := by
  have hself : cs.rdropWhile (· == ']') = cs := by
    rw [List.rdropWhile_eq_self_iff]
    intro hne hlast
    exact h (by rw [List.getLast?_eq_some_getLast hne, eq_of_beq hlast])
  exact hself

/-- White space does not end with a closing bracket. -/
theorem getLast?_ne_of_blank (h : ∀ c ∈ cs, isBlank c = true) : cs.getLast? ≠ some ']' := by
  intro hlast
  exact absurd (h ']' (List.mem_of_getLast? hlast)) (by decide)

/-- White space is not dropped as a closing bracket is. -/
theorem dropClosing_blank (h : ∀ c ∈ cs, isBlank c = true) : dropClosing cs = cs :=
  dropClosing_of_getLast? (getLast?_ne_of_blank h)

/-- Trimming keeps the closing brackets. -/
theorem count_trim (cs : List Char) : (trim cs).count ']' = cs.count ']' := by
  obtain ⟨before, after, hcs, hbefore, hafter⟩ := exists_eq_trim cs
  have hnone : ∀ space : List Char, (∀ c ∈ space, isBlank c = true) → space.count ']' = 0 :=
    fun space hspace => List.count_eq_zero.2 fun hmem => absurd (hspace _ hmem) (by decide)
  conv_rhs => rw [hcs]
  rw [List.count_append, List.count_append, hnone before hbefore, hnone after hafter]
  omega

/-- A text that ends in a closing bracket and one that does not are not trimmed to the same. -/
theorem getLast?_ne_of_trim_eq (h : trim cs = trim (dropClosing cs)) : cs.getLast? ≠ some ']' := by
  intro hlast
  obtain ⟨rest, rfl⟩ := List.getLast?_eq_some_iff.1 hlast
  have hdrop : dropClosing (rest ++ [']']) = dropClosing rest :=
    dropClosing_append_of_eq_nil (by decide) rest
  have hcount := congrArg (List.count ']') h
  rw [hdrop, count_trim, count_trim, List.count_append] at hcount
  have hle := (List.rdropWhile_prefix (· == ']') rest).sublist.count_le ']'
  have hsame : List.rdropWhile (· == ']') rest = dropClosing rest := rfl
  rw [hsame] at hle
  simp at hcount
  omega

/-- White space within a piece makes no difference to its word: it stands before the word, or
behind it and what is not dropped as a closing bracket. -/
theorem word_spaced_iff (hspace : ∀ c ∈ space, isBlank c = true) (hne : space ≠ [])
    (front back : List Char) :
    word (front ++ space ++ back) = word (front ++ back) ↔
      (∀ c ∈ front, isBlank c = true) ∨
        (∀ c ∈ dropClosing back, isBlank c = true) ∧
          (dropClosing back = [] → front.getLast? ≠ some ']') := by
  by_cases hfront : ∀ c ∈ front, isBlank c = true
  · -- What stands before the word is trimmed off, whatever follows.
    refine iff_of_true ?_ (.inl hfront)
    by_cases hback : dropClosing back = []
    · have hboth : ∀ c ∈ front ++ space, isBlank c = true := by
        simpa [or_imp, forall_and] using ⟨hfront, hspace⟩
      rw [word, word, dropClosing_append_of_eq_nil hback, dropClosing_append_of_eq_nil hback,
        dropClosing_blank hboth, dropClosing_blank hfront, trim_eq_nil_iff.2 hboth,
        trim_eq_nil_iff.2 hfront]
    · rw [word, word, dropClosing_append_of_ne_nil hback, dropClosing_append_of_ne_nil hback,
        List.append_assoc, trim_blank_append hfront, trim_blank_append hspace,
        trim_blank_append hfront]
  · simp only [hfront, false_or]
    by_cases hback : dropClosing back = []
    · -- Only closing brackets follow: the white space keeps those before it from being dropped.
      have hkeep : dropClosing (front ++ space) = front ++ space := by
        rw [dropClosing_append_of_ne_nil (by rwa [dropClosing_blank hspace]),
          dropClosing_blank hspace]
      rw [word, word, dropClosing_append_of_eq_nil hback, dropClosing_append_of_eq_nil hback,
        hkeep, trim_append_blank hspace, hback]
      simp only [List.not_mem_nil, false_imp_iff, implies_true, true_and, forall_const]
      refine ⟨getLast?_ne_of_trim_eq, fun hlast => ?_⟩
      rw [dropClosing_of_getLast? hlast]
    · rw [word, word, dropClosing_append_of_ne_nil hback, dropClosing_append_of_ne_nil hback]
      simp only [hback, false_imp_iff, and_true]
      constructor
      · -- Between two parts that are not blank it would be kept.
        intro h
        by_contra hkey
        have hkey' : ¬∀ c ∈ space ++ dropClosing back, isBlank c = true :=
          fun hall => hkey fun c hc => hall c (List.mem_append_right _ hc)
        rw [List.append_assoc, trim_append_of_not_blank hfront hkey',
          trim_append_of_not_blank hfront hkey, trimEnd_append_of_not_blank hkey] at h
        have hlength := congrArg List.length h
        have hpos := List.length_pos_iff.2 hne
        simp only [List.length_append] at hlength
        omega
      · intro hkey
        rw [trim_append_blank hkey, trim_append_blank hspace, trim_append_blank hkey]

/-! ## Texts of bindings -/

/-- The segments of a path. -/
def segmentsOf (path : List Char) : List Segment := (pathPieces path).filterMap segment?

/-- A path between braces, as it stands. -/
def braced (path : List Char) : List Char := ['@', '\x7b'] ++ (path ++ ['\x7d'])

/-- There are no blanks around braces. -/
theorem trim_braced (path : List Char) : trim (braced path) = braced path := by
  rw [trim_eq_self_iff, braced, ← List.append_assoc, List.getLast?_concat]
  constructor <;> simp <;> decide

/-- The path in braces is what stands in them, without blanks around it. -/
theorem path?_braced (path : List Char) : path? (braced path) = some (trim path) := by
  have hinner : before? ['\x7d'] (path ++ ['\x7d']) = some path := before?_eq_some_iff.2 rfl
  rw [path?, braced, after?_append]
  simp only [Option.bind_eq_bind, Option.bind_some, hinner, Option.pure_def]

/-- What has a path stands in braces. -/
theorem exists_braced_of_path? {cs path : List Char} (h : path? cs = some path) :
    ∃ inner, cs = braced inner ∧ path = trim inner := by
  simp only [path?, Option.bind_eq_bind, Option.bind_eq_some_iff, Option.pure_def,
    Option.some.injEq] at h
  obtain ⟨rest, hrest, inner, hinner, rfl⟩ := h
  obtain rfl := after?_eq_some_iff.1 hrest
  obtain rfl := before?_eq_some_iff.1 hinner
  exact ⟨inner, rfl, rfl⟩

/-- White space around a path and around the braces that it stands in. -/
structure Frame where
  before : List Char
  opening : List Char
  closing : List Char
  after : List Char
  blank_before : ∀ c ∈ before, isBlank c = true
  blank_opening : ∀ c ∈ opening, isBlank c = true
  blank_closing : ∀ c ∈ closing, isBlank c = true
  blank_after : ∀ c ∈ after, isBlank c = true

namespace Frame

/-- No white space. -/
def tight : Frame := ⟨[], [], [], [], by simp, by simp, by simp, by simp⟩

/-- The text of a path in a frame. -/
def text (frame : Frame) (path : List Char) : String :=
  String.ofList (frame.before ++ braced (frame.opening ++ path ++ frame.closing) ++ frame.after)

/-- A text is read as the segments of its path, without the white space around that. -/
theorem parse?_text (frame : Frame) (path : List Char) :
    parse? (frame.text path) =
      if segmentsOf (trim path) = [] then none
      else some ⟨trimmed (frame.text path), segmentsOf (trim path)⟩ := by
  have hbraced : trim (frame.text path).toList =
      braced (frame.opening ++ path ++ frame.closing) := by
    rw [text, String.toList_ofList, trim_append_blank frame.blank_after,
      trim_blank_append frame.blank_before, trim_braced]
  have hpath : path? (trim (frame.text path).toList) = some (trim path) := by
    rw [hbraced, path?_braced, trim_append_blank frame.blank_closing,
      trim_blank_append frame.blank_opening]
  simp only [parse?, hpath, Option.bind_eq_bind, Option.bind_some, trimmed]
  split
  · next h => exact (if_pos h).symm
  · next hne => exact (if_neg hne).symm

/-- So are all texts that are read as a binding. -/
theorem exists_text {text : String} {b : Binding} (h : parse? text = some b) :
    ∃ (frame : Frame) (path : List Char), text = frame.text path ∧ trim path = path ∧
      segmentsOf path = b.segments := by
  simp only [parse?, Option.bind_eq_bind, Option.bind_eq_some_iff] at h
  obtain ⟨path, hpath, h⟩ := h
  obtain ⟨inner, hinner, rfl⟩ := exists_braced_of_path? hpath
  obtain ⟨before, after, htext, hbefore, hafter⟩ := exists_eq_trim text.toList
  obtain ⟨opening, closing, hpath, hopening, hclosing⟩ := exists_eq_trim inner
  refine ⟨⟨before, opening, closing, after, hbefore, hopening, hclosing, hafter⟩, trim inner, ?_,
    trim_trim inner, ?_⟩
  · rw [hinner] at htext
    rw [Frame.text, ← hpath, ← htext, String.ofList_toList]
  · split at h
    · cases h
    · rw [← Option.some.inj h, segmentsOf]

end Frame

/-! ## Dots and brackets -/

/-- How a step of a path is written. -/
inductive Style where
  | dotted
  | bracketed
deriving DecidableEq, Repr

/-- A step that leads to a word. -/
def Style.step (style : Style) (word : List Char) : List Char :=
  match style with
  | .dotted => '.' :: word
  | .bracketed => '[' :: (word ++ [']'])

/-- A word of a path: it is not empty, and has no dots, no brackets and no white space at its
ends. -/
structure PathWord where
  chars : List Char
  ne_nil : chars ≠ []
  plain : ∀ c ∈ chars, c ≠ '.' ∧ c ≠ '[' ∧ c ≠ ']'
  trimmed : trim chars = chars

namespace PathWord

/-- The segment that a word stands for: the data index if it is `$index`, else the key. -/
def segment (word : PathWord) : Segment := .ofWord word.chars

/-- In a word nothing separates. -/
theorem not_isSeparator (w : PathWord) (hc : c ∈ w.chars) : isSeparator c = false :=
  isSeparator_eq_false_iff.2 ⟨(w.plain c hc).1, (w.plain c hc).2.1⟩

/-- A word is read as its segment, with closing brackets behind it as well. -/
theorem segment?_append (w : PathWord) {closing : List Char} (h : dropClosing closing = []) :
    segment? (w.chars ++ closing) = some w.segment := by
  have hlast : w.chars.getLast? ≠ some ']' := fun hlast =>
    (w.plain ']' (List.mem_of_getLast? hlast)).2.2 rfl
  have hword : word (w.chars ++ closing) = w.chars := by
    rw [word, dropClosing_append_of_eq_nil h, dropClosing_of_getLast? hlast, w.trimmed]
  rw [segment?_eq, hword, if_neg w.ne_nil, segment]

end PathWord

/-- The path that leads to words one after the other, each step but the first written in its
style. -/
def spelled (first : PathWord) (steps : List (Style × PathWord)) : List Char :=
  first.chars ++ steps.flatMap fun step => step.1.step step.2.chars

/-- There is no white space at the ends of the path. -/
theorem trim_spelled (first : PathWord) (steps : List (Style × PathWord)) :
    trim (spelled first steps) = spelled first steps := by
  rw [trim_eq_self_iff]
  constructor
  · rw [spelled, List.head?_append_of_ne_nil _ first.ne_nil]
    exact (trim_eq_self_iff.1 first.trimmed).1
  · rw [spelled]
    induction steps using List.reverseRecOn with
    | nil => simpa using (trim_eq_self_iff.1 first.trimmed).2
    | append_singleton steps step =>
      obtain ⟨style, w⟩ := step
      rw [List.flatMap_append, List.flatMap_singleton]
      cases style with
      | dotted =>
        rw [Style.step, ← List.append_assoc, List.getLast?_append_cons,
          List.getLast?_cons_of_ne_nil w.ne_nil]
        exact (trim_eq_self_iff.1 w.trimmed).2
      | bracketed =>
        rw [Style.step, ← List.cons_append, ← List.append_assoc, ← List.append_assoc,
          List.getLast?_concat]
        rintro c ⟨⟩
        decide

/-- A spelled path has the segments of its words, whatever the style of each step. -/
theorem segmentsOf_spelled (first : PathWord) (steps : List (Style × PathWord)) :
    segmentsOf (spelled first steps) = first.segment :: steps.map (·.2.segment) := by
  -- Along the steps, a piece is a word with the bracket that closes it.
  suffices hall : ∀ (w : PathWord) (closing : List Char), dropClosing closing = [] →
      (∀ c ∈ closing, isSeparator c = false) →
      segmentsOf (w.chars ++ closing ++ steps.flatMap fun step => step.1.step step.2.chars) =
        w.segment :: steps.map (·.2.segment) by
    simpa [spelled] using hall first [] rfl (by simp)
  have hpiece : ∀ (w : PathWord) (closing : List Char), (∀ c ∈ closing, isSeparator c = false) →
      pathPieces (w.chars ++ closing) = [w.chars ++ closing] := by
    intro w closing hplain
    refine pathPieces_of_plain fun c hc => ?_
    rcases List.mem_append.1 hc with hc | hc
    · exact w.not_isSeparator hc
    · exact hplain c hc
  induction steps with
  | nil =>
    intro w closing hclosing hplain
    rw [List.flatMap_nil, List.append_nil, segmentsOf, hpiece w closing hplain]
    simp [w.segment?_append hclosing]
  | cons step steps ih =>
    intro w closing hclosing hplain
    obtain ⟨style, next⟩ := step
    have hcut : ∀ (sep : Char) (rest : List Char), isSeparator sep = true →
        segmentsOf (w.chars ++ closing ++ sep :: rest) = w.segment :: segmentsOf rest := by
      intro sep rest hsep
      rw [segmentsOf, pathPieces_append _ hsep, hpiece w closing hplain, List.singleton_append,
        List.filterMap_cons, w.segment?_append hclosing, segmentsOf]
    rw [List.flatMap_cons, List.map_cons]
    cases style with
    | dotted =>
      rw [Style.step, List.cons_append, hcut '.' _ rfl]
      simpa using ih next [] rfl (by simp)
    | bracketed =>
      rw [Style.step, List.cons_append, hcut '[' _ rfl]
      simpa using ih next [']'] (by decide) (List.forall_mem_singleton.2 rfl)

/-- However the steps of a path are written, with dots or with brackets, and whatever white space
there is around the path, it is read as the segments of its words. So texts of one path evaluate
alike in all data. -/
theorem parse?_spelled (frame : Frame) (first : PathWord) (steps : List (Style × PathWord)) :
    parse? (frame.text (spelled first steps)) =
      some ⟨trimmed (frame.text (spelled first steps)), first.segment :: steps.map (·.2.segment)⟩ ∧
    ∀ (frame' : Frame) (steps' : List (Style × PathWord)),
      steps'.map Prod.snd = steps.map Prod.snd → ∃ b b',
        parse? (frame.text (spelled first steps)) = some b ∧
        parse? (frame'.text (spelled first steps')) = some b' ∧
        ∀ data index, b.evaluate data index = b'.evaluate data index := by
  have hread : ∀ (frame : Frame) (steps : List (Style × PathWord)),
      parse? (frame.text (spelled first steps)) =
        some ⟨trimmed (frame.text (spelled first steps)),
          first.segment :: steps.map (·.2.segment)⟩ := by
    intro frame steps
    rw [frame.parse?_text, trim_spelled, segmentsOf_spelled, if_neg (List.cons_ne_nil _ _)]
  refine ⟨hread frame steps, fun frame' steps' hwords => ?_⟩
  refine ⟨_, _, hread frame steps, hread frame' steps', fun data index => ?_⟩
  have hsegments : steps'.map (·.2.segment) = steps.map (·.2.segment) := by
    simpa [Function.comp_def] using congrArg (List.map PathWord.segment) hwords
  rw [evaluate, evaluate, hsegments]

/-- A place in rows, with a dot and brackets as well as with brackets and a dot. -/
theorem parse?_rows_cell :
    parse? "@{rows[$index].first name}" =
      some ⟨"@{rows[$index].first name}", [.key "rows", .dataIndex, .key "first name"]⟩ ∧
    ∃ b b', parse? "@{rows[$index].first name}" = some b ∧
      parse? " @{ rows.$index[first name] }" = some b' ∧
      ∀ data index, b.evaluate data index = b'.evaluate data index := by
  have hblank : ∀ c ∈ [' '], isBlank c = true := List.forall_mem_singleton.2 rfl
  have hspelled := parse?_spelled .tight ⟨"rows".toList, by decide, by simp, by decide⟩
    [(.bracketed, ⟨"$index".toList, by decide, by simp, by decide⟩),
      (.dotted, ⟨"first name".toList, by decide, by simp, by decide⟩)]
  exact ⟨hspelled.1, hspelled.2 ⟨[' '], [' '], [' '], [], hblank, hblank, hblank, nofun⟩
    [(.dotted, ⟨"$index".toList, by decide, by simp, by decide⟩),
      (.bracketed, ⟨"first name".toList, by decide, by simp, by decide⟩)] rfl⟩

/-! ## White space -/

/-- White space makes no difference between the two parts of a path: nothing but white space comes
before it in its piece, or nothing but white space and then closing brackets comes after it and it
is not right between closing brackets, or it is at the end. -/
def Loose (front back : List Char) : Prop :=
  back = [] ∨ (∀ c ∈ lastPiece front, isBlank c = true) ∨
    (∀ c ∈ dropClosing (firstPiece back), isBlank c = true) ∧
      (dropClosing (firstPiece back) = [] → (lastPiece front).getLast? ≠ some ']')

instance (front back : List Char) : Decidable (Loose front back) :=
  inferInstanceAs (Decidable (_ ∨ _ ∨ _ ∧ (_ → _)))

/-- White space makes no difference in a path just if there is nothing but white space on one side
of it in its piece, and no closing bracket gets to stand before it. -/
theorem segmentsOf_spaced_iff (hspace : ∀ c ∈ space, isBlank c = true) (hne : space ≠ [])
    (front back : List Char) :
    segmentsOf (front ++ space ++ back) = segmentsOf (front ++ back) ↔
      (∀ c ∈ lastPiece front, isBlank c = true) ∨
        (∀ c ∈ dropClosing (firstPiece back), isBlank c = true) ∧
          (dropClosing (firstPiece back) = [] → (lastPiece front).getLast? ≠ some ']') := by
  obtain ⟨before, after, hpieces⟩ := exists_pathPieces_eq front back
  have hspaced := hpieces space fun c hc => isSeparator_of_isBlank (hspace c hc)
  have hplain := hpieces [] (by simp)
  rw [List.append_nil, List.append_nil] at hplain
  have hcons : ∀ piece, (piece :: after).filterMap segment? =
      (segment? piece).toList ++ after.filterMap segment? := by
    intro piece
    rw [List.filterMap_cons]
    cases segment? piece <;> rfl
  -- The piece in the middle is the only one that may become another segment.
  rw [← word_spaced_iff hspace hne, ← segment?_eq_segment?_iff, segmentsOf, segmentsOf, hspaced,
    hplain, List.filterMap_append, List.filterMap_append, List.append_cancel_left_eq, hcons, hcons,
    List.append_cancel_right_eq]
  cases segment? (lastPiece front ++ space ++ firstPiece back) <;>
    cases segment? (lastPiece front ++ firstPiece back) <;> simp

/-- A piece that holds a word holds one with more white space as well. -/
theorem word_spaced_ne_nil (hspace : ∀ c ∈ space, isBlank c = true) (hne : space ≠ [])
    (h : word (front ++ back) ≠ []) : word (front ++ space ++ back) ≠ [] := by
  rw [word, ne_eq, trim_eq_nil_iff] at h ⊢
  refine fun hall => h fun c hc => ?_
  by_cases hback : dropClosing back = []
  · have hkeep : dropClosing (front ++ space) = front ++ space := by
      rw [dropClosing_append_of_ne_nil (by rwa [dropClosing_blank hspace]),
        dropClosing_blank hspace]
    rw [dropClosing_append_of_eq_nil hback, hkeep] at hall
    rw [dropClosing_append_of_eq_nil hback] at hc
    exact hall c (List.mem_append_left _ ((List.rdropWhile_prefix _ front).subset hc))
  · rw [dropClosing_append_of_ne_nil hback] at hall hc
    rcases List.mem_append.1 hc with hc | hc
    · exact hall c (by simp [hc])
    · exact hall c (by simp [hc])

/-- A path that has segments has some with more white space as well. -/
theorem segmentsOf_spaced_ne_nil (hspace : ∀ c ∈ space, isBlank c = true) (hne : space ≠ [])
    (h : segmentsOf (front ++ back) ≠ []) : segmentsOf (front ++ space ++ back) ≠ [] := by
  obtain ⟨before, after, hpieces⟩ := exists_pathPieces_eq front back
  have hspaced := hpieces space fun c hc => isSeparator_of_isBlank (hspace c hc)
  have hplain := hpieces [] (by simp)
  rw [List.append_nil, List.append_nil] at hplain
  rw [segmentsOf, ne_eq, List.filterMap_eq_nil_iff] at h ⊢
  rw [hplain] at h
  rw [hspaced]
  refine fun hall => h fun piece hpiece => ?_
  simp only [List.mem_append, List.mem_cons] at hall hpiece
  rcases hpiece with hpiece | rfl | hpiece
  · exact hall piece (.inl hpiece)
  · have hnone := hall _ (.inr (.inl rfl))
    rw [segment?_eq] at hnone ⊢
    by_contra hsome
    have hword : word (lastPiece front ++ firstPiece back) ≠ [] := fun hnil => hsome (if_pos hnil)
    rw [if_neg (word_spaced_ne_nil hspace hne hword)] at hnone
    cases hnone
  · exact hall piece (.inr (.inr hpiece))

/-- The last piece ends as the path does, unless that ends with a separator. -/
theorem getLast?_lastPiece (front : List Char) :
    (lastPiece front).getLast? = front.getLast?.filter (!isSeparator ·) := by
  rw [lastPiece, List.rtakeWhile, List.getLast?_reverse, List.head?_takeWhile, List.head?_reverse]

/-- White space right behind a dot or an opening bracket makes no difference. -/
theorem Loose.of_separator (h : ∃ c ∈ front.getLast?, isSeparator c = true) : Loose front back := by
  obtain ⟨c, hc, hseparator⟩ := h
  have hlast : (lastPiece front).getLast? = none := by
    rw [getLast?_lastPiece, hc]
    simp [hseparator]
  refine .inr (.inl ?_)
  rw [List.getLast?_eq_none_iff.1 hlast]
  simp

/-- Nor does it right before a dot or brackets, unless a closing bracket is right before it. -/
theorem Loose.of_closing (hfront : front.getLast? ≠ some ']')
    (hback : dropClosing (firstPiece back) = []) : Loose front back := by
  refine .inr (.inr ⟨by simp [hback], fun _ hlast => hfront ?_⟩)
  rw [getLast?_lastPiece, Option.filter_eq_some_iff] at hlast
  exact hlast.1

/-- Right behind a closing bracket it does, if something else than white space and closing brackets
comes next. -/
theorem not_loose_of_closing (hfront : front.getLast? = some ']')
    (hback : ∃ c ∈ back.head?, isBlank c = false ∧ c ≠ ']') : ¬Loose front back := by
  obtain ⟨c, hc, hblank, hclosing⟩ := hback
  obtain ⟨rest, rfl⟩ := List.head?_eq_some_iff.1 hc
  have hlast : (lastPiece front).getLast? = some ']' := by
    rw [getLast?_lastPiece, hfront]
    rfl
  rintro (hnil | hfront | ⟨hkey, hbracket⟩)
  · cases hnil
  · exact absurd (hfront ']' (List.mem_of_getLast? hlast)) (by decide)
  · cases hseparator : isSeparator c with
    | true =>
      refine hbracket ?_ hlast
      simp [firstPiece, hseparator, dropClosing]
    | false =>
      have hpiece : firstPiece (c :: rest) = c :: firstPiece rest := by
        simp [firstPiece, hseparator]
      have hmem : c ∈ dropClosing (firstPiece (c :: rest)) := by
        rw [hpiece, ← List.singleton_append]
        by_cases hrest : dropClosing (firstPiece rest) = []
        · rw [dropClosing_append_of_eq_nil hrest, dropClosing_of_getLast? (by simpa using hclosing)]
          exact List.mem_singleton_self c
        · rw [dropClosing_append_of_ne_nil hrest]
          exact List.mem_append_left _ (List.mem_singleton_self c)
      rw [hkey c hmem] at hblank
      cases hblank

/-- White space in a trimmed path is trimmed off at the ends of the path only. -/
theorem trim_spaced (hspace : ∀ c ∈ space, isBlank c = true)
    (htrim : trim (front ++ back) = front ++ back) :
    trim (front ++ space ++ back) =
      if front = [] ∨ back = [] then front ++ back else front ++ space ++ back := by
  split
  · next hend =>
    rcases hend with rfl | rfl
    · rw [List.nil_append, List.nil_append] at *
      rw [trim_blank_append hspace, htrim]
    · rw [List.append_nil, List.append_nil] at *
      rw [trim_append_blank hspace, htrim]
  · next hinner =>
    obtain ⟨hfront, hback⟩ := not_or.1 hinner
    rw [trim_eq_self_iff, List.head?_append_of_ne_nil _ hfront,
      List.getLast?_append_of_ne_nil _ hback] at htrim
    rwa [trim_eq_self_iff, List.append_assoc, List.head?_append_of_ne_nil _ hfront,
      ← List.append_assoc, List.getLast?_append_of_ne_nil _ hback]

/-- White space at any place in the path of a binding leaves it a binding, and leaves its segments
exactly where it is loose. So it is right behind a dot or an opening bracket, and right before a
dot or brackets that no closing bracket comes before; right behind a closing bracket it is not,
if the path goes on behind it. -/
theorem spaced_iff {text : String} {b : Binding} (h : parse? text = some b) :
    ∃ (frame : Frame) (path : List Char), text = frame.text path ∧ trim path = path ∧
      ∀ front back, path = front ++ back →
        (∀ space, space ≠ [] → (∀ c ∈ space, isBlank c = true) →
          ∃ b', parse? (frame.text (front ++ space ++ back)) = some b' ∧
            (b'.segments = b.segments ↔ Loose front back)) ∧
        ((∃ c ∈ front.getLast?, isSeparator c = true) → Loose front back) ∧
        (front.getLast? ≠ some ']' → dropClosing (firstPiece back) = [] → Loose front back) ∧
        (front.getLast? = some ']' → (∃ c ∈ back.head?, isBlank c = false ∧ c ≠ ']') →
          ¬Loose front back) := by
  obtain ⟨frame, path, htext, htrim, hsegments⟩ := Frame.exists_text h
  have hparse := frame.parse?_text path
  rw [← htext, h, htrim] at hparse
  have hne : segmentsOf path ≠ [] := fun hnil => by simp [if_pos hnil] at hparse
  refine ⟨frame, path, htext, htrim, ?_⟩
  rintro front back rfl
  refine ⟨fun space hspaceNe hspace => ?_, .of_separator, .of_closing, not_loose_of_closing⟩
  rw [frame.parse?_text, trim_spaced hspace htrim]
  by_cases hend : front = [] ∨ back = []
  · have hloose : Loose front back := by
      rcases hend with rfl | rfl
      · exact .inr (.inl (by simp [lastPiece]))
      · exact .inl rfl
    rw [if_pos hend, if_neg hne]
    exact ⟨_, rfl, iff_of_true hsegments hloose⟩
  · rw [if_neg hend, if_neg (segmentsOf_spaced_ne_nil hspace hspaceNe hne)]
    refine ⟨_, rfl, ?_⟩
    rw [← hsegments, segmentsOf_spaced_iff hspace hspaceNe, Loose, or_iff_right (not_or.1 hend).2]

/-- In the path of a row's title, white space is loose at the dot only where it comes behind it. -/
theorem spaced_row_title :
    parse? "@{rows[0].title}" =
      some ⟨"@{rows[0].title}", [.key "rows", .key "0", .key "title"]⟩ ∧
    ∃ (frame : Frame) (path : List Char), "@{rows[0].title}" = frame.text path ∧
      trim path = path ∧
      ∀ front back, path = front ++ back →
        (∀ space, space ≠ [] → (∀ c ∈ space, isBlank c = true) →
          ∃ b', parse? (frame.text (front ++ space ++ back)) = some b' ∧
            (b'.segments = [.key "rows", .key "0", .key "title"] ↔ Loose front back)) ∧
        ((∃ c ∈ front.getLast?, isSeparator c = true) → Loose front back) ∧
        (front.getLast? ≠ some ']' → dropClosing (firstPiece back) = [] → Loose front back) ∧
        (front.getLast? = some ']' → (∃ c ∈ back.head?, isBlank c = false ∧ c ≠ ']') →
          ¬Loose front back) := by
  have hparse : parse? "@{rows[0].title}" =
      some ⟨"@{rows[0].title}", [.key "rows", .key "0", .key "title"]⟩ := by decide
  exact ⟨hparse, spaced_iff hparse⟩

/-- A space between the brackets and the dot: the bracket becomes a part of the key, and the
binding no longer resolves. -/
theorem spaced_behind_closing :
    let data : Fields := [("rows", .array [.object [("title", .string "first")]])]
    let tight : Binding := ⟨"@{rows[0].title}", [.key "rows", .key "0", .key "title"]⟩
    let spaced : Binding := ⟨"@{rows[0] .title}", [.key "rows", .key "0]", .key "title"]⟩
    Frame.tight.text ("rows[0]".toList ++ ".title".toList) = "@{rows[0].title}" ∧
    Frame.tight.text ("rows[0]".toList ++ [' '] ++ ".title".toList) = "@{rows[0] .title}" ∧
    parse? "@{rows[0].title}" = some tight ∧ parse? "@{rows[0] .title}" = some spaced ∧
    tight.segments ≠ spaced.segments ∧
    tight.evaluate data noDataIndex = .string "first" ∧
    spaced.evaluate data noDataIndex = .null := by
  exact ⟨by decide, by decide, by decide, by decide, by decide, rfl, rfl⟩

end Binding
end LayoutEngine
