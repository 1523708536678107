import LayoutEngine.Copy.Source
import LayoutEngine.Proofs.Percent
import LayoutEngine.Proofs.Trim

/-!
# What the source of a copy stands for

A source is a path, percent-encoded, that the scheme `file` may precede (`Copy.Names`). It stands
for the text whose UTF-8 bytes are encoded, whichever of its characters are escaped and however; the
only sources that stand for none have another scheme, or encode bytes that are not UTF-8
(`Copy.sourcePath?_encoded`).
-/

namespace LayoutEngine

open Text Text.Percent

namespace Copy

/-- What is between the scheme of a source and its path. -/
def schemeEnd : List Char := [':', '/', '/']

/-- The encoded path of a source: all of it, or what follows the scheme `file`. -/
inductive Names (source : List Char) : List Char → Prop
  | plain (h : ¬ schemeEnd <:+: source) : Names source source
  | file {written : List Char} (h : IsFirstCut schemeEnd source "file".toList written) :
      Names source written

/-- A percent-encoding of a path that escapes its percent signs and the white space at its ends. -/
inductive EncodesPath : List Char → List Char → Prop
  | mk {before path after front written back : List Char}
      (hbefore : ∀ c ∈ before, isBlank c = true) (hafter : ∀ c ∈ after, isBlank c = true)
      (hpath : trim path = path) (hfront : Encodes (fun _ => False) before front)
      (hwritten : Encodes (· ≠ '%') path written) (hback : Encodes (fun _ => False) after back) :
      EncodesPath (before ++ path ++ after) (front ++ written ++ back)

variable {path written : List Char} {source : String}

/-! ## Encoded paths -/

/-- An encoded path decodes to its bytes. -/
theorem EncodesPath.decodes (h : EncodesPath path written) :
    Decodes written (path.flatMap String.utf8EncodeChar) := by
  obtain ⟨-, -, -, hfront, hwritten, hback⟩ := h
  have hnone : ∀ c : Char, False → c ≠ '%' := fun _ => False.elim
  exact (((hfront.mono hnone).append hwritten).append (hback.mono hnone)).decodes

/-- A hexadecimal digit is no white space. -/
theorem isBlank_of_hexDigit {c : Char} {n : Nat} (h : HexDigit c n) : isBlank c = false := by
  have hc := hexDigit_iff.1 h
  rw [Bool.eq_false_iff]
  intro hblank
  simp only [isBlank, Bool.or_eq_true, Bool.and_eq_true, decide_eq_true_eq, beq_iff_eq] at hblank
  omega

/-- An encoding starts with white space only if that is kept. -/
theorem not_blank_of_head? {keep : Char → Prop} {cs text : List Char} (h : Encodes keep cs text)
    (hcs : ∀ c ∈ cs.head?, keep c → isBlank c = false) :
    ∀ c ∈ text.head?, isBlank c = false := by
  intro c hc
  obtain rfl | ⟨hkeep, hc⟩ := h.head? c hc
  · rfl
  · exact hcs c hc hkeep

/-- An encoding ends with white space only if that is kept. -/
theorem not_blank_of_getLast? {keep : Char → Prop} {cs text : List Char} (h : Encodes keep cs text)
    (hcs : ∀ c ∈ cs.getLast?, keep c → isBlank c = false) :
    ∀ c ∈ text.getLast?, isBlank c = false := by
  intro c hc
  obtain ⟨n, hn⟩ | ⟨hkeep, hc⟩ := h.getLast? c hc
  · exact isBlank_of_hexDigit hn
  · exact hcs c hc hkeep

/-- Nothing is trimmed off an encoding that escapes the white space at the ends. -/
theorem EncodesPath.trim_eq (h : EncodesPath path written) : trim written = written := by
  obtain ⟨-, -, hpath, hfront, hwritten, hback⟩ := h
  obtain ⟨hhead, hlast⟩ := trim_eq_self_iff.1 hpath
  rw [trim_eq_self_iff]
  constructor
  · intro c hc
    rw [List.head?_append, List.head?_append, Option.mem_def, Option.or_eq_some_iff,
      Option.or_eq_some_iff] at hc
    obtain (hc | ⟨-, hc⟩) | ⟨-, hc⟩ := hc
    · exact not_blank_of_head? hfront (fun _ _ => False.elim) c hc
    · exact not_blank_of_head? hwritten (fun c hc _ => hhead c hc) c hc
    · exact not_blank_of_head? hback (fun _ _ => False.elim) c hc
  · intro c hc
    rw [List.getLast?_append, List.getLast?_append, Option.mem_def, Option.or_eq_some_iff,
      Option.or_eq_some_iff] at hc
    obtain hc | ⟨-, hc | ⟨-, hc⟩⟩ := hc
    · exact not_blank_of_getLast? hback (fun _ _ => False.elim) c hc
    · exact not_blank_of_getLast? hwritten (fun c hc _ => hlast c hc) c hc
    · exact not_blank_of_getLast? hfront (fun _ _ => False.elim) c hc

/-! ## The path of a source -/

/-- A text without `://` names itself. -/
theorem names_iff_of_not_infix {cs : List Char} (h : ¬ schemeEnd <:+: cs) :
    Names cs written ↔ cs = written := by
  constructor
  · rintro (- | hfile)
    · rfl
    · exact absurd ⟨_, _, hfile.1.symm⟩ h
  · rintro rfl
    exact .plain h

/-- A text with a scheme names what comes after it if the scheme is `file`. -/
theorem names_iff_of_isFirstCut {cs scheme rest : List Char}
    (h : IsFirstCut schemeEnd cs scheme rest) :
    Names cs written ↔ scheme = "file".toList ∧ rest = written := by
  constructor
  · rintro (hplain | hfile)
    · exact absurd ⟨_, _, h.1.symm⟩ hplain
    · exact h.unique hfile
  · rintro ⟨rfl, rfl⟩
    exact .file h

/-- With any other scheme nothing is named. -/
theorem not_names {cs rest : List Char} {scheme : String}
    (h : IsFirstCut schemeEnd cs scheme.toList rest) (hne : scheme ≠ "file") :
    ¬ Names cs written :=
  fun hnames => hne (String.toList_inj.1 ((names_iff_of_isFirstCut h).1 hnames).1)

/-- A path is decoded from percent signs first, and then from UTF-8. -/
theorem decodePath_eq (written : List Char) :
    decodePath written = (Utf8.decode (decodeText written)).mapError .encoding := by
  rw [decodePath, Utf8.encode, String.toList_ofList, decodeText]

/-- A path is decoded just if its bytes are those of the text. -/
theorem decodePath_eq_ok_iff {p : String} :
    decodePath written = .ok p ↔ Decodes written (Utf8.encode p) := by
  rw [decodes_iff, eq_comm (a := decodeText _), ← Utf8.decode_eq_ok_iff, decodePath_eq]
  cases Utf8.decode (decodeText written) <;> simp [Except.mapError]

/-- A path cannot be decoded just if the bytes are no UTF-8. -/
theorem exists_decodePath_eq_encoding_iff :
    (∃ fault, decodePath written = .error (.encoding fault)) ↔
      ¬ (decodeText written).toByteArray.IsValidUTF8 := by
  rw [← Utf8.exists_decode_eq_error_iff, decodePath_eq]
  cases Utf8.decode (decodeText written) <;> simp [Except.mapError]

/-- Decoding a path has nothing to do with schemes. -/
theorem decodePath_ne_unsupportedScheme (scheme : String) :
    decodePath written ≠ .error (.unsupportedScheme scheme) := by
  rw [decodePath_eq]
  cases Utf8.decode (decodeText written) <;> simp [Except.mapError]

/-- A source names an encoded path, and stands for what this encodes, or has another scheme. -/
theorem sourcePath?_cases (source : String) :
    (∃ written, sourcePath? source = decodePath written ∧
      ∀ w, Names (trim source.toList) w ↔ written = w) ∨
      ∃ scheme rest, sourcePath? source = .error (.unsupportedScheme scheme) ∧
        IsFirstCut schemeEnd (trim source.toList) scheme.toList rest ∧ scheme ≠ "file" := by
  have heq : sourcePath? source = (encodedPath (trim source.toList)).bind decodePath := rfl
  cases hcut : cutAt? schemeEnd (trim source.toList) with
  | none =>
    refine .inl ⟨_, ?_, fun w => names_iff_of_not_infix (cutAt?_eq_none_iff.1 hcut)⟩
    rw [heq, encodedPath, ← schemeEnd, hcut, Except.bind]
  | some cut =>
    obtain ⟨scheme, rest⟩ := cut
    have hfirst := cutAt?_eq_some_iff.1 hcut
    have hpath : encodedPath (trim source.toList) = if scheme = "file".toList then .ok rest
        else .error (.unsupportedScheme (String.ofList scheme)) := by
      rw [encodedPath, ← schemeEnd, hcut]
      rfl
    by_cases hscheme : scheme = "file".toList
    · refine .inl ⟨rest, ?_, fun w => ?_⟩
      · rw [heq, hpath, if_pos hscheme, Except.bind]
      · rw [names_iff_of_isFirstCut hfirst, and_iff_right hscheme]
    · refine .inr ⟨String.ofList scheme, rest, ?_, ?_, ?_⟩
      · rw [heq, hpath, if_neg hscheme, Except.bind]
      · rwa [String.toList_ofList]
      · rw [Ne, ← String.toList_inj, String.toList_ofList]
        exact hscheme

/-- A source has a path just if it names a text that decodes to the path. -/
theorem sourcePath?_eq_ok_iff {p : String} :
    sourcePath? source = .ok p ↔
      ∃ written, Names (trim source.toList) written ∧ Decodes written (Utf8.encode p) := by
  obtain ⟨written, heq, hnames⟩ | ⟨scheme, rest, heq, hfirst, hne⟩ := sourcePath?_cases source
  · simp [heq, hnames, decodePath_eq_ok_iff]
  · simp [heq, not_names hfirst hne]

/-- A scheme is refused just if the text has one and it is not `file`. -/
theorem sourcePath?_eq_unsupportedScheme_iff {scheme : String} :
    sourcePath? source = .error (.unsupportedScheme scheme) ↔
      scheme ≠ "file" ∧ ∃ rest, IsFirstCut schemeEnd (trim source.toList) scheme.toList rest := by
  obtain ⟨written, heq, hnames⟩ | ⟨scheme', rest, heq, hfirst, hne⟩ := sourcePath?_cases source
  · rw [heq]
    refine iff_of_false (decodePath_ne_unsupportedScheme scheme) ?_
    rintro ⟨hne, rest, hfirst⟩
    exact not_names hfirst hne ((hnames written).2 rfl)
  · rw [heq, Except.error.injEq, CopyError.unsupportedScheme.injEq]
    constructor
    · rintro rfl
      exact ⟨hne, rest, hfirst⟩
    · rintro ⟨-, rest', hfirst'⟩
      exact String.toList_inj.1 (hfirst.unique hfirst').1

/-- A source cannot be decoded just if it names a text that decodes to no UTF-8. -/
theorem exists_sourcePath?_eq_encoding_iff :
    (∃ fault, sourcePath? source = .error (.encoding fault)) ↔
      ∃ written bytes, Names (trim source.toList) written ∧ Decodes written bytes ∧
        ¬ bytes.toByteArray.IsValidUTF8 := by
  obtain ⟨written, heq, hnames⟩ | ⟨scheme, rest, heq, hfirst, hne⟩ := sourcePath?_cases source
  · rw [heq, exists_decodePath_eq_encoding_iff]
    simp [hnames, decodes_iff]
  · simp [heq, not_names hfirst hne]

/-! ## Sources of encoded paths -/

/-- The first `://` of such a text is the one after `file`. -/
theorem isFirstCut_file (written : List Char) :
    IsFirstCut schemeEnd ("file://".toList ++ written) "file".toList written :=
  cutAt?_eq_some_iff.1 rfl

/-- The scheme has no blanks before it. -/
theorem trim_file_append (h : trim written = written) :
    trim ("file://".toList ++ written) = "file://".toList ++ written := by
  obtain ⟨-, hlast⟩ := trim_eq_self_iff.1 h
  rw [trim_eq_self_iff]
  refine ⟨fun c hc => ?_, fun c hc => ?_⟩
  · cases hc
    rfl
  · rw [List.getLast?_append, Option.mem_def, Option.or_eq_some_iff] at hc
    obtain hc | ⟨-, hc⟩ := hc
    · exact hlast c hc
    · cases hc
      rfl

/-- An encoded path is the path of its text, with the scheme and, if it has no `://`, without. -/
theorem sourcePath?_of_encodesPath {p e : String} (h : EncodesPath p.toList e.toList) :
    sourcePath? ("file://" ++ e) = .ok p ∧ (¬ schemeEnd <:+: e.toList → sourcePath? e = .ok p) := by
  refine ⟨sourcePath?_eq_ok_iff.2 ⟨e.toList, ?_, h.decodes⟩, fun hplain => ?_⟩
  · rw [String.toList_append, trim_file_append h.trim_eq]
    exact .file (isFirstCut_file e.toList)
  · rw [sourcePath?_eq_ok_iff, h.trim_eq]
    exact ⟨e.toList, .plain hplain, h.decodes⟩

/-- A source stands for the path that it encodes, with or without the scheme `file`, whatever is
escaped besides percent signs and white space at the ends. It fails in two ways only: another scheme
stands before the first `://`, or the bytes are not UTF-8. -/
theorem sourcePath?_encoded :
    (∀ p e : String, EncodesPath p.toList e.toList →
      sourcePath? ("file://" ++ e) = .ok p ∧
      (¬ schemeEnd <:+: e.toList → sourcePath? e = .ok p)) ∧
    ∀ source : String,
      (∀ p, sourcePath? source = .ok p ↔
        ∃ written, Names (trim source.toList) written ∧ Decodes written (Utf8.encode p)) ∧
      (∀ scheme, sourcePath? source = .error (.unsupportedScheme scheme) ↔
        scheme ≠ "file" ∧ ∃ rest, IsFirstCut schemeEnd (trim source.toList) scheme.toList rest) ∧
      ((∃ fault, sourcePath? source = .error (.encoding fault)) ↔
        ∃ written bytes, Names (trim source.toList) written ∧ Decodes written bytes ∧
          ¬ bytes.toByteArray.IsValidUTF8) :=
  ⟨fun _ _ => sourcePath?_of_encodesPath, fun _ => ⟨fun _ => sourcePath?_eq_ok_iff,
    fun _ => sourcePath?_eq_unsupportedScheme_iff, exists_sourcePath?_eq_encoding_iff⟩⟩

/-- A path with blanks, a letter of two bytes and a percent sign, encoded. -/
theorem sourcePath?_encoded_blank :
    EncodesPath " é%".toList "%20%C3%a9%25".toList ∧
      sourcePath? ("file://" ++ "%20%C3%a9%25") = .ok " é%" ∧
      sourcePath? "%20%C3%a9%25" = .ok " é%" := by
  have hblank : Escapes [0x20] ['%', '2', '0'] :=
    .cons (m := 2) (n := 0) (by decide) (by decide) rfl .nil
  have hletter : Escapes [0xC3, 0xA9] ['%', 'C', '3', '%', 'a', '9'] :=
    .cons (m := 12) (n := 3) (by decide) (by decide) rfl
      (.cons (m := 10) (n := 9) (by decide) (by decide) rfl .nil)
  have hpercent : Escapes [0x25] ['%', '2', '5'] :=
    .cons (m := 2) (n := 5) (by decide) (by decide) rfl .nil
  have hfront : Encodes (fun _ => False) [' '] "%20".toList :=
    .escaped (c := ' ') hblank .nil
  have hwritten : Encodes (· ≠ '%') ['é', '%'] "%C3%a9%25".toList :=
    .escaped (c := 'é') hletter (.escaped (c := '%') hpercent .nil)
  have hpath : EncodesPath " é%".toList "%20%C3%a9%25".toList :=
    .mk (List.forall_mem_singleton.2 (by decide)) (List.forall_mem_nil _) (by decide) hfront
      hwritten .nil
  obtain ⟨hfile, hplain⟩ := sourcePath?_encoded.1 " é%" "%20%C3%a9%25" hpath
  exact ⟨hpath, hfile, hplain (cutAt?_eq_none_iff.1 (by decide))⟩

end Copy

end LayoutEngine
