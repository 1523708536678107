import LayoutEngine.Proofs.JsonToken

/-!
# Reading what has been printed

The text of a JSON value is a document of the grammar (`Json.Document.read?_text`): the reader takes
it for the one that the printer has spelt out (`Json.document`). A value that a document has given
is given again by its own, within the same levels (`Json.fits_of_json?`). Of floating-point numbers
it has to be known that their texts are numbers and mean them (`Json.ReadsBack`), since not every
number is read back that has been printed.
-/

namespace LayoutEngine

namespace Json

open Reader

/-! ## Values -/

mutual

/-- A value and all values in it. -/
def values : Json → List Json
  | .array items => .array items :: itemsValues items
  | .object members => .object members :: membersValues members
  | json => [json]
termination_by structural json => json

/-- The values in the items of an array. -/
def itemsValues : List Json → List Json
  | [] => []
  | item :: rest => values item ++ itemsValues rest
termination_by structural items => items

/-- The values in the members of an object. -/
def membersValues : List (String × Json) → List Json
  | [] => []
  | (_, item) :: rest => values item ++ membersValues rest
termination_by structural members => members

end

mutual

/-- The document that a value is written as. -/
def document : Json → Document
  | .null => .null
  | .bool b => .bool b
  | .int n => .number (literal n)
  | .float x =>
    match number? (FloatStyle.json.text x).toList with
    | some (n, _) => .number n
    | none => .null
  | .string s => .string (s.toList.map unitOf)
  | .array items => .array (itemsDocuments items)
  | .object members => .object (membersDocuments members)
termination_by structural json => json

/-- The documents of the items of an array. -/
def itemsDocuments : List Json → List Document
  | [] => []
  | item :: rest => document item :: itemsDocuments rest
termination_by structural items => items

/-- The documents of the members of an object, with their keys. -/
def membersDocuments : List (String × Json) → List (List TextUnit × Document)
  | [] => []
  | (key, item) :: rest => (key.toList.map unitOf, document item) :: membersDocuments rest
termination_by structural members => members

end

/-- A value may be written and read again: a floating-point number may if its text is that of a
number and means it, any other value may. -/
def ReadsBack : Json → Prop
  | .float x =>
    ∃ n, number? (FloatStyle.json.text x).toList = some (n, []) ∧ n.json? = some (.float x)
  | _ => True

/-- A float is spelled as the number that its text is read as. -/
theorem document_float {x : Double} {n : NumberLiteral}
    (h : number? (FloatStyle.json.text x).toList = some (n, [])) :
    document (.float x) = .number n := by
  rw [document, h]

/-- White space, and what tells other things in a text from numbers. -/
def otherStarts : List Char := [' ', '\t', '\n', '\r', 'n', 't', 'f', '"', '[', ']', '\x7b']

/-- A number starts with a minus sign or a digit. -/
theorem exists_cons_of_number? {cs more : List Char} {n : NumberLiteral}
    (h : number? cs = some (n, more)) : ∃ c cs', cs = c :: cs' ∧ c ∉ otherStarts := by
  obtain ⟨more₁, more₂, hwhole, -⟩ := number?_eq_some_iff.1 h
  cases cs with
  | nil => cases hwhole
  | cons c cs =>
    refine ⟨c, cs, rfl, fun hmem => ?_⟩
    have hother : (otherStarts.all fun c => c ≠ '-' ∧ Numeral.digit? c = none) = true := rfl
    obtain ⟨hminus, hdigit⟩ := of_decide_eq_true (List.all_eq_true.1 hother c hmem)
    rw [numberSign_of_ne hminus] at hwhole
    obtain ⟨hspan, hne, -⟩ := whole?_eq_some_iff.1 hwhole
    rw [spanDigits_cons, hdigit] at hspan
    exact absurd (Prod.mk.inj hspan).1.symm hne

/-- What a value starts with is no white space. -/
theorem isSpace_of_notMem {c : Char} (h : c ∉ otherStarts) : isSpace c = false := by
  simp_all [otherStarts, isSpace]

/-- There is nothing to skip in front of anything else than white space. -/
theorem skipSpace_cons {c : Char} (h : isSpace c = false) (cs : List Char) :
    skipSpace (c :: cs) = c :: cs := by
  rw [skipSpace, List.dropWhile_cons_of_neg (by simp [h])]

/-- No text of a value starts with white space or a closing bracket. -/
theorem exists_cons_chars {json : Json} (h : json.ReadsBack) :
    ∃ c cs, json.chars = c :: cs ∧ isSpace c = false ∧ c ≠ ']' := by
  have hnumber : ∀ {cs more n}, number? cs = some (n, more) →
      ∃ c cs', cs = c :: cs' ∧ isSpace c = false ∧ c ≠ ']' := by
    intro cs more n hcs
    obtain ⟨c, cs', rfl, hc⟩ := exists_cons_of_number? hcs
    refine ⟨c, cs', rfl, isSpace_of_notMem hc, ?_⟩
    rintro rfl
    exact hc (by decide)
  cases json with
  | null => exact ⟨_, _, rfl, rfl, by decide⟩
  | bool b => cases b <;> exact ⟨_, _, rfl, rfl, by decide⟩
  | int n => exact hnumber (number?_decimal n)
  | float x =>
    obtain ⟨n, hn, -⟩ := h
    exact hnumber hn
  | string s => exact ⟨_, _, rfl, rfl, by decide⟩
  | array items => exact ⟨_, _, rfl, rfl, by decide⟩
  | object members => exact ⟨_, _, rfl, rfl, by decide⟩

/-- Where a number can be read, it is. -/
theorem value_number {cs more : List Char} {n : NumberLiteral} (h : number? cs = some (n, more))
    (fuel : Nat) : Reader.value (fuel + 1) cs = some (.number n, more) := by
  obtain ⟨c, cs', rfl, hc⟩ := exists_cons_of_number? h
  rw [Reader.value.eq_def]
  dsimp only
  rw [skipSpace_cons (isSpace_of_notMem hc)]
  split
  case h_7 => rw [h, Option.map_some]
  all_goals
    next heq =>
      cases heq
      exact absurd (by decide) hc

/-- A number ends at a comma. -/
theorem ends_comma (cs : List Char) : Ends (',' :: cs) := by simp [Ends]

/-- It ends at a bracket. -/
theorem ends_bracket (cs : List Char) : Ends (']' :: cs) := by simp [Ends]

/-- It ends at a brace. -/
theorem ends_brace (cs : List Char) : Ends ('\x7d' :: cs) := by simp [Ends]

/-! ### What the reader does at each delimiter -/

section

variable {fuel : Nat} {cs more rest : List Char} {d : Document} {ds : List Document}
  {key : List TextUnit} {ms : List (List TextUnit × Document)}

/-- After a bracket come items, unless the array is empty. -/
theorem value_bracket {c : Char} (hspace : isSpace c = false) (hc : c ≠ ']') :
    Reader.value (fuel + 1) ('[' :: c :: cs) =
      (Reader.items fuel (c :: cs)).map fun (items, rest) => (.array items, rest) := by
  have hbracket : skipSpace ('[' :: c :: cs) = '[' :: c :: cs := rfl
  rw [Reader.value, hbracket]
  simp only [skipSpace_cons hspace]
  split
  · next heq =>
    cases heq
    exact absurd rfl hc
  · rfl

/-- After a brace come members, unless the object is empty. -/
theorem value_brace :
    Reader.value (fuel + 1) ('\x7b' :: '"' :: cs) =
      (Reader.members fuel ('"' :: cs)).map fun (members, rest) => (.object members, rest) := rfl

/-- The last item of an array. -/
theorem items_last (h : Reader.value fuel cs = some (d, ']' :: rest)) :
    Reader.items (fuel + 1) cs = some ([d], rest) := by
  simp [Reader.items, h, skipSpace, isSpace]

/-- An item of an array, and then more. -/
theorem items_more (h : Reader.value fuel cs = some (d, ',' :: more))
    (hmore : Reader.items fuel more = some (ds, rest)) :
    Reader.items (fuel + 1) cs = some (d :: ds, rest) := by
  simp [Reader.items, h, hmore, skipSpace, isSpace]

/-- The last member of an object. -/
theorem members_last (hkey : stringTail cs = some (key, ':' :: more))
    (h : Reader.value fuel more = some (d, '\x7d' :: rest)) :
    Reader.members (fuel + 1) ('"' :: cs) = some ([(key, d)], rest) := by
  simp [Reader.members, hkey, h, skipSpace, isSpace]

/-- A member of an object, and then more. -/
theorem members_more {more' : List Char} (hkey : stringTail cs = some (key, ':' :: more))
    (h : Reader.value fuel more = some (d, ',' :: more'))
    (hmore : Reader.members fuel more' = some (ms, rest)) :
    Reader.members (fuel + 1) ('"' :: cs) = some ((key, d) :: ms, rest) := by
  simp [Reader.members, hkey, h, hmore, skipSpace, isSpace]

end

/-! ### What the printer writes -/

/-- The text of a last item. -/
theorem itemsChars_last (item : Json) : itemsChars [item] = item.chars ++ [']'] := by
  rw [itemsChars]

/-- The text of an item, and then more. -/
theorem itemsChars_more (item next : Json) (items : List Json) :
    itemsChars (item :: next :: items) = item.chars ++ ',' :: itemsChars (next :: items) := by
  rw [itemsChars]
  exact List.cons_ne_nil _ _

/-- The text of a last member. -/
theorem membersChars_last (key : String) (item : Json) :
    membersChars [(key, item)] = stringChars key ++ (':' :: (item.chars ++ ['\x7d'])) := by
  rw [membersChars, List.append_assoc]
  rfl

/-- The text of a member, and then more. -/
theorem membersChars_more (key : String) (item : Json) (next : String × Json)
    (members : List (String × Json)) :
    membersChars ((key, item) :: next :: members) =
      stringChars key ++ (':' :: (item.chars ++ ',' :: membersChars (next :: members))) := by
  rw [membersChars, List.append_assoc]
  · rfl
  · exact List.cons_ne_nil _ _

/-- A value is among its own values. -/
theorem mem_values (json : Json) : json ∈ json.values := by
  cases json <;> exact List.mem_cons_self

/-- The text of a string, with what follows. -/
theorem stringChars_append (s : String) (cs : List Char) :
    stringChars s ++ cs = '"' :: (s.toList.flatMap escapeChar ++ '"' :: cs) := by
  simp [stringChars]

/-- Where there is fuel for one step more than for the rest, there is fuel for the rest. -/
theorem exists_less (n fuel : Nat) (h : 2 * (n + 1) ≤ fuel + 1) :
    ∃ less, fuel = less + 1 ∧ 2 * n ≤ less + 1 := ⟨fuel - 1, by omega, by omega⟩

mutual

/-- The text of a value is read as the document that has been written. -/
theorem value_chars : ∀ (json : Json), (∀ v ∈ json.values, v.ReadsBack) → ∀ {fuel : Nat},
    2 * json.chars.length ≤ fuel + 1 → ∀ {rest : List Char}, Ends rest →
    Reader.value (fuel + 1) (json.chars ++ rest) = some (json.document, rest)
  | .null, _, _, _, _, _ => rfl
  | .bool true, _, _, _, _, _ => rfl
  | .bool false, _, _, _, _, _ => rfl
  | .int n, _, fuel, _, _, hrest => value_number (number?_append (number?_decimal n) hrest) fuel
  | .float x, h, fuel, _, _, hrest => by
    obtain ⟨n, hn, -⟩ := h _ (List.mem_singleton_self _)
    rw [document_float hn]
    exact value_number (number?_append hn hrest) fuel
  | .string s, _, fuel, _, rest, hrest => by
    rw [chars, stringChars_append, document]
    have hquote : ∀ cs, Reader.value (fuel + 1) ('"' :: cs) =
        (stringTail cs).map fun (units, rest) => (.string units, rest) := fun _ => rfl
    rw [hquote, stringTail_chars, Option.map_some]
  | .array [], _, _, _, _, _ => rfl
  | .array (item :: items), h, fuel, hfuel, rest, hrest => by
    rw [values] at h
    obtain ⟨-, hitems⟩ := List.forall_mem_cons.1 h
    obtain ⟨c, cs, hc, hspace, hbracket⟩ : ∃ c cs, itemsChars (item :: items) ++ rest = c :: cs ∧
        isSpace c = false ∧ c ≠ ']' := by
      obtain ⟨c, cs, hc, hother⟩ := exists_cons_chars (hitems item (by
        rw [itemsValues]
        exact List.mem_append_left _ item.mem_values))
      cases items with
      | nil => exact ⟨c, cs ++ [']'] ++ rest, by rw [itemsChars_last, hc]; rfl, hother⟩
      | cons next items =>
        exact ⟨c, cs ++ ',' :: itemsChars (next :: items) ++ rest, by
          rw [itemsChars_more, hc]
          rfl, hother⟩
    -- The bracket leaves fuel over for two steps a character of what stands behind it.
    obtain ⟨less, rfl, hless⟩ := exists_less (itemsChars (item :: items)).length fuel hfuel
    have hread := items_chars (item :: items) (List.cons_ne_nil _ _) hitems hless rest
    rw [chars, List.cons_append, hc, value_bracket hspace hbracket, ← hc, hread, Option.map_some,
      document]
  | .object [], _, _, _, _, _ => rfl
  | .object (member :: members), h, fuel, hfuel, rest, hrest => by
    rw [values] at h
    obtain ⟨-, hmembers⟩ := List.forall_mem_cons.1 h
    obtain ⟨less, rfl, hless⟩ := exists_less (membersChars (member :: members)).length fuel hfuel
    have hread := members_chars (member :: members) (List.cons_ne_nil _ _) hmembers hless rest
    obtain ⟨cs, hcs⟩ : ∃ cs, membersChars (member :: members) = '"' :: cs := by
      cases members <;> exact ⟨_, rfl⟩
    rw [hcs, List.cons_append] at hread
    rw [chars, hcs, document, List.cons_append, List.cons_append, value_brace, hread,
      Option.map_some]

/-- Items are read back from their text. -/
theorem items_chars : ∀ (items : List Json), items ≠ [] →
    (∀ v ∈ itemsValues items, v.ReadsBack) → ∀ {fuel : Nat},
    2 * (itemsChars items).length ≤ fuel + 1 → ∀ (rest : List Char),
    Reader.items (fuel + 1) (itemsChars items ++ rest) = some (itemsDocuments items, rest)
  | [], hne, _, _, _, _ => absurd rfl hne
  | [item], _, h, fuel, hfuel, rest => by
    rw [itemsValues, List.forall_mem_append] at h
    rw [itemsChars_last] at hfuel ⊢
    rw [List.length_append] at hfuel
    obtain ⟨less, rfl, hless⟩ := exists_less item.chars.length fuel hfuel
    rw [List.append_assoc]
    exact items_last (value_chars item h.1 hless (ends_bracket rest))
  | item :: next :: items, _, h, fuel, hfuel, rest => by
    rw [itemsValues, List.forall_mem_append] at h
    rw [itemsChars_more] at hfuel ⊢
    simp only [List.length_append, List.length_cons] at hfuel
    obtain ⟨less, rfl, hless⟩ :=
      exists_less (item.chars.length + (itemsChars (next :: items)).length) fuel (by omega)
    rw [List.append_assoc]
    exact items_more (value_chars item h.1 (by omega) (ends_comma _))
      (items_chars (next :: items) (List.cons_ne_nil _ _) h.2 (by omega) rest)

/-- Members are read back from their text. -/
theorem members_chars : ∀ (members : List (String × Json)), members ≠ [] →
    (∀ v ∈ membersValues members, v.ReadsBack) → ∀ {fuel : Nat},
    2 * (membersChars members).length ≤ fuel + 1 → ∀ (rest : List Char),
    Reader.members (fuel + 1) (membersChars members ++ rest) = some (membersDocuments members, rest)
  | [], hne, _, _, _, _ => absurd rfl hne
  | [(key, item)], _, h, fuel, hfuel, rest => by
    rw [membersValues, List.forall_mem_append] at h
    rw [membersChars_last] at hfuel ⊢
    simp only [List.length_append, List.length_cons] at hfuel
    obtain ⟨less, rfl, hless⟩ := exists_less item.chars.length fuel (by omega)
    rw [List.append_assoc, stringChars_append, List.cons_append, List.append_assoc]
    exact members_last (stringTail_chars key.toList _)
      (value_chars item h.1 hless (ends_brace rest))
  | (key, item) :: next :: members, _, h, fuel, hfuel, rest => by
    rw [membersValues, List.forall_mem_append] at h
    rw [membersChars_more] at hfuel ⊢
    simp only [List.length_append, List.length_cons] at hfuel
    obtain ⟨less, rfl, hless⟩ :=
      exists_less (item.chars.length + (membersChars (next :: members)).length) fuel (by omega)
    rw [List.append_assoc, stringChars_append, List.cons_append, List.append_assoc]
    exact members_more (stringTail_chars key.toList _)
      (value_chars item h.1 (by omega) (ends_comma _))
      (members_chars (next :: members) (List.cons_ne_nil _ _) h.2 (by omega) rest)

end

/-! ### The whole text -/

/-- The text of a value is the document that has been written. -/
theorem Document.read?_text {json : Json} (h : ∀ v ∈ json.values, v.ReadsBack) :
    Document.read? json.text = some json.document := by
  have hread : Reader.value (2 * json.chars.length + 2) (json.chars ++ []) =
      some (json.document, []) := value_chars json h (by omega) (by simp [Ends])
  rw [List.append_nil] at hread
  rw [Document.read?, text, String.toList_ofList, Document.readChars?, hread]
  rfl

end Json

/-! ## Meaning -/

namespace Entries

variable {α β : Type} [DecidableEq α]

/-- After an entry has been put, there is that one and such as were there before. -/
theorem mem_of_mem_put {key : α} {value : β} {entries : List (α × β)} {pair : α × β}
    (h : pair ∈ put key value entries) : pair = (key, value) ∨ pair ∈ entries := by
  induction entries with
  | nil => exact .inl (List.mem_singleton.1 h)
  | cons first rest ih =>
    rw [put] at h
    split at h
    · exact (List.mem_cons.1 h).imp_right (List.mem_cons_of_mem _)
    · rcases List.mem_cons.1 h with rfl | h
      · exact .inr List.mem_cons_self
      · exact (ih h).imp_right (List.mem_cons_of_mem _)

/-- The table holds nothing but the pairs put into it. -/
theorem mem_of_mem_ofList {pairs : List (α × β)} {pair : α × β} (h : pair ∈ ofList pairs) :
    pair ∈ pairs := by
  suffices hfold : ∀ entries : List (α × β),
      pair ∈ pairs.foldl (fun entries pair => put pair.1 pair.2 entries) entries →
        pair ∈ entries ∨ pair ∈ pairs from (hfold [] h).resolve_left List.not_mem_nil
  clear h
  induction pairs with
  | nil => exact fun _ h => .inl h
  | cons first rest ih =>
    intro entries h
    rcases ih _ h with h | h
    · rcases mem_of_mem_put h with rfl | h
      · exact .inr List.mem_cons_self
      · exact .inl h
    · exact .inr (List.mem_cons_of_mem _ h)

/-- An entry with a new key comes last. -/
theorem put_of_notMem {key : α} {value : β} {entries : List (α × β)} (h : key ∉ keys entries) :
    put key value entries = entries ++ [(key, value)] := by
  induction entries with
  | nil => rfl
  | cons first rest ih =>
    obtain ⟨hfirst, hrest⟩ := not_or.1 (List.mem_cons.not.1 h)
    rw [put, if_neg (Ne.symm hfirst), ih hrest]
    rfl

/-- Pairs of distinct keys are the table that they give. -/
theorem ofList_of_nodup {pairs : List (α × β)} (h : (keys pairs).Nodup) : ofList pairs = pairs := by
  suffices hfold : ∀ entries : List (α × β), (keys (entries ++ pairs)).Nodup →
      pairs.foldl (fun entries pair => put pair.1 pair.2 entries) entries = entries ++ pairs from
    hfold [] h
  clear h
  induction pairs with
  | nil => exact fun entries _ => (List.append_nil entries).symm
  | cons first rest ih =>
    intro entries h
    have hnew : first.1 ∉ keys entries := by
      rw [keys, List.map_append, List.map_cons] at h
      exact fun hmem => List.nodup_append.1 h |>.2.2 _ hmem _ List.mem_cons_self rfl
    rw [List.foldl_cons, put_of_notMem hnew, ih, List.append_assoc]
    · rfl
    · rwa [List.append_assoc]

end Entries

namespace Json

/-- A value is given by its own document, within the levels. -/
def Fits (levels : Nat) (json : Json) : Prop := json.document.json? levels = some json

/-- An integer that is read from a number fits into 64 bits. -/
theorem isWord_of_integer? {n : NumberLiteral} {i : Int} (h : n.integer? = some i) : IsWord i := by
  unfold NumberLiteral.integer? at h
  split at h
  · cases h
  · dsimp only at h
    unfold IsWord
    split at h
    all_goals
      split at h
      · cases h
        omega
      · cases h

/-- A number that reads back fits any number of levels. -/
theorem fits_of_number {n : NumberLiteral} {json : Json} {levels : Nat}
    (h : n.json? = some json) (hjson : json.ReadsBack) : json.Fits levels := by
  unfold NumberLiteral.json? at h
  split at h
  · next i hi =>
    cases h
    have hagain : (literal i).json? = some (.int i) := by
      rw [NumberLiteral.json?, integer?_literal (isWord_of_integer? hi)]
    exact hagain
  · obtain ⟨x, -, rfl⟩ := Option.map_eq_some_iff.1 h
    obtain ⟨m, hm, hagain⟩ := hjson
    rw [Fits, document_float hm, Document.json?, hagain]

/-- Items that fit are the values of their documents. -/
theorem itemsJson?_documents {levels : Nat} {items : List Json}
    (h : ∀ item ∈ items, item.Fits levels) :
    Document.itemsJson? levels (itemsDocuments items) = some items := by
  induction items with
  | nil => rfl
  | cons item rest ih =>
    obtain ⟨hitem, hrest⟩ := List.forall_mem_cons.1 h
    rw [itemsDocuments, Document.itemsJson?, hitem, ih hrest]
    rfl

/-- So are members that fit. -/
theorem membersJson?_documents {levels : Nat} {members : List (String × Json)}
    (h : ∀ member ∈ members, member.2.Fits levels) :
    Document.membersJson? levels (membersDocuments members) = some members := by
  induction members with
  | nil => rfl
  | cons member rest ih =>
    obtain ⟨hmember, hrest⟩ := List.forall_mem_cons.1 h
    rw [membersDocuments, Document.membersJson?, unitText?_units, hmember, ih hrest]
    rfl

/-- The values in items are those in each. -/
theorem mem_itemsValues {v : Json} {items : List Json} :
    v ∈ itemsValues items ↔ ∃ item ∈ items, v ∈ item.values := by
  induction items with
  | nil => simp [itemsValues]
  | cons item rest ih => simp [itemsValues, ih]

/-- The values in members are those in each. -/
theorem mem_membersValues {v : Json} {members : List (String × Json)} :
    v ∈ membersValues members ↔ ∃ member ∈ members, v ∈ member.2.values := by
  induction members with
  | nil => simp [membersValues]
  | cons member rest ih => simp [membersValues, ih]

mutual

/-- What a document has given is given by its own document. -/
theorem fits_of_json? : ∀ (document : Document) {levels : Nat} {json : Json},
    document.json? levels = some json → (∀ v ∈ json.values, v.ReadsBack) → json.Fits levels
  | .null, _, _, h, _ => by
    cases h
    rfl
  | .bool _, _, _, h, _ => by
    cases h
    rfl
  | .number _, _, json, h, hvalues => fits_of_number h (hvalues json json.mem_values)
  | .string _, _, _, h, _ => by
    obtain ⟨s, -, rfl⟩ := Option.map_eq_some_iff.1 h
    rw [Fits, Json.document, Document.json?, unitText?_units]
    rfl
  | .array items, levels + 1, _, h, hvalues => by
    obtain ⟨jsons, hjsons, rfl⟩ := Option.map_eq_some_iff.1 h
    have hagain := itemsJson?_documents fun item hitem =>
      fits_of_itemsJson? items hjsons item hitem fun v hv =>
        hvalues v (List.mem_cons_of_mem _ (mem_itemsValues.2 ⟨item, hitem, hv⟩))
    rw [Fits, Json.document, Document.json?, hagain]
    rfl
  | .object members, levels + 1, _, h, hvalues => by
    obtain ⟨pairs, hpairs, rfl⟩ := Option.map_eq_some_iff.1 h
    have hagain := membersJson?_documents fun member hmember =>
      fits_of_membersJson? members hpairs member (Entries.mem_of_mem_ofList hmember) fun v hv =>
        hvalues v (List.mem_cons_of_mem _ (mem_membersValues.2 ⟨member, hmember, hv⟩))
    rw [Fits, Json.document, Document.json?, hagain, Option.map_some,
      Entries.ofList_of_nodup (Entries.nodup_keys_ofList pairs)]

/-- Items that are read from documents fit if their values read back. -/
theorem fits_of_itemsJson? : ∀ (documents : List Document) {levels : Nat} {items : List Json},
    Document.itemsJson? levels documents = some items → ∀ item ∈ items,
    (∀ v ∈ item.values, v.ReadsBack) → item.Fits levels
  | [], _, _, h, item, hitem, _ => by
    cases h
    cases hitem
  | document :: rest, _, _, h, item, hitem, hvalues => by
    obtain ⟨json, hjson, h⟩ := Option.bind_eq_some_iff.1 h
    obtain ⟨jsons, hjsons, h⟩ := Option.bind_eq_some_iff.1 h
    cases h
    rcases List.mem_cons.1 hitem with rfl | hitem
    · exact fits_of_json? document hjson hvalues
    · exact fits_of_itemsJson? rest hjsons item hitem hvalues

/-- So do members. -/
theorem fits_of_membersJson? : ∀ (documents : List (List TextUnit × Document)) {levels : Nat}
    {members : List (String × Json)}, Document.membersJson? levels documents = some members →
    ∀ member ∈ members, (∀ v ∈ member.2.values, v.ReadsBack) → member.2.Fits levels
  | [], _, _, h, member, hmember, _ => by
    cases h
    cases hmember
  | (_, document) :: rest, _, _, h, member, hmember, hvalues => by
    obtain ⟨key, -, h⟩ := Option.bind_eq_some_iff.1 h
    obtain ⟨json, hjson, h⟩ := Option.bind_eq_some_iff.1 h
    obtain ⟨pairs, hpairs, h⟩ := Option.bind_eq_some_iff.1 h
    cases h
    rcases List.mem_cons.1 hmember with rfl | hmember
    · exact fits_of_json? document hjson hvalues
    · exact fits_of_membersJson? rest hpairs member hmember hvalues

end

end Json

end LayoutEngine
