import LayoutEngine.Layout.Source
import LayoutEngine.Proofs.JsonText

/-!
# Saving a layout source and loading it again

A source that has been read from a text is read again from the text it is saved as, and is the same,
if none of its nodes is 63 levels of children below the root; if one is, the saved text is refused
(`LayoutSource.reload_saved`). For a node is saved with its attributes also if it has none, as a
list one level deeper than the node, and a node so far below is at the last level there is.

What a reader has given satisfies `LayoutSource.Held`: its values fit into the levels that they have
been read with. So all that can be refused in the saved text are the lists of the deepest nodes.
-/

namespace LayoutEngine

open Json

/-! ## Lists of records -/

section

variable {α : Type} {β : Type}

/-- What is read from items is read from one of them. -/
theorem forall_mem_of_mapM {read : α → Option β} {items : List α} {xs : List β}
    (h : items.mapM read = some xs) : ∀ x ∈ xs, ∃ item ∈ items, read item = some x := by
  induction items generalizing xs with
  | nil =>
    cases h
    exact fun x hx => absurd hx List.not_mem_nil
  | cons item rest ih =>
    rw [List.mapM_cons] at h
    obtain ⟨x, hx, h⟩ := Option.bind_eq_some_iff.1 h
    obtain ⟨more, hmore, h⟩ := Option.bind_eq_some_iff.1 h
    cases h
    intro y hy
    rcases List.mem_cons.1 hy with rfl | hy
    · exact ⟨item, List.mem_cons_self, hx⟩
    · obtain ⟨other, hother, hread⟩ := ih hmore y hy
      exact ⟨other, List.mem_cons_of_mem _ hother, hread⟩

/-- Items are read back from what they are written as if each of them is. -/
theorem mapM_map_ite {write : β → α} {read : α → Option β} (p : β → Prop) [DecidablePred p]
    {xs : List β} (h : ∀ x ∈ xs, read (write x) = if p x then some x else none) :
    (xs.map write).mapM read = if ∀ x ∈ xs, p x then some xs else none := by
  induction xs with
  | nil => rfl
  | cons x rest ih =>
    obtain ⟨hx, hrest⟩ := List.forall_mem_cons.1 h
    rw [List.map_cons, List.mapM_cons, hx, ih hrest, if_congr List.forall_mem_cons rfl rfl]
    split
    · split <;> simp_all
    · simp_all

end

namespace Json

/-- The members of a written object under their names. -/
theorem decodeKeys?_membersDocuments (members : List (String × Json)) :
    Document.decodeKeys? (membersDocuments members) =
      some (members.map fun member => (member.1, member.2.document)) := by
  induction members with
  | nil => rfl
  | cons member rest ih =>
    rw [Document.decodeKeys?] at ih
    rw [membersDocuments, Document.decodeKeys?, List.mapM_cons, ih]
    dsimp only
    rw [unitText?_units]
    rfl

/-- The fields of an object are looked up among its members. -/
theorem fields?_document (names : List String) (members : List (String × Json)) :
    (Json.object members).document.fields? names =
      names.mapM (Document.objectField?
        (members.map fun member => (member.1, member.2.document))) := by
  rw [document, Document.fields?, decodeKeys?_membersDocuments]
  rfl

/-- A text is read back. -/
theorem text?_document (s : String) : (Json.string s).document.text? = some s := unitText?_units s

/-- The documents of items are those of each. -/
theorem itemsDocuments_eq_map (items : List Json) : itemsDocuments items = items.map document := by
  induction items with
  | nil => rfl
  | cons item rest ih => rw [itemsDocuments, ih, List.map_cons]

end Json

namespace AttributeSource

variable {levels : Nat}

/-- An attribute is read with all levels but its own for its value. -/
theorem exists_of_read? {document : Json.Document} {source : AttributeSource}
    (h : read? levels document = some source) :
    ∃ below value, levels = below + 1 ∧ Json.Document.json? below value = some source.value := by
  cases levels with
  | zero => cases h
  | succ below =>
    rw [read?] at h
    obtain ⟨fields, -, h⟩ := Option.bind_eq_some_iff.1 h
    split at h
    · next id value =>
      obtain ⟨text, -, h⟩ := Option.bind_eq_some_iff.1 h
      obtain ⟨json, hjson, h⟩ := Option.bind_eq_some_iff.1 h
      cases h
      exact ⟨below, value, rfl, hjson⟩
    · cases h

/-- An attribute whose value fits is read back. -/
theorem read?_document {source : AttributeSource} (h : source.value.Fits levels) :
    read? (levels + 1) source.json.document = some source := by
  have hfields : source.json.document.fields? ["id", "value"] =
      some [some (Json.string source.id).document, some source.value.document] := by
    rw [json, fields?_document]
    rfl
  rw [read?, hfields, Option.bind_eq_bind, Option.bind_some]
  dsimp only
  rw [text?_document, h]
  rfl

end AttributeSource

namespace LayoutSource

/-! ## How deep a source is -/

mutual

/-- How many levels of children a source has. -/
def height : LayoutSource → Nat
  | ⟨_, _, children⟩ => childrenHeight children
termination_by structural source => source

/-- How many levels several sources have below the one that they are children of. -/
def childrenHeight : List LayoutSource → Nat
  | [] => 0
  | child :: rest => max (height child + 1) (childrenHeight rest)
termination_by structural children => children

end

/-- A source is no higher than its children and itself. -/
theorem height_lt_succ_iff {n : Nat} {source : LayoutSource} :
    source.height < n + 1 ↔ ∀ child ∈ source.children, child.height < n := by
  obtain ⟨viewType, attributes, children⟩ := source
  rw [height]
  induction children with
  | nil => simp [childrenHeight]
  | cons child rest ih =>
    rw [childrenHeight, List.forall_mem_cons, ← ih]
    omega

/-! ## What is saved -/

/-- The children are saved one by one. -/
theorem childrenJson_eq_map (children : List LayoutSource) :
    childrenJson children = children.map json := by
  induction children with
  | nil => rfl
  | cons child rest ih => rw [childrenJson, ih, List.map_cons]

/-- The children as they are saved, if there are any. -/
def savedChildren (source : LayoutSource) : List (String × Json) :=
  if source.children = [] then [] else [("children", .array (source.children.map json))]

/-- A source is saved as an object of its type, its attributes and its children, if it has any. -/
theorem json_eq (source : LayoutSource) :
    source.json = .object (("type", .string source.viewType) ::
      ("attributes", .array (source.attributes.map AttributeSource.json)) ::
        source.savedChildren) := by
  obtain ⟨viewType, attributes, _ | ⟨child, rest⟩⟩ := source
  · rfl
  · rw [savedChildren, if_neg (List.cons_ne_nil _ _), ← childrenJson_eq_map]
    rfl

/-- The values of an attribute are among those of the saved source. -/
theorem mem_values_attribute {source : LayoutSource} {a : AttributeSource}
    (ha : a ∈ source.attributes) {v : Json} (hv : v ∈ a.value.values) : v ∈ source.json.values := by
  have hlist : v ∈ (Json.array (source.attributes.map AttributeSource.json)).values :=
    List.mem_cons_of_mem _ (mem_itemsValues.2 ⟨a.json, List.mem_map_of_mem ha,
      List.mem_cons_of_mem _ (mem_membersValues.2 ⟨("value", a.value), by simp, hv⟩)⟩)
  rw [json_eq]
  exact List.mem_cons_of_mem _ (mem_membersValues.2 ⟨_, .tail _ (.head _), hlist⟩)

/-- The values of a child are among those of the saved source. -/
theorem mem_values_child {source child : LayoutSource} (hchild : child ∈ source.children) {v : Json}
    (hv : v ∈ child.json.values) : v ∈ source.json.values := by
  have hlist : v ∈ (Json.array (source.children.map json)).values :=
    List.mem_cons_of_mem _ (mem_itemsValues.2 ⟨child.json, List.mem_map_of_mem hchild, hv⟩)
  have hmember : ("children", Json.array (source.children.map json)) ∈ source.savedChildren := by
    rw [savedChildren, if_neg (List.ne_nil_of_mem hchild)]
    exact List.mem_singleton_self _
  rw [json_eq]
  exact List.mem_cons_of_mem _ (mem_membersValues.2 ⟨_, .tail _ (.tail _ hmember), hlist⟩)

/-! ## What has been read -/

/-- A source is read from its fields, its parts from one level fewer. -/
theorem read?_succ (levels : Nat) (document : Json.Document) :
    read? (levels + 1) document = (document.fields? ["type", "attributes", "children"]).bind
      fun
      | [some type, attributes, children] => do
        return ⟨← type.text?, ← listed? AttributeSource.read? levels attributes,
          ← listed? read? levels children⟩
      | _ => none := by
  rw [read?, children?_eq_listed?]
  rfl

/-- Where there is no list there is nothing in it. -/
theorem listed?_none {α : Type} (read : Nat → Json.Document → Option α) (levels : Nat) :
    listed? read levels none = some [] := by
  cases levels <;> rfl

/-- Each item of a list has been read with one level less than the list. -/
theorem forall_mem_of_listed? {α : Type} {read : Nat → Json.Document → Option α} {levels : Nat}
    {field : Option Json.Document} {xs : List α} (h : listed? read levels field = some xs) :
    ∀ x ∈ xs, ∃ below item, levels = below + 1 ∧ read below item = some x := by
  rcases field with _ | document
  · cases h
    exact fun x hx => absurd hx List.not_mem_nil
  · cases levels with
    | zero => cases h
    | succ below =>
      obtain ⟨items, -, h⟩ := Option.bind_eq_some_iff.1 h
      intro x hx
      obtain ⟨item, -, hitem⟩ := forall_mem_of_mapM h x hx
      exact ⟨below, item, rfl, hitem⟩

/-- The attributes and the children of a source are read from one level fewer. -/
theorem listed?_of_read? {levels : Nat} {document : Json.Document} {source : LayoutSource}
    (h : read? (levels + 1) document = some source) : ∃ attributes children,
      listed? AttributeSource.read? levels attributes = some source.attributes ∧
        listed? read? levels children = some source.children := by
  rw [read?_succ] at h
  obtain ⟨fields, -, h⟩ := Option.bind_eq_some_iff.1 h
  split at h
  · obtain ⟨viewType, -, h⟩ := Option.bind_eq_some_iff.1 h
    obtain ⟨attributes, hattributes, h⟩ := Option.bind_eq_some_iff.1 h
    obtain ⟨children, hchildren, h⟩ := Option.bind_eq_some_iff.1 h
    cases h
    exact ⟨_, _, hattributes, hchildren⟩
  · cases h

/-- A source whose nodes are at most so many steps below its root, with attributes only before the
last step, and whose values fit in. A step takes two levels, for the list of children and the child;
so do the list of attributes and an attribute. -/
def Held : Nat → LayoutSource → Prop
  | 0, source => source.attributes = [] ∧ source.children = []
  | steps + 1, source =>
    (∀ a ∈ source.attributes, a.value.Fits (2 * steps)) ∧
      ∀ child ∈ source.children, Held steps child

/-- What has been read at so many levels is held by them, if its values read back. -/
theorem held_of_read? {steps : Nat} {document : Json.Document} {source : LayoutSource}
    (h : read? (2 * steps + 1) document = some source)
    (hvalues : ∀ v ∈ source.json.values, v.ReadsBack) : Held steps source := by
  induction steps generalizing document source with
  | zero =>
    obtain ⟨attributes, children, hattributes, hchildren⟩ := listed?_of_read? h
    constructor
    · refine List.eq_nil_iff_forall_not_mem.2 fun a ha => ?_
      obtain ⟨below, -, hbelow, -⟩ := forall_mem_of_listed? hattributes a ha
      cases hbelow
    · refine List.eq_nil_iff_forall_not_mem.2 fun child hchild => ?_
      obtain ⟨below, -, hbelow, -⟩ := forall_mem_of_listed? hchildren child hchild
      cases hbelow
  | succ steps ih =>
    obtain ⟨attributes, children, hattributes, hchildren⟩ := listed?_of_read? h
    constructor
    · intro a ha
      obtain ⟨below, item, hbelow, hread⟩ := forall_mem_of_listed? hattributes a ha
      obtain ⟨levels, value, rfl, hvalue⟩ := AttributeSource.exists_of_read? hread
      obtain rfl : levels = 2 * steps := by omega
      exact fits_of_json? value hvalue fun v hv => hvalues v (mem_values_attribute ha hv)
    · intro child hchild
      obtain ⟨below, item, hbelow, hread⟩ := forall_mem_of_listed? hchildren child hchild
      obtain rfl : below = 2 * steps + 1 := by omega
      exact ih hread fun v hv => hvalues v (mem_values_child hchild hv)

/-! ## Reading what has been saved -/

/-- Under its three names a saved source holds its type, its attributes, and its children if it has
some. -/
theorem fields?_json (source : LayoutSource) :
    source.json.document.fields? ["type", "attributes", "children"] =
      some [some (Json.string source.viewType).document,
        some (Json.array (source.attributes.map AttributeSource.json)).document,
        if source.children = [] then none
          else some (Json.array (source.children.map json)).document] := by
  rw [json_eq, fields?_document, savedChildren]
  split <;> rfl

/-- A saved list is read one level down. -/
theorem listed?_array {α : Type} (read : Nat → Json.Document → Option α) (levels : Nat)
    (items : List Json) : listed? read (levels + 1) (some (Json.array items).document) =
      (items.map Json.document).mapM (read levels) := by
  rw [Json.document, itemsDocuments_eq_map]
  rfl

/-- A source that fits is read back from what it is saved as if it has fewer levels of children than
there are steps. -/
theorem read?_json {steps : Nat} {source : LayoutSource} (h : Held steps source) :
    read? (2 * steps + 1) source.json.document =
      if source.height < steps then some source else none := by
  induction steps generalizing source with
  | zero =>
    -- The list of attributes is there, with or without any, and no level is left for it.
    rw [read?_succ, fields?_json]
    simp [text?_document, listed?]
  | succ steps ih =>
    obtain ⟨hattributes, hchildren⟩ := h
    have hattributes' : listed? AttributeSource.read? (2 * steps + 2)
        (some (Json.array (source.attributes.map AttributeSource.json)).document) =
          some source.attributes := by
      rw [listed?_array, List.map_map, mapM_map_ite fun _ => True]
      · exact if_pos fun _ _ => trivial
      · intro a ha
        exact (AttributeSource.read?_document (hattributes a ha)).trans (if_pos trivial).symm
    have hchildren' : listed? read? (2 * steps + 2) (if source.children = [] then none
          else some (Json.array (source.children.map json)).document) =
        if source.height < steps + 1 then some source.children else none := by
      rw [if_congr height_lt_succ_iff rfl rfl]
      split
      · next hnone =>
        rw [hnone]
        rfl
      · rw [listed?_array, List.map_map, mapM_map_ite fun child => child.height < steps]
        exact fun child hchild => ih (hchildren child hchild)
    rw [Nat.mul_succ, read?_succ, fields?_json]
    simp only [Option.bind_some, text?_document, hattributes', hchildren', Option.bind_eq_bind]
    obtain ⟨viewType, attributes, children⟩ := source
    split <;> rfl

/-- What a printed text is read as depends on its document. -/
theorem ofText?_text_eq_read? {json : Json} (h : ∀ v ∈ json.values, v.ReadsBack) :
    ofText? json.text = read? (2 * 63 + 1) json.document := by
  rw [ofText?, Document.read?_text h]
  rfl

/-- A source that has been read from a text is read back from the text it is saved as if none of its
nodes is 63 levels of children below the root, and else that text is refused. -/
theorem reload_saved {text : String} {source : LayoutSource} (h : ofText? text = some source)
    (hvalues : ∀ v ∈ source.json.values, v.ReadsBack) :
    ofText? source.json.text = if source.height < 63 then some source else none := by
  obtain ⟨document, -, hread : read? (2 * 63 + 1) document = some source⟩ :=
    Option.bind_eq_some_iff.1 h
  rw [ofText?_text_eq_read? hvalues]
  exact read?_json (held_of_read? hread hvalues)

/-! ### A text of its own size -/

/-- The size 14.5. -/
def size : Double := ⟨0x402d000000000000⟩

/-- A text of that size. -/
def sizedText : LayoutSource := ⟨"text", [⟨"textSize", .float size⟩], []⟩

/-- The text of a layout whose size is no integer. -/
def sizedDocument : String :=
  "\x7b\"type\": \"text\", \"attributes\": [\x7b\"id\": \"textSize\", \"value\": 14.5\x7d]\x7d"

/-- The size is read as a float. -/
theorem json?_size :
    NumberLiteral.json? ⟨false, [1, 4], some [5], none⟩ = some (.float size) := rfl

/-- The size reads back. -/
theorem readsBack_size : (Json.float size).ReadsBack :=
  ⟨⟨false, [1, 4], some [5], none⟩, by decide +kernel, json?_size⟩

/-- The text is that of the layout. -/
theorem ofText?_sizedDocument : ofText? sizedDocument = some sizedText := by
  have hdocument : Document.read? sizedDocument = some (.object
      [("type".toList.map .char, .string ("text".toList.map .char)),
        ("attributes".toList.map .char, .array [.object
          [("id".toList.map .char, .string ("textSize".toList.map .char)),
            ("value".toList.map .char, .number ⟨false, [1, 4], some [5], none⟩)]])]) := by
    cbv
  rw [ofText?, hdocument]
  simp [maxLevels, read?_succ, AttributeSource.read?, listed?, Document.fields?,
    Document.decodeKeys?, Document.objectField?, Document.membersNamed, Document.text?, unitText?,
    unitChars?, Document.items?, Document.json?, json?_size, sizedText]

/-- A text with a size is read back from what it is saved as. -/
theorem reload_saved_sizedDocument : ofText? sizedDocument = some sizedText ∧
    (∀ v ∈ sizedText.json.values, v.ReadsBack) ∧
      ofText? sizedText.json.text = some sizedText := by
  have hvalues : ∀ v ∈ sizedText.json.values, v.ReadsBack := by
    simpa [sizedText, json_eq, savedChildren, AttributeSource.json, values, membersValues,
      itemsValues, ReadsBack] using readsBack_size
  exact ⟨ofText?_sizedDocument, hvalues,
    (reload_saved ofText?_sizedDocument hvalues).trans (if_pos (by decide))⟩

/-! ### Panels without attributes -/

/-- Panels without attributes, each the only child of the one around it. -/
def panels : Nat → LayoutSource
  | 0 => ⟨"relative-layout", [], []⟩
  | n + 1 => ⟨"relative-layout", [], [panels n]⟩

/-- The panels as one may write them, with nothing about attributes. -/
def bareJson : Nat → Json
  | 0 => .object [("type", .string "relative-layout")]
  | n + 1 => .object [("type", .string "relative-layout"), ("children", .array [bareJson n])]

/-- Panels in panels are as high as there are panels. -/
theorem height_panels (n : Nat) : (panels n).height = n := by
  induction n with
  | zero => rfl
  | succ n ih => rw [panels, height, childrenHeight, childrenHeight, ih, Nat.max_zero]

/-- There are no values in panels but such as read back. -/
theorem readsBack_panels (n : Nat) : ∀ v ∈ (panels n).json.values, v.ReadsBack := by
  induction n with
  | zero => simp [panels, json, values, membersValues, itemsValues, ReadsBack]
  | succ n ih =>
    simpa [panels, json, childrenJson, values, membersValues, itemsValues, ReadsBack] using ih

/-- Nor are there in what they are saved as. -/
theorem readsBack_bareJson (n : Nat) : ∀ v ∈ (bareJson n).values, v.ReadsBack := by
  induction n with
  | zero => simp [bareJson, values, membersValues, ReadsBack]
  | succ n ih => simpa [bareJson, values, membersValues, itemsValues, ReadsBack] using ih

/-- Written with nothing about attributes, panels take one level and two for each step down. -/
theorem read?_bareJson (n : Nat) : read? (2 * n + 1) (bareJson n).document = some (panels n) := by
  induction n with
  | zero =>
    rw [read?_succ, bareJson, fields?_document]
    simp [Document.objectField?, Document.membersNamed, text?_document, listed?_none, panels]
  | succ n ih =>
    have hchildren : listed? read? (2 * n + 2) (some (Json.array [bareJson n]).document) =
        some [panels n] := by
      rw [listed?_array, List.map_cons, List.map_nil, List.mapM_cons, ih]
      rfl
    rw [Nat.mul_succ, read?_succ, bareJson, fields?_document]
    simp [Document.objectField?, Document.membersNamed, text?_document, listed?_none, hchildren,
      panels]

/-- Panels so deep are read, but not from the text that they are saved as. -/
theorem not_reload_saved_panels : ofText? (bareJson 63).text = some (panels 63) ∧
    (∀ v ∈ (panels 63).json.values, v.ReadsBack) ∧ ofText? (panels 63).json.text = none := by
  have hread := read?_bareJson 63
  have hheld := held_of_read? hread (readsBack_panels 63)
  refine ⟨?_, readsBack_panels 63, ?_⟩
  · rw [ofText?_text_eq_read? (readsBack_bareJson 63), hread]
  · rw [ofText?_text_eq_read? (readsBack_panels 63), read?_json hheld, height_panels]
    rfl

end LayoutSource

end LayoutEngine
