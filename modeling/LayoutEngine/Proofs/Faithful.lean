import LayoutEngine.Proofs.Compile
import LayoutEngine.Proofs.Trim

/-!
# What a compiled layout tells of its source

Compilation refuses a source exactly if one of its nodes, taken in preorder, has a blank type or an
attribute with a blank name, and the first such node says why (`LayoutSource.fails_compile`). What
it gives, it gives faithfully: with the numbers read back as names, in the table that it leaves or
in any later one, the layout has the types, names, values and texts that were written, in order and
node by node (`LayoutSource.Recovers`).
-/

namespace LayoutEngine

namespace LayoutSource

open Compiler

/-! ## Which sources can be compiled -/

mutual

/-- The nodes of a source, in preorder. -/
def preorder : LayoutSource → List LayoutSource
  | ⟨viewType, attributes, children⟩ =>
    ⟨viewType, attributes, children⟩ :: preorderAll children
termination_by structural source => source

/-- The nodes of several sources, in order. -/
def preorderAll : List LayoutSource → List LayoutSource
  | [] => []
  | child :: rest => preorder child ++ preorderAll rest
termination_by structural children => children

end

/-- A node has a type and each of its attributes a name. -/
def WellNamed (node : LayoutSource) : Prop :=
  ¬ Text.Blank node.viewType ∧ ∀ a ∈ node.attributes, ¬ Text.Blank a.id

/-- What a node by itself is refused for, its type before its attributes. -/
def offence? (node : LayoutSource) : Option LayoutError :=
  if Text.Blank node.viewType then some .emptyType
  else if ∃ a ∈ node.attributes, Text.Blank a.id then some (.emptyAttributeName node.viewType)
  else none

/-- The type of a node comes before its attributes. -/
theorem offence?_eq_or (node : LayoutSource) :
    node.offence? = (if Text.Blank node.viewType then some .emptyType else none).or
      (if ∃ a ∈ node.attributes, Text.Blank a.id then some (.emptyAttributeName node.viewType)
        else none) := by
  unfold offence?
  split <;> rfl

/-- A node comes before those below it. -/
theorem findSome?_preorder (source : LayoutSource) :
    source.preorder.findSome? offence? =
      source.offence?.or ((preorderAll source.children).findSome? offence?) := by
  obtain ⟨viewType, attributes, children⟩ := source
  rw [preorder, List.findSome?_cons]
  cases offence? ⟨viewType, attributes, children⟩ <;> rfl

/-- A node without an offence is well named. -/
theorem offence?_eq_none_iff {node : LayoutSource} : node.offence? = none ↔ node.WellNamed := by
  unfold offence? WellNamed
  split
  · next htype => simp [htype]
  · next htype =>
    split
    · next hname =>
      obtain ⟨a, ha, hblank⟩ := hname
      exact iff_of_false nofun fun h => h.2 a ha hblank
    · next hname => exact iff_of_true rfl ⟨htype, fun a ha hblank => hname ⟨a, ha, hblank⟩⟩

/-- A type is refused if it is blank. -/
theorem fails_ofType (viewType : String) :
    Fails (ExceptT.mk (pure (Layout.ofType viewType)) : Compiler Layout)
      (if Text.Blank viewType then some .emptyType else none) := by
  by_cases hblank : Text.Blank viewType
  · have hof : Layout.ofType viewType = .error .emptyType := if_pos (Text.trim_eq_nil_iff.2 hblank)
    rw [hof, if_pos hblank]
    exact fails_throw _
  · have hof : Layout.ofType viewType = .ok ⟨viewType, [], none⟩ :=
      if_neg fun h => hblank (Text.trim_eq_nil_iff.1 h)
    rw [hof, if_neg hblank]
    exact fails_pure _

/-- An attribute is refused if its name is blank. -/
theorem fails_compileAttribute (viewType : String) (source : AttributeSource) :
    (compileAttribute viewType source).Fails
      (if Text.Blank source.id then some (.emptyAttributeName viewType) else none) := by
  unfold compileAttribute
  dsimp only
  simp only [Text.trimmed_eq_empty_iff]
  split
  · exact (fails_throw _).bind fun _ => (fails_idOf _).bind fun _ => fails_pure _
  · exact (fails_idOf _).bind fun _ => fails_pure _

/-- Attributes are refused if one of the names is blank. -/
theorem fails_compileAttributes (viewType : String) (attributes : List AttributeSource) :
    (compileAttributes viewType attributes).Fails
      (if ∃ a ∈ attributes, Text.Blank a.id then some (.emptyAttributeName viewType)
        else none) := by
  induction attributes with
  | nil => exact fails_pure []
  | cons source rest ih =>
    have h : (compileAttributes viewType (source :: rest)).Fails _ :=
      (fails_compileAttribute viewType source).bind fun _ => ih.bind fun _ => fails_pure _
    convert h using 1
    by_cases hblank : Text.Blank source.id
    · simp [hblank]
    · simp [hblank]

/-- Children are refused for the first offence among all their nodes. -/
theorem fails_compileChildren {children : List LayoutSource}
    (h : ∀ child ∈ children, child.compile.Fails (child.preorder.findSome? offence?)) :
    (compileChildren children).Fails ((preorderAll children).findSome? offence?) := by
  induction children with
  | nil => exact fails_pure []
  | cons child rest ih =>
    have hrest := ih fun c hc => h c (List.mem_cons_of_mem child hc)
    have hall : (compileChildren (child :: rest)).Fails _ :=
      (h child (by simp)).bind fun _ => hrest.bind fun _ => fails_pure _
    rwa [Option.or_none, ← List.findSome?_append] at hall

/-- Compilation fails for what the first node in preorder is refused for of those that are. -/
theorem fails_compile (source : LayoutSource) :
    source.compile.Fails (source.preorder.findSome? offence?) := by
  induction source using induction with
  | step source ih =>
    rw [findSome?_preorder, offence?_eq_or, Option.or_assoc]
    obtain ⟨viewType, attributes, children⟩ := source
    refine (fails_ofType viewType).bind fun l => ?_
    refine (fails_compileAttributes viewType attributes).bind fun declared => ?_
    cases children with
    | nil => exact fails_pure _
    | cons child rest =>
      rw [← Option.or_none (o := List.findSome? _ _)]
      exact (fails_compileChildren ih).bind fun _ => (fails_idOf _).bind fun _ => fails_pure _

/-! ## Reading a layout back -/

/-- The texts of the declared attributes, if any are declared. -/
def texts? (source : LayoutSource) : Option (List Descriptor) :=
  if source.attributes = [] then none
  else some (source.attributes.map fun a => .ofJson (Text.trimmed a.id) a.value)

/-- The attribute in which layouts travel as children: there is one exactly if there are layouts. -/
def TravelIn (u : IdTable) (below : List Layout) (last : List Attribute) : Prop :=
  if below = [] then last = []
  else ∃ id, u.nameOf? id = some Layout.childrenName ∧
    last = [⟨id, .array (below.map Value.layout)⟩]

/-- With its numbers read back as names of a table, a layout has the source's type, each of its
attributes in order under the trimmed name and with the value that was written, their texts, and at
the end the children, which in the same way are those of the source. -/
inductive Recovers (u : IdTable) : LayoutSource → Layout → Prop
  | node {source : LayoutSource} {l : Layout} {own last : List Attribute} {below : List Layout}
    (viewType : l.viewType = source.viewType)
    (attributes : l.attributes = own ++ last)
    (names : own.map (fun a => u.nameOf? a.id) =
      source.attributes.map fun a => some (Text.trimmed a.id))
    (values : own.map Attribute.value = source.attributes.map fun a => .ofJson a.value)
    (tags : l.tags = source.texts?)
    (last : TravelIn u below last)
    (children : List.Forall₂ (Recovers u) source.children below) : Recovers u source l

/-- A compiled attribute is declared as its source has it. -/
theorem descriptor_of_compileAttribute {u : IdTable} {viewType : String} {source : AttributeSource}
    {r : Attribute × Descriptor} (h : compileAttribute viewType source u = (.ok r, u)) :
    r.2 = .ofJson (Text.trimmed source.id) source.value := by
  unfold compileAttribute at h
  dsimp only at h
  split at h
  · cases h
  · obtain ⟨id, -, h⟩ := (stable_idOf _).bind_fixed (fun _ => stable_pure _) h
    cases h
    rfl

/-- Compiled attributes are declared in order. -/
theorem descriptors_of_compileAttributes {u : IdTable} {viewType : String}
    {attributes : List AttributeSource} {rs : List (Attribute × Descriptor)}
    (h : compileAttributes viewType attributes u = (.ok rs, u)) :
    rs.map Prod.snd = attributes.map fun a => .ofJson (Text.trimmed a.id) a.value := by
  induction attributes generalizing rs with
  | nil =>
    cases h
    rfl
  | cons source rest ih =>
    obtain ⟨r, hr, h⟩ := (stable_compileAttribute viewType source).bind_fixed
      (fun _ => (stable_compileAttributes viewType rest).bind fun _ => stable_pure _) h
    obtain ⟨more, hmore, h⟩ :=
      (stable_compileAttributes viewType rest).bind_fixed (fun _ => stable_pure _) h
    cases h
    rw [List.map_cons, List.map_cons, descriptor_of_compileAttribute hr, ih hmore]

/-- Attributes that bear names and values have those names and values. -/
theorem names_of_bears {u : IdTable} {named : List (String × Value)} {own : List Attribute}
    (h : List.Forall₂ (Attribute.Bears u) named own) :
    own.map (fun a => u.nameOf? a.id) = named.map (fun p => some p.1) ∧
      own.map Attribute.value = named.map Prod.snd := by
  induction h with
  | nil => exact ⟨rfl, rfl⟩
  | cons ha _ ih =>
    obtain ⟨hid, hvalue⟩ := ha
    simp only [List.map_cons, ih.1, ih.2, IdTable.get?_eq_some_iff.1 hid, hvalue, and_self]

/-- The children of a layout travel in its last attribute. -/
theorem travelIn_of_bears {u : IdTable} {below : List Layout} {last : List Attribute}
    (h : List.Forall₂ (Attribute.Bears u) (Layout.asChildren below) last) :
    TravelIn u below last := by
  unfold TravelIn
  cases below with
  | nil =>
    cases h
    rfl
  | cons l more =>
    obtain ⟨id, hid, rfl⟩ := Layout.exists_of_bears_asChildren h
    exact ⟨id, IdTable.get?_eq_some_iff.1 hid, rfl⟩

/-- In a table that has all its names, a source is read back from what it is compiled to. -/
theorem recovers_of_fixed {u : IdTable} (source : LayoutSource) :
    ∀ {l : Layout}, source.compile u = (.ok l, u) → source.Recovers u l := by
  induction source using induction with
  | step source ih =>
    intro l h
    obtain ⟨rs, below, last, hrs, hbelow, hlast, rfl⟩ := parts_of_compile h
    obtain ⟨hnames, hvalues⟩ := names_of_bears (bears_of_compileAttributes hrs)
    have hdescriptors := descriptors_of_compileAttributes hrs
    have htags : (if rs = [] then none else some (rs.map Prod.snd)) = source.texts? := by
      have hnil : rs = [] ↔ source.attributes = [] := by
        rw [← List.map_eq_nil_iff (f := Prod.snd), hdescriptors, List.map_eq_nil_iff]
      simp only [texts?, hnil, hdescriptors]
    refine .node rfl rfl ?_ ?_ htags (travelIn_of_bears hlast) ?_
    · simpa [Function.comp_def] using hnames
    · simpa [Function.comp_def] using hvalues
    · have hall := compile_of_compileChildren hbelow
      rw [List.forall₂_iff_zip] at hall ⊢
      exact ⟨hall.1, fun hmem => ih _ (List.of_mem_zip hmem).1 (hall.2 hmem)⟩

/-- Compilation succeeds exactly if every node has a type and names for its attributes, and fails
otherwise for the first node that has not. What it gives is what was written, read in the table it
leaves or in any later one. -/
theorem compile_faithful (source : LayoutSource) (t : IdTable) :
    ((∃ l t', source.compile t = (.ok l, t')) ↔ ∀ node ∈ source.preorder, node.WellNamed) ∧
      (∀ e, (∃ t', source.compile t = (.error e, t')) ↔
        source.preorder.findSome? offence? = some e) ∧
      ∀ l t', source.compile t = (.ok l, t') → ∀ u, t' ≤ u → source.Recovers u l := by
  refine ⟨?_, (fails_compile source).error_iff t, ?_⟩
  · rw [(fails_compile source).ok_iff t, List.findSome?_eq_none_iff]
    simp only [offence?_eq_none_iff]
  · intro l t' h u hu
    exact recovers_of_fixed source (compile_of_le h hu)

end LayoutSource

end LayoutEngine
