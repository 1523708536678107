import LayoutEngine.Layout.Compile
import LayoutEngine.Proofs.Fallible
import LayoutEngine.Proofs.IdTable
import Mathlib.Data.List.Forall2

/-!
# Compiled layouts

Compiling a source numbers its names and, once it has succeeded, gives the same layout again in the
table it leaves and in every later one (`LayoutSource.compile_of_le`). So what a source is compiled
to is said in one table `u` that has all the names: `source.compile u = (.ok l, u)`. In such a table
the layout is read off the source one level at a time (`LayoutSource.describes_of_compile`).
-/

namespace LayoutEngine

/-! ## Steps of compilation -/

namespace Compiler

variable {α β : Type}

/-- The step only adds names, and gives what it has given again in the table it has left and in
every later one. -/
def Stable (x : Compiler α) : Prop :=
  ∀ ⦃t t' : IdTable⦄ ⦃a : α⦄, x t = (.ok a, t') → t ≤ t' ∧ ∀ u, t' ≤ u → x u = (.ok a, u)

/-- A result that is there already changes no names. -/
theorem stable_pure (a : α) : Stable (pure a) := by
  intro t t' b h
  cases h
  exact ⟨le_refl t, fun u _ => rfl⟩

/-- A failure changes no names. -/
theorem stable_throw (e : LayoutError) : Stable (throw e : Compiler α) := by
  intro t t' b h
  cases h

/-- What looks at no names changes none. -/
theorem stable_mk (x : Except LayoutError α) : Stable (ExceptT.mk (pure x) : Compiler α) := by
  cases x with
  | ok a => exact stable_pure a
  | error e => exact stable_throw e

/-- Once a name has a number, asking for it again changes nothing. -/
theorem stable_idOf (name : String) : Stable (idOf name) := by
  intro t t' id h
  have hintern : t.intern name = (id, t') := by
    cases h
    rfl
  have hle := IdTable.le_intern name t
  rw [hintern] at hle
  refine ⟨hle, ?_⟩
  intro u hu
  have hu' : u.intern name = (id, u) := by
    rw [IdTable.intern_eq_of_le (by rw [hintern]; exact hu), hintern]
  show (Except.ok (u.intern name).1, (u.intern name).2) = (Except.ok id, u)
  rw [hu']

/-- Of two stable steps, the one after the other is stable. -/
theorem Stable.bind {x : Compiler α} {f : α → Compiler β} (hx : x.Stable)
    (hf : ∀ a, (f a).Stable) : (x >>= f).Stable := by
  intro t t'' b h
  rw [Fallible.bind_run] at h
  split at h
  · next a t' hxt =>
    obtain ⟨hle, hagain⟩ := hx hxt
    obtain ⟨hle', hagain'⟩ := hf a h
    refine ⟨hle.trans hle', ?_⟩
    intro u hu
    rw [Fallible.bind_run, hagain u (hle'.trans hu)]
    exact hagain' u hu
  · cases h

/-- In a table that it does not change, a step is its parts in that table. -/
theorem Stable.bind_fixed {x : Compiler α} {f : α → Compiler β} (hx : x.Stable)
    (hf : ∀ a, (f a).Stable) {u : IdTable} {b : β} (h : (x >>= f) u = (.ok b, u)) :
    ∃ a, x u = (.ok a, u) ∧ f a u = (.ok b, u) := by
  rw [Fallible.bind_run] at h
  split at h
  · next a t' hxt =>
    obtain rfl : u = t' := le_antisymm (hx hxt).1 (hf a h).1
    exact ⟨a, hxt, h⟩
  · cases h

/-- The step only adds names, also if it fails. -/
def Adds (x : Compiler α) : Prop := ∀ t, t ≤ (x t).2

/-- Of two steps that only add names, the one after the other only adds names. -/
theorem Adds.bind {x : Compiler α} {f : α → Compiler β} (hx : x.Adds) (hf : ∀ a, (f a).Adds) :
    (x >>= f).Adds := by
  intro t
  have hle := hx t
  rw [Fallible.bind_run]
  split
  · next a t' hrun =>
    rw [hrun] at hle
    exact hle.trans (hf a t')
  · next e t' hrun =>
    rw [hrun] at hle
    exact hle

/-- What holds of steps that give something, fail or number a name, and of steps one after the other
if it holds of each. -/
structure Composes (P : ∀ {α : Type}, Compiler α → Prop) : Prop where
  pure : ∀ {α : Type} (a : α), P (pure a : Compiler α)
  throw : ∀ {α : Type} (e : LayoutError), P (throw e : Compiler α)
  idOf : ∀ name, P (idOf name)
  bind : ∀ {α β : Type} {x : Compiler α} {f : α → Compiler β}, P x → (∀ a, P (f a)) → P (x >>= f)

/-- Being stable goes through steps one after the other. -/
theorem composes_stable : Composes Stable :=
  ⟨stable_pure, stable_throw, stable_idOf, Stable.bind⟩

/-- Adding names at most goes through steps one after the other. -/
theorem composes_adds : Composes Adds :=
  ⟨fun _ => le_refl, fun _ => le_refl, IdTable.le_intern, Adds.bind⟩

/-- Why a step fails from a table of names on, if it does. -/
def failure? (x : Compiler α) (t : IdTable) : Option LayoutError :=
  match (x t).1 with
  | .ok _ => none
  | .error e => some e

/-- The step fails for a reason if there is one, and else gives something, whichever names have
numbers. -/
def Fails (x : Compiler α) (reason : Option LayoutError) : Prop := ∀ t, x.failure? t = reason

/-- A result does not fail. -/
theorem fails_pure (a : α) : Fails (pure a) none := fun _ => rfl

/-- A failure fails as it says. -/
theorem fails_throw (e : LayoutError) : Fails (throw e : Compiler α) (some e) := fun _ => rfl

/-- Asking for the number of a name does not fail. -/
theorem fails_idOf (name : String) : Fails (idOf name) none := fun _ => rfl

/-- Of two steps one after the other the first one that fails says why. -/
theorem Fails.bind {x : Compiler α} {f : α → Compiler β} {e e' : Option LayoutError}
    (h : x.Fails e) (hf : ∀ a, (f a).Fails e') : (x >>= f).Fails (e.or e') := by
  intro t
  have hfailure := h t
  unfold failure? at hfailure ⊢
  rw [Fallible.bind_run]
  rcases hx : x t with ⟨error | a, t'⟩
  · rw [hx] at hfailure
    subst hfailure
    rfl
  · rw [hx] at hfailure
    subst hfailure
    exact hf a t'

/-- Such a step fails with its reason and no other. -/
theorem Fails.error_iff {x : Compiler α} {reason : Option LayoutError} (h : x.Fails reason)
    (t : IdTable) (e : LayoutError) : (∃ t', x t = (.error e, t')) ↔ reason = some e := by
  rw [← h t, failure?]
  constructor
  · rintro ⟨t', hx⟩
    rw [hx]
  · intro he
    rcases hx : x t with ⟨error | a, t'⟩
    all_goals rw [hx] at he; cases he
    exact ⟨t', rfl⟩

/-- Such a step has a result if it has no reason to fail. -/
theorem Fails.ok_iff {x : Compiler α} {reason : Option LayoutError} (h : x.Fails reason)
    (t : IdTable) : (∃ a t', x t = (.ok a, t')) ↔ reason = none := by
  rw [← h t, failure?]
  constructor
  · rintro ⟨a, t', hx⟩
    rw [hx]
  · intro he
    rcases hx : x t with ⟨error | a, t'⟩
    all_goals rw [hx] at he; cases he
    exact ⟨a, t', rfl⟩

/-- Whichever names have numbers, the step fails in the same way or gives something. -/
theorem Fails.run {x : Compiler α} {reason : Option LayoutError} (h : x.Fails reason)
    (t u : IdTable) :
    (∃ e t' u', x t = (.error e, t') ∧ x u = (.error e, u')) ∨
      ∃ a t' b u', x t = (.ok a, t') ∧ x u = (.ok b, u') := by
  cases reason with
  | none =>
    obtain ⟨a, t', ht⟩ := (h.ok_iff t).2 rfl
    obtain ⟨b, u', hu⟩ := (h.ok_iff u).2 rfl
    exact .inr ⟨a, t', b, u', ht, hu⟩
  | some e =>
    obtain ⟨t', ht⟩ := (h.error_iff t e).2 rfl
    obtain ⟨u', hu⟩ := (h.error_iff u e).2 rfl
    exact .inl ⟨e, t', u', ht, hu⟩

/-- A number that was asked for without adding a name is that of the name. -/
theorem get?_of_idOf {name : String} {u : IdTable} {id : Int}
    (h : idOf name u = (.ok id, u)) : u.get? name = some id := by
  have hid := congrArg Prod.fst h
  have hu : (u.intern name).2 = u := congrArg Prod.snd h
  have hget := IdTable.get?_intern name u
  rw [hu] at hget
  rw [hget]
  cases hid
  rfl

end Compiler

namespace LayoutSource

open Compiler

/-- Induction on a source and its children. -/
@[elab_as_elim]
theorem induction {P : LayoutSource → Prop}
    (step : ∀ source : LayoutSource, (∀ child ∈ source.children, P child) → P source)
    (source : LayoutSource) : P source :=
  source.rec (motive_1 := P) (motive_2 := fun children => ∀ child ∈ children, P child)
    (fun viewType attributes children ih => step ⟨viewType, attributes, children⟩ ih)
    nofun
    (fun child rest ih ihs => by
      intro c hc
      rcases List.mem_cons.1 hc with rfl | hc
      · exact ih
      · exact ihs c hc)

/-! ## Compiling again -/

section

variable {P : ∀ {α : Type}, Compiler α → Prop} (h : Composes P)
include h

/-- What goes through steps one after the other, and holds of asking for a number, holds of an
attribute. -/
theorem composes_compileAttribute (viewType : String) (source : AttributeSource) :
    P (compileAttribute viewType source) := by
  unfold compileAttribute
  dsimp only
  split
  · exact h.bind (h.throw _) fun _ => h.bind (h.idOf _) fun _ => h.pure _
  · exact h.bind (h.idOf _) fun _ => h.pure _

/-- It holds of attributes then. -/
theorem composes_compileAttributes (viewType : String) (attributes : List AttributeSource) :
    P (compileAttributes viewType attributes) := by
  induction attributes with
  | nil => exact h.pure []
  | cons source rest ih =>
    exact h.bind (composes_compileAttribute h viewType source) fun _ =>
      h.bind ih fun _ => h.pure _

/-- It holds of children if it holds of each. -/
theorem composes_compileChildren {children : List LayoutSource}
    (hchildren : ∀ child ∈ children, P child.compile) : P (compileChildren children) := by
  induction children with
  | nil => exact h.pure []
  | cons child rest ih =>
    obtain ⟨hchild, hrest⟩ := List.forall_mem_cons.1 hchildren
    exact h.bind hchild fun _ => h.bind (ih hrest) fun _ => h.pure _

/-- It holds of a layout then. -/
theorem composes_compile (source : LayoutSource) : P source.compile := by
  induction source using induction with
  | step source ih =>
    obtain ⟨viewType, attributes, children⟩ := source
    have htype : P (ExceptT.mk (pure (Layout.ofType viewType)) : Compiler Layout) := by
      cases Layout.ofType viewType with
      | ok l => exact h.pure l
      | error e => exact h.throw e
    refine h.bind htype fun _ => h.bind (composes_compileAttributes h _ _) fun declared => ?_
    cases children with
    | nil => exact h.pure _
    | cons child rest =>
      exact h.bind (composes_compileChildren h ih) fun _ =>
        h.bind (h.idOf _) fun _ => h.pure _

end

/-- Once the names of an attribute have numbers, it is compiled as before. -/
theorem stable_compileAttribute (viewType : String) (source : AttributeSource) :
    (compileAttribute viewType source).Stable :=
  composes_compileAttribute composes_stable viewType source

/-- So are attributes. -/
theorem stable_compileAttributes (viewType : String) (attributes : List AttributeSource) :
    (compileAttributes viewType attributes).Stable :=
  composes_compileAttributes composes_stable viewType attributes

/-- So are layouts. -/
theorem stable_compile (source : LayoutSource) : source.compile.Stable :=
  composes_compile composes_stable source

/-- So are children. -/
theorem stable_compileChildren (children : List LayoutSource) : (compileChildren children).Stable :=
  composes_compileChildren composes_stable fun child _ => stable_compile child

/-- Compiling a source only adds names, also if it fails. -/
theorem adds_compile (source : LayoutSource) : source.compile.Adds :=
  composes_compile composes_adds source

/-- A source that has been compiled is compiled to the same layout in every later table. -/
theorem compile_of_le {source : LayoutSource} {t t' u : IdTable} {l : Layout}
    (h : source.compile t = (.ok l, t')) (hu : t' ≤ u) : source.compile u = (.ok l, u) :=
  (stable_compile source h).2 u hu

/-! ## What a compiled layout holds -/

/-- The attributes that a source declares, by name. -/
def declared (source : LayoutSource) : List (String × Value) :=
  source.attributes.map fun a => (Text.trimmed a.id, .ofJson a.value)

end LayoutSource

/-- What stands on one side is related to something on the other. -/
theorem exists_of_mem_forall₂ {α β : Type} {R : α → β → Prop} {xs : List α} {ys : List β}
    (h : List.Forall₂ R xs ys) {x : α} (hx : x ∈ xs) : ∃ y ∈ ys, R x y := by
  induction h with
  | nil => cases hx
  | @cons first y rest ys hy _ ih =>
    rcases List.mem_cons.1 hx with rfl | hx
    · exact ⟨y, List.mem_cons_self, hy⟩
    · obtain ⟨y', hy', hrel⟩ := ih hx
      exact ⟨y', List.mem_cons_of_mem y hy', hrel⟩

/-- An attribute has a name, in a table of names, and a value. -/
def Attribute.Bears (u : IdTable) (named : String × Value) (a : Attribute) : Prop :=
  u.get? named.1 = some a.id ∧ a.value = named.2

/-- The attribute in which layouts travel as children, if there are any. -/
def Layout.asChildren : List Layout → List (String × Value)
  | [] => []
  | l :: rest => [(Layout.childrenName, .array ((l :: rest).map Value.layout))]

/-- Layouts that are there travel in one attribute. -/
theorem Layout.exists_of_bears_asChildren {u : IdTable} {l : Layout} {more : List Layout}
    {last : List Attribute}
    (h : List.Forall₂ (Attribute.Bears u) (asChildren (l :: more)) last) :
    ∃ a, u.get? childrenName = some a ∧ last = [⟨a, .array ((l :: more).map Value.layout)⟩] := by
  cases h with
  | @cons _ a _ _ ha hnil =>
    cases hnil
    obtain ⟨id, value⟩ := a
    obtain ⟨hid, rfl⟩ := ha
    exact ⟨id, hid, rfl⟩

namespace LayoutSource

open Compiler

/-- A layout is of a source's type and has its attributes, and then the layouts of its children. -/
structure Describes (u : IdTable) (source : LayoutSource) (l : Layout) (below : List Layout) :
    Prop where
  viewType : l.viewType = source.viewType
  attributes : List.Forall₂ (Attribute.Bears u) (source.declared ++ Layout.asChildren below)
    l.attributes
  children : List.Forall₂ (fun child l => child.compile u = (.ok l, u)) source.children below

/-- A compiled attribute bears its name, and the value that was read. -/
theorem bears_of_compileAttribute {u : IdTable} {viewType : String} {source : AttributeSource}
    {r : Attribute × Descriptor} (h : compileAttribute viewType source u = (.ok r, u)) :
    r.1.Bears u (Text.trimmed source.id, .ofJson source.value) := by
  unfold compileAttribute at h
  dsimp only at h
  split at h
  · cases h
  · obtain ⟨id, hid, h⟩ := (stable_idOf _).bind_fixed (fun _ => stable_pure _) h
    cases h
    exact ⟨get?_of_idOf hid, rfl⟩

/-- Compiled attributes bear the names of their sources in order. -/
theorem bears_of_compileAttributes {u : IdTable} {viewType : String}
    {attributes : List AttributeSource} {rs : List (Attribute × Descriptor)}
    (h : compileAttributes viewType attributes u = (.ok rs, u)) :
    List.Forall₂ (Attribute.Bears u)
      (attributes.map fun a => (Text.trimmed a.id, Value.ofJson a.value)) (rs.map Prod.fst) := by
  induction attributes generalizing rs with
  | nil =>
    cases h
    exact .nil
  | cons source rest ih =>
    obtain ⟨r, hr, h⟩ := (stable_compileAttribute viewType source).bind_fixed
      (fun _ => (stable_compileAttributes viewType rest).bind fun _ => stable_pure _) h
    obtain ⟨more, hmore, h⟩ :=
      (stable_compileAttributes viewType rest).bind_fixed (fun _ => stable_pure _) h
    cases h
    exact .cons (bears_of_compileAttribute hr) (ih hmore)

/-- Children are compiled one by one. -/
theorem compile_of_compileChildren {u : IdTable} {children : List LayoutSource}
    {ls : List Layout} (h : compileChildren children u = (.ok ls, u)) :
    List.Forall₂ (fun child l => child.compile u = (.ok l, u)) children ls := by
  induction children generalizing ls with
  | nil =>
    cases h
    exact .nil
  | cons child rest ih =>
    have hrest : (compileChildren rest).Stable := stable_compileChildren _
    obtain ⟨l, hl, h⟩ := (stable_compile child).bind_fixed
      (fun _ => hrest.bind fun _ => stable_pure _) h
    obtain ⟨more, hmore, h⟩ := hrest.bind_fixed (fun _ => stable_pure _) h
    cases h
    exact .cons hl (ih hmore)

/-- A layout starts with its type alone. -/
theorem eq_of_ofType {u : IdTable} {viewType : String} {l : Layout}
    (h : (ExceptT.mk (pure (Layout.ofType viewType)) : Compiler Layout) u = (.ok l, u)) :
    l = ⟨viewType, [], none⟩ := by
  have htype : Layout.ofType viewType = .ok l := congrArg Prod.fst h
  unfold Layout.ofType at htype
  split at htype <;> cases htype
  rfl

/-- A compiled layout is put together from the source's attributes, with their texts if there are
any, and from the layouts of its children, if there are any. -/
theorem parts_of_compile {u : IdTable} {source : LayoutSource} {l : Layout}
    (h : source.compile u = (.ok l, u)) :
    ∃ rs below last, compileAttributes source.viewType source.attributes u = (.ok rs, u) ∧
      compileChildren source.children u = (.ok below, u) ∧
      List.Forall₂ (Attribute.Bears u) (Layout.asChildren below) last ∧
      l = ⟨source.viewType, rs.map Prod.fst ++ last,
        if rs = [] then none else some (rs.map Prod.snd)⟩ := by
  obtain ⟨viewType, attributes, children⟩ := source
  have hattributes := stable_compileAttributes viewType attributes
  cases children with
  | nil =>
    obtain ⟨l₀, hl₀, h⟩ := (stable_mk _).bind_fixed
      (fun _ => hattributes.bind fun _ => stable_pure _) h
    obtain ⟨rs, hrs, h⟩ := hattributes.bind_fixed (fun _ => stable_pure _) h
    obtain rfl := eq_of_ofType hl₀
    cases h
    refine ⟨rs, [], [], hrs, rfl, .nil, ?_⟩
    cases rs <;> simp [Layout.addAttributes, Layout.withTags]
  | cons child rest =>
    have hchildren : (compileChildren (child :: rest)).Stable :=
      stable_compileChildren _
    obtain ⟨l₀, hl₀, h⟩ := (stable_mk _).bind_fixed
      (fun _ => hattributes.bind fun _ => hchildren.bind fun _ =>
        (stable_idOf _).bind fun _ => stable_pure _) h
    obtain ⟨rs, hrs, h⟩ := hattributes.bind_fixed
      (fun _ => hchildren.bind fun _ => (stable_idOf _).bind fun _ => stable_pure _) h
    obtain ⟨below, hbelow, h⟩ := hchildren.bind_fixed
      (fun _ => (stable_idOf _).bind fun _ => stable_pure _) h
    obtain ⟨id, hid, h⟩ := (stable_idOf _).bind_fixed (fun _ => stable_pure _) h
    obtain rfl := eq_of_ofType hl₀
    cases h
    have hlast : List.Forall₂ (Attribute.Bears u) (Layout.asChildren below)
        [⟨id, .array (below.map Value.layout)⟩] := by
      cases compile_of_compileChildren hbelow
      exact .cons ⟨get?_of_idOf hid, rfl⟩ .nil
    refine ⟨rs, below, _, hrs, hbelow, hlast, ?_⟩
    cases rs <;> simp [Layout.addAttributes, Layout.withTags]

/-- A compiled layout describes its source. -/
theorem describes_of_compile {u : IdTable} {source : LayoutSource} {l : Layout}
    (h : source.compile u = (.ok l, u)) : ∃ below, source.Describes u l below := by
  obtain ⟨rs, below, last, hrs, hbelow, hlast, rfl⟩ := parts_of_compile h
  exact ⟨below, rfl, List.rel_append (bears_of_compileAttributes hrs) hlast,
    compile_of_compileChildren hbelow⟩

end LayoutSource

end LayoutEngine
