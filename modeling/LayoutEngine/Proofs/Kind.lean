import LayoutEngine.Layout.Compile
import LayoutEngine.Parser.Registry
import LayoutEngine.Proofs.AttributeSet
import Mathlib.Data.List.Nodup

/-!
# The engine's own kinds of widgets

What the engine's own parsers do, in names: `Kind.route` says where the attribute with a name goes
in a widget of a kind. A parser serves a kind if it makes new widgets of it and routes the number
of a name where the name goes (`ViewParser.Serves`); the parsers that the engine itself has serve
the kinds of their types, in the table they were made with and in every later one
(`Registry.offers_withBuiltins`).
-/

namespace LayoutEngine

/-- The kinds of widgets that the engine itself has parsers for. -/
inductive Kind where
  | view
  | text
  | editText
  | container
deriving DecidableEq, Repr

namespace Property

/-- The name of the attribute that sets a property. -/
def name : Property → String
  | .common a => a.name
  | .text a => a.name
  | .editText a => a.name
  | .gravity => ContainerAttribute.gravity.name

end Property

/-- What is found by name has the name. -/
theorem eq_of_find?_name {α : Type} {nameOf : α → String} {name : String} {l : List α} {a : α}
    (h : l.find? (nameOf · = name) = some a) : nameOf a = name := by
  simpa using List.find?_some h

namespace Kind

/-- The layout type that stands for a kind. -/
def typeName : Kind → String
  | .view => "view"
  | .text => "text"
  | .editText => "edit-text"
  | .container => "relative-layout"

/-- The item of a new widget of a kind. -/
def item : Kind → Item
  | .view => .view
  | .text => .text .initial
  | .editText => .editText .initial
  | .container => .relativeLayout .initial

/-- The engine's own kinds. -/
def all : List Kind := [.view, .text, .editText, .container]

/-- The kind that a layout type stands for. -/
def ofType? (viewType : String) : Option Kind := all.find? (·.typeName = viewType)

/-- Where a common attribute goes. -/
def routeCommon (name : String) : Route :=
  match CommonAttribute.all.find? (·.name = name) with
  | some a => .property (.common a)
  | none => .unknown

/-- Where the attribute with a name goes in a widget of a kind. -/
def route (name : String) : Kind → Route
  | .view => routeCommon name
  | .text =>
    match TextAttribute.all.find? (·.name = name) with
    | some a => .property (.text a)
    | none => routeCommon name
  | .editText =>
    match EditTextAttribute.all.find? (·.name = name) with
    | some a => .property (.editText a)
    | none => routeCommon name
  | .container =>
    match ContainerAttribute.all.find? (·.name = name) with
    | some .children => .children
    | some .gravity => .property .gravity
    | none => routeCommon name

/-- Widgets of a kind have a property. -/
def Has : Kind → Property → Prop
  | _, .common _ => True
  | .text, .text _ => True
  | .editText, .editText _ => True
  | .container, .gravity => True
  | _, _ => False

/-- Widgets of every kind have what all views have. -/
theorem has_common (k : Kind) (a : CommonAttribute) : k.Has (.common a) := by
  cases k <;> trivial

/-- The kind of a type is the one that has it for its name. -/
theorem ofType?_eq_some_iff {viewType : String} {k : Kind} :
    ofType? viewType = some k ↔ k.typeName = viewType := by
  constructor
  · exact eq_of_find?_name
  · rintro rfl
    cases k <;> rfl

/-- An attribute of all views sets the property of its name. -/
theorem routeCommon_eq_property {name : String} {p : Property}
    (h : routeCommon name = .property p) : p.name = name ∧ ∀ k : Kind, k.Has p := by
  unfold routeCommon at h
  split at h
  · next a ha =>
    cases h
    have hname : a.name = name := eq_of_find?_name ha
    exact ⟨hname, fun k => by cases k <;> trivial⟩
  · cases h

/-- A name goes to a property of that name. -/
theorem route_eq_property {k : Kind} {name : String} {p : Property}
    (h : k.route name = .property p) : p.name = name ∧ k.Has p := by
  cases k with
  | view => exact (routeCommon_eq_property h).imp id (· .view)
  | text =>
    simp only [route] at h
    split at h
    · next a ha =>
      cases h
      have hname : a.name = name := eq_of_find?_name ha
      exact ⟨hname, trivial⟩
    · exact (routeCommon_eq_property h).imp id (· .text)
  | editText =>
    simp only [route] at h
    split at h
    · next a ha =>
      cases h
      have hname : a.name = name := eq_of_find?_name ha
      exact ⟨hname, trivial⟩
    · exact (routeCommon_eq_property h).imp id (· .editText)
  | container =>
    simp only [route] at h
    split at h
    · cases h
    · next ha =>
      cases h
      have hname : ContainerAttribute.gravity.name = name := eq_of_find?_name ha
      exact ⟨hname, trivial⟩
    · exact (routeCommon_eq_property h).imp id (· .container)

/-- All kinds have the common attributes, each under its name. -/
theorem route_common (k : Kind) (a : CommonAttribute) : k.route a.name = .property (.common a) := by
  cases k <;> cases a <;> first | rfl | (next r => cases r <;> rfl)

/-- No attribute of all views is one for children. -/
theorem routeCommon_ne_children (name : String) : routeCommon name ≠ .children := by
  unfold routeCommon
  split <;> nofun

/-- Nor is one only looked for. -/
theorem routeCommon_ne_presence (name : String) : routeCommon name ≠ .presence := by
  unfold routeCommon
  split <;> nofun

/-- The engine's own kinds have a use for every attribute that they accept. -/
theorem route_ne_presence (k : Kind) (name : String) : k.route name ≠ .presence := by
  cases k with
  | view => exact routeCommon_ne_presence name
  | text | editText | container =>
    simp only [route]
    split <;> first | exact routeCommon_ne_presence name | nofun

/-- Only containers have children, and only under the name that layouts use. -/
theorem route_eq_children_iff {k : Kind} {name : String} :
    k.route name = .children ↔ k = .container ∧ name = Layout.childrenName := by
  constructor
  · intro h
    cases k with
    | view => exact absurd h (routeCommon_ne_children name)
    | text | editText =>
      simp only [route] at h
      split at h
      · cases h
      · exact absurd h (routeCommon_ne_children name)
    | container =>
      simp only [route] at h
      split at h
      · next ha =>
        have hname : ContainerAttribute.children.name = name := eq_of_find?_name ha
        exact ⟨rfl, hname.symm⟩
      · cases h
      · exact absurd h (routeCommon_ne_children name)
  · rintro ⟨rfl, rfl⟩
    rfl

/-- Widgets of other kinds have no use for children. -/
theorem route_childrenName_of_ne {k : Kind} (h : k ≠ .container) :
    k.route Layout.childrenName = .unknown := by
  cases k with
  | container => exact absurd rfl h
  | _ => rfl

end Kind

/-! ## Parsers -/

namespace ViewParser

/-- A parser makes new widgets of a kind, sets only properties that they have and, from a table of
names on, does with the number of a name what the kind does with the name. -/
structure Serves (parser : ViewParser) (k : Kind) (t : IdTable) : Prop where
  typeName : parser.typeName = k.typeName
  creation : parser.creation = .fresh k.item
  observers : parser.observers = []
  has : ∀ {id : Int} {p : Property}, parser.handler.route id = .property p → k.Has p
  route : ∀ {u : IdTable} {name : String} {id : Int}, t ≤ u → u.get? name = some id →
    parser.handler.route id = k.route name

/-- A parser serves its kind in any later table. -/
theorem Serves.mono {parser : ViewParser} {k : Kind} {t u : IdTable} (h : parser.Serves k t)
    (htu : t ≤ u) : parser.Serves k u :=
  { h with route := fun hu hid => h.route (htu.trans hu) hid }

end ViewParser

namespace AttributeSet

variable {α : Type} {nameOf : α → String}

/-- Of attributes with different names the last one with a name is the first. -/
theorem find?_reverse_of_nodup {attributes : List α} (h : (attributes.map nameOf).Nodup)
    (name : String) :
    attributes.reverse.find? (nameOf · = name) = attributes.find? (nameOf · = name) := by
  have hinj : ∀ a ∈ attributes, ∀ b ∈ attributes, nameOf a = nameOf b → a = b :=
    fun a ha b hb hab => List.inj_on_of_nodup_map h ha hb hab
  cases hfind : attributes.find? (nameOf · = name) with
  | none => simpa using hfind
  | some a =>
    have hname := eq_of_find?_name hfind
    cases hlast : attributes.reverse.find? (nameOf · = name) with
    | none =>
      have : ∀ b ∈ attributes, nameOf b ≠ name := by simpa using hlast
      exact absurd hname (this a (List.mem_of_find?_eq_some hfind))
    | some b =>
      have hb := eq_of_find?_name hlast
      rw [hinj b (List.mem_reverse.1 (List.mem_of_find?_eq_some hlast)) a
        (List.mem_of_find?_eq_some hfind) (hb.trans hname.symm)]

/-- Under the number of a name a set of attributes with different names holds the one of that
name. -/
theorem get?_of_allocate {attributes : List α} {set : AttributeSet α} {t t' u : IdTable}
    (hset : allocate nameOf attributes t = (set, t')) (hnodup : (attributes.map nameOf).Nodup)
    (hu : t' ≤ u) {name : String} {id : Int} (hid : u.get? name = some id) :
    set.get? id = attributes.find? (nameOf · = name) := by
  have h := @get?_allocate α nameOf attributes t u
  rw [hset] at h
  rw [h hu hid, find?_reverse_of_nodup hnodup]

end AttributeSet

namespace ViewParser

/-- The parser that the engine itself has for a kind. -/
def ofKind : Kind → IdTable → ViewParser × IdTable
  | .view => view
  | .text => text
  | .editText => editText
  | .container => relativeLayout

/-- A parser finds the attributes of all views by their numbers as a kind does by their names. -/
theorem routeCommon_of_allocate {common : AttributeSet CommonAttribute} {t t' u : IdTable}
    (hset : AttributeSet.allocate CommonAttribute.name CommonAttribute.all t = (common, t'))
    (hu : t' ≤ u) {name : String} {id : Int} (hid : u.get? name = some id) :
    Handler.routeCommon common id = Kind.routeCommon name := by
  have hget := AttributeSet.get?_of_allocate hset (by decide) hu hid
  cases hfind : CommonAttribute.all.find? (·.name = name) <;>
    simp only [Handler.routeCommon, Kind.routeCommon, hget, hfind]

/-- Widgets of every kind have what the attributes of all views set. -/
theorem has_of_routeCommon {common : AttributeSet CommonAttribute} {id : Int} {p : Property}
    (h : Handler.routeCommon common id = .property p) (k : Kind) : k.Has p := by
  unfold Handler.routeCommon at h
  split at h
  · cases h
    exact k.has_common _
  · cases h

/-- Making a set of attributes only adds names. -/
theorem le_of_allocate {α : Type} {nameOf : α → String} {attributes : List α}
    {set : AttributeSet α} {t t' : IdTable}
    (hset : AttributeSet.allocate nameOf attributes t = (set, t')) : t ≤ t' := by
  have h := @AttributeSet.le_allocate α nameOf attributes t
  rwa [hset] at h

/-- The engine's own parsers number further names and serve the kinds they are for. -/
theorem serves_ofKind (k : Kind) (t : IdTable) :
    t ≤ (ofKind k t).2 ∧ (ofKind k t).1.Serves k (ofKind k t).2 := by
  cases k with
  | view =>
    obtain ⟨⟨common, t₁⟩, hcommon⟩ : ∃ r,
      AttributeSet.allocate CommonAttribute.name CommonAttribute.all t = r := ⟨_, rfl⟩
    rw [show ofKind .view t = (⟨"view", .fresh .view, .view common, []⟩, t₁) by
      simp only [ofKind, view, hcommon]]
    exact ⟨le_of_allocate hcommon, rfl, rfl, rfl, fun hp => has_of_routeCommon hp .view,
      fun hu hid => routeCommon_of_allocate hcommon hu hid⟩
  | text =>
    obtain ⟨⟨own, t₁⟩, hown⟩ : ∃ r,
      AttributeSet.allocate TextAttribute.name TextAttribute.all t = r := ⟨_, rfl⟩
    obtain ⟨⟨common, t₂⟩, hcommon⟩ : ∃ r,
      AttributeSet.allocate CommonAttribute.name CommonAttribute.all t₁ = r := ⟨_, rfl⟩
    rw [show ofKind .text t = (⟨"text", .fresh (.text .initial), .text own common, []⟩, t₂) by
      simp only [ofKind, text, hown, hcommon]]
    refine ⟨(le_of_allocate hown).trans (le_of_allocate hcommon), rfl, rfl, rfl,
      fun {id p} hp => ?_, fun {u name id} hu hid => ?_⟩
    · simp only [Handler.route] at hp
      split at hp
      · cases hp
        trivial
      · exact has_of_routeCommon hp .text
    have hget := AttributeSet.get?_of_allocate hown (by decide)
      ((le_of_allocate hcommon).trans hu) hid
    have hroute := routeCommon_of_allocate hcommon hu hid
    cases hfind : TextAttribute.all.find? (·.name = name) <;>
      simp only [Handler.route, Kind.route, hget, hroute, hfind]
  | editText =>
    obtain ⟨⟨own, t₁⟩, hown⟩ : ∃ r,
      AttributeSet.allocate EditTextAttribute.name EditTextAttribute.all t = r := ⟨_, rfl⟩
    obtain ⟨⟨common, t₂⟩, hcommon⟩ : ∃ r,
      AttributeSet.allocate CommonAttribute.name CommonAttribute.all t₁ = r := ⟨_, rfl⟩
    rw [show ofKind .editText t =
        (⟨"edit-text", .fresh (.editText .initial), .editText own common, []⟩, t₂) by
      simp only [ofKind, editText, hown, hcommon]]
    refine ⟨(le_of_allocate hown).trans (le_of_allocate hcommon), rfl, rfl, rfl,
      fun {id p} hp => ?_, fun {u name id} hu hid => ?_⟩
    · simp only [Handler.route] at hp
      split at hp
      · cases hp
        trivial
      · exact has_of_routeCommon hp .editText
    have hget := AttributeSet.get?_of_allocate hown (by decide)
      ((le_of_allocate hcommon).trans hu) hid
    have hroute := routeCommon_of_allocate hcommon hu hid
    cases hfind : EditTextAttribute.all.find? (·.name = name) <;>
      simp only [Handler.route, Kind.route, hget, hroute, hfind]
  | container =>
    obtain ⟨⟨own, t₁⟩, hown⟩ : ∃ r,
      AttributeSet.allocate ContainerAttribute.name ContainerAttribute.all t = r := ⟨_, rfl⟩
    obtain ⟨⟨common, t₂⟩, hcommon⟩ : ∃ r,
      AttributeSet.allocate CommonAttribute.name CommonAttribute.all t₁ = r := ⟨_, rfl⟩
    rw [show ofKind .container t =
        (⟨"relative-layout", .fresh (.relativeLayout .initial), .container own common, []⟩, t₂) by
      simp only [ofKind, relativeLayout, hown, hcommon]]
    refine ⟨(le_of_allocate hown).trans (le_of_allocate hcommon), rfl, rfl, rfl,
      fun {id p} hp => ?_, fun {u name id} hu hid => ?_⟩
    · simp only [Handler.route] at hp
      split at hp
      · cases hp
      · cases hp
        trivial
      · exact has_of_routeCommon hp .container
    have hget := AttributeSet.get?_of_allocate hown (by decide)
      ((le_of_allocate hcommon).trans hu) hid
    have hroute := routeCommon_of_allocate hcommon hu hid
    cases hfind : ContainerAttribute.all.find? (·.name = name) with
    | none => simp only [Handler.route, Kind.route, hget, hroute, hfind]
    | some a => cases a <;> simp only [Handler.route, Kind.route, hget, hfind]

end ViewParser

/-! ## Registries -/

namespace Registry

/-- A registry has a parser for each of the engine's own types, which serves its kind from a table
of names on, and none for any other type. -/
def Offers (registry : Registry) (t : IdTable) : Prop :=
  ∀ viewType,
    match Kind.ofType? viewType with
    | none => registry.get? viewType = none
    | some k => ∃ parser, registry.get? viewType = some parser ∧ parser.Serves k t

/-- A registry offers its types in any later table. -/
theorem Offers.mono {registry : Registry} {t u : IdTable} (h : registry.Offers t) (htu : t ≤ u) :
    registry.Offers u := by
  intro viewType
  have htype := h viewType
  split at htype
  · exact htype
  · obtain ⟨parser, hget, hserves⟩ := htype
    exact ⟨parser, hget, hserves.mono htu⟩

/-- Every registered parser serves one of the engine's kinds from a table of names on, whatever the
type it is registered for. -/
def Provides (registry : Registry) (t : IdTable) : Prop :=
  ∀ viewType parser, registry.get? viewType = some parser → ∃ k, parser.Serves k t

/-- The parsers serve their kinds in any later table. -/
theorem Provides.mono {registry : Registry} {t u : IdTable} (h : registry.Provides t)
    (htu : t ≤ u) : registry.Provides u := by
  intro viewType parser hget
  obtain ⟨k, hserves⟩ := h viewType parser hget
  exact ⟨k, hserves.mono htu⟩

/-- What offers the engine's own types has parsers of its kinds only. -/
theorem Offers.provides {registry : Registry} {t : IdTable} (h : registry.Offers t) :
    registry.Provides t := by
  intro viewType parser hget
  have htype := h viewType
  split at htype
  · rw [hget] at htype
    cases htype
  · obtain ⟨parser', hget', hserves⟩ := htype
    rw [hget] at hget'
    cases hget'
    exact ⟨_, hserves⟩

/-- The registry of the engine's own parsers offers its kinds. -/
theorem offers_withBuiltins (t : IdTable) : (withBuiltins t).1.Offers (withBuiltins t).2 := by
  obtain ⟨⟨p₁, t₁⟩, h₁⟩ : ∃ r, ViewParser.ofKind .view t = r := ⟨_, rfl⟩
  obtain ⟨⟨p₂, t₂⟩, h₂⟩ : ∃ r, ViewParser.ofKind .text t₁ = r := ⟨_, rfl⟩
  obtain ⟨⟨p₃, t₃⟩, h₃⟩ : ∃ r, ViewParser.ofKind .editText t₂ = r := ⟨_, rfl⟩
  obtain ⟨⟨p₄, t₄⟩, h₄⟩ : ∃ r, ViewParser.ofKind .container t₃ = r := ⟨_, rfl⟩
  have hs₁ := ViewParser.serves_ofKind .view t
  have hs₂ := ViewParser.serves_ofKind .text t₁
  have hs₃ := ViewParser.serves_ofKind .editText t₂
  have hs₄ := ViewParser.serves_ofKind .container t₃
  rw [h₁] at hs₁
  rw [h₂] at hs₂
  rw [h₃] at hs₃
  rw [h₄] at hs₄
  have n₁ : p₁.typeName = "view" := hs₁.2.typeName
  have n₂ : p₂.typeName = "text" := hs₂.2.typeName
  have n₃ : p₃.typeName = "edit-text" := hs₃.2.typeName
  have n₄ : p₄.typeName = "relative-layout" := hs₄.2.typeName
  have hall : withBuiltins t =
      (⟨[("view", p₁), ("text", p₂), ("edit-text", p₃), ("relative-layout", p₄)], 0⟩, t₄) := by
    simp only [ViewParser.ofKind] at h₁ h₂ h₃ h₄
    simp [withBuiltins, ViewParser.builtins, registerAll, h₁, h₂, h₃, h₄, register, empty,
      n₁, n₂, n₃, n₄, Entries.put]
  rw [hall]
  intro viewType
  cases hk : Kind.ofType? viewType with
  | none =>
    have hne : ∀ k : Kind, viewType ≠ k.typeName := by
      rintro k rfl
      rw [Kind.ofType?_eq_some_iff.2 rfl] at hk
      cases hk
    rw [get?, Entries.get?_eq_none_iff]
    show viewType ∉ Kind.all.map Kind.typeName
    intro hmem
    obtain ⟨k, -, hname⟩ := List.mem_map.1 hmem
    exact hne k hname.symm
  | some k =>
    obtain rfl := Kind.ofType?_eq_some_iff.1 hk
    cases k with
    | view => exact ⟨p₁, rfl, hs₁.2.mono (hs₂.1.trans (hs₃.1.trans hs₄.1))⟩
    | text => exact ⟨p₂, rfl, hs₂.2.mono (hs₃.1.trans hs₄.1)⟩
    | editText => exact ⟨p₃, rfl, hs₃.2.mono hs₄.1⟩
    | container => exact ⟨p₄, rfl, hs₄.2⟩

/-- Registering parsers only adds names if making each of them does. -/
theorem le_registerAll {makes : List (IdTable → ViewParser × IdTable)}
    (h : ∀ make ∈ makes, ∀ t, t ≤ (make t).2) (registry : Registry) (t : IdTable) :
    t ≤ (registerAll makes registry t).2 := by
  induction makes generalizing registry t with
  | nil => exact le_refl t
  | cons make rest ih =>
    have hrest := ih (fun make hmake => h make (List.mem_cons_of_mem _ hmake))
      (registry.register (make t).1) (make t).2
    exact (h make (by simp) t).trans hrest

/-- Registering the engine's own parsers only adds names. -/
theorem le_withBuiltins (t : IdTable) : t ≤ (withBuiltins t).2 := by
  rw [withBuiltins]
  apply le_registerAll
  intro make hmake t
  have hkind : ∃ k, make = ViewParser.ofKind k := by
    simp only [ViewParser.builtins, List.mem_cons, List.not_mem_nil, or_false] at hmake
    rcases hmake with rfl | rfl | rfl | rfl
    · exact ⟨.view, rfl⟩
    · exact ⟨.text, rfl⟩
    · exact ⟨.editText, rfl⟩
    · exact ⟨.container, rfl⟩
  obtain ⟨k, rfl⟩ := hkind
  exact (ViewParser.serves_ofKind k t).1

/-- The parsers are the engine's own, made when at most the names of a table had numbers. -/
def IsOwn (registry : Registry) (t : IdTable) : Prop :=
  ∃ u, registry = (withBuiltins u).1 ∧ (withBuiltins u).2 ≤ t

/-- The engine's own parsers are there for its types. -/
theorem IsOwn.offers {registry : Registry} {t : IdTable} (h : registry.IsOwn t) :
    registry.Offers t := by
  obtain ⟨u, hregistry, hu⟩ := h
  rw [hregistry]
  exact (offers_withBuiltins u).mono hu

/-- They are so in any later table. -/
theorem IsOwn.mono {registry : Registry} {t u : IdTable} (h : registry.IsOwn t) (htu : t ≤ u) :
    registry.IsOwn u := by
  obtain ⟨v, hregistry, hv⟩ := h
  exact ⟨v, hregistry, hv.trans htu⟩

end Registry

end LayoutEngine
