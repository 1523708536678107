import LayoutEngine.Proofs.Setting
import LayoutEngine.Value.Resolve
import Mathlib.Logic.Function.Basic

/-!
# Looks

A look is what all properties of a widget are set to, and whether its view has layout parameters;
`Widget.Shows` ties it to a widget. The attributes of a layout, applied in order, turn one look into
another (`Look.settle`): of the attributes that set a property the last one that is accepted counts
(`Look.settings_settle`). So where no name is declared twice, applying the bound attributes again in
new data comes to the same as applying all attributes in the new data from the start, provided that
the new data suit all of them (`Look.settle_again`).
-/

namespace LayoutEngine

/-- What the properties of a widget are set to, and whether its view has layout parameters. -/
structure Look where
  settings : Property → Setting
  hasParams : Bool

namespace Property

/-- What a property of a new widget is set to. -/
def initial : Property → Setting
  | .common .id => .view none
  | .common .width | .common .height => .dimension .wrapContent
  | .common .visibility => .visibility .visible
  | .common .padding => .number 0
  | .common .background => .optional none
  | .common .enabled => .flag true
  | .common .alpha => .single (.ofInt .binary32 1)
  | .common (.rule _) => .noRule
  | .text .text | .editText .text => .string ""
  | .text .size => .single (.ofInt .binary32 14)
  | .text .color | .editText .hint => .optional none
  | .editText .inputType => .inputType .text
  | .gravity => .gravity []

end Property

/-- A widget is of a kind and has a look. -/
structure Widget.Shows (ids : IdTable) (w : Widget) (k : Kind) (look : Look) : Prop where
  item : k.IsItem w.item
  settings : ∀ p, k.Has p → p.setting? ids w = some (look.settings p)
  params : w.view.params.isSome = look.hasParams
  rules : w.view.RulesDistinct
  focusable : w.view.focusable = k.item.startsFocusable

/-- The look stays when more names have numbers. -/
theorem Widget.Shows.mono {t u : IdTable} {w : Widget} {k : Kind} {look : Look}
    (h : w.Shows t k look) (htu : t ≤ u) : w.Shows u k look :=
  { h with settings := fun p hp => Property.setting?_mono htu (h.settings p hp) }

/-- The item, the view's own state and nothing else make a look. -/
theorem Widget.Shows.of_eq {ids : IdTable} {w w' : Widget} {k : Kind} {look : Look}
    (h : w.Shows ids k look) (hitem : w'.item = w.item) (hview : w'.view = w.view) :
    w'.Shows ids k look := by
  obtain ⟨item, view, manager, children⟩ := w
  obtain ⟨item', view', manager', children'⟩ := w'
  cases hitem
  cases hview
  exact ⟨h.item, h.settings, h.params, h.rules, h.focusable⟩

namespace Look

/-- The look of a new widget under a parent, or under none. -/
def initial (parent : Option WidgetId) : Look := ⟨Property.initial, parent.isSome⟩

/-- The look with a property set. -/
def set (p : Property) (x : Setting) (look : Look) : Look :=
  ⟨Function.update look.settings p x, look.hasParams || p.isParam⟩

/-- A new widget that has been given its parent has the initial look. -/
theorem shows_initial (k : Kind) (parent : Option WidgetId) (ids : IdTable) :
    { Widget.ofItem k.item with view := (Widget.ofItem k.item).view.attach parent }.Shows ids k
      (initial parent) := by
  have hplacing : ((Widget.ofItem k.item).view.attach parent).placing = .initial := by
    cases parent <;> rfl
  refine ⟨k.isItem_item, fun p hp => ?_, by cases parent <;> rfl, ?_, rfl⟩
  · cases p with
    | common a =>
      cases a <;>
        simp only [Property.setting?, CommonAttribute.setting?, hplacing] <;> rfl
    | text a | editText a => cases k <;> cases a <;> first | rfl | exact hp.elim
    | gravity => cases k <;> first | rfl | exact hp.elim
  · rw [ViewState.RulesDistinct, hplacing]
    exact List.nodup_nil

/-- Setting a property of a widget sets it in the look. -/
theorem shows_set {p : Property} {x : Setting} {ids ids' : IdTable} {w w' : Widget} {k : Kind}
    {look : Look} (h : p.Sets x ids w ids' w') (hw : w.Shows ids k look) :
    w'.Shows ids' k (look.set p x) := by
  refine ⟨h.item k hw.item, fun q hq => ?_, ?_, h.rules, h.focusable.trans hw.focusable⟩
  · by_cases hqp : q = p
    · subst hqp
      simp [h.self, set]
    · simp [h.others q hqp _ (hw.settings q hq), set, Function.update_of_ne hqp]
  · rw [h.params, hw.params, set]

end Look

/-! ## Attributes -/

namespace Value

/-- The value is an array without items. -/
def isEmptyArray : Value → Bool
  | .array [] => true
  | _ => false

end Value

namespace Kind

/-- The property that an attribute sets in a widget of a kind, and what it sets it to, if the
attribute is one of a property and accepts the value. -/
def effect? (k : Kind) (name : String) (value : Value) : Option (Property × Setting) :=
  match k.route name with
  | .property p => (p.settingOf? value).map fun x => (p, x)
  | _ => none

/-- What an attribute sets in data. -/
def effectIn? (k : Kind) (data : Fields) (index : Int) (named : String × Value) :
    Option (Property × Setting) := k.effect? named.1 (named.2.resolve data index)

/-- The attribute takes all children away from a container. -/
def clears (k : Kind) (named : String × Value) : Bool :=
  k.route named.1 = .children && named.2.isEmptyArray

/-- An attribute is accepted in data. -/
def accepts (k : Kind) (data : Fields) (index : Int) (named : String × Value) : Bool :=
  (k.effectIn? data index named).isSome || k.clears named

variable {k : Kind} {data : Fields} {index : Int} {named : String × Value} {p : Property}
  {x : Setting}

/-- An attribute has an effect just if it is routed to a property and its value is a setting of
that. -/
theorem effect?_eq_some_iff {name : String} {value : Value} :
    k.effect? name value = some (p, x) ↔
      k.route name = .property p ∧ p.settingOf? value = some x := by
  unfold effect?
  split
  · next q hq =>
    constructor
    · intro h
      obtain ⟨y, hy, heq⟩ := Option.map_eq_some_iff.1 h
      cases heq
      exact ⟨hq, hy⟩
    · rintro ⟨hroute, hx⟩
      obtain rfl : q = p := Route.property.inj (hq.symm.trans hroute)
      rw [hx]
      rfl
  · next hne =>
    constructor
    · intro h
      cases h
    · rintro ⟨hroute, -⟩
      exact absurd hroute (hne p)

/-- An attribute sets the property of its name. -/
theorem name_of_effectIn? (h : k.effectIn? data index named = some (p, x)) :
    p.name = named.1 ∧ k.Has p := route_eq_property (effect?_eq_some_iff.1 h).1

/-- What an attribute that is not bound sets does not depend on the data. -/
theorem effectIn?_of_not_isBinding (h : named.2.isBinding = false) (data data' : Fields)
    (index : Int) : k.effectIn? data index named = k.effectIn? data' index named := by
  obtain ⟨name, value⟩ := named
  cases value <;> first | rfl | cases h

/-- No bound attribute takes children away. -/
theorem clears_of_isBinding (h : named.2.isBinding = true) : k.clears named = false := by
  obtain ⟨name, value⟩ := named
  cases value <;> first | exact Bool.and_false _ | cases h

/-- Children are accepted as attributes only to be taken away. -/
theorem clears_of_accepts {name : String} {value : Value} (hroute : k.route name = .children)
    (h : k.accepts data index (name, value) = true) :
    value = .array [] ∧ k.clears (name, value) = true := by
  have heffect : k.effectIn? data index (name, value) = none := by
    simp only [effectIn?, effect?, hroute]
  rw [accepts, heffect, Option.isSome_none, Bool.false_or] at h
  refine ⟨?_, h⟩
  obtain ⟨-, hempty⟩ := (Bool.and_eq_true_iff ..).1 h
  unfold Value.isEmptyArray at hempty
  split at hempty
  · next hvalue => exact hvalue
  · cases hempty

/-- A bound attribute is accepted just if it has an effect on a property. -/
theorem accepts_of_isBinding (h : named.2.isBinding = true) :
    k.accepts data index named = (k.effectIn? data index named).isSome := by
  rw [accepts, clears_of_isBinding h, Bool.or_false]

end Kind

namespace Look

/-- The look after an attribute has been applied, which it is if it is accepted. -/
def apply (k : Kind) (data : Fields) (index : Int) (look : Look) (named : String × Value) : Look :=
  match k.effectIn? data index named with
  | some (p, x) => look.set p x
  | none => look

/-- The look after attributes have been applied in order. -/
def settle (k : Kind) (data : Fields) (index : Int) (attributes : List (String × Value))
    (look : Look) : Look := attributes.foldl (apply k data index) look

end Look

namespace Kind

variable (k : Kind) (data : Fields) (index : Int)

/-- What an attribute sets a property to in data, if it sets it at all. -/
def setTo? (p : Property) (named : String × Value) : Option Setting :=
  (k.effectIn? data index named).bind fun (q, x) => if q = p then some x else none

/-- What the last accepted one of attributes that sets a property sets it to. -/
def lastSetTo? (p : Property) (attributes : List (String × Value)) : Option Setting :=
  attributes.reverse.findSome? (k.setTo? data index p)

/-- An attribute that is accepted in data sets a layout parameter. -/
def setsParam (named : String × Value) : Bool :=
  (k.effectIn? data index named).any (·.1.isParam)

variable {k data index} {data' : Fields}

/-- An attribute sets a property to what its effect says. -/
theorem setTo?_eq_some_iff {p : Property} {x : Setting} {named : String × Value} :
    k.setTo? data index p named = some x ↔ k.effectIn? data index named = some (p, x) := by
  unfold setTo?
  constructor
  · intro h
    obtain ⟨⟨q, y⟩, hq, hy⟩ := Option.bind_eq_some_iff.1 h
    obtain ⟨rfl, rfl⟩ : q = p ∧ y = x := by simpa using hy
    exact hq
  · intro h
    simp [h]

/-- Only an attribute of a property's name sets the property. -/
theorem setTo?_of_name_ne {p : Property} {named : String × Value} (h : p.name ≠ named.1) :
    k.setTo? data index p named = none := by
  cases hset : k.setTo? data index p named with
  | none => rfl
  | some x => exact absurd (name_of_effectIn? (setTo?_eq_some_iff.1 hset)).1 h

/-- An attribute sets the same property whatever the data. -/
theorem effectIn?_of_accepts {p : Property} {x : Setting} {named : String × Value}
    (h : k.effectIn? data index named = some (p, x))
    (haccepts : (k.effectIn? data' index named).isSome = true) :
    ∃ y, k.effectIn? data' index named = some (p, y) := by
  obtain ⟨⟨q, y⟩, hq⟩ := Option.isSome_iff_exists.1 haccepts
  have hroute := (effect?_eq_some_iff.1 h).1
  have hroute' := (effect?_eq_some_iff.1 hq).1
  obtain rfl : p = q := Route.property.inj (hroute.symm.trans hroute')
  exact ⟨y, hq⟩

/-- An attribute that sets a param in one data does so in other data in which it has an effect. -/
theorem setsParam_of_accepts {named : String × Value} (h : k.setsParam data index named = true)
    (haccepts : (k.effectIn? data' index named).isSome = true) :
    k.setsParam data' index named = true := by
  obtain ⟨⟨p, x⟩, hp, hparam⟩ := (Option.any_eq_true _ _).1 h
  obtain ⟨y, hy⟩ := effectIn?_of_accepts hp haccepts
  exact (Option.any_eq_true _ _).2 ⟨(p, y), hy, hparam⟩

end Kind

namespace Look

variable {k : Kind} {data data' : Fields} {index : Int}

/-- An attribute sets its property if it has an effect, and leaves the others. -/
theorem settings_apply (look : Look) (named : String × Value) (p : Property) :
    (look.apply k data index named).settings p =
      (k.setTo? data index p named).getD (look.settings p) := by
  unfold apply Kind.setTo?
  cases heffect : k.effectIn? data index named with
  | none => rfl
  | some r =>
    obtain ⟨q, x⟩ := r
    by_cases hqp : q = p
    · subst hqp
      simp [set]
    · simp [set, hqp, Function.update_of_ne (Ne.symm hqp)]

/-- A widget has layout params if it had before or the attribute sets one. -/
theorem hasParams_apply (look : Look) (named : String × Value) :
    (look.apply k data index named).hasParams =
      (look.hasParams || k.setsParam data index named) := by
  unfold apply Kind.setsParam
  cases k.effectIn? data index named with
  | none => exact (Bool.or_false _).symm
  | some r => rfl

/-- An attribute that is not accepted changes nothing. -/
theorem apply_of_rejected (look : Look) {named : String × Value}
    (h : k.accepts data index named = false) : look.apply k data index named = look := by
  rw [Kind.accepts, Bool.or_eq_false_iff] at h
  unfold apply
  cases heffect : k.effectIn? data index named with
  | none => rfl
  | some r =>
    rw [heffect] at h
    cases h.1

/-- An attribute of a property that is accepted sets the property as its value says. -/
theorem settingOf?_of_accepts (look : Look) {name : String} {value : Value} {p : Property}
    (hroute : k.route name = .property p) (h : k.accepts data index (name, value) = true) :
    p.settingOf? (value.resolve data index) =
      some ((look.apply k data index (name, value)).settings p) := by
  have hclears : k.clears (name, value) = false := by simp [Kind.clears, hroute]
  have heffect : k.effectIn? data index (name, value) =
      (p.settingOf? (value.resolve data index)).map fun x => (p, x) := by
    simp only [Kind.effectIn?, Kind.effect?, hroute]
  rw [Kind.accepts, hclears, Bool.or_false, heffect, Option.isSome_map] at h
  obtain ⟨x, hx⟩ := Option.isSome_iff_exists.1 h
  have hset : k.setTo? data index p (name, value) = some x :=
    Kind.setTo?_eq_some_iff.2 (by rw [heffect, hx]; rfl)
  rw [settings_apply, hset, hx]
  rfl

/-- Of the attributes that set a property the last one that is accepted counts. -/
theorem settings_settle (attributes : List (String × Value)) (look : Look) (p : Property) :
    (look.settle k data index attributes).settings p =
      (k.lastSetTo? data index p attributes).getD (look.settings p) := by
  induction attributes generalizing look with
  | nil => rfl
  | cons named rest ih =>
    rw [settle, List.foldl_cons, ← settle, ih, settings_apply]
    unfold Kind.lastSetTo?
    rw [List.reverse_cons, List.findSome?_append]
    cases rest.reverse.findSome? (k.setTo? data index p) with
    | some x => rfl
    | none =>
      rw [List.findSome?_singleton]
      cases k.setTo? data index p named <;> rfl

/-- After some attributes a widget has layout params if it had before or one of these sets one. -/
theorem hasParams_settle (attributes : List (String × Value)) (look : Look) :
    (look.settle k data index attributes).hasParams =
      (look.hasParams || attributes.any (k.setsParam data index)) := by
  induction attributes generalizing look with
  | nil => exact (Bool.or_false _).symm
  | cons named rest ih =>
    rw [settle, List.foldl_cons, ← settle, ih, hasParams_apply, Bool.or_assoc, List.any_cons]

/-! ## Applying bound attributes again -/

/-- Where names differ, the attribute of a property's name decides what the property is set to. -/
theorem lastSetTo?_of_mem {attributes : List (String × Value)}
    (hnodup : (attributes.map Prod.fst).Nodup) {named : String × Value}
    (hmem : named ∈ attributes) {p : Property} (hp : p.name = named.1) :
    k.lastSetTo? data index p attributes = k.setTo? data index p named := by
  have hother : ∀ other ∈ attributes, other ≠ named → k.setTo? data index p other = none := by
    intro other hother hne
    refine Kind.setTo?_of_name_ne fun hname => hne ?_
    exact List.inj_on_of_nodup_map hnodup hother hmem (hname.symm.trans hp)
  unfold Kind.lastSetTo?
  cases hlast : attributes.reverse.findSome? (k.setTo? data index p) with
  | none => exact (List.findSome?_eq_none_iff.1 hlast named (List.mem_reverse.2 hmem)).symm
  | some x =>
    obtain ⟨other, hmem', hx⟩ := List.exists_of_findSome?_eq_some hlast
    by_cases hne : other = named
    · rw [← hne, hx]
    · rw [hother other (List.mem_reverse.1 hmem') hne] at hx
      cases hx

/-- A property that no attribute is named for is not set. -/
theorem lastSetTo?_of_forall_ne {attributes : List (String × Value)} {p : Property}
    (h : ∀ named ∈ attributes, p.name ≠ named.1) :
    k.lastSetTo? data index p attributes = none := by
  refine List.findSome?_eq_none_iff.2 fun named hmem => Kind.setTo?_of_name_ne ?_
  exact h named (List.mem_reverse.1 hmem)

/-- The bound ones among attributes. -/
def bound (attributes : List (String × Value)) : List (String × Value) :=
  attributes.filter (·.2.isBinding)

/-- The bound attributes are those with bindings for values. -/
theorem mem_bound_iff {attributes : List (String × Value)} {named : String × Value} :
    named ∈ bound attributes ↔ named ∈ attributes ∧ named.2.isBinding = true := List.mem_filter

section

variable {attributes : List (String × Value)} (hnodup : (attributes.map Prod.fst).Nodup)
  (hall : ∀ named ∈ bound attributes, k.accepts data' index named = true)
include hall

include hnodup in
/-- Once the bound attributes have been handled again, all are as in the new data. -/
theorem settings_settle_again (look : Look) (p : Property) :
    ((look.settle k data index attributes).settle k data' index (bound attributes)).settings p =
      (look.settle k data' index attributes).settings p := by
  simp only [settings_settle]
  have hsub : ((bound attributes).map Prod.fst).Nodup :=
    hnodup.sublist (List.filter_sublist.map Prod.fst)
  by_cases hp : ∃ named ∈ attributes, p.name = named.1
  · obtain ⟨named, hmem, hname⟩ := hp
    rw [lastSetTo?_of_mem hnodup hmem hname, lastSetTo?_of_mem hnodup hmem hname]
    cases hbinding : named.2.isBinding with
    | true =>
      have hbound := mem_bound_iff.2 ⟨hmem, hbinding⟩
      rw [lastSetTo?_of_mem hsub hbound hname]
      cases hset : k.setTo? data' index p named with
      | some x => rfl
      | none =>
        cases hset' : k.setTo? data index p named with
        | none => rfl
        | some y =>
          obtain ⟨x, hx⟩ := Kind.effectIn?_of_accepts (Kind.setTo?_eq_some_iff.1 hset')
            (Kind.accepts_of_isBinding hbinding ▸ hall named hbound)
          rw [Kind.setTo?_eq_some_iff.2 hx] at hset
          cases hset
    | false =>
      rw [lastSetTo?_of_forall_ne]
      · unfold Kind.setTo?
        rw [Kind.effectIn?_of_not_isBinding hbinding data data']
        rfl
      · intro other hother hname'
        obtain ⟨hmem', hbinding'⟩ := mem_bound_iff.1 hother
        rw [List.inj_on_of_nodup_map hnodup hmem' hmem (hname'.symm.trans hname), hbinding]
          at hbinding'
        cases hbinding'
  · have hne : ∀ named ∈ attributes, p.name ≠ named.1 :=
      fun named hmem hname => hp ⟨named, hmem, hname⟩
    rw [lastSetTo?_of_forall_ne hne, lastSetTo?_of_forall_ne hne, lastSetTo?_of_forall_ne]
    · rfl
    · exact fun named hmem => hne named (mem_bound_iff.1 hmem).1

/-- Once the bound attributes have been handled again, there are layout params as in the new data.
-/
theorem hasParams_settle_again (look : Look) :
    ((look.settle k data index attributes).settle k data' index (bound attributes)).hasParams =
      (look.settle k data' index attributes).hasParams := by
  simp only [hasParams_settle, Bool.or_assoc]
  congr 1
  rw [Bool.eq_iff_iff]
  simp only [Bool.or_eq_true, List.any_eq_true]
  constructor
  · rintro (⟨named, hmem, hset⟩ | ⟨named, hmem, hset⟩)
    · refine ⟨named, hmem, ?_⟩
      cases hbinding : named.2.isBinding with
      | true =>
        have hbound := mem_bound_iff.2 ⟨hmem, hbinding⟩
        exact Kind.setsParam_of_accepts hset
          (Kind.accepts_of_isBinding hbinding ▸ hall named hbound)
      | false =>
        unfold Kind.setsParam at hset ⊢
        rwa [Kind.effectIn?_of_not_isBinding hbinding data' data]
    · exact ⟨named, (mem_bound_iff.1 hmem).1, hset⟩
  · rintro ⟨named, hmem, hset⟩
    cases hbinding : named.2.isBinding with
    | true => exact .inr ⟨named, mem_bound_iff.2 ⟨hmem, hbinding⟩, hset⟩
    | false =>
      refine .inl ⟨named, hmem, ?_⟩
      unfold Kind.setsParam at hset ⊢
      rwa [Kind.effectIn?_of_not_isBinding hbinding data data']

include hnodup in
/-- Where names differ, applying the bound attributes again in new data comes to the same as
applying all attributes in the new data, if the new data suit the bound ones. -/
theorem settle_again (look : Look) :
    (look.settle k data index attributes).settle k data' index (bound attributes) =
      look.settle k data' index attributes := by
  have hsettings :
      ((look.settle k data index attributes).settle k data' index (bound attributes)).settings =
        (look.settle k data' index attributes).settings :=
    funext (settings_settle_again hnodup hall look)
  have hparams :
      ((look.settle k data index attributes).settle k data' index (bound attributes)).hasParams =
        (look.settle k data' index attributes).hasParams := hasParams_settle_again hall look
  cases h : (look.settle k data index attributes).settle k data' index (bound attributes)
  cases h' : look.settle k data' index attributes
  rw [h, h'] at hsettings hparams
  rw [mk.injEq]
  exact ⟨hsettings, hparams⟩

end

end Look

end LayoutEngine
