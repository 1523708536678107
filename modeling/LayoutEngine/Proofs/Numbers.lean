import LayoutEngine.Proofs.Holding
import LayoutEngine.Proofs.Rounding
import LayoutEngine.Proofs.Serving

/-!
# The numbers of widgets

How opaque a view is and how large a text is are numbers of single precision. Whatever values are
applied, the former is from zero to one or no number at all, and the latter is not below zero; but
a value may be no number, and a number above zero may become zero or infinity where it is stored.
`Property.Fits` says which values do no such harm: one that fits keeps all numbers in range, and one
that does not takes a number out of it (`Session.within_applyProperty_iff`). So the numbers of all
widgets are in range, after whatever requests, as long as only values that fit come up
(`Context.numbers_in_range`).
-/

namespace LayoutEngine

open Session Engine

/-! ## Bounds -/

/-- What the numbers of widgets are to be: how opaque a view is, and how large a text. -/
structure Bounds where
  alpha : Single → Prop
  size : Single → Prop

namespace Bounds

/-- Opacities from zero to one and finite sizes above zero. -/
def range : Bounds := ⟨Floating.InUnit, Floating.IsSize⟩

/-- Opacities from zero to one, if they are numbers, and sizes that are none below zero. -/
def loose : Bounds :=
  ⟨fun x => x.isNaN = true ∨ x.InUnit, fun x => x.isNaN = false ∧ x.negative = false⟩

/-- The bounds admit the numbers that widgets start with. -/
structure Admits (bounds : Bounds) : Prop where
  alpha : bounds.alpha ViewState.initial.alpha
  size : bounds.size TextState.initial.size

/-- The range of values admits what attributes may set. -/
theorem admits_range : range.Admits where
  alpha := by
    have hone : ViewState.initial.alpha = .ofMagnitude .binary32 false (127 * 2 ^ 23) := by decide
    exact hone ▸ Floating.inUnit_ofMagnitude false (le_refl _) nofun
  size := by
    have hsize : TextState.initial.size = .ofMagnitude .binary32 false 0x41600000 := by decide
    exact hsize ▸ (Floating.isSize_ofMagnitude_iff (by decide)).2 (by decide)

/-- So do the looser bounds. -/
theorem admits_loose : loose.Admits :=
  ⟨.inr admits_range.alpha, show _ ∧ _ by decide⟩

end Bounds

/-- The item of a widget has a size within the bounds, if it has one. -/
def Item.Within (bounds : Bounds) (item : Item) : Prop :=
  ∀ state, item = .text state → bounds.size state.size

/-- The numbers of a widget are within the bounds. -/
structure Widget.Within (bounds : Bounds) (w : Widget) : Prop where
  alpha : bounds.alpha w.view.alpha
  size : w.item.Within bounds

/-- Those of all widgets are. -/
def Session.Within (bounds : Bounds) (s : Session) : Prop :=
  ∀ id w, s.widget? id = some w → w.Within bounds

/-- If a value sets a number, it is within the bounds. -/
def Property.Keeps (bounds : Bounds) : Property → Value → Prop
  | .common .alpha, value =>
    ∀ x, value.float? = some x → bounds.alpha (x.clampUnit.convert .binary32)
  | .text .size, value =>
    ∀ x, value.float? = some x → x.isPositive = true → bounds.size (x.convert .binary32)
  | _, _ => True

/-- A value that is to be an opacity is not read as what is no number, and one that is to be a size
is not read as a number above zero that is too small or too great for single precision. -/
def Property.Fits : Property → Value → Prop
  | .common .alpha, value => ∀ x, value.float? = some x → x.isNaN = false
  | .text .size, value => ∀ x, value.float? = some x → x.isPositive = true → x.Narrows
  | _, _ => True

namespace Property

/-- A value keeps to the range just if it fits. -/
theorem keeps_range_iff {p : Property} {value : Value} : p.Keeps .range value ↔ p.Fits value := by
  cases p with
  | common a =>
    cases a with
    | alpha => exact forall₂_congr fun _ _ => Floating.inUnit_convert_clampUnit_iff
    | _ => exact Iff.rfl
  | text a =>
    cases a with
    | size => exact forall₃_congr fun _ _ hx => Floating.isSize_convert_iff hx
    | _ => exact Iff.rfl
  | _ => exact Iff.rfl

/-- An opacity is clamped and a size checked before they are stored, which keeps the loose bounds
whatever the value. -/
theorem keeps_loose (p : Property) (value : Value) : p.Keeps .loose value := by
  cases p with
  | common a =>
    cases a with
    | alpha =>
      intro x _
      cases hnan : x.isNaN with
      | true => exact .inl (Floating.isNaN_convert_clampUnit hnan)
      | false => exact .inr (Floating.inUnit_convert_clampUnit_iff.2 hnan)
    | _ => trivial
  | text a =>
    cases a with
    | size =>
      intro x _ hpos
      obtain ⟨m, hm, heq, -⟩ := Floating.exists_convert_eq_of_isPositive hpos
      have hlt : m < 2 ^ (FloatFormat.binary32.width - 1) := hm.trans_lt (by decide)
      rw [heq]
      refine ⟨?_, Floating.negative_ofMagnitude false hlt⟩
      rw [Floating.isNaN, Floating.magnitude_ofMagnitude false hlt]
      simpa [Floating.infinityBits_binary32] using hm
    | _ => trivial
  | _ => trivial

/-- What is read as a number that is finite and above zero in single precision fits all
properties. -/
theorem fits_of_isSize {value : Value} {x : Double} (hvalue : value.float? = some x)
    (hx : (x.convert .binary32).IsSize) (p : Property) : p.Fits value := by
  cases p with
  | common a =>
    cases a with
    | alpha =>
      intro y hy
      obtain rfl := Option.some.inj (hvalue.symm.trans hy)
      exact Floating.isNaN_of_isSize_convert hx
    | _ => trivial
  | text a =>
    cases a with
    | size =>
      intro y hy hpos
      obtain rfl := Option.some.inj (hvalue.symm.trans hy)
      exact (Floating.isSize_convert_iff hpos).1 hx
    | _ => trivial
  | _ => trivial

end Property

namespace Session

variable {bounds : Bounds} {s s' : Session} {id : WidgetId} {w w' : Widget} {p : Property}
  {value : Value}

/-- Where one widget is changed, only its numbers matter. -/
theorem Within.touches_iff (h : s.Within bounds) (ht : Touches id s s')
    (hself : s'.widget? id = some w') : s'.Within bounds ↔ w'.Within bounds := by
  refine ⟨fun h' => h' id w' hself, fun hw' other v hv => ?_⟩
  by_cases heq : other = id
  · subst heq
    rw [hself] at hv
    exact Option.some.inj hv ▸ hw'
  · exact h other v (ht.others other heq ▸ hv)

/-- An item that is set is the only one that matters to the bounds. -/
theorem Within.setItem_iff (h : s.Within bounds) (hw : s.widget? id = some w) (item : Item) :
    (s.setItem id item).Within bounds ↔ item.Within bounds := by
  have ht : Touches id s (s.setItem id item) := Touches.changeWidget id _ s
  rw [h.touches_iff ht (widget?_setItem hw item)]
  exact ⟨fun h' => h'.size, fun hitem => ⟨(h id w hw).alpha, hitem⟩⟩

/-- An attribute that all widgets have keeps the bounds exactly if its value does. -/
theorem Within.applyCommon_iff (h : s.Within bounds) (hw : s.widget? id = some w)
    (a : CommonAttribute) (value : Value) :
    (s.applyCommon id a value).2.Within bounds ↔
      (Property.common a).Keeps bounds (s.resolve id value) := by
  have hold := h id w hw
  rw [applyCommon, hw]
  dsimp only
  cases happlied : a.applied? (s.resolve id value) w.view s.ids with
  | none =>
    refine iff_of_true h ?_
    cases a with
    | alpha =>
      intro x hx
      simp [CommonAttribute.applied?, hx] at happlied
    | _ => trivial
  | some result =>
    obtain ⟨view, ids⟩ := result
    have hview : Touches id s (s.changeView id fun _ => view) := .changeWidget id _ s
    have ht : Touches id s { s.changeView id fun _ => view with ids := ids } :=
      ⟨CommonAttribute.le_of_applied? happlied, hview.others, hview.length, hview.managers,
        hview.tags⟩
    have hself : (s.changeView id fun _ => view).widget? id = some { w with view := view } := by
      simp [changeView, hw]
    have hnew : ∀ v : Widget, v = { w with view := view } → (v.Within bounds ↔
        bounds.alpha view.alpha) := by
      rintro v rfl
      exact ⟨fun h' => h'.alpha, fun halpha => ⟨halpha, hold.size⟩⟩
    rw [h.touches_iff ht hself, hnew _ rfl]
    by_cases ha : a = .alpha
    · subst ha
      obtain ⟨x, hx, hset⟩ := Option.map_eq_some_iff.1 happlied
      cases hset
      simp [Property.Keeps, hx]
    · have hsame := CommonAttribute.held_of_applied? happlied (b := .alpha) (Ne.symm ha)
      have halpha : view.alpha = w.view.alpha := Setting.single.inj hsame
      rw [halpha]
      refine iff_of_true hold.alpha ?_
      cases a <;> trivial

/-- What a text attribute makes of a state has a size within the bounds exactly if the value does,
where it is the size. -/
theorem within_textItem_iff {a : TextAttribute} {state state' : TextState}
    (hstate : bounds.size state.size) (h : a.applied? value state = some state') :
    Item.Within bounds (.text state') ↔ (Property.text a).Keeps bounds value := by
  have hitem : Item.Within bounds (.text state') ↔ bounds.size state'.size := by
    simp [Item.Within]
  rw [hitem]
  cases a with
  | size =>
    obtain ⟨x, hx, rfl⟩ := Option.map_eq_some_iff.1 h
    obtain ⟨hvalue, hpos⟩ := Option.filter_eq_some_iff.1 hx
    constructor
    · rintro hsize y hy -
      rw [hvalue] at hy
      exact Option.some.inj hy ▸ hsize
    · exact fun hkeeps => hkeeps x hvalue hpos
  | text =>
    cases h
    exact iff_of_true hstate trivial
  | color =>
    obtain ⟨color, -, rfl⟩ := Option.map_eq_some_iff.1 h
    exact iff_of_true hstate trivial

/-- What properties of fields and containers set is no number. -/
theorem Within.applyProperty_of_not_text (h : s.Within bounds) (hw : s.widget? id = some w)
    (hcommon : ∀ a, p ≠ .common a) (htext : ∀ a, p ≠ .text a) (value : Value) :
    (s.applyProperty id p value).2.Within bounds := by
  by_cases heffect : w.item.has p = true → p.settingOf? (s.resolve id value) = none
  · obtain ⟨log, hrun⟩ := applyProperty_of_ineffective hw heffect
    rw [hrun]
    exact h
  · push Not at heffect
    obtain ⟨hhas, hsetting⟩ := heffect
    obtain ⟨x, hx⟩ := Option.ne_none_iff_exists'.1 hsetting
    obtain ⟨item, hrun, hset⟩ := applyProperty_of_item hw hhas hcommon hx
    rw [hrun, h.setItem_iff hw]
    rintro state rfl
    have hhas' : (Item.text state).has p = true := (Item.has_congr hset.shell p).trans hhas
    cases p with
    | common a => exact absurd rfl (hcommon a)
    | text a => exact absurd rfl (htext a)
    | _ => cases hhas'

/-- A property keeps the bounds of a session exactly if the value does, where the widget has the
property. -/
theorem within_applyProperty_iff (h : s.Within bounds) (hw : s.widget? id = some w) (p : Property)
    (value : Value) :
    (s.applyProperty id p value).2.Within bounds ↔
      (w.item.has p = true → p.Keeps bounds (s.resolve id value)) := by
  cases p with
  | common a =>
    rw [applyProperty, h.applyCommon_iff hw]
    exact ⟨fun hkeeps _ => hkeeps, fun hkeeps => hkeeps rfl⟩
  | text a =>
    cases hitem : w.item with
    | text state =>
      have hstate : bounds.size state.size := (h id w hw).size state hitem
      have hhas : (Item.text state).has (.text a) = true := rfl
      rw [applyProperty, noteNotText_of_text hw hitem, imp_iff_right hhas]
      cases happlied : a.applied? (s.resolve id value) state with
      | none =>
        rw [applyItem_of_none hw (by simp [textItem?, hitem, happlied])]
        refine iff_of_true h ?_
        cases a with
        | size =>
          intro x hx hpos
          simp [TextAttribute.applied?, hx, hpos] at happlied
        | _ => trivial
      | some state' =>
        have hset : textItem? a (s.resolve id value) w.item = some (.text state') := by
          simp [textItem?, hitem, happlied]
        rw [applyItem_of_some hw hset, h.setItem_iff hw]
        exact within_textItem_iff hstate happlied
    | _ =>
      have hnot : w.item.has (.text a) ≠ true := by
        rw [hitem]
        exact Bool.false_ne_true
      obtain ⟨log, hrun⟩ : ∃ log,
          s.applyProperty id (.text a) value = (false, { s with log := log }) :=
        applyProperty_of_ineffective hw fun hhas => absurd hhas hnot
      rw [hrun, ← hitem]
      exact iff_of_true h fun hhas => absurd hhas hnot
  | editText a =>
    refine iff_of_true (h.applyProperty_of_not_text hw ?_ ?_ value) fun _ => trivial
    all_goals simp
  | gravity =>
    refine iff_of_true (h.applyProperty_of_not_text hw ?_ ?_ value) fun _ => trivial
    all_goals simp

/-- So it does for a widget that is not there, which has no numbers. -/
theorem Within.applyProperty (h : s.Within bounds) (p : Property)
    (hkeeps : p.Keeps bounds (s.resolve id value)) :
    (s.applyProperty id p value).2.Within bounds := by
  cases hw : s.widget? id with
  | some w => exact (within_applyProperty_iff h hw p value).2 fun _ => hkeeps
  | none =>
    have hrun : (s.applyProperty id p value).2 = s := by
      cases p <;> simp [Session.applyProperty, applyCommon, applyItem, noteNotText, hw]
    rwa [hrun]

/-! ## Sessions -/

/-- Children have no values of their own that bounds would be about. -/
theorem Within.setChildren (h : s.Within bounds) (id : WidgetId) (children : List WidgetId) :
    (s.setChildren id children).Within bounds := by
  intro other v hv
  rw [widget?_setChildren] at hv
  obtain ⟨w, hw, rfl⟩ := Option.map_eq_some_iff.1 hv
  exact ⟨(h other w hw).alpha, (h other w hw).size⟩

/-- A widget that is added does not matter if its own numbers are within the bounds. -/
theorem Within.append (h : s.Within bounds) (hwidgets : s'.widgets = s.widgets ++ [w])
    (hw : w.Within bounds) : s'.Within bounds := by
  intro id v hv
  rcases (widget?_append_iff hwidgets).1 hv with hv | ⟨-, rfl⟩
  · exact h id v hv
  · exact hw

end Session

/-- Anything may come up, but only some items are made into widgets. -/
def Provision.making (items : Item → Prop) : Provision :=
  { Provision.everything with items := items }

/-- A request makes items of one kind if whatever it makes is such. -/
theorem Request.from_making {items : Item → Prop} {r : Request}
    (h : ∀ item, r = .create item → items item) : r.From (.making items) := by
  cases r with
  | act act => cases act <;> simp [From, Provision.making, Provision.everything]
  | create item => exact h item rfl
  | compile => trivial
  | inflateNamed => exact ⟨trivial, trivial⟩
  | handle parser => exact ⟨fun _ _ => trivial, fun _ _ => trivial⟩

/-- Only values that suit the properties they are set for come up: resolved in whatever data and at
whatever place, for widgets without either too, and in edits. -/
structure Provision.Meets (provision : Provision) (suits : Property → Value → Prop) : Prop where
  data : provision.data []
  place : provision.places noDataIndex
  allows : ∀ {p value data index}, provision.allows p value → provision.data data →
    provision.places index → suits p (value.resolve data index)
  edits : ∀ {p name json}, provision.edits name json → p.name = name →
    provision.allows p (.ofJson json)

/-- The parsers serve the engine's kinds, managers have been made from what is provided, and the
numbers of all widgets are within the bounds. -/
structure Session.Confined (context : Context) (provision : Provision) (bounds : Bounds)
    (s : Session) : Prop where
  provides : context.registry.Provides s.ids
  within : s.Within bounds
  managed : ∀ {mid m}, s.manager? mid = some m →
    (∃ viewType, context.registry.get? viewType = some m.parser) ∧
      provision.Equips m.layout m.parser m.data m.index

namespace Session

variable {context : Context} {provision : Provision} {bounds : Bounds} {s s' : Session}
  {id : WidgetId} {m : Manager}

/-- A session is still confined if it was. -/
def StaysConfined (context : Context) (provision : Provision) (bounds : Bounds) (s s' : Session) :
    Prop :=
  s.Confined context provision bounds → s'.Confined context provision bounds

instance : IsPreorder Session (StaysConfined context provision bounds) where
  refl _ h := h
  trans _ _ _ h₁ h₂ h := h₂ (h₁ h)

/-- A value that is allowed and resolved in the data of a widget suits. -/
theorem Confined.suits {suits : Property → Value → Prop}
    (h : s.Confined context provision bounds) (hmeets : provision.Meets suits) {p : Property}
    {value : Value} (hvalue : provision.allows p value) (id : WidgetId) :
    suits p (s.resolve id value) := by
  rw [resolve]
  cases hm : s.managerOf? id with
  | none => exact hmeets.allows hvalue hmeets.data hmeets.place
  | some m =>
    obtain ⟨_, _, _, _, hmanager⟩ := managerOf?_eq_some_iff.1 hm
    obtain ⟨-, hequips⟩ := h.managed hmanager
    exact hmeets.allows hvalue hequips.data hequips.place

/-- The number of the name that is edited leads to properties of that name. -/
theorem Confined.offers_edit {suits : Property → Value → Prop}
    (h : s.Confined context provision bounds) (hmeets : provision.Meets suits) {name : String}
    {json : Json} (hedit : provision.edits name json) (hm : s.managerOf? id = some m) :
    provision.Offers m.parser ⟨(s.intern name).1, .ofJson json⟩ := by
  obtain ⟨_, _, _, _, hmanager⟩ := managerOf?_eq_some_iff.1 hm
  obtain ⟨⟨viewType, hget⟩, -⟩ := h.managed hmanager
  obtain ⟨k, hserves⟩ := h.provides viewType m.parser hget
  refine ⟨fun p hp => hmeets.edits hedit ?_, ?_⟩
  · have hroute := hserves.route (IdTable.le_intern name s.ids) (IdTable.get?_intern name s.ids)
    have hp' : m.parser.handler.route (s.ids.intern name).1 = .property p := hp
    exact (Kind.route_eq_property (hroute.symm.trans hp')).1
  · rw [Value.layouts_ofJson]
    exact List.forall_mem_nil _

/-- Further names change nothing about bounds. -/
theorem Confined.withNames (h : s.Confined context provision bounds) {ids : IdTable}
    (hids : s.ids ≤ ids) : ({ s with ids := ids } : Session).Confined context provision bounds :=
  ⟨h.provides.mono hids, h.within, h.managed⟩

/-- Nor do other data, provided that they may come up. -/
theorem Confined.setData (h : s.Confined context provision bounds) {data : Fields}
    (hdata : provision.data data) (mid : ManagerId) :
    (s.setData mid data).Confined context provision bounds := by
  refine ⟨h.provides, h.within, fun {mid' m'} hm' => ?_⟩
  by_cases heq : mid' = mid
  · subst heq
    cases hm : s.manager? mid' with
    | none =>
      rw [setData_of_none hm, hm] at hm'
      cases hm'
    | some m =>
      rw [manager?_setData_self hm] at hm'
      cases hm'
      obtain ⟨hparser, hequips⟩ := h.managed hm
      exact ⟨hparser, hdata, hequips.place, hequips.offers⟩
  · rw [manager?_setData_of_ne heq] at hm'
    exact h.managed hm'

end Session

namespace Context

variable {context : Context} {provision : Provision} {bounds : Bounds}
  {suits : Property → Value → Prop} (hadmits : bounds.Admits)
  (hmeets : provision.Meets suits)
  (hitems : ∀ {item}, provision.items item → item.Within bounds)
  (hsuits : ∀ {p value}, suits p value → p.Keeps bounds value)

include hadmits hmeets hitems hsuits in
/-- Inflating layouts that are provided keeps a session confined. -/
theorem carriesFrom_staysConfined :
    context.CarriesFrom provision (Session.Confined context provision bounds) (fun _ => True)
      (StaysConfined context provision bounds) where
  told s log calls h := ⟨h.provides, h.within, h.managed⟩
  create {item} hitem s h :=
    ⟨h.provides, h.within.append rfl ⟨hadmits.alpha, hitems hitem⟩, h.managed⟩
  start {l parser} hget {data index} hequips verbose parent s hs := by
    obtain ⟨k, hserves⟩ := hs.provides l.viewType parser hget
    have hstarts := (hserves.attach verbose l data parent index).recordTags l
    simp only [ViewParser.start, hserves.giveOut]
    have hitem : k.item.Within bounds := by
      cases k <;> intro state hstate <;> cases hstate
      exact hadmits.size
    refine ⟨True.intro, fun h => ⟨?_, ?_, fun hm => ?_⟩⟩
    · exact h.provides.mono hstarts.frame.ids
    · exact h.within.append hstarts.widgets ⟨hadmits.alpha, hitem⟩
    · rcases (manager?_append_iff hstarts.managers).1 hm with hm | ⟨-, rfl⟩
      · exact h.managed hm
      · exact ⟨⟨l.viewType, hget⟩, hequips⟩
  property {id} _ {p value} hvalue s hs h := by
    have ht := touches_applyProperty id p value s
    exact ⟨h.provides.mono ht.ids, h.within.applyProperty p (hsuits (hs.suits hmeets hvalue id)),
      fun hm => h.managed ((ht.manager? _).symm.trans hm)⟩
  children {id} _ children s h := by
    have ht : Touches id s (s.setChildren id children) := .changeWidget id _ s
    exact ⟨h.provides.mono ht.ids, h.within.setChildren id children,
      fun hm => h.managed ((ht.manager? _).symm.trans hm)⟩
  still h hs := h hs
  managed hs hm := (hs.managed hm).2

include hadmits hmeets hitems hsuits in
/-- The numbers of widgets are within bounds after whatever requests, if nothing comes up but what
keeps them there. -/
theorem within_serveAll {ids : IdTable} (hprovides : context.registry.Provides ids)
    (hclosed : provision.Closed context) {requests : List Request}
    (hrequests : ∀ r ∈ requests, r.From provision) :
    (context.serveAll requests (.ofIds ids)).Within bounds := by
  have hstart : (Session.ofIds ids).Confined context provision bounds :=
    ⟨hprovides, fun id w hw => (Option.some_ne_none w (hw.symm.trans (widget?_ofIds ids id))).elim,
      nofun⟩
  have hstays := serveAll_carriesFrom (carriesFrom_staysConfined hadmits hmeets hitems hsuits)
    hclosed (fun hdata _ mid h => h.setData hdata mid) (fun _ _ hids h => h.withNames hids)
    (fun _ _ h => ⟨h.provides, h.within, h.managed⟩)
    (fun hedit h hm => h.offers_edit hmeets hedit hm) hrequests hstart
  exact (hstays hstart).within

/-- Where the parsers are the engine's own, perhaps under further names, after whatever requests,
opacities are from zero to one unless they are no numbers, and sizes are none below zero. All
numbers are in range if only values that fit have come up, and one more value keeps them there
exactly if it fits or the widget does not have the property. -/
theorem numbers_in_range {context : Context} {aliases : List (String × String)} {t ids : IdTable}
    (hregistry : context.registry = Setup.registerAliases aliases (Registry.withBuiltins t).1)
    (hids : (Registry.withBuiltins t).2 ≤ ids) {requests : List Request}
    (hcreated : ∀ item, .create item ∈ requests → item.Within .loose) :
    (context.serveAll requests (.ofIds ids)).Within .loose ∧
    (∀ provision : Provision, provision.Closed context → provision.Meets Property.Fits →
      (∀ item, provision.items item → item.Within .range) →
      (∀ r ∈ requests, r.From provision) →
      (context.serveAll requests (.ofIds ids)).Within .range) ∧
    ∀ s : Session, s.Within .range → ∀ id w, s.widget? id = some w → ∀ p value,
      ((s.applyProperty id p value).2.Within .range ↔
        (w.item.has p = true → p.Fits (s.resolve id value))) := by
  have hprovides : context.registry.Provides ids := by
    rw [hregistry]
    exact (Registry.provides_registerAliases aliases t).mono hids
  refine ⟨?_, ?_, ?_⟩
  · have hclosed : (Provision.making (Item.Within .loose)).Closed context :=
      ⟨fun _ _ _ _ => ⟨fun _ _ => trivial, fun _ _ => trivial⟩, fun _ => trivial, nofun⟩
    have hmeets : (Provision.making (Item.Within .loose)).Meets (Property.Keeps .loose) :=
      ⟨trivial, trivial, fun _ _ _ => Property.keeps_loose _ _, fun _ _ => trivial⟩
    refine within_serveAll Bounds.admits_loose hmeets id id hprovides hclosed fun r hr => ?_
    exact Request.from_making fun item hitem => hcreated item (hitem ▸ hr)
  · intro provision hclosed hmeets hitems hrequests
    exact within_serveAll Bounds.admits_range hmeets (hitems _) Property.keeps_range_iff.2
      hprovides hclosed hrequests
  · intro s hs id w hw p value
    rw [within_applyProperty_iff hs hw, Property.keeps_range_iff]

/-- A text that is half transparent. -/
def faintText : Layout :=
  ⟨"text", [⟨(ownIds.intern "alpha").1, .string "0.5"⟩,
    ⟨(ownIds.intern "textSize").1, .string "20"⟩], none⟩

/-- It has the opacity and the size that it declares, and they are in range. -/
theorem numbers_in_range_faintText :
    ∃ w state, (own.serveAll [.act (.inflate faintText [] none noDataIndex)]
        (.ofIds ownIds)).widget? ⟨1⟩ = some w ∧
      w.view.alpha = .ofRatio .binary32 false 1 2 ∧ w.item = .text state ∧
      state.size = .ofInt .binary32 20 ∧ w.Within .range := by
  have hrun : ((own.serveAll [.act (.inflate faintText [] none noDataIndex)]
      (.ofIds ownIds)).widget? ⟨1⟩).map (fun w => (w.view.alpha, w.item)) =
      some (.ofRatio .binary32 false 1 2,
        .text { TextState.initial with size := .ofInt .binary32 20 }) := by
    decide +kernel
  obtain ⟨w, hw, hwidget⟩ := Option.map_eq_some_iff.1 hrun
  obtain ⟨halpha, hitem⟩ := Prod.mk.inj hwidget
  -- What comes up is this layout with the two values in it, and no data.
  let provision : Provision := ⟨(· = faintText), (· = []), (· = noDataIndex),
    fun _ value => value = .string "0.5" ∨ value = .string "20", (· = .view), fun _ _ => False⟩
  have hclosed : provision.Closed own := by
    refine ⟨?_, nofun, rfl⟩
    rintro l parser rfl -
    refine List.forall_mem_cons.2 ⟨?_, List.forall_mem_singleton.2 ?_⟩
    · exact ⟨fun _ _ => .inl rfl, nofun⟩
    · exact ⟨fun _ _ => .inr rfl, nofun⟩
  have hhalf : ∀ p : Property, p.Fits (.string "0.5") := by
    have hvalue : (Value.string "0.5").float? = some (.ofRatio .binary64 false 1 2) := by
      decide +kernel
    have hconvert : (Floating.ofRatio .binary64 false 1 2).convert .binary32 =
        .ofMagnitude .binary32 false (126 * 2 ^ 23) := by decide +kernel
    exact Property.fits_of_isSize hvalue
      (hconvert ▸ (Floating.isSize_ofMagnitude_iff (by decide)).2 (by decide))
  have htwenty : ∀ p : Property, p.Fits (.string "20") := by
    have hvalue : (Value.string "20").float? = some (.ofInt .binary64 20) := by decide +kernel
    have hconvert : (Floating.ofInt .binary64 20).convert .binary32 =
        .ofMagnitude .binary32 false 0x41a00000 := by decide +kernel
    exact Property.fits_of_isSize hvalue
      (hconvert ▸ (Floating.isSize_ofMagnitude_iff (by decide)).2 (by decide))
  have hmeets : provision.Meets Property.Fits := by
    refine ⟨rfl, rfl, ?_, nofun⟩
    rintro p value data index (rfl | rfl) - -
    · exact hhalf p
    · exact htwenty p
  have hcreated : ∀ item, .create item ∈ [Request.act (.inflate faintText [] none noDataIndex)] →
      item.Within .loose := by simp
  have hregistry : own.registry = Setup.registerAliases [] (Registry.withBuiltins .empty).1 := rfl
  obtain ⟨-, hrange, -⟩ := numbers_in_range hregistry (le_refl ownIds) hcreated
  have hwithin := hrange provision hclosed hmeets (by rintro item rfl; exact nofun)
    (List.forall_mem_singleton.2 ⟨rfl, rfl, rfl⟩)
  exact ⟨w, _, hw, halpha, hitem, rfl, hwithin ⟨1⟩ w hw⟩

/-- What is no number becomes an opacity, and a number above zero becomes a size that is zero or
infinite. -/
theorem numbers_out_of_range :
    ∃ l t' s v w₁ w₂ state₁ state₂,
      LayoutSource.compile ⟨"relative-layout", [], [⟨"view", [⟨"alpha", .string "nan"⟩], []⟩,
        ⟨"text", [⟨"textSize", .string "1e-60"⟩], []⟩,
        ⟨"text", [⟨"textSize", .string "1e300"⟩], []⟩]⟩ ownIds = (.ok l, t') ∧
      own.inflate l [] none noDataIndex (.ofIds t') = (.ok ⟨1⟩, s) ∧
      s.widget? ⟨2⟩ = some v ∧ v.view.alpha = .nan .binary32 ∧ ¬v.view.alpha.InUnit ∧
      s.widget? ⟨3⟩ = some w₁ ∧ w₁.item = .text state₁ ∧ state₁.size = .zero .binary32 ∧
      ¬state₁.size.IsSize ∧
      s.widget? ⟨4⟩ = some w₂ ∧ w₂.item = .text state₂ ∧ state₂.size = .infinity .binary32 false ∧
      ¬state₂.size.IsSize := by
  have hrun : Fallible.gives (LayoutSource.compile ⟨"relative-layout", [],
      [⟨"view", [⟨"alpha", .string "nan"⟩], []⟩, ⟨"text", [⟨"textSize", .string "1e-60"⟩], []⟩,
        ⟨"text", [⟨"textSize", .string "1e300"⟩], []⟩]⟩) ownIds
      (fun l t' => Fallible.gives (own.inflate l [] none noDataIndex) (.ofIds t') fun root s =>
        decide (root = ⟨1⟩ ∧ (s.widget? ⟨2⟩).map (·.view.alpha) = some (.nan .binary32) ∧
          (s.widget? ⟨3⟩).map (·.item) =
            some (.text { TextState.initial with size := .zero .binary32 }) ∧
          (s.widget? ⟨4⟩).map (·.item) =
            some (.text { TextState.initial with size := .infinity .binary32 false }))) = true := by
    decide +kernel
  obtain ⟨l, t', hcompile, hrun⟩ := Fallible.exists_of_gives hrun
  obtain ⟨root, s, hinflate, hrun⟩ := Fallible.exists_of_gives hrun
  obtain ⟨rfl, halpha, hsmall, hgreat⟩ := of_decide_eq_true hrun
  obtain ⟨v, hv, halpha⟩ := Option.map_eq_some_iff.1 halpha
  obtain ⟨w₁, hw₁, hsmall⟩ := Option.map_eq_some_iff.1 hsmall
  obtain ⟨w₂, hw₂, hgreat⟩ := Option.map_eq_some_iff.1 hgreat
  refine ⟨l, t', s, v, w₁, w₂, _, _, hcompile, hinflate, hv, halpha, ?_, hw₁, hsmall, rfl, ?_,
    hw₂, hgreat, rfl, ?_⟩
  · rintro ⟨q, hq, -⟩
    rw [halpha, Floating.value?_nan] at hq
    cases hq
  · exact fun h => absurd ((Floating.isSize_ofMagnitude_iff (Nat.zero_le _)).1 h).1 (by decide)
  · exact fun h => absurd ((Floating.isSize_ofMagnitude_iff (le_refl _)).1 h).2 (by decide)

end Context

end LayoutEngine
