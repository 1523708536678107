import LayoutEngine.Proofs.Apply

/-!
# What bound attributes do

Applied again, the bound attributes of a manager's layout set properties of its widget and do
nothing else: each that is accepted has one effect, and whether it is accepted, and what the effect
is, depends on the data alone (`Manager.effectsIn`). The last effect on a property counts, so that
the same effects once more change nothing (`Look.setAll_setAll`). Other views get numbers from the
effects that refer to them, and a view that has one gets no other
(`Session.Managed.applyBound_effects`).
-/

namespace LayoutEngine

/-! ## Effects -/

/-- What an attribute that goes somewhere sets and what to, if it goes to a property that accepts
the value. -/
def Route.effect? (value : Value) : Route → Option (Property × Setting)
  | .property p => (p.settingOf? value).map fun x => (p, x)
  | _ => none

/-- An attribute has an effect just if it is routed to a property and its value is a setting of
that. -/
theorem Route.effect?_eq_some_iff {value : Value} {route : Route} {p : Property} {x : Setting} :
    route.effect? value = some (p, x) ↔ route = .property p ∧ p.settingOf? value = some x := by
  cases route with
  | property q =>
    simp only [effect?, Option.map_eq_some_iff, Prod.mk.injEq, Route.property.injEq]
    constructor
    · rintro ⟨y, hy, rfl, rfl⟩
      exact ⟨rfl, hy⟩
    · rintro ⟨rfl, hx⟩
      exact ⟨x, hx, rfl, rfl⟩
  | _ => exact ⟨nofun, fun h => nomatch h.1⟩

/-- What the bound ones among attributes set in data, in order. -/
def Handler.boundEffects (data : Fields) (index : Int) (attributes : List Attribute)
    (handler : Handler) : List (Property × Setting) :=
  (attributes.filter (·.value.isBinding)).filterMap fun a =>
    (handler.route a.id).effect? (a.value.resolve data index)

namespace Manager

/-- What the bound attributes of a manager's layout set in data, in order. -/
def effectsIn (data : Fields) (m : Manager) : List (Property × Setting) :=
  m.parser.handler.boundEffects data m.index m.layout.attributes

/-- The parser of a manager accepts the value that an attribute has in data. -/
def accepts (data : Fields) (m : Manager) (a : Attribute) : Bool :=
  ((m.parser.handler.route a.id).effect? (a.value.resolve data m.index)).isSome

/-- How many bound attributes of a manager's layout are accepted in data. -/
def acceptedIn (data : Fields) (m : Manager) : Nat :=
  m.layout.attributes.countP fun a => a.value.isBinding && m.accepts data a

/-- An attribute of a manager's layout that is bound goes to a property. -/
def Binds (m : Manager) (p : Property) : Prop :=
  ∃ a ∈ m.layout.attributes, a.value.isBinding = true ∧ m.parser.handler.route a.id = .property p

/-- Each attribute that is accepted has one effect. -/
theorem length_effectsIn (data : Fields) (m : Manager) :
    (m.effectsIn data).length = m.acceptedIn data := by
  rw [effectsIn, Handler.boundEffects, acceptedIn, List.length_filterMap_eq_countP,
    List.countP_filter]
  simp only [Bool.and_comm, accepts]

/-- Only bound properties have effects in data. -/
theorem binds_of_mem_effectsIn {data : Fields} {m : Manager} {e : Property × Setting}
    (h : e ∈ m.effectsIn data) : m.Binds e.1 := by
  obtain ⟨a, ha, he⟩ := List.mem_filterMap.1 h
  obtain ⟨hmem, hbinding⟩ := List.mem_filter.1 ha
  exact ⟨a, hmem, hbinding, (Route.effect?_eq_some_iff.1 he).1⟩

/-- The data that a manager has are of no matter to what others set. -/
@[simp] theorem effectsIn_data (data data' : Fields) (m : Manager) :
    { m with data := data' }.effectsIn data = m.effectsIn data := rfl

end Manager

namespace Look

/-- The look with properties set one after the other. -/
def setAll (effects : List (Property × Setting)) (look : Look) : Look :=
  effects.foldl (fun look e => look.set e.1 e.2) look

/-- What the last effect on a property sets it to, if there is one. -/
def lastOf? (p : Property) (effects : List (Property × Setting)) : Option Setting :=
  (effects.filterMap fun e => if e.1 = p then some e.2 else none).getLast?

/-- Of several settings of one property the last one counts. -/
theorem settings_setAll (effects : List (Property × Setting)) (look : Look) (p : Property) :
    (look.setAll effects).settings p = (lastOf? p effects).getD (look.settings p) := by
  induction effects generalizing look with
  | nil => rfl
  | cons e rest ih =>
    rw [setAll, List.foldl_cons, ← setAll, ih]
    by_cases he : e.1 = p
    · subst he
      simp only [lastOf?, List.filterMap_cons, if_pos, List.getLast?_cons, set,
        Function.update_self, Option.getD_some]
    · simp only [lastOf?, List.filterMap_cons, if_neg he, set, Function.update_of_ne (Ne.symm he)]

/-- A property that nothing sets has no last setting. -/
theorem lastOf?_of_forall_ne {effects : List (Property × Setting)} {p : Property}
    (h : ∀ e ∈ effects, e.1 ≠ p) : lastOf? p effects = none := by
  rw [lastOf?, List.filterMap_eq_nil_iff.2 fun e he => if_neg (h e he)]
  rfl

/-- A widget has layout params once anything sets one. -/
theorem hasParams_setAll (effects : List (Property × Setting)) (look : Look) :
    (look.setAll effects).hasParams = (look.hasParams || effects.any (·.1.isParam)) := by
  induction effects generalizing look with
  | nil => exact (Bool.or_false _).symm
  | cons e rest ih =>
    rw [setAll, List.foldl_cons, ← setAll, ih, set, Bool.or_assoc, List.any_cons]

/-- The same effects once more change nothing. -/
theorem setAll_setAll (effects : List (Property × Setting)) (look : Look) :
    (look.setAll effects).setAll effects = look.setAll effects := by
  have hsettings : ((look.setAll effects).setAll effects).settings =
      (look.setAll effects).settings := by
    funext p
    rw [settings_setAll, settings_setAll]
    cases lastOf? p effects <;> rfl
  have hparams : ((look.setAll effects).setAll effects).hasParams =
      (look.setAll effects).hasParams := by
    rw [hasParams_setAll, hasParams_setAll, Bool.or_assoc, Bool.or_self]
  cases h : (look.setAll effects).setAll effects
  cases h' : look.setAll effects
  rw [h, h'] at hsettings hparams
  rw [mk.injEq]
  exact ⟨hsettings, hparams⟩

/-- Attributes given by name have their effects one after the other. -/
theorem settle_eq_setAll (k : Kind) (data : Fields) (index : Int)
    (attributes : List (String × Value)) (look : Look) :
    look.settle k data index attributes =
      look.setAll (attributes.filterMap (k.effectIn? data index)) := by
  rw [settle, setAll, List.foldl_filterMap]
  congr
  funext look named
  rw [apply]
  cases k.effectIn? data index named <;> rfl

end Look

/-! ## Views that effects refer to -/

namespace Setting

/-- The view that is referred to, if there is one, has a number. -/
def Named (t : IdTable) : Setting → Prop
  | .view (some name) | .sibling name => (t.viewId? name).isSome = true
  | _ => True

/-- A setting names the same in any later table. -/
theorem Named.mono {t u : IdTable} (h : t ≤ u) {x : Setting} (hx : x.Named t) : x.Named u := by
  have hview : ∀ name, (t.viewId? name).isSome = true → (u.viewId? name).isSome = true := by
    intro name hname
    obtain ⟨id, hid⟩ := Option.isSome_iff_exists.1 hname
    exact Option.isSome_iff_exists.2 ⟨id, IdTable.get?_mono h hid⟩
  unfold Named at hx ⊢
  split <;> first | exact hview _ hx | trivial

end Setting

/-- A name that belongs to a number is that of a view. -/
theorem IdTable.isSome_viewId?_of_viewNameOf? {t : IdTable} {id : Int} {name : String}
    (h : t.viewNameOf? id = some name) : (t.viewId? name).isSome = true :=
  Option.isSome_iff_exists.2 ⟨id, viewNameOf?_eq_some_iff.1 h⟩

/-- A view that has a number gets no other. -/
theorem Setting.numbered_of_named {t : IdTable} {x : Setting} (h : x.Named t) :
    x.numbered t = t := by
  have hview : ∀ name, (t.viewId? name).isSome = true →
      (t.intern (IdTable.viewKey name)).2 = t := by
    intro name hname
    obtain ⟨id, hid⟩ := Option.isSome_iff_exists.1 hname
    rw [IdTable.intern_of_get? hid]
  cases x with
  | view name =>
    cases name with
    | none => rfl
    | some name => exact hview name h
  | sibling name => exact hview name h
  | _ => rfl

namespace CommonAttribute

/-- Views refer to views that have numbers. -/
theorem named_of_setting? {ids : IdTable} {view : ViewState} {a : CommonAttribute} {x : Setting}
    (h : a.setting? ids view = some x) : x.Named ids := by
  cases a with
  | id =>
    simp only [setting?] at h
    split at h
    · cases h
      trivial
    · obtain ⟨name, hname, rfl⟩ := Option.map_eq_some_iff.1 h
      exact IdTable.isSome_viewId?_of_viewNameOf? hname
  | rule r =>
    simp only [setting?] at h
    split at h
    · cases h
      trivial
    · cases h
      trivial
    · obtain ⟨name, hname, rfl⟩ := Option.map_eq_some_iff.1 h
      exact IdTable.isSome_viewId?_of_viewNameOf? hname
  | _ =>
    cases h
    trivial

end CommonAttribute

/-- The views that a setting refers to have names. -/
theorem Property.named_of_setting? {ids : IdTable} {w : Widget} {p : Property} {x : Setting}
    (h : p.setting? ids w = some x) : x.Named ids := by
  cases p with
  | common a => exact CommonAttribute.named_of_setting? h
  | text a =>
    simp only [setting?] at h
    split at h <;> cases h
    cases a <;> trivial
  | editText a =>
    simp only [setting?] at h
    split at h <;> cases h
    cases a <;> trivial
  | gravity =>
    simp only [setting?] at h
    split at h <;> cases h
    trivial

/-! ## Applying bound attributes -/

/-- A parser that serves a kind has a use for every attribute that it accepts, also for one whose
number is no name's. -/
theorem ViewParser.Serves.route_ne_presence {parser : ViewParser} {k : Kind} {t : IdTable}
    (h : parser.Serves k t) (a : Int) : parser.handler.route a ≠ .presence := by
  have hcommon : ∀ common : AttributeSet CommonAttribute,
      Handler.routeCommon common a ≠ .presence := by
    intro common
    unfold Handler.routeCommon
    split <;> rintro ⟨⟩
  cases hhandler : parser.handler with
  | view common => exact hcommon common
  | text own common =>
    simp only [Handler.route]
    split
    · rintro ⟨⟩
    · exact hcommon common
  | editText own common =>
    simp only [Handler.route]
    split
    · rintro ⟨⟩
    · exact hcommon common
  | container own common =>
    simp only [Handler.route]
    split
    · rintro ⟨⟩
    · rintro ⟨⟩
    · exact hcommon common
  | presence =>
    -- A handler for everything would take the attributes that have names, too.
    have hroute := h.route (IdTable.le_intern "" t) (IdTable.get?_intern "" t)
    rw [hhandler] at hroute
    exact absurd hroute.symm (k.route_ne_presence "")

/-- Where all its names have numbers, the effects of attributes are those of their names. -/
theorem Handler.boundEffects_eq {parser : ViewParser} {k : Kind} {t : IdTable}
    (hserves : parser.Serves k t) {named : List (String × Value)} {attributes : List Attribute}
    (hbears : List.Forall₂ (Attribute.Bears t) named attributes) (data : Fields) (index : Int) :
    parser.handler.boundEffects data index attributes =
      (Look.bound named).filterMap (k.effectIn? data index) := by
  induction hbears with
  | nil => rfl
  | @cons n a ns as ha _ ih =>
    obtain ⟨a, value⟩ := a
    obtain ⟨hid, rfl⟩ := ha
    have heffect : (parser.handler.route a).effect? (n.2.resolve data index) =
        k.effectIn? data index n := by
      rw [hserves.route (le_refl t) hid]
      rfl
    unfold boundEffects Look.bound at ih ⊢
    cases hbinding : n.2.isBinding <;>
      simp only [List.filter_cons, hbinding, Bool.false_eq_true, if_true, if_false,
        List.filterMap_cons, heffect, ih]

namespace Session

variable {s s' : Session} {id : WidgetId} {mid : ManagerId} {m : Manager} {k : Kind}
  {w w' : Widget} {look : Look}

/-- A property that refers to a view which has a number numbers nothing. -/
theorem ids_applyProperty {p : Property} {value : Value} {x : Setting}
    (hx : p.settingOf? (s.resolve id value) = some x) (hnamed : x.Named s.ids) :
    (s.applyProperty id p value).2.ids = s.ids := by
  have hitem : ∀ (applied? : Item → Option Item) (s : Session),
      (s.applyItem id applied?).2.ids = s.ids := by
    intro applied? s
    unfold applyItem
    split
    · rfl
    · exact ids_setItem id _ s
  cases p with
  | common a =>
    simp only [applyProperty, applyCommon]
    split
    · rfl
    · split
      · rfl
      · next happlied =>
        exact (CommonAttribute.ids_of_applied? hx happlied).trans (Setting.numbered_of_named hnamed)
  | text a =>
    have hnote : (s.noteNotText id a).ids = s.ids := by
      unfold noteNotText
      split <;> rfl
    exact (hitem _ _).trans hnote
  | editText a => exact hitem _ s
  | gravity => exact hitem _ s

namespace Managed

variable (context : Context)

/-- Effects have come to a managed widget: they show, the views that they refer to have numbers, and
nothing else has changed; no name has been numbered if those views had their numbers before, and
the widget is as it was if there are no effects. -/
structure Takes (s : Session) (id : WidgetId) (k : Kind) (w : Widget) (look : Look)
    (effects : List (Property × Setting)) (s' : Session) (w' : Widget) : Prop where
  changes : Changes id s w s' w'
  shows : w'.Shows s'.ids k (look.setAll effects)
  children : w'.children = w.children
  named : ∀ e ∈ effects, e.2.Named s'.ids
  ids : (∀ e ∈ effects, e.2.Named s.ids) → s'.ids = s.ids
  idle : effects = [] → w' = w

/-- Without settings a widget stays as it is. -/
theorem takes_nil (h : s.Managed id mid m k w look) : Takes s id k w look [] s w :=
  ⟨.refl h.widget, h.shows, rfl, nofun, fun _ => rfl, fun _ => rfl⟩

/-- Effects come one after the other. -/
theorem Takes.append {s₁ s₂ : Session} {w₁ w₂ : Widget} {first rest : List (Property × Setting)}
    (h₁ : Takes s id k w look first s₁ w₁) (h₂ : Takes s₁ id k w₁ (look.setAll first) rest s₂ w₂) :
    Takes s id k w look (first ++ rest) s₂ w₂ where
  changes := h₁.changes.trans h₂.changes
  shows := by
    rw [Look.setAll, List.foldl_append]
    exact h₂.shows
  children := h₂.children.trans h₁.children
  named := List.forall_mem_append.2
    ⟨fun e he => (h₁.named e he).mono h₂.changes.touches.ids, h₂.named⟩
  ids hnamed := by
    obtain ⟨hfirst, hrest⟩ := List.forall_mem_append.1 hnamed
    have hids := h₁.ids hfirst
    rw [h₂.ids fun e he => hids ▸ hrest e he, hids]
  idle hnil := by
    obtain ⟨hfirst, hrest⟩ := List.append_eq_nil_iff.1 hnil
    rw [h₂.idle hrest, h₁.idle hfirst]

/-- A bound attribute has at most one effect, and nothing else comes of it. -/
theorem apply_binding (h : s.Managed id mid m k w look) (a : Int) {value : Value}
    (hbinding : value.isBinding = true) :
    ∃ s' w', context.apply m.parser id a value s =
        (.ok ((m.parser.handler.route a).effect? (value.resolve m.data m.index)).isSome, s') ∧
      Takes s id k w look
        ((m.parser.handler.route a).effect? (value.resolve m.data m.index)).toList s' w' := by
  have hobserve := ViewParser.observe_of_nil h.serves.observers a value
  unfold Context.apply
  cases hroute : m.parser.handler.route a with
  | property p =>
    obtain ⟨s', w', hrun, hc, hshows, hchildren⟩ :=
      h.applyProperty_of_has (h.serves.has hroute) value
    rw [Value.apply_of_property hroute, hobserve, Engine.act_run, hrun]
    simp only [Route.effect?]
    cases hsetting : p.settingOf? (value.resolve m.data m.index) with
    | none =>
      rw [hsetting] at hshows
      have hrejected := applyProperty_of_rejected h.widget h.shows.item (h.serves.has hroute)
        ((congrArg p.settingOf? (h.resolve value)).trans hsetting)
      rw [hrun, hsetting] at hrejected
      cases hrejected
      obtain rfl : w = w' := Option.some.inj (h.widget.symm.trans hc.widget)
      exact ⟨s, w, rfl, h.takes_nil⟩
    | some x =>
      rw [hsetting] at hshows
      have hx := hshows.settings p (h.serves.has hroute)
      refine ⟨s', w', rfl, hc, hshows, hchildren, ?_, ?_, nofun⟩
      · intro e he
        obtain rfl := List.mem_singleton.1 he
        have hnamed := Property.named_of_setting? hx
        simpa [Look.set] using hnamed
      · intro hnamed
        have hids := ids_applyProperty ((congrArg p.settingOf? (h.resolve value)).trans hsetting)
          (hnamed (p, x) (List.mem_singleton_self _))
        rwa [hrun] at hids
  | children =>
    have harray : ∀ items, value ≠ .array items := by
      rintro items rfl
      cases hbinding
    rw [Value.apply_of_not_array hroute harray, hobserve]
    exact ⟨s, w, rfl, h.takes_nil⟩
  | presence => exact absurd hroute (h.serves.route_ne_presence a)
  | unknown =>
    rw [Value.apply_of_unknown hroute, hobserve]
    exact ⟨s, w, rfl, h.takes_nil⟩

/-- The bound ones among attributes have their effects and do nothing else. The answer counts those
that are accepted. -/
theorem applyBound_effects (h : s.Managed id mid m k w look) (attributes : List Attribute) :
    ∃ s' w', context.applyBoundBy context.host m.parser id attributes s =
        (.ok (m.parser.handler.boundEffects m.data m.index attributes).length, s') ∧
      Takes s id k w look (m.parser.handler.boundEffects m.data m.index attributes) s' w' := by
  induction attributes generalizing s w look with
  | nil => exact ⟨s, w, rfl, h.takes_nil⟩
  | cons first rest ih =>
    obtain ⟨a, value⟩ := first
    cases hbinding : value.isBinding with
    | true =>
      obtain ⟨s₁, w₁, hrun, h₁⟩ := h.apply_binding context a hbinding
      obtain ⟨s₂, w₂, hrun', h₂⟩ := ih (h.changes h₁.changes h₁.shows)
      have heffects : m.parser.handler.boundEffects m.data m.index (⟨a, value⟩ :: rest) =
          ((m.parser.handler.route a).effect? (value.resolve m.data m.index)).toList ++
            m.parser.handler.boundEffects m.data m.index rest := by
        simp only [Handler.boundEffects, List.filter_cons, hbinding, if_true, List.filterMap_cons]
        cases (m.parser.handler.route a).effect? (value.resolve m.data m.index) <;> rfl
      rw [heffects]
      refine ⟨s₂, w₂, ?_, h₁.append h₂⟩
      rw [Context.applyBound_of_cons, if_pos hbinding, Fallible.bind_run_ok hrun]
      dsimp only
      rw [Fallible.bind_run_ok hrun', Fallible.pure_run, List.length_append]
      cases (m.parser.handler.route a).effect? (value.resolve m.data m.index) <;> rfl
    | false =>
      obtain ⟨s₂, w₂, hrun', h₂⟩ := ih h
      have heffects : m.parser.handler.boundEffects m.data m.index (⟨a, value⟩ :: rest) =
          m.parser.handler.boundEffects m.data m.index rest := by
        simp only [Handler.boundEffects, List.filter_cons, hbinding, Bool.false_eq_true, if_false]
      rw [heffects]
      refine ⟨s₂, w₂, ?_, h₂⟩
      rw [Context.applyBound_of_cons, if_neg (by simp [hbinding]),
        Fallible.bind_run_ok (Fallible.pure_run false s)]
      dsimp only
      rw [Fallible.bind_run_ok hrun', Fallible.pure_run]
      simp

/-- The bound attributes among attributes that have names. -/
theorem applyBound_run (h : s.Managed id mid m k w look) {named : List (String × Value)}
    {attributes : List Attribute}
    (hbears : List.Forall₂ (Attribute.Bears s.ids) named attributes) :
    ∃ s' w',
      context.applyBoundBy context.host m.parser id attributes s =
        (.ok ((Look.bound named).countP (k.accepts m.data m.index)), s') ∧
      Changes id s w s' w' ∧
      w'.Shows s'.ids k (look.settle k m.data m.index (Look.bound named)) ∧
      w'.children = w.children := by
  obtain ⟨s', w', hrun, htakes⟩ := h.applyBound_effects context attributes
  have heffects := Handler.boundEffects_eq h.serves hbears m.data m.index
  refine ⟨s', w', ?_, htakes.changes, ?_, htakes.children⟩
  · rw [hrun, heffects, List.length_filterMap_eq_countP]
    congr 2
    refine List.countP_congr fun n hn => ?_
    rw [Kind.accepts_of_isBinding (Look.mem_bound_iff.1 hn).2]
  · rw [Look.settle_eq_setAll, ← heffects]
    exact htakes.shows

end Managed

end Session

end LayoutEngine
