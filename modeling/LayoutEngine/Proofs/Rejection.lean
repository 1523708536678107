import LayoutEngine.Proofs.Repetition
import LayoutEngine.Proofs.Serving

/-!
# Rejected and failed attributes

An attribute that one of the engine's own parsers rejects has no effect: at most something more has
been told (`Value.tells_of_rejected`). One that fails does so while children are being inflated
(`Value.inflateAll_of_failed`), and since all of them are inflated before they take the place of
those that were there, it leaves alone all that was there before and adds widgets, their managers,
names and declared attributes at most (`Session.Adds`), provided that what is done about unknown
types adds no more than that (`UnknownType.Adds`). Both together are `Context.onlyTells_or_adds`,
and `Context.apply_rejected` for what a context has.

In a session that requests have made, only widgets that are there have declared attributes
(`Context.Served.declaresOwn`), so those that a failed attribute adds take the place of none.
-/

namespace LayoutEngine

open Session Engine

/-! ## Rejected attributes -/

namespace Session

variable {s s' : Session} {id : WidgetId}

/-- Something more has been told, and nothing else has happened. -/
def OnlyTells (s s' : Session) : Prop := ∃ told, s' = { s with log := s.log ++ told }

/-- Nothing needs to be told. -/
theorem OnlyTells.refl (s : Session) : s.OnlyTells s := ⟨[], by rw [List.append_nil]⟩

/-- A notice is something told. -/
theorem onlyTells_note (notice : Notice) (s : Session) : s.OnlyTells (s.note notice) :=
  ⟨[notice], rfl⟩

/-- So is that a value is no text. -/
theorem onlyTells_noteNotText (id : WidgetId) (a : TextAttribute) (s : Session) :
    s.OnlyTells (s.noteNotText id a) := by
  unfold noteNotText
  split
  · exact .refl s
  · exact .refl s
  · exact onlyTells_note _ s

/-- An item that is not changed leaves the session as it is. -/
theorem applyItem_of_false {applied? : Item → Option Item}
    (h : (s.applyItem id applied?).1 = false) : (s.applyItem id applied?).2 = s := by
  unfold applyItem at h ⊢
  split at h
  · rfl
  · cases h

/-- A property that is not accepted leaves the widget as it is, whatever the widget. -/
theorem onlyTells_applyProperty {p : Property} {value : Value}
    (h : (s.applyProperty id p value).1 = false) :
    s.OnlyTells (s.applyProperty id p value).2 := by
  cases p with
  | common a =>
    simp only [applyProperty, applyCommon] at h ⊢
    split at h
    · exact .refl s
    · split at h
      · exact .refl s
      · cases h
  | text a =>
    simp only [applyProperty] at h ⊢
    rw [applyItem_of_false h]
    exact onlyTells_noteNotText id a s
  | editText a | gravity =>
    simp only [applyProperty] at h ⊢
    rw [applyItem_of_false h]
    exact .refl s

end Session

namespace Value

variable {context : Context} {unknown : UnknownType} {parser : ViewParser} {id : WidgetId} {a : Int}
  {value : Value} {s s' : Session} (hobservers : parser.observers = [])
include hobservers

/-- Where nobody observes, a rejected attribute has no effect. Children are looked through before
any of them is inflated. -/
theorem tells_of_rejected (h : value.apply context unknown parser id a s = (.ok false, s')) :
    s.OnlyTells s' := by
  have hobserve := ViewParser.observe_of_nil hobservers a value
  cases hroute : parser.handler.route a with
  | property p =>
    rw [apply_of_property hroute, hobserve, act_run] at h
    obtain ⟨hfalse, rfl⟩ := Prod.mk.inj h
    exact onlyTells_applyProperty (Except.ok.inj hfalse)
  | children =>
    by_cases harray : ∃ items, value = .array items
    · obtain ⟨items, rfl⟩ := harray
      rw [apply_of_children hroute, hobserve, Fallible.bind_run_ok (look_run _ s)] at h
      cases hm : s.managerOf? id with
      | none =>
        rw [hm] at h
        cases h
        exact onlyTells_note _ s
      | some m =>
        rw [hm] at h
        dsimp only at h
        split at h
        · obtain ⟨children, s₁, -, h⟩ := Fallible.exists_of_bind_run_ok h
          cases h
        · cases h
          exact onlyTells_note _ s
    · rw [apply_of_not_array hroute fun items hitems => harray ⟨items, hitems⟩, hobserve] at h
      cases h
      exact .refl s
  | presence =>
    rw [apply_of_presence hroute, hobserve] at h
    obtain ⟨-, rfl⟩ := Prod.mk.inj h
    exact .refl s
  | unknown =>
    rw [apply_of_unknown hroute, hobserve] at h
    cases h
    exact .refl s

/-- Where nobody observes, an attribute fails only where one of the children does that it brings,
and leaves the session as that failure does. -/
theorem inflateAll_of_failed {e : InflateError}
    (h : value.apply context unknown parser id a s = (.error e, s')) :
    ∃ items m, value = .array items ∧ s.managerOf? id = some m ∧
      inflateAll context unknown m.data id m.index items s = (.error e, s') := by
  have hobserve := ViewParser.observe_of_nil hobservers a value
  cases hroute : parser.handler.route a with
  | property p =>
    rw [apply_of_property hroute, hobserve, act_run] at h
    cases h
  | children =>
    by_cases harray : ∃ items, value = .array items
    · obtain ⟨items, rfl⟩ := harray
      rw [apply_of_children hroute, hobserve, Fallible.bind_run_ok (look_run _ s)] at h
      cases hm : s.managerOf? id with
      | none =>
        rw [hm] at h
        cases h
      | some m =>
        rw [hm] at h
        dsimp only at h
        split at h
        · rcases hrun : inflateAll context unknown m.data id m.index items s
            with ⟨e' | children, s₁⟩
          · rw [Fallible.bind_run_error hrun] at h
            cases h
            exact ⟨items, m, rfl, rfl, hrun⟩
          · rw [Fallible.bind_run_ok hrun] at h
            cases h
        · cases h
    · rw [apply_of_not_array hroute fun items hitems => harray ⟨items, hitems⟩, hobserve] at h
      cases h
  | presence =>
    rw [apply_of_presence hroute, hobserve] at h
    cases h
  | unknown =>
    rw [apply_of_unknown hroute, hobserve] at h
    cases h

end Value

/-! ## What is added -/

namespace Session

variable {context : Context} {s s' : Session} {id : WidgetId}

/-- Names, widgets, managers and the declared attributes of new widgets have been added at the end,
and nothing that was there before has changed. -/
structure Adds (s s' : Session) : Prop where
  ids : s.ids ≤ s'.ids
  widgets : s.widgets <+: s'.widgets
  managers : s.managers <+: s'.managers
  kept : s'.kept = s.kept
  tags : ∀ id, s'.tags.get? id = s.tags.get? id ∨
    s.widget? id = none ∧ (s'.widget? id).isSome = true

/-- Widgets that have all stayed come first. -/
theorem widgets_prefix_of_widget? (h : ∀ id w, s.widget? id = some w → s'.widget? id = some w) :
    s.widgets <+: s'.widgets :=
  List.prefix_iff_getElem?.2 fun n hn => h ⟨n + 1⟩ s.widgets[n] (List.getElem?_eq_getElem hn)

/-- Managers that have all stayed come first. -/
theorem managers_prefix_of_manager?
    (h : ∀ mid m, s.manager? mid = some m → s'.manager? mid = some m) :
    s.managers <+: s'.managers :=
  List.prefix_iff_getElem?.2 fun n hn => h ⟨n⟩ s.managers[n] (List.getElem?_eq_getElem hn)

/-- Names, widgets and managers have been added, and of the widgets only those after the first `n`
have changed or have other declared attributes. Parsers keep the widgets that they kept. -/
structure AddsAfter (n : Nat) (s s' : Session) : Prop extends Keeps n s s' where
  kept : s'.kept = s.kept
  tags : ∀ id, s'.tags.get? id = s.tags.get? id ∨ n < id.number ∧ (s'.widget? id).isSome = true

namespace AddsAfter

variable {n : Nat}

instance (n : Nat) : IsPreorder Session (AddsAfter n) where
  refl s := ⟨refl_of (Keeps n) s, rfl, fun _ => .inl rfl⟩
  trans _ _ _ h₁ h₂ := by
    refine ⟨trans_of (Keeps n) h₁.toKeeps h₂.toKeeps, h₂.kept.trans h₁.kept, fun id => ?_⟩
    rcases h₂.tags id with hsame | hnew
    · rcases h₁.tags id with hsame' | ⟨hlater, hthere⟩
      · exact .inl (hsame.trans hsame')
      · obtain ⟨hpos, hle⟩ := isSome_widget?_iff.1 hthere
        exact .inr ⟨hlater, isSome_widget?_iff.2 ⟨hpos, hle.trans h₂.length⟩⟩
    · exact .inr hnew

/-- Nothing else than the declared attributes and what is kept is to be looked at where those have
not changed. -/
theorem of_keeps (h : s.Keeps n s') (hkept : s'.kept = s.kept) (htags : s'.tags = s.tags) :
    s.AddsAfter n s' :=
  ⟨h, hkept, fun _ => .inl (by rw [htags])⟩

/-- What only touches widgets that are newer than all has added something. -/
theorem adds (h : s.AddsAfter s.widgets.length s') : s.Adds s' where
  ids := h.frame.ids
  widgets := widgets_prefix_of_widget? fun id w hw => h.forget.widget? id w (fun hno => hno) hw
  managers := managers_prefix_of_manager? fun mid m hm => h.frame.manager? mid m (fun hno => hno) hm
  kept := h.kept
  tags id := by
    refine (h.tags id).imp_right fun ⟨hlater, hthere⟩ => ⟨?_, hthere⟩
    refine Option.eq_none_iff_forall_not_mem.2 fun w hw => ?_
    exact absurd (number_le_of_widget? hw).2 (Nat.not_le_of_lt hlater)

end AddsAfter

/-- What adds to a session leaves its widgets. -/
theorem Adds.widget? (h : s.Adds s') {w : Widget} (hw : s.widget? id = some w) :
    s'.widget? id = some w := by
  obtain ⟨more, hmore⟩ := h.widgets
  obtain ⟨n, rfl, hn⟩ := widget?_eq_some_iff.1 hw
  obtain ⟨hlt, -⟩ := List.getElem?_eq_some_iff.1 hn
  refine widget?_eq_some_iff.2 ⟨n, rfl, ?_⟩
  rw [← hmore, List.getElem?_append_left hlt, hn]

/-- It leaves its managers. -/
theorem Adds.manager? (h : s.Adds s') {mid : ManagerId} {m : Manager}
    (hm : s.manager? mid = some m) : s'.manager? mid = some m := by
  obtain ⟨more, hmore⟩ := h.managers
  obtain ⟨hlt, -⟩ := List.getElem?_eq_some_iff.1 hm
  rw [Session.manager?, ← hmore, List.getElem?_append_left hlt]
  exact hm

/-- What has been added comes after all that there was. -/
theorem Adds.addsAfter {n : Nat} (h : s.Adds s') (hn : n ≤ s.widgets.length) :
    s.AddsAfter n s' := by
  have hlength := h.widgets.length_le
  have hlater : ∀ id, s.widget? id = none → (s'.widget? id).isSome = true → n < id.number := by
    intro id hnone hthere
    have hpos := (isSome_widget?_iff.1 hthere).1
    refine Nat.lt_of_not_le fun hle => ?_
    have hsome := isSome_widget?_iff.2 ⟨hpos, hle.trans hn⟩
    rw [hnone] at hsome
    cases hsome
  refine ⟨⟨⟨h.ids, fun id w _ => h.widget?, fun mid m _ => h.manager?, ?_⟩, hlength⟩, h.kept,
    fun id => ?_⟩
  · intro id w _ hw
    rcases h.tags id with hsame | ⟨hnone, -⟩
    · exact hsame
    · rw [hnone] at hw
      cases hw
  · exact (h.tags id).imp_right fun ⟨hnone, hthere⟩ => ⟨hlater id hnone hthere, hthere⟩

end Session

/-- What is done about unknown types adds to a session at most. It is so for code of a host that
makes new widgets and leaves alone those that were there before. -/
def UnknownType.Adds (registry : Registry) (unknown : UnknownType) : Prop :=
  ∀ ⦃l : Layout⦄, registry.get? l.viewType = none → ∀ data index ⦃s : Session⦄,
    registry.Provides s.ids → s.Adds (unknown l data index s).2

/-! ## Failed attributes -/

namespace Context

variable {context : Context} {unknown : UnknownType} {s s' : Session}

/-- The first widgets are none that start. -/
theorem carries_addsAfter (context : Context) (n : Nat) :
    context.Carries (fun s => n ≤ s.widgets.length ∧ context.registry.Provides s.ids)
      (fun id => n < id.number) (Session.AddsAfter n) where
  told s log calls := .of_keeps ((context.carries_keeps n).told s log calls) rfl rfl
  create item s := .of_keeps ((context.carries_keeps n).create item s) rfl rfl
  start {l parser} hget verbose data parent index s hs := by
    obtain ⟨hid, hkeeps⟩ :=
      (context.carries_keeps n).start hget verbose data parent index s hs
    have hplace := hs.2.makesNew l.viewType parser hget
    obtain ⟨hstart, hborn⟩ := ViewParser.start_of_new hplace verbose l data parent index s
    refine ⟨hid, hkeeps, ?_, fun id => ?_⟩
    · rw [hborn.kept, ViewParser.keep, hplace]
    · rw [ViewParser.tags_start]
      by_cases heq : id = (parser.start verbose l data parent index s).1
      · obtain ⟨w, hwidgets, -⟩ := hborn.widgets
        refine .inr ⟨heq ▸ hid, isSome_widget?_iff.2 ?_⟩
        rw [heq, hstart, hwidgets, List.length_append]
        exact ⟨Nat.succ_pos _, Nat.le_refl _⟩
      · exact .inl (TagTable.get?_declare_of_ne heq s.tags)
  property {id} hid p value s :=
    have hshape := sameShape_applyProperty True id p value s
    .of_keeps ((context.carries_keeps n).property hid p value s) hshape.kept
      (touches_applyProperty id p value s).tags
  children {id} hid children s :=
    .of_keeps ((context.carries_keeps n).children hid children s) (kept_changeWidget id _ s)
      (tags_changeWidget id _ s)
  still h hs := (context.carries_keeps n).still h.toKeeps hs

/-- Inflating layouts one after the other adds to a session and changes nothing in it, whether or
not it fails, if what is done about unknown types does so. -/
theorem inflateAll_adds (hunknown : unknown.Adds context.registry)
    (hprovides : context.registry.Provides s.ids) (data : Fields) (parent : WidgetId) (index : Int)
    (items : List Value) :
    s.Adds (Value.inflateAll context unknown data parent index items s).2 := by
  have hcarries : unknown.Carries context.registry
      (fun s' => s.widgets.length ≤ s'.widgets.length ∧ context.registry.Provides s'.ids)
      (Session.AddsAfter s.widgets.length) :=
    fun l hget data index s' hs =>
      ⟨(hunknown hget data index hs.2).addsAfter hs.1, fun _ _ => trivial⟩
  exact (Value.inflateAll_carriesFrom (context.carries_addsAfter s.widgets.length).carriesFrom
    (Provision.closed_everything context) hcarries.carriesFrom trivial parent trivial items
    (fun _ _ => trivial) ⟨Nat.le_refl _, hprovides⟩).along.adds

/-- What a context has done about unknown types adds to a session at most. -/
theorem unknown_adds (context : Context) (budget : Nat) :
    (context.unknown budget).Adds context.registry :=
  fun l _ data index s hprovides =>
    (unknown_carries (context.carries_addsAfter s.widgets.length) budget l data index s
      ⟨Nat.le_refl _, hprovides⟩).along.adds

/-- An attribute that is not accepted has no effect, whatever code a host has for unknown types, as
long as it adds to a session at most. If the attribute is rejected that code is not even asked. -/
theorem onlyTells_or_adds (hunknown : unknown.Adds context.registry)
    (hprovides : context.registry.Provides s.ids) {parser : ViewParser}
    (hobservers : parser.observers = []) (id : WidgetId) (a : Int) (value : Value) :
    (∀ s', value.apply context unknown parser id a s = (.ok false, s') → s.OnlyTells s') ∧
      ∀ e s', value.apply context unknown parser id a s = (.error e, s') → s.Adds s' := by
  refine ⟨fun s' h => Value.tells_of_rejected hobservers h, fun e s' h => ?_⟩
  obtain ⟨items, m, -, -, hall⟩ := Value.inflateAll_of_failed hobservers h
  have hadds := inflateAll_adds hunknown hprovides m.data id m.index items
  rwa [hall] at hadds

/-- An attribute that is not accepted has no effect. Any of the engine's own parsers hands any value
under any number to any widget, in any session where all parsers serve the engine's own kinds,
whatever a host answers for unknown types. If the attribute is rejected something more has been told
at most. If it fails, only names, widgets, managers and declared attributes of new widgets have been
added, and where requests have made the session what was declared stays as it was. -/
theorem apply_rejected {context : Context} {s : Session}
    (hprovides : context.registry.Provides s.ids) (k : Kind) (t : IdTable) (id : WidgetId) (a : Int)
    (value : Value) :
    (∀ s', context.apply (ViewParser.ofKind k t).1 id a value s = (.ok false, s') →
      ∃ told, s' = { s with log := s.log ++ told }) ∧
    ∀ e s', context.apply (ViewParser.ofKind k t).1 id a value s = (.error e, s') →
      s.Adds s' ∧
      (context.Served .all s → ∀ other tags, s.tags.get? other = some tags →
        s'.tags.get? other = some tags) := by
  have hobservers := (ViewParser.serves_ofKind k t).2.observers
  obtain ⟨htells, hadds⟩ := onlyTells_or_adds (context.unknown_adds context.layouts.size) hprovides
    hobservers id a value
  refine ⟨htells, fun e s' h => ⟨hadds e s' h, fun hserved other tags htags => ?_⟩⟩
  rcases (hadds e s' h).tags other with hsame | ⟨hnone, hthere⟩
  · rw [hsame, htags]
  · -- A new widget had no declared attributes.
    have hle := hserved.declaresOwn hprovides.makesNew other (by simp [TagTable.contains, htags])
    have hsome := isSome_widget?_iff.2 ⟨(isSome_widget?_iff.1 hthere).1, hle⟩
    rw [hnone] at hsome
    cases hsome

/-- A container is given a view and something that no parser knows as its children, which fails once
the view has been made, and then no layout, which is rejected. -/
theorem apply_rejected_titledForm :
    ∃ l t' s s₁ s₂,
      titledForm.compile ownIds = (.ok l, t') ∧
      own.inflate l formData none 3 (.ofIds t') = (.ok ⟨1⟩, s) ∧ own.registry.Provides s.ids ∧
      own.apply (ViewParser.ofKind .container .empty).1 ⟨1⟩ 1
        (.array [.layout ⟨"view", [], none⟩, .layout ⟨"carousel", [], none⟩]) s =
          (.error (.unresolvedType "carousel"), s₁) ∧
      s.Adds s₁ ∧ s₁.widgets.length = s.widgets.length + 1 ∧
      own.apply (ViewParser.ofKind .container .empty).1 ⟨1⟩ 1 (.array [.null]) s =
          (.ok false, s₂) ∧
      s₂.widgets = s.widgets := by
  have hrun : Fallible.gives titledForm.compile ownIds (fun l t' =>
      Fallible.gives (own.inflate l formData none 3) (.ofIds t') fun root s =>
        Fallible.failsWith (own.apply (ViewParser.ofKind .container .empty).1 ⟨1⟩ 1
          (.array [.layout ⟨"view", [], none⟩, .layout ⟨"carousel", [], none⟩])) s fun e s₁ =>
            Fallible.gives (own.apply (ViewParser.ofKind .container .empty).1 ⟨1⟩ 1
              (.array [.null])) s fun accepted _ =>
                decide (root = ⟨1⟩ ∧ e = .unresolvedType "carousel" ∧
                  s₁.widgets.length = s.widgets.length + 1 ∧ accepted = false)) = true := by
    decide +kernel
  obtain ⟨l, t', hcompile, hrun⟩ := Fallible.exists_of_gives hrun
  obtain ⟨root, s, hinflate, hrun⟩ := Fallible.exists_of_gives hrun
  obtain ⟨e, s₁, hfailed, hrun⟩ := Fallible.exists_of_failsWith hrun
  obtain ⟨accepted, s₂, hrejected, hrun⟩ := Fallible.exists_of_gives hrun
  obtain ⟨rfl, rfl, hlength, rfl⟩ := of_decide_eq_true hrun
  have hcontext : own.HasOwnParsers (Session.ofIds t').ids :=
    own_hasOwnParsers (LayoutSource.stable_compile titledForm hcompile).1
  obtain ⟨-, -, hbuilt⟩ :=
    built_of_inflate hcontext (LayoutSource.compile_of_le hcompile (le_refl t')) hinflate
  have hprovides : own.registry.Provides s.ids := hcontext.offers.provides.mono hbuilt.frame.ids
  have heffect := apply_rejected hprovides .container .empty ⟨1⟩ 1
  obtain ⟨hadds, -⟩ := (heffect _).2 _ _ hfailed
  obtain ⟨told, rfl⟩ := (heffect _).1 _ hrejected
  exact ⟨l, t', s, s₁, _, hcompile, hinflate, hprovides, hfailed, hadds, hlength, hrejected, rfl⟩

end Context

end LayoutEngine
