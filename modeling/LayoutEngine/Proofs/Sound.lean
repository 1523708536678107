import LayoutEngine.Proofs.Inflation

/-!
# Sound sessions

What holds of every session in which widgets are made by the engine's own parsers: each manager is
that of its own widget and has a parser that serves the widget's kind (`Session.Sound`). Where no
host makes widgets of its own, children are moreover newer than the widget they belong to
(`Session.Orderly`), so that no walk through a tree comes back to where it was. Inflating a layout,
whatever it holds, keeps both and changes no widget that was there before
(`Context.inflate_inflated`), also when it fails half way.
-/

namespace LayoutEngine

namespace Session

/-- Every manager is that of its own widget, whose kind its parser serves, and the manager of a
widget is there. -/
structure Manned (s : Session) : Prop where
  managed : ∀ {mid m}, s.manager? mid = some m → ∃ k w look, s.Managed m.widget mid m k w look
  owned : ∀ {id w mid}, s.widget? id = some w → w.manager = some mid →
    ∃ m, s.manager? mid = some m ∧ m.widget = id

/-- The session is manned, and only widgets with managers have children. -/
structure Sound (s : Session) : Prop extends Manned s where
  childless : ∀ {id w}, s.widget? id = some w → w.manager = none → w.children = []

/-- Widgets and managers are numbered alike, and children are newer than the widget they belong
to. -/
structure Orderly (s : Session) : Prop where
  length : s.managers.length = s.widgets.length
  number : ∀ {id w mid}, s.widget? id = some w → w.manager = some mid → id.number = mid.number + 1
  newer : ∀ {id w child}, s.widget? id = some w → child ∈ w.children → id.number < child.number

variable {s s' s'' : Session} {id : WidgetId} {mid : ManagerId} {m : Manager} {k : Kind}
  {w w' : Widget} {look look' : Look}

namespace Manned

/-- A managed widget is the one that its manager manages. -/
theorem widget_eq (hs : s.Manned) (h : s.Managed id mid m k w look) : m.widget = id := by
  obtain ⟨m', hm', hid⟩ := hs.owned h.widget h.manager
  rw [h.managed] at hm'
  cases hm'
  exact hid

/-- A widget has one manager. -/
theorem eq_of_widget_eq (hs : s.Manned) (h : s.Managed id mid m k w look) {mid' : ManagerId}
    {m' : Manager} (hm' : s.manager? mid' = some m') (hid : m'.widget = id) :
    mid' = mid ∧ m' = m := by
  obtain ⟨k', w', look', h'⟩ := hs.managed hm'
  rw [hid] at h'
  have hw := h'.widget
  rw [h.widget] at hw
  cases hw
  have hmid := h'.manager
  rw [h.manager] at hmid
  cases hmid
  rw [h.managed] at hm'
  cases hm'
  exact ⟨rfl, rfl⟩

/-- A widget that has a manager is managed, in whatever look. -/
theorem exists_managed (hs : s.Manned) (hw : s.widget? id = some w) (hmid : w.manager = some mid) :
    ∃ m k look, s.Managed id mid m k w look := by
  obtain ⟨m, hm, rfl⟩ := hs.owned hw hmid
  obtain ⟨k, w', look, h⟩ := hs.managed hm
  have hw' := h.widget
  rw [hw] at hw'
  cases hw'
  exact ⟨m, k, look, h⟩

/-- So is one by its manager. -/
theorem exists_managed_of_managerOf? (hs : s.Manned) (h : s.managerOf? id = some m) :
    ∃ mid k w look, s.Managed id mid m k w look := by
  obtain ⟨w, mid, hw, hmid, hm⟩ := managerOf?_eq_some_iff.1 h
  obtain ⟨m', k, look, hmanaged⟩ := hs.exists_managed hw hmid
  have hm' := hmanaged.managed
  rw [hm] at hm'
  cases hm'
  exact ⟨mid, k, w, look, hmanaged⟩

/-- The widget of a manager has a manager. -/
theorem isSome_managerOf? (hs : s.Manned) (hm : s.manager? mid = some m) :
    (s.managerOf? m.widget).isSome = true := by
  obtain ⟨k, w, look, h⟩ := hs.managed hm
  exact Option.isSome_of_eq_some h.managerOf?

/-- Names have been added, and nothing has happened to widgets and managers. -/
theorem of_eq (hs : s.Manned) (hids : s.ids ≤ s'.ids) (hwidgets : s'.widgets = s.widgets)
    (hmanagers : s'.managers = s.managers) : s'.Manned := by
  have hwidget := widget?_congr hwidgets
  have hmanager : ∀ mid, s'.manager? mid = s.manager? mid := fun mid => by
    rw [manager?, hmanagers, manager?]
  refine ⟨?_, ?_⟩
  · intro mid m hm
    rw [hmanager] at hm
    obtain ⟨k, w, look, h⟩ := hs.managed hm
    exact ⟨k, w, look, (hwidget _).trans h.widget, h.manager, (hmanager mid).trans hm,
      h.serves.mono hids, h.shows.mono hids⟩
  · intro id w mid hw hmid
    rw [hwidget] at hw
    rw [hmanager]
    exact hs.owned hw hmid

/-- One widget has been changed, but its manager has not. If it is managed it stays so. -/
theorem of_touches (hs : s.Manned) (h : Touches id s s')
    (hmanager : (s'.widget? id).bind (·.manager) = (s.widget? id).bind (·.manager))
    (hmanaged : ∀ {mid m k w look}, s.Managed id mid m k w look →
      ∃ k w look, s'.Managed id mid m k w look) : s'.Manned := by
  refine ⟨?_, ?_⟩
  · intro mid m hm
    rw [h.manager?] at hm
    obtain ⟨k, w, look, hold⟩ := hs.managed hm
    by_cases heq : m.widget = id
    · rw [heq] at hold ⊢
      exact hmanaged hold
    · exact ⟨k, w, look, hold.frame h.frame heq fun hno => hno⟩
  · intro other w mid hw hmid
    rw [h.manager?]
    by_cases heq : other = id
    · subst heq
      rw [hw, Option.bind_some, hmid] at hmanager
      obtain ⟨v, hv, hvmid⟩ := Option.bind_eq_some_iff.1 hmanager.symm
      exact hs.owned hv hvmid
    · exact hs.owned ((h.others other heq).symm.trans hw) hmid

/-- A managed widget has changed. -/
theorem of_changes (hs : s.Manned) (h : s.Managed id mid m k w look) (hc : Changes id s w s' w')
    (hshows : w'.Shows s'.ids k look') : s'.Manned := by
  refine hs.of_touches hc.touches ?_ fun {mid' m' _ _ _} h' => ?_
  · rw [hc.widget, h.widget, Option.bind_some, Option.bind_some, hc.manager]
  · obtain ⟨rfl, rfl⟩ := hs.eq_of_widget_eq h h'.managed (hs.widget_eq h')
    exact ⟨k, w', look', h.changes hc hshows⟩

/-- A widget has been made and given a manager. -/
theorem of_starts (hs : s.Manned) (h : s.Starts s' w m) (hid : m.widget = ⟨s.widgets.length + 1⟩)
    (hserves : m.parser.Serves k s.ids) (hshows : w.Shows s'.ids k look) : s'.Manned := by
  refine ⟨?_, ?_⟩
  · intro mid' m' hm'
    rcases (manager?_append_iff h.managers).1 hm' with hm' | ⟨rfl, rfl⟩
    · obtain ⟨k', v, look', hmanaged⟩ := hs.managed hm'
      exact ⟨k', v, look', hmanaged.frame h.frame id id⟩
    · exact ⟨k, w, look, hid ▸ h.widget?, h.manager, h.manager?, hserves.mono h.frame.ids, hshows⟩
  · intro other v mid' hv hmid
    rcases (widget?_append_iff h.widgets).1 hv with hv | ⟨rfl, rfl⟩
    · obtain ⟨m', hm', hother⟩ := hs.owned hv hmid
      exact ⟨m', h.frame.manager? mid' m' id hm', hother⟩
    · rw [h.manager] at hmid
      cases hmid
      exact ⟨m, h.manager?, hid⟩

/-- A widget without manager has been made. -/
theorem create (hs : s.Manned) (item : Item) : (s.create item).2.Manned := by
  have hframe : Frame noWidget noWidget s (s.create item).2 :=
    ⟨le_refl s.ids, fun id w _ hw => widget?_create_of_some hw item, fun _ _ _ hm => hm,
      fun _ _ _ _ => rfl⟩
  refine ⟨?_, ?_⟩
  · intro mid' m' hm'
    obtain ⟨k', v, look', hmanaged⟩ := hs.managed hm'
    exact ⟨k', v, look', hmanaged.frame hframe id id⟩
  · intro other v mid' hv hmid
    rcases (widget?_append_iff rfl).1 hv with hv | ⟨-, rfl⟩
    · exact hs.owned hv hmid
    · cases hmid

end Manned

namespace Sound

/-- A widget with children has a manager. -/
theorem exists_managed_of_child (hs : s.Sound) {child : WidgetId} (h : child ∈ s.childrenOf id) :
    ∃ mid m k w look, s.Managed id mid m k w look := by
  unfold childrenOf at h
  cases hw : s.widget? id with
  | none =>
    rw [hw] at h
    cases h
  | some w =>
    rw [hw] at h
    cases hmid : w.manager with
    | none =>
      rw [Option.map_some, Option.getD_some, hs.childless hw hmid] at h
      cases h
    | some mid =>
      obtain ⟨m, k, look, hmanaged⟩ := hs.exists_managed hw hmid
      exact ⟨mid, m, k, w, look, hmanaged⟩

end Sound

/-! ## What is kept -/

/-- A sound session comes from another by changing the widgets in `touched` and adding others, and
is orderly, if widgets come from the engine alone, where the other one was. -/
structure Evolves (alone : Prop) (touched : WidgetId → Prop) (s s' : Session) : Prop where
  sound : s'.Sound
  frame : Frame touched noWidget s s'
  length : s.widgets.length ≤ s'.widgets.length
  orderly : alone → s.Orderly → s'.Orderly

namespace Evolves

variable {alone : Prop} {T T' : WidgetId → Prop}

/-- A session evolves to itself. -/
theorem refl (hs : s.Sound) (alone : Prop) (T : WidgetId → Prop) : Evolves alone T s s :=
  ⟨hs, .refl T noWidget s, Nat.le_refl _, fun _ h => h⟩

/-- What evolves twice evolves. -/
theorem trans (h₁ : Evolves alone T s s') (h₂ : Evolves alone T s' s'') : Evolves alone T s s'' :=
  ⟨h₂.sound, h₁.frame.trans h₂.frame, Nat.le_trans h₁.length h₂.length,
    fun ha h => h₂.orderly ha (h₁.orderly ha h)⟩

/-- More widgets may be touched. -/
theorem mono (h : Evolves alone T s s') (hT : ∀ id, T id → T' id) : Evolves alone T' s s' :=
  ⟨h.sound, h.frame.mono hT fun _ => id, h.length, h.orderly⟩

/-- Changes of a widget that was not there before need not be mentioned. -/
theorem forget (h : Evolves alone T s s') (hT : ∀ id, T id → s.widget? id = none) :
    Evolves alone noWidget s s' :=
  ⟨h.sound, h.frame.forget fun id hid => .inr (hT id hid), h.length, h.orderly⟩

/-- Neither what has been told nor new names nor what a widget declares matters. -/
theorem of_eq (hs : s.Sound) (hids : s.ids ≤ s'.ids) (hwidgets : s'.widgets = s.widgets)
    (hmanagers : s'.managers = s.managers)
    (htags : ∀ id w, ¬T id → s.widget? id = some w → s'.tags.get? id = s.tags.get? id) :
    Evolves alone T s s' := by
  have hwidget := widget?_congr hwidgets
  have hmanager : ∀ mid, s'.manager? mid = s.manager? mid := fun mid => by
    rw [manager?, hmanagers, manager?]
  have hframe : Frame T noWidget s s' :=
    ⟨hids, fun id w _ hw => (hwidget id).trans hw, fun mid m _ hm => (hmanager mid).trans hm, htags⟩
  have hsound : s'.Sound := ⟨hs.toManned.of_eq hids hwidgets hmanagers,
    fun {id w} hw hnone => hs.childless ((hwidget id).symm.trans hw) hnone⟩
  have horderly : s.Orderly → s'.Orderly := by
    intro ho
    refine ⟨?_, ?_, ?_⟩
    · rw [hmanagers, hwidgets, ho.length]
    · intro id w mid hw hmid
      exact ho.number ((hwidget id).symm.trans hw) hmid
    · intro id w child hw hchild
      exact ho.newer ((hwidget id).symm.trans hw) hchild
  exact ⟨hsound, hframe, Nat.le_of_eq (congrArg List.length hwidgets.symm), fun _ => horderly⟩

/-- A managed widget has changed. -/
theorem of_changes (hs : s.Sound) (h : s.Managed id mid m k w look) (hc : Changes id s w s' w')
    (hshows : w'.Shows s'.ids k look')
    (hnewer : alone → s.Orderly → ∀ child ∈ w'.children, id.number < child.number) :
    Evolves alone (· = id) s s' := by
  have hframe : Frame (· = id) noWidget s s' := hc.touches.frame
  have hwidget : ∀ {other v}, s'.widget? other = some v →
      s.widget? other = some v ∨ (other = id ∧ v = w') := by
    intro other v hv
    by_cases heq : other = id
    · subst heq
      exact .inr ⟨rfl, Option.some.inj (hv.symm.trans hc.widget)⟩
    · exact .inl ((hc.touches.others other heq).symm.trans hv)
  have hsound : s'.Sound := by
    refine ⟨hs.toManned.of_changes h hc hshows, ?_⟩
    intro other v hv hnone
    rcases hwidget hv with hv | ⟨rfl, rfl⟩
    · exact hs.childless hv hnone
    · rw [hc.manager, h.manager] at hnone
      cases hnone
  have horderly : alone → s.Orderly → s'.Orderly := by
    intro ha ho
    refine ⟨?_, ?_, ?_⟩
    · rw [hc.touches.managers, hc.touches.length, ho.length]
    · intro other v mid' hv hmid
      rcases hwidget hv with hv | ⟨rfl, rfl⟩
      · exact ho.number hv hmid
      · exact ho.number h.widget (hc.manager.symm.trans hmid)
    · intro other v child hv hchild
      rcases hwidget hv with hv | ⟨rfl, rfl⟩
      · exact ho.newer hv hchild
      · exact hnewer ha ho child hchild
  exact ⟨hsound, hframe, Nat.le_of_eq hc.touches.length.symm, horderly⟩

/-- A widget has been made and given a manager. -/
theorem of_starts (hs : s.Sound) (h : s.Starts s' w m) (hid : m.widget = ⟨s.widgets.length + 1⟩)
    (hserves : m.parser.Serves k s.ids) (hshows : w.Shows s'.ids k look)
    (hchildren : w.children = []) : Evolves alone noWidget s s' := by
  have hwidget : ∀ {other v}, s'.widget? other = some v →
      s.widget? other = some v ∨ (other = m.widget ∧ v = w) := by
    intro other v hv
    rw [hid]
    exact (widget?_append_iff h.widgets).1 hv
  have hsound : s'.Sound := by
    refine ⟨hs.toManned.of_starts h hid hserves hshows, ?_⟩
    intro other v hv hnone
    rcases hwidget hv with hv | ⟨rfl, rfl⟩
    · exact hs.childless hv hnone
    · exact hchildren
  have horderly : s.Orderly → s'.Orderly := by
    intro ho
    refine ⟨?_, ?_, ?_⟩
    · rw [h.managers, h.widgets, List.length_append, List.length_append, ho.length]
      rfl
    · intro other v mid' hv hmid
      rcases hwidget hv with hv | ⟨rfl, rfl⟩
      · exact ho.number hv hmid
      · rw [h.manager] at hmid
        cases hmid
        rw [hid, ho.length]
    · intro other v child hv hchild
      rcases hwidget hv with hv | ⟨rfl, rfl⟩
      · exact ho.newer hv hchild
      · rw [hchildren] at hchild
        cases hchild
  refine ⟨hsound, h.frame, ?_, fun _ => horderly⟩
  rw [h.length]
  exact Nat.le_succ _

/-- A widget without manager has been made. -/
theorem of_create (hs : s.Sound) (halone : ¬alone) (item : Item) :
    Evolves alone noWidget s (s.create item).2 := by
  have hframe : Frame noWidget noWidget s (s.create item).2 :=
    ⟨le_refl s.ids, fun id w _ hw => widget?_create_of_some hw item, fun _ _ _ hm => hm,
      fun _ _ _ _ => rfl⟩
  have hsound : (s.create item).2.Sound := by
    refine ⟨hs.toManned.create item, ?_⟩
    intro other v hv hnone
    rcases (widget?_append_iff rfl).1 hv with hv | ⟨-, rfl⟩
    · exact hs.childless hv hnone
    · rfl
  have hlength : s.widgets.length ≤ (s.create item).2.widgets.length := by simp [create]
  exact ⟨hsound, hframe, hlength, fun ha => absurd ha halone⟩

end Evolves

/-- What making a widget leaves: nothing that was there before has changed, and the widget is new
if widgets come from the engine alone. -/
structure Inflated (alone : Prop) (s : Session) (r : Except InflateError WidgetId × Session) :
    Prop where
  evolves : Evolves alone noWidget s r.2
  new : alone → ∀ id, r.1 = .ok id → s.widgets.length < id.number

end Session

/-! ## Inflating any layout -/

/-- Whatever is done about unknown types only makes widgets. -/
def UnknownType.Makes (registry : Registry) (alone : Prop) (unknown : UnknownType) : Prop :=
  ∀ (l : Layout) (data : Fields) (index : Int) {s : Session}, s.Sound → registry.Offers s.ids →
    s.Inflated alone (unknown l data index s)

namespace Session

/-- What making several widgets leaves. -/
structure InflatedAll (alone : Prop) (s : Session)
    (r : Except InflateError (List WidgetId) × Session) : Prop where
  evolves : Evolves alone noWidget s r.2
  new : alone → ∀ ids, r.1 = .ok ids → ∀ id ∈ ids, s.widgets.length < id.number

end Session

section

variable {context : Context} {unknown : UnknownType} {alone : Prop} {s : Session}

/-- A layout becomes a new widget to which its attributes are applied, or is left to the host. -/
theorem Layout.inflated_of_attributes (hunknown : unknown.Makes context.registry alone)
    (data : Fields) (parent : Option WidgetId) (index : Int) (hs : s.Sound)
    (hoffers : context.registry.Offers s.ids) (l : Layout)
    (hattributes : ∀ {s : Session} {mid : ManagerId} {m : Manager}, s.Sound →
      context.registry.Offers s.ids → s.manager? mid = some m →
      s.Evolves alone (· = m.widget) (applyAttributes context unknown m.parser l.viewType m.widget
        l.attributes s).2) :
    s.Inflated alone (l.inflate context unknown data parent index s) := by
  cases hget : context.registry.get? l.viewType with
  | none =>
    have hrun := inflate_of_none unknown data parent index hget s
    have hnote : s.Evolves alone noWidget (s.note (.noParser l.viewType)) :=
      .of_eq hs (le_refl s.ids) rfl rfl fun _ _ _ _ => rfl
    have hmade := hunknown l data index hnote.sound (hoffers.mono hnote.frame.ids)
    rw [hrun]
    exact ⟨hnote.trans hmade.evolves, hmade.new⟩
  | some parser =>
    have htype := hoffers l.viewType
    cases hk : Kind.ofType? l.viewType with
    | none =>
      rw [hk, hget] at htype
      cases htype
    | some k =>
      rw [hk] at htype
      obtain ⟨parser', hget', hserves⟩ := htype
      obtain rfl : parser = parser' := Option.some.inj (hget.symm.trans hget')
      obtain ⟨s₁, w, hrun, hstarts, hshows, -, hchildren, -⟩ :=
        inflate_start context unknown data parent index hget hserves
      have hstart : s.Evolves alone noWidget s₁ :=
        .of_starts hs hstarts rfl hserves hshows hchildren
      have happly := hattributes hstart.sound (hoffers.mono hstart.frame.ids) hstarts.manager?
      have hboth := ((hstart.mono fun _ => False.elim).trans happly).forget fun id hid => by
        subst hid
        simp [Session.widget?]
      rw [hrun]
      rcases hlast : applyAttributes context unknown parser l.viewType
        ⟨s.widgets.length + 1⟩ l.attributes s₁ with ⟨e | ⟨⟩, s₂⟩
      all_goals rw [hlast] at hboth
      · rw [Fallible.bind_run_error hlast]
        exact ⟨hboth, fun _ id hid => by cases hid⟩
      · rw [Fallible.bind_run_ok hlast, Fallible.pure_run]
        refine ⟨hboth, ?_⟩
        intro _ id hid
        cases hid
        exact Nat.lt_succ_self _

/-- An attribute is applied, and then the next ones are. -/
theorem Layout.applyAttributes_evolves_cons {mid : ManagerId} {m : Manager} {a : Int}
    {value : Value} {rest : List Attribute} (viewType : String)
    (hoffers : context.registry.Offers s.ids) (hm : s.manager? mid = some m)
    (hvalue : s.Evolves alone (· = m.widget) (value.apply context unknown m.parser m.widget a s).2)
    (hrest : ∀ {s : Session}, s.Sound → context.registry.Offers s.ids → s.manager? mid = some m →
      s.Evolves alone (· = m.widget)
        (applyAttributes context unknown m.parser viewType m.widget rest s).2) :
    s.Evolves alone (· = m.widget)
      (applyAttributes context unknown m.parser viewType m.widget (⟨a, value⟩ :: rest) s).2 := by
  rcases hrun : value.apply context unknown m.parser m.widget a s with ⟨e | accepted, s₁⟩
  all_goals rw [hrun] at hvalue
  · rw [applyAttributes_of_cons, Fallible.bind_run_error hrun]
    exact hvalue
  · obtain ⟨log, -, hnext⟩ := applyAttributes_cons viewType hrun
    rw [hnext rest]
    have hlog : s₁.Evolves alone (· = m.widget) { s₁ with log := log } :=
      .of_eq hvalue.sound (le_refl s₁.ids) rfl rfl fun _ _ _ _ => rfl
    have hboth := hvalue.trans hlog
    exact hboth.trans (hrest hboth.sound (hoffers.mono hboth.frame.ids)
      (hboth.frame.manager? mid m id hm))

/-- Other children take the place of those that were there. -/
theorem Session.Evolves.of_replaceChildren {mid : ManagerId} {m : Manager} (hs : s.Sound)
    (hm : s.manager? mid = some m) {children : List WidgetId}
    (hnewer : alone → ∀ child ∈ children, m.widget.number < child.number) :
    s.Evolves alone (· = m.widget) (s.replaceChildren m.widget children) := by
  obtain ⟨k, w, look, h⟩ := hs.managed hm
  have hc := h.replaceChildren_changes children
  exact .of_changes hs h hc ((h.shows.mono hc.touches.ids).of_eq rfl rfl) fun ha _ => hnewer ha

/-- An attribute is left out, sets a property of its widget, or gives it other children. -/
theorem Value.apply_evolves_of_inflateAll {mid : ManagerId} {m : Manager} (a : Int) (value : Value)
    (hs : s.Sound) (hm : s.manager? mid = some m)
    (hall : ∀ items, value = .array items → s.InflatedAll alone
      (inflateAll context unknown m.data m.widget m.index items s)) :
    s.Evolves alone (· = m.widget) (value.apply context unknown m.parser m.widget a s).2 := by
  obtain ⟨k, w, look, h⟩ := hs.managed hm
  have hobserve := ViewParser.observe_of_nil h.serves.observers a value
  cases hroute : m.parser.handler.route a with
  | property p =>
    obtain ⟨s', w', hrun, hc, hshows, hchildren⟩ :=
      h.applyProperty_of_has (h.serves.has hroute) value
    rw [apply_of_property hroute, hobserve, Engine.act_run, hrun]
    exact .of_changes hs h hc hshows fun _ ho child hchild =>
      ho.newer h.widget (hchildren ▸ hchild)
  | children =>
    by_cases harray : ∃ items, value = .array items
    · obtain ⟨items, rfl⟩ := harray
      rw [apply_of_children hroute, hobserve, Fallible.bind_run_ok (Engine.look_run _ s),
        h.managerOf?]
      dsimp only
      split
      · have hmade := hall items rfl
        rcases hrun : inflateAll context unknown m.data m.widget m.index items s
          with ⟨e | children, s₁⟩
        all_goals rw [hrun] at hmade
        · rw [Fallible.bind_run_error hrun]
          exact hmade.evolves.mono fun _ => False.elim
        · have hm₁ := hmade.evolves.frame.manager? mid m id hm
          rw [Fallible.bind_run_ok hrun]
          refine (hmade.evolves.mono fun _ => False.elim).trans
            (.of_replaceChildren hmade.evolves.sound hm₁ fun ha child hchild => ?_)
          exact Nat.lt_of_le_of_lt (Session.number_le_of_widget? h.widget).2
            (hmade.new ha children rfl child hchild)
      · exact .of_eq hs (le_refl s.ids) rfl rfl fun _ _ _ _ => rfl
    · rw [apply_of_not_array hroute fun items hitems => harray ⟨items, hitems⟩, hobserve]
      exact .refl hs alone _
  | presence =>
    rw [apply_of_presence hroute, hobserve]
    exact .refl hs alone _
  | unknown =>
    rw [apply_of_unknown hroute, hobserve]
    exact .refl hs alone _

/-- A layout among values is inflated, and then the other values are. -/
theorem Value.inflatedAll_cons {data : Fields} {parent : WidgetId} {index : Int} {l : Layout}
    {rest : List Value} (hoffers : context.registry.Offers s.ids)
    (hl : s.Inflated alone (l.inflate context unknown data (some parent) index s))
    (hrest : ∀ {s : Session}, s.Sound → context.registry.Offers s.ids →
      s.InflatedAll alone (inflateAll context unknown data parent index rest s)) :
    s.InflatedAll alone (inflateAll context unknown data parent index (.layout l :: rest) s) := by
  rw [inflateAll_of_layout]
  rcases hrun : l.inflate context unknown data (some parent) index s with ⟨e | id, s₁⟩
  all_goals rw [hrun] at hl
  · rw [Fallible.bind_run_error hrun]
    exact ⟨hl.evolves, fun _ ids hids => by cases hids⟩
  · have hmade := hrest hl.evolves.sound (hoffers.mono hl.evolves.frame.ids)
    rw [Fallible.bind_run_ok hrun]
    rcases hrun' : inflateAll context unknown data parent index rest s₁ with ⟨e | more, s₂⟩
    all_goals rw [hrun'] at hmade
    · rw [Fallible.bind_run_error hrun']
      exact ⟨hl.evolves.trans hmade.evolves, fun _ ids hids => by cases hids⟩
    · rw [Fallible.bind_run_ok hrun', Fallible.pure_run]
      refine ⟨hl.evolves.trans hmade.evolves, ?_⟩
      intro ha ids hids
      cases hids
      refine List.forall_mem_cons.2 ⟨hl.new ha id rfl, ?_⟩
      intro other hother
      exact Nat.lt_of_le_of_lt hl.evolves.length (hmade.new ha more rfl other hother)

end

section

variable {context : Context} {unknown : UnknownType} {alone : Prop}

mutual

/-- Inflating a layout only makes widgets. -/
theorem Layout.inflated (hunknown : unknown.Makes context.registry alone)
    (data : Fields) (parent : Option WidgetId) (index : Int) :
    ∀ (l : Layout) {s : Session}, s.Sound → context.registry.Offers s.ids →
      s.Inflated alone (l.inflate context unknown data parent index s)
  | ⟨viewType, attributes, tags⟩, _, hs, hoffers =>
    Layout.inflated_of_attributes hunknown data parent index hs hoffers ⟨viewType, attributes, tags⟩
      fun hs hoffers hm =>
        Layout.applyAttributes_evolves hunknown viewType attributes hs hoffers hm
termination_by structural l => l

/-- Applying attributes to a managed widget changes that widget alone. -/
theorem Layout.applyAttributes_evolves (hunknown : unknown.Makes context.registry alone)
    {mid : ManagerId} {m : Manager} (viewType : String) :
    ∀ (attributes : List Attribute) {s : Session}, s.Sound → context.registry.Offers s.ids →
      s.manager? mid = some m →
      s.Evolves alone (· = m.widget)
        (Layout.applyAttributes context unknown m.parser viewType m.widget attributes s).2
  | [], _, hs, _, _ => .refl hs alone _
  | ⟨a, value⟩ :: rest, _, hs, hoffers, hm =>
    Layout.applyAttributes_evolves_cons viewType hoffers hm
      (Value.apply_evolves hunknown a value hs hoffers hm)
      (Layout.applyAttributes_evolves hunknown viewType rest)
termination_by structural attributes => attributes

/-- Applying an attribute to a widget makes a session evolve, and touches that widget alone. -/
theorem Value.apply_evolves (hunknown : unknown.Makes context.registry alone)
    {mid : ManagerId} {m : Manager} (a : Int) :
    ∀ (value : Value) {s : Session}, s.Sound → context.registry.Offers s.ids →
      s.manager? mid = some m →
      s.Evolves alone (· = m.widget) (value.apply context unknown m.parser m.widget a s).2
  | .array items, _, hs, hoffers, hm =>
    Value.apply_evolves_of_inflateAll a (.array items) hs hm fun items' hitems => by
      cases hitems
      exact Value.inflatedAll hunknown m.data m.widget m.index items hs hoffers
  | .null, _, hs, _, hm | .bool _, _, hs, _, hm | .int _, _, hs, _, hm | .float _, _, hs, _, hm
  | .string _, _, hs, _, hm | .object _, _, hs, _, hm | .binding _, _, hs, _, hm
  | .layout _, _, hs, _, hm => Value.apply_evolves_of_inflateAll a _ hs hm nofun
termination_by structural value => value

/-- Layouts are inflated one after the other, and leave what each of them leaves. -/
theorem Value.inflatedAll (hunknown : unknown.Makes context.registry alone)
    (data : Fields) (parent : WidgetId) (index : Int) :
    ∀ (items : List Value) {s : Session}, s.Sound → context.registry.Offers s.ids →
      s.InflatedAll alone (Value.inflateAll context unknown data parent index items s)
  | [], _, hs, _ => ⟨.refl hs alone _, fun _ ids hids => by cases hids; nofun⟩
  | .layout l :: rest, _, hs, hoffers =>
    Value.inflatedAll_cons hoffers (Layout.inflated hunknown data (some parent) index l hs hoffers)
      (Value.inflatedAll hunknown data parent index rest)
  | .null :: rest, _, hs, hoffers | .bool _ :: rest, _, hs, hoffers
  | .int _ :: rest, _, hs, hoffers | .float _ :: rest, _, hs, hoffers
  | .string _ :: rest, _, hs, hoffers | .object _ :: rest, _, hs, hoffers
  | .binding _ :: rest, _, hs, hoffers | .array _ :: rest, _, hs, hoffers =>
    Value.inflatedAll hunknown data parent index rest hs hoffers
termination_by structural items => items

end

end

namespace Context

variable {context : Context} {s : Session}

/-- A host only makes widgets, if the named layouts that it has inflated do. -/
theorem unknown_evolves {answer : String → FallbackAnswer}
    (hanswer : context.fallback = some answer) {alone : Prop} (hhost : ¬alone) {budget : Nat}
    (ih : ∀ b < budget, (context.unknown b).Makes context.registry alone) (l : Layout)
    (data : Fields) (index : Int) (hs : s.Sound) (hoffers : context.registry.Offers s.ids) :
    s.Evolves alone noWidget (context.unknown budget l data index s).2 := by
  have htold : ∀ s' : Session, s'.ids = s.ids → s'.widgets = s.widgets →
      s'.managers = s.managers → s'.tags = s.tags →
      s.Evolves alone noWidget s' := fun s' hids hwidgets hmanagers htags =>
    .of_eq hs (le_of_eq hids.symm) hwidgets hmanagers fun _ _ _ _ => by rw [htags]
  rw [unknown, hanswer]
  dsimp only
  rw [Fallible.bind_run_ok (Engine.change_run _ s)]
  cases answer l.viewType with
  | nothing | widget =>
    exact htold (s.tell (.unknown l.viewType l.attributes.length data.length index)) rfl rfl rfl rfl
  | newView =>
    have hcall := htold (s.tell (.unknown l.viewType l.attributes.length data.length index)) rfl rfl
      rfl rfl
    exact hcall.trans (.of_create hcall.sound hhost .view)
  | placeholder =>
    have hnote := htold ((s.tell (.unknown l.viewType l.attributes.length data.length index)).note
      (.placeholder l.viewType)) rfl rfl rfl rfl
    exact hnote.trans (.of_create hnote.sound hhost .view)
  | layout name =>
    have hcall := htold (s.tell (.unknown l.viewType l.attributes.length data.length index)) rfl rfl
      rfl rfl
    dsimp only
    cases context.layouts.get? name with
    | none => exact hcall
    | some named =>
      cases budget with
      | zero => exact hcall
      | succ budget =>
        have hmade := named.inflated (ih budget (Nat.lt_succ_self budget)) data none index
          hcall.sound (hoffers.mono hcall.frame.ids)
        have hboth := hcall.trans hmade.evolves
        dsimp only
        rw [Fallible.tryCatch_run]
        split
        · next h =>
          rw [h] at hboth
          exact hboth
        · next h =>
          rw [h] at hboth
          split <;> exact hboth

/-- The fallback only makes widgets, and none at all if there is no host. -/
theorem unknown_makes (context : Context) {alone : Prop} (halone : alone → context.fallback = none)
    (budget : Nat) : (context.unknown budget).Makes context.registry alone := by
  induction budget using Nat.strongRecOn with
  | ind budget ih =>
    intro l data index s hs hoffers
    cases hanswer : context.fallback with
    | none =>
      rw [unknown_of_no_fallback hanswer]
      exact ⟨.refl hs alone noWidget, fun _ id hid => by cases hid⟩
    | some answer =>
      have hhost : ¬alone := fun ha => by
        rw [halone ha] at hanswer
        cases hanswer
      exact ⟨unknown_evolves hanswer hhost ih l data index hs hoffers, fun ha => absurd ha hhost⟩

/-- Inflating a layout only makes widgets. -/
theorem inflate_inflated (hoffers : context.registry.Offers s.ids) (hs : s.Sound) (l : Layout)
    (data : Fields) (parent : Option WidgetId) (index : Int) :
    s.Inflated (context.fallback = none) (context.inflate l data parent index s) :=
  l.inflated (context.unknown_makes id _) data parent index hs hoffers

end Context

end LayoutEngine
