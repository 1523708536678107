import LayoutEngine.Proofs.Shape
import LayoutEngine.Value.Reading
import Mathlib.Logic.Relation

/-!
# How sessions grow

Whatever parsers are registered and whatever a host answers, all that happens to the shape of a
session comes down to four kinds of steps (`Session.Step`): a widget is made, a widget is made
together with its manager, a widget is given other children, or the shape stays. Steps keep what
each manager was made from (`Session.Grows`) and that managers and widgets belong together
(`Session.Tracked`).

Where a host that answers for unknown types never gives out a widget that was there before
(`Supply.Covers`), a widget is only given children that have come of layouts nested in what it has
come of itself, or of layouts that are free to go under any widget. `Supply` says which layouts
there are and which of them are free.
-/

namespace LayoutEngine

/-! ## Where widgets come from -/

/-- The place in which a parser keeps its widget, if it makes only one. -/
def ViewParser.place? (parser : ViewParser) : Option Nat :=
  match parser.creation with
  | .fresh _ => none
  | .kept place _ => some place

/-- The kept widgets once a parser has made one: it keeps it if it makes only one. -/
def ViewParser.keep (parser : ViewParser) (id : WidgetId) (kept : List (Nat × WidgetId)) :
    List (Nat × WidgetId) :=
  match parser.place? with
  | some place => Entries.put place id kept
  | none => kept

namespace Value

/-- The layouts among the items of an array. -/
def layouts : Value → List Layout
  | .array items => items.filterMap layout?
  | _ => []

end Value

/-- The layouts that a layout has right below it. -/
def Layout.nested (l : Layout) : List Layout := l.attributes.flatMap (·.value.layouts)

namespace Registry

/-- The place in which the widget of a layout is kept, if its parser makes only one. -/
def place? (l : Layout) (registry : Registry) : Option Nat :=
  (registry.get? l.viewType).bind (·.place?)

/-- All registered parsers make a new widget every time. -/
def MakesNew (registry : Registry) : Prop :=
  ∀ viewType parser, registry.get? viewType = some parser → parser.place? = none

/-- The widget of one layout may be that of another: it is the same layout, or the widget is
kept. -/
def Shares (registry : Registry) (l l' : Layout) : Prop :=
  l = l' ∨ ∃ place, registry.place? l = some place ∧ registry.place? l' = some place

end Registry

/-- The layouts that come up in a session, with each those nested in it. Those that are free may
go under any widget. -/
structure Supply where
  layouts : Layout → Prop
  free : Layout → Prop
  closed : ∀ {l}, layouts l → ∀ l' ∈ l.nested, layouts l'
  layouts_of_free : ∀ {l}, free l → layouts l

/-- The host has a named layout inflated in place of one whose type has no parser. -/
def Context.Replaces (context : Context) (l l' : Layout) : Prop :=
  ∃ answer name, context.fallback = some answer ∧ context.registry.get? l.viewType = none ∧
    answer l.viewType = .layout name ∧ context.layouts.get? name = some l'

/-- For no layout of the supply the host gives out a widget that was there before, and what it has
inflated in place of one is in the supply. It is so where there is no host to ask. -/
structure Supply.Covers (supply : Supply) (context : Context) : Prop where
  answer : ∀ {l answer}, supply.layouts l → context.registry.get? l.viewType = none →
    context.fallback = some answer → ∀ id, answer l.viewType ≠ .widget id
  replaced : ∀ {l l'}, supply.layouts l → context.Replaces l l' → supply.layouts l'

/-- Where the host answers nothing, anything covers what it answers. -/
theorem Supply.covers_of_no_fallback {context : Context} (h : context.fallback = none)
    (supply : Supply) : supply.Covers context := by
  refine ⟨?_, ?_⟩
  · intro l answer _ _ hanswer
    rw [h] at hanswer
    cases hanswer
  · rintro l l' _ ⟨answer, name, hanswer, -⟩
    rw [h] at hanswer
    cases hanswer

namespace Manager

variable (context : Context) (supply : Supply)

/-- A layout may go under the widget of a manager: it is free, or is nested in a layout that the
widget has come of. -/
def Takes (m : Manager) (l : Layout) : Prop :=
  supply.free l ∨
    ∃ l₀, supply.layouts l₀ ∧ context.registry.Shares m.layout l₀ ∧ l ∈ l₀.nested

/-- The layout of a child is one of those that come up. -/
theorem Takes.layouts {context : Context} {supply : Supply} {m : Manager} {l : Layout}
    (h : m.Takes context supply l) : supply.layouts l := by
  rcases h with hfree | ⟨l₀, hl₀, -, hl⟩
  · exact supply.layouts_of_free hfree
  · exact supply.closed hl₀ l hl

/-- The widget of a manager is what has become of a layout, or of one that has been inflated in
place of it. If the widget was made for it, the manager has its place in a repeated collection, and
its parent unless there is a host that may have left the parent out. -/
structure Comes (m : Manager) (parent : Option WidgetId) (index : Int) (l : Layout) : Prop where
  shares : ∃ l', Relation.ReflTransGen context.Replaces l l' ∧
    context.registry.Shares m.layout l'
  fresh : m.parser.place? = none →
    m.index = index ∧ (context.fallback = none → m.parent = parent)

end Manager

namespace Session

variable (context : Context) (supply : Supply) (updates : Prop)

/-- A widget has a manager and was made for one layout alone. -/
def IsFresh (s : Session) (id : WidgetId) : Prop :=
  ∃ m, s.managerOf? id = some m ∧ m.parser.place? = none

/-- A widget is what has become of a layout, and is one of the newer widgets if it was made for it.
Only a host makes widgets that have no manager. -/
inductive Becomes (s : Session) (first : Nat) (parent : Option WidgetId) (index : Int) (l : Layout)
    (id : WidgetId) : Prop
  | managed {m : Manager} (manager : s.managerOf? id = some m)
    (comes : m.Comes context parent index l) (newer : s.IsFresh id → first < id.number)
  | bare {w : Widget} (host : context.fallback ≠ none) (widget : s.widget? id = some w)
    (manager : w.manager = none) (newer : first < id.number)

/-- A widget may have another one as a child: the child has become of a layout that may go under
the widget, and if it was made for it, it is newer. -/
def Adopts (s : Session) (id child : WidgetId) : Prop :=
  ∃ m l, s.managerOf? id = some m ∧ m.Takes context supply l ∧
    s.Becomes context id.number (some id) m.index l child

/-- Widgets may be the children of a widget, and of two of them the later one is newer unless it was
there before. -/
structure Weaves (s : Session) (id : WidgetId) (children : List WidgetId) : Prop where
  adopts : ∀ child ∈ children, s.Adopts context supply id child
  newer : children.Pairwise fun child later => s.IsFresh later → child.number < later.number

/-- A session has one widget and its manager more than another. The parser keeps the widget if it
makes only one, and its observers have been told. -/
structure Born (s s' : Session) (m : Manager) : Prop where
  widget : m.widget = ⟨s.widgets.length + 1⟩
  widgets : ∃ w, s'.widgets = s.widgets ++ [w] ∧
    w.links = (some ⟨s.managers.length⟩, m.parent, [])
  managers : s'.managers = s.managers ++ [m]
  vacant : ∀ place, m.parser.place? = some place → Entries.get? place s.kept = none
  kept : s'.kept = m.parser.keep m.widget s.kept
  calls : s'.calls.filter HostCall.isAttachment =
    s.calls.filter HostCall.isAttachment ++ m.attachment

/-- What a step does to the shape of a session. -/
inductive Step : Session → Session → Prop
  | shape {s s' : Session} (same : s.SameShape updates s') : Step s s'
  | create (s : Session) (item : Item) : Step s (s.create item).2
  | start {s s' : Session} {m : Manager} (born : s.Born s' m)
    (parser : context.registry.get? m.layout.viewType = some m.parser)
    (layouts : supply.Covers context → supply.layouts m.layout) : Step s s'
  | weave (s : Session) (id : WidgetId) (children : List WidgetId)
    (weaves : supply.Covers context → s.Weaves context supply id children) :
    Step s (s.setChildren id children)

/-- One session comes from another by steps. -/
abbrev Steps : Session → Session → Prop := Relation.ReflTransGen (Step context supply updates)

/-- Widgets and managers of a session belong together: a manager and its widget know each other, the
widget's parent is the manager's, and the parser is that of the layout's type; the kept widgets are
those whose parsers make only one; observers have been told of each manager once, in order; and
where the supply covers the host children are where they may be. -/
structure Tracked (s : Session) : Prop where
  managed : ∀ {mid m}, s.manager? mid = some m →
    ∃ w, s.widget? m.widget = some w ∧ w.manager = some mid ∧ w.view.parent = m.parent
  owned : ∀ {id w mid}, s.widget? id = some w → w.manager = some mid →
    ∃ m, s.manager? mid = some m ∧ m.widget = id
  parser : ∀ {mid m}, s.manager? mid = some m →
    context.registry.get? m.layout.viewType = some m.parser ∧
      (supply.Covers context → supply.layouts m.layout)
  kept : ∀ place id, Entries.get? place s.kept = some id ↔
    ∃ m, s.managerOf? id = some m ∧ m.parser.place? = some place
  told : s.calls.filter HostCall.isAttachment = s.managers.flatMap Manager.attachment
  woven : supply.Covers context → ∀ id, s.Weaves context supply id (s.childrenOf id)

/-- A session has at least the widgets and managers of another. A widget keeps its manager, or that
it has none, and all that the manager was made from stays the same. Only updates give it other
data. -/
structure Grows (s s' : Session) : Prop where
  length : s.widgets.length ≤ s'.widgets.length
  manager : ∀ {id w}, s.widget? id = some w →
    ∃ w', s'.widget? id = some w' ∧ w'.manager = w.manager
  manager? : ∀ {mid m}, s.manager? mid = some m → ∃ data,
    s'.manager? mid = some { m with data := data } ∧ (¬updates → data = m.data)

variable {context supply updates} {s s' s'' : Session} {id : WidgetId} {mid : ManagerId}
  {m : Manager}

/-! ## Growth -/

namespace Grows

/-- A session grows into itself. -/
theorem refl (updates : Prop) (s : Session) : Grows updates s s :=
  ⟨Nat.le_refl _, fun hw => ⟨_, hw, rfl⟩, fun hm => ⟨_, hm, fun _ => rfl⟩⟩

/-- What grows twice grows. -/
theorem trans (h₁ : Grows updates s s') (h₂ : Grows updates s' s'') : Grows updates s s'' where
  length := Nat.le_trans h₁.length h₂.length
  manager hw := by
    obtain ⟨w₁, hw₁, hmid₁⟩ := h₁.manager hw
    obtain ⟨w₂, hw₂, hmid₂⟩ := h₂.manager hw₁
    exact ⟨w₂, hw₂, hmid₂.trans hmid₁⟩
  manager? hm := by
    obtain ⟨data₁, hm₁, hdata₁⟩ := h₁.manager? hm
    obtain ⟨data₂, hm₂, hdata₂⟩ := h₂.manager? hm₁
    exact ⟨data₂, hm₂, fun hno => (hdata₂ hno).trans (hdata₁ hno)⟩

/-- A widget keeps its manager, with all that it was made from. -/
theorem managerOf? (h : Grows updates s s') (hm : s.managerOf? id = some m) :
    ∃ data, s'.managerOf? id = some { m with data := data } := by
  obtain ⟨w, mid, hw, hmid, hm⟩ := managerOf?_eq_some_iff.1 hm
  obtain ⟨w', hw', hmid'⟩ := h.manager hw
  obtain ⟨data, hm', -⟩ := h.manager? hm
  exact ⟨data, managerOf?_eq_some_iff.2 ⟨w', mid, hw', hmid'.trans hmid, hm'⟩⟩

/-- What a managed widget has come of does not change. -/
theorem isFresh_iff (h : Grows updates s s') (hm : s.managerOf? id = some m) :
    s'.IsFresh id ↔ s.IsFresh id := by
  obtain ⟨data, hm'⟩ := h.managerOf? hm
  unfold IsFresh
  rw [hm, hm']
  constructor
  · rintro ⟨c, hc, hplace⟩
    cases hc
    exact ⟨m, rfl, hplace⟩
  · rintro ⟨c, hc, hplace⟩
    cases hc
    exact ⟨_, rfl, hplace⟩

/-- A widget that has become something stays that. -/
theorem becomes (h : Grows updates s s') {first : Nat} {parent : Option WidgetId} {index : Int}
    {l : Layout} (hb : s.Becomes context first parent index l id) :
    s'.Becomes context first parent index l id := by
  cases hb with
  | managed hm hcomes hnewer =>
    obtain ⟨data, hm'⟩ := h.managerOf? hm
    exact .managed hm' ⟨hcomes.shares, hcomes.fresh⟩
      fun hfresh => hnewer ((h.isFresh_iff hm).1 hfresh)
  | bare hhost hw hmid hnewer =>
    obtain ⟨w', hw', hmid'⟩ := h.manager hw
    exact .bare hhost hw' (hmid'.trans hmid) hnewer

/-- What has become of a layout counts as made for it alone only if it did before. -/
theorem isFresh_of_becomes (h : Grows updates s s') {first : Nat} {parent : Option WidgetId}
    {index : Int} {l : Layout} (hb : s.Becomes context first parent index l id)
    (hfresh : s'.IsFresh id) : s.IsFresh id := by
  cases hb with
  | managed hm _ _ => exact (h.isFresh_iff hm).1 hfresh
  | bare _ hw hmid _ =>
    obtain ⟨w', hw', hmid'⟩ := h.manager hw
    obtain ⟨m, hm, -⟩ := hfresh
    obtain ⟨w, mid, hw, hsome, -⟩ := managerOf?_eq_some_iff.1 hm
    rw [hw'] at hw
    cases hw
    rw [hmid', hmid] at hsome
    cases hsome

/-- A child that has been adopted stays so. -/
theorem adopts (h : Grows updates s s') {child : WidgetId}
    (ha : s.Adopts context supply id child) : s'.Adopts context supply id child := by
  obtain ⟨m, l, hm, htakes, hbecomes⟩ := ha
  obtain ⟨data, hm'⟩ := h.managerOf? hm
  exact ⟨_, l, hm', htakes, h.becomes hbecomes⟩

/-- Widgets may still be the children of a widget. -/
theorem weaves (h : Grows updates s s') {children : List WidgetId}
    (hw : s.Weaves context supply id children) : s'.Weaves context supply id children := by
  refine ⟨fun child hchild => h.adopts (hw.adopts child hchild), ?_⟩
  refine hw.newer.imp_of_mem ?_
  intro child later _ hlater hnewer hfresh
  obtain ⟨_, _, _, _, hbecomes⟩ := hw.adopts later hlater
  exact hnewer (h.isFresh_of_becomes hbecomes hfresh)

end Grows

/-- What keeps the shape makes a session grow. -/
theorem SameShape.grows (h : SameShape updates s s') : Grows updates s s' where
  length := Nat.le_of_eq h.length.symm
  manager hw := by
    obtain ⟨w', hw', hlinks⟩ := h.widget? hw
    exact ⟨w', hw', congrArg Prod.fst hlinks⟩
  manager? {mid m} hm := by
    obtain ⟨data, hm'⟩ := h.manager? hm
    refine ⟨data, hm', ?_⟩
    intro hno
    rw [Session.manager?, h.data hno] at hm'
    exact congrArg Manager.data (Option.some.inj (hm'.symm.trans hm))

/-- A session grows by a new widget. -/
theorem grows_create (updates : Prop) (item : Item) (s : Session) :
    Grows updates s (s.create item).2 where
  length := by simp [create]
  manager hw := ⟨_, widget?_create_of_some hw item, rfl⟩
  manager? hm := ⟨_, hm, fun _ => rfl⟩

/-- A widget that is added without children does not have any. -/
theorem childrenOf_of_append {w : Widget} (h : s'.widgets = s.widgets ++ [w])
    (hw : w.children = []) (id : WidgetId) : s'.childrenOf id = s.childrenOf id := by
  unfold childrenOf
  cases hv : s.widget? id with
  | some v => rw [(widget?_append_iff h).2 (.inl hv)]
  | none =>
    cases hv' : s'.widget? id with
    | none => rfl
    | some v =>
      rcases (widget?_append_iff h).1 hv' with hv' | ⟨-, rfl⟩
      · rw [hv] at hv'
        cases hv'
      · exact hw

/-- The new widget has the new manager. -/
theorem Born.managerOf? (h : s.Born s' m) : s'.managerOf? m.widget = some m := by
  obtain ⟨w, hwidgets, hlinks⟩ := h.widgets
  exact managerOf?_eq_some_iff.2 ⟨w, _, (widget?_append_iff hwidgets).2 (.inr ⟨h.widget, rfl⟩),
    congrArg Prod.fst hlinks, (manager?_append_iff h.managers).2 (.inr ⟨rfl, rfl⟩)⟩

/-- The widgets are those that there were, and the new one. -/
theorem Born.widget?_iff (h : s.Born s' m) {w : Widget} (hwidgets : s'.widgets = s.widgets ++ [w])
    {v : Widget} :
    s'.widget? id = some v ↔ s.widget? id = some v ∨ id = m.widget ∧ v = w := by
  rw [h.widget]
  exact widget?_append_iff hwidgets

/-- A session grows by a widget with its manager. -/
theorem Born.grows (h : s.Born s' m) (updates : Prop) : Grows updates s s' where
  length := by
    obtain ⟨w, hwidgets, -⟩ := h.widgets
    simp [hwidgets]
  manager {id w} hw := by
    obtain ⟨w₀, hwidgets, -⟩ := h.widgets
    exact ⟨w, (widget?_append_iff hwidgets).2 (.inl hw), rfl⟩
  manager? hm := ⟨_, (manager?_append_iff h.managers).2 (.inl hm), fun _ => rfl⟩

/-! ### Other children -/

/-- Giving children to a widget changes its children and nothing else of any widget. -/
theorem widget?_setChildren (id : WidgetId) (children : List WidgetId) (other : WidgetId)
    (s : Session) :
    (s.setChildren id children).widget? other = (s.widget? other).map fun w =>
      { w with children := if other = id then children else w.children } := by
  by_cases heq : other = id
  · subst heq
    rw [setChildren, widget?_changeWidget_self]
    simp
  · rw [setChildren, widget?_changeWidget_of_ne heq]
    simp [heq]

/-- Managers have nothing to do with children. -/
theorem manager?_setChildren (id : WidgetId) (children : List WidgetId) (mid : ManagerId)
    (s : Session) : (s.setChildren id children).manager? mid = s.manager? mid := by
  rw [manager?, setChildren, managers_changeWidget, manager?]

/-- Nor has which manager a widget has. -/
theorem managerOf?_setChildren (id : WidgetId) (children : List WidgetId) (other : WidgetId)
    (s : Session) : (s.setChildren id children).managerOf? other = s.managerOf? other := by
  have hmanager : (s.setChildren id children).manager? = s.manager? :=
    funext fun mid => manager?_setChildren id children mid s
  rw [managerOf?, managerOf?, widget?_setChildren, hmanager]
  cases s.widget? other <;> rfl

/-- Only one widget has been given other children. -/
theorem childrenOf_setChildren (id : WidgetId) (children : List WidgetId) (other : WidgetId)
    (s : Session) :
    (s.setChildren id children).childrenOf other = s.childrenOf other ∨
      other = id ∧ (s.setChildren id children).childrenOf other = children := by
  rw [childrenOf, childrenOf, widget?_setChildren]
  cases s.widget? other with
  | none => exact .inl rfl
  | some w =>
    by_cases heq : other = id
    · exact .inr ⟨heq, if_pos heq⟩
    · exact .inl (if_neg heq)

/-- A session grows by other children. -/
theorem grows_setChildren (updates : Prop) (id : WidgetId) (children : List WidgetId)
    (s : Session) : Grows updates s (s.setChildren id children) where
  length := Nat.le_of_eq (length_changeWidget id _ s).symm
  manager {other w} hw := by
    rw [widget?_setChildren, hw]
    exact ⟨_, rfl, rfl⟩
  manager? {mid m} hm := ⟨m.data, (manager?_setChildren id children mid s).trans hm, fun _ => rfl⟩

/-- Every step makes a session grow. -/
theorem Step.grows (h : Step context supply updates s s') : Grows updates s s' := by
  cases h with
  | shape same => exact same.grows
  | create item => exact grows_create updates item s
  | start born => exact born.grows updates
  | weave id children => exact grows_setChildren updates id children s

/-- Steps that allow no updates are steps that allow them. -/
theorem Steps.mono {updates' : Prop} (hle : updates → updates')
    (h : Steps context supply updates s s') : Steps context supply updates' s s' := by
  refine Relation.ReflTransGen.mono ?_ s s' h
  intro s s' hstep
  cases hstep with
  | shape same => exact .shape (same.mono hle)
  | create item => exact .create s item
  | start born parser layouts => exact .start born parser layouts
  | weave id children weaves => exact .weave s id children weaves

/-- Steps keep widgets, managers and what these were made from. -/
theorem Steps.grows (h : Steps context supply updates s s') : Grows updates s s' := by
  induction h with
  | refl => exact .refl updates s
  | tail _ hstep ih => exact ih.trans hstep.grows

/-! ## Tracked sessions -/

namespace Tracked

/-- The manager of a widget is made for that widget. -/
theorem widget_eq (h : s.Tracked context supply) (hm : s.managerOf? id = some m) :
    m.widget = id := by
  obtain ⟨w, mid, hw, hmid, hm⟩ := managerOf?_eq_some_iff.1 hm
  obtain ⟨m', hm', hid⟩ := h.owned hw hmid
  rw [hm] at hm'
  cases hm'
  exact hid

/-- The parser of a manager is that of its layout's type, and the layout is one that may come up. -/
theorem parserOf (h : s.Tracked context supply) (hm : s.managerOf? id = some m) :
    context.registry.get? m.layout.viewType = some m.parser ∧
      (supply.Covers context → supply.layouts m.layout) := by
  obtain ⟨w, mid, -, -, hm⟩ := managerOf?_eq_some_iff.1 hm
  exact h.parser hm

/-- The widget of a managed layout is kept where its parser keeps it. -/
theorem place?_layout (h : s.Tracked context supply) (hm : s.managerOf? id = some m) :
    context.registry.place? m.layout = m.parser.place? := by
  rw [Registry.place?, (h.parserOf hm).1, Option.bind_some]

/-- A kept widget has a manager, whose parser keeps it. -/
theorem exists_of_kept (h : s.Tracked context supply) {place : Nat}
    (hkept : Entries.get? place s.kept = some id) :
    ∃ m, s.managerOf? id = some m ∧ m.parser.place? = some place := (h.kept place id).1 hkept

/-- What belongs together still does if the shape stays. -/
theorem shape (h : s.Tracked context supply) (same : s.SameShape updates s') :
    s'.Tracked context supply := by
  have hback : ∀ {id m'}, s'.managerOf? id = some m' →
      ∃ m, s.managerOf? id = some m ∧ m.parser = m'.parser := by
    intro id m' hm'
    obtain ⟨data, hm⟩ := same.symm.grows.managerOf? hm'
    exact ⟨_, hm, rfl⟩
  refine ⟨?_, ?_, ?_, ?_, ?_, ?_⟩
  · intro mid m' hm'
    obtain ⟨data, hm⟩ := same.symm.manager? hm'
    obtain ⟨w, hw, hmid, hparent⟩ := h.managed hm
    obtain ⟨w', hw', hlinks⟩ := same.widget? hw
    exact ⟨w', hw', (congrArg Prod.fst hlinks).trans hmid,
      (congrArg (fun links => links.2.1) hlinks).trans hparent⟩
  · intro id w' mid hw' hmid
    obtain ⟨w, hw, hlinks⟩ := same.symm.widget? hw'
    obtain ⟨m, hm, hid⟩ := h.owned hw ((congrArg Prod.fst hlinks).trans hmid)
    obtain ⟨data, hm'⟩ := same.manager? hm
    exact ⟨_, hm', hid⟩
  · intro mid m' hm'
    obtain ⟨data, hm⟩ := same.symm.manager? hm'
    obtain ⟨hget, hlayouts⟩ := h.parser hm
    exact ⟨hget, hlayouts⟩
  · intro place id
    rw [same.kept, h.kept]
    constructor
    · rintro ⟨m, hm, hplace⟩
      obtain ⟨data, hm'⟩ := same.grows.managerOf? hm
      exact ⟨_, hm', hplace⟩
    · rintro ⟨m', hm', hplace⟩
      obtain ⟨m, hm, hparser⟩ := hback hm'
      exact ⟨m, hm, hparser ▸ hplace⟩
  · have hattachment : ∀ m : Manager, m.attachment = m.bare.attachment := fun m =>
      Manager.attachment_of_bare rfl
    have hall : ∀ ms : List Manager,
        ms.flatMap Manager.attachment = (ms.map Manager.bare).flatMap Manager.attachment :=
      fun ms => by rw [List.flatMap_map]; exact List.flatMap_congr fun m _ => hattachment m
    rw [same.calls, h.told, hall, hall s'.managers, same.managers]
  · intro hcovers id
    rw [same.childrenOf]
    exact same.grows.weaves (h.woven hcovers id)

/-- It still does when there is a new widget. -/
theorem create (h : s.Tracked context supply) (item : Item) :
    (s.create item).2.Tracked context supply := by
  have hgrows := grows_create True item s
  have hwidget : ∀ {id v}, (s.create item).2.widget? id = some v →
      s.widget? id = some v ∨ v = .ofItem item := fun hv =>
    ((widget?_append_iff rfl).1 hv).imp_right And.right
  have hmanagerOf : ∀ {id m}, (s.create item).2.managerOf? id = some m ↔
      s.managerOf? id = some m := by
    intro id m
    rw [managerOf?_eq_some_iff, managerOf?_eq_some_iff]
    constructor
    · rintro ⟨w, mid, hw, hmid, hm⟩
      rcases hwidget hw with hw | rfl
      · exact ⟨w, mid, hw, hmid, hm⟩
      · cases hmid
    · rintro ⟨w, mid, hw, hmid, hm⟩
      exact ⟨w, mid, widget?_create_of_some hw item, hmid, hm⟩
  refine ⟨?_, ?_, h.parser, ?_, h.told, ?_⟩
  · intro mid m hm
    obtain ⟨w, hw, hrest⟩ := h.managed hm
    exact ⟨w, widget?_create_of_some hw item, hrest⟩
  · intro id w mid hw hmid
    rcases hwidget hw with hw | rfl
    · exact h.owned hw hmid
    · cases hmid
  · intro place id
    simp only [hmanagerOf]
    exact h.kept place id
  · intro hcovers id
    rw [childrenOf_of_append rfl rfl]
    exact hgrows.weaves (h.woven hcovers id)

/-- After a widget has been made with its manager the managed widgets are those that there were,
and the new one. -/
theorem managerOf?_of_born (h : s.Tracked context supply) (hb : s.Born s' m) {m' : Manager} :
    s'.managerOf? id = some m' ↔ s.managerOf? id = some m' ∨ id = m.widget ∧ m' = m := by
  obtain ⟨w, hwidgets, hlinks⟩ := hb.widgets
  constructor
  · intro hof
    obtain ⟨v, mid, hv, hmid, hm'⟩ := managerOf?_eq_some_iff.1 hof
    rcases (hb.widget?_iff hwidgets).1 hv with hv | ⟨rfl, rfl⟩
    · -- The manager of a widget that was there was there as well.
      obtain ⟨m₀, hm₀, -⟩ := h.owned hv hmid
      have hsame := (manager?_append_iff hb.managers).2 (.inl hm₀)
      rw [hm'] at hsame
      cases hsame
      exact .inl (managerOf?_eq_some_iff.2 ⟨v, mid, hv, hmid, hm₀⟩)
    · rw [hb.managerOf?] at hof
      exact .inr ⟨rfl, (Option.some.inj hof).symm⟩
  · rintro (hm' | ⟨rfl, rfl⟩)
    · obtain ⟨v, mid, hv, hmid, hm'⟩ := managerOf?_eq_some_iff.1 hm'
      exact managerOf?_eq_some_iff.2 ⟨v, mid, (hb.widget?_iff hwidgets).2 (.inl hv), hmid,
        (manager?_append_iff hb.managers).2 (.inl hm')⟩
    · exact hb.managerOf?

/-- Where a parser makes only one widget it is then kept in the parser's place, which was empty.
Other places keep what they kept. -/
theorem kept_of_born (h : s.Tracked context supply) (hb : s.Born s' m) (place : Nat)
    (id : WidgetId) :
    Entries.get? place s'.kept = some id ↔
      ∃ m', s'.managerOf? id = some m' ∧ m'.parser.place? = some place := by
  have hbefore : (∃ m', s'.managerOf? id = some m' ∧ m'.parser.place? = some place) ↔
      Entries.get? place s.kept = some id ∨ id = m.widget ∧ m.parser.place? = some place := by
    rw [h.kept]
    constructor
    · rintro ⟨m', hm', hplace⟩
      rcases (h.managerOf?_of_born hb).1 hm' with hm' | ⟨rfl, rfl⟩
      · exact .inl ⟨m', hm', hplace⟩
      · exact .inr ⟨rfl, hplace⟩
    · rintro (⟨m', hm', hplace⟩ | ⟨rfl, hplace⟩)
      · exact ⟨m', (h.managerOf?_of_born hb).2 (.inl hm'), hplace⟩
      · exact ⟨m, hb.managerOf?, hplace⟩
  rw [hbefore, hb.kept, ViewParser.keep]
  cases hown : m.parser.place? with
  | none => simp
  | some own =>
    by_cases heq : place = own
    · subst heq
      simp [Entries.get?_put_self, hb.vacant place hown, eq_comm]
    · simp [Entries.get?_put_of_ne heq, Ne.symm heq]

/-- A widget that is made together with its manager belongs to it, and where it may be. -/
theorem born (h : s.Tracked context supply) (hb : s.Born s' m)
    (hparser : context.registry.get? m.layout.viewType = some m.parser)
    (hlayouts : supply.Covers context → supply.layouts m.layout) :
    s'.Tracked context supply := by
  obtain ⟨w, hwidgets, hlinks⟩ := hb.widgets
  obtain ⟨hmanager, hlinks⟩ := Prod.mk.inj hlinks
  obtain ⟨hparent, hchildren⟩ := Prod.mk.inj hlinks
  have hold : ∀ {id v}, s.widget? id = some v → s'.widget? id = some v := fun hv =>
    (hb.widget?_iff hwidgets).2 (.inl hv)
  have hnew : s'.widget? m.widget = some w := (hb.widget?_iff hwidgets).2 (.inr ⟨rfl, rfl⟩)
  constructor
  case managed =>
    intro mid m' hm'
    rcases (manager?_append_iff hb.managers).1 hm' with hm' | ⟨rfl, rfl⟩
    · obtain ⟨v, hv, hrest⟩ := h.managed hm'
      exact ⟨v, hold hv, hrest⟩
    · exact ⟨w, hnew, hmanager, hparent⟩
  case owned =>
    intro id v mid hv hmid
    rcases (hb.widget?_iff hwidgets).1 hv with hv | ⟨rfl, rfl⟩
    · obtain ⟨m', hm', hid⟩ := h.owned hv hmid
      exact ⟨m', (manager?_append_iff hb.managers).2 (.inl hm'), hid⟩
    · rw [hmanager] at hmid
      cases hmid
      exact ⟨m, (manager?_append_iff hb.managers).2 (.inr ⟨rfl, rfl⟩), rfl⟩
  case parser =>
    intro mid m' hm'
    rcases (manager?_append_iff hb.managers).1 hm' with hm' | ⟨-, rfl⟩
    · exact h.parser hm'
    · exact ⟨hparser, hlayouts⟩
  case kept => exact h.kept_of_born hb
  case told =>
    rw [hb.calls, h.told, hb.managers, List.flatMap_append, List.flatMap_singleton]
  case woven =>
    intro hcovers id
    rw [childrenOf_of_append hwidgets hchildren]
    exact (hb.grows True).weaves (h.woven hcovers id)

/-- It still does when a widget gets children that may be there. -/
theorem weave (h : s.Tracked context supply) {children : List WidgetId}
    (hweaves : supply.Covers context → s.Weaves context supply id children) :
    (s.setChildren id children).Tracked context supply := by
  have hgrows := grows_setChildren True id children s
  refine ⟨?_, ?_, ?_, ?_, ?_, ?_⟩
  · intro mid m hm
    rw [manager?_setChildren] at hm
    obtain ⟨w, hw, hrest⟩ := h.managed hm
    rw [widget?_setChildren, hw]
    exact ⟨_, rfl, hrest⟩
  · intro other w mid hw hmid
    rw [widget?_setChildren] at hw
    obtain ⟨v, hv, rfl⟩ := Option.map_eq_some_iff.1 hw
    obtain ⟨m, hm, hid⟩ := h.owned hv hmid
    exact ⟨m, (manager?_setChildren id children mid s).trans hm, hid⟩
  · intro mid m hm
    rw [manager?_setChildren] at hm
    exact h.parser hm
  · intro place other
    have hkept : (s.setChildren id children).kept = s.kept := kept_changeWidget id _ s
    rw [hkept, managerOf?_setChildren]
    exact h.kept place other
  · have hcalls : (s.setChildren id children).calls = s.calls := by
      obtain ⟨_ | n⟩ := id <;> rfl
    rw [hcalls, h.told, setChildren, managers_changeWidget]
  · intro hcovers other
    rcases childrenOf_setChildren id children other s with hsame | ⟨rfl, hnew⟩
    · rw [hsame]
      exact hgrows.weaves (h.woven hcovers other)
    · rw [hnew]
      exact hgrows.weaves (hweaves hcovers)

/-- It still does after any step. -/
theorem step (h : s.Tracked context supply) (hstep : Step context supply updates s s') :
    s'.Tracked context supply := by
  cases hstep with
  | shape same => exact h.shape same
  | create item => exact h.create item
  | start born parser layouts => exact h.born born parser layouts
  | weave id children weaves => exact h.weave weaves

/-- In a session without widgets there is nothing that would not belong together. -/
theorem ofIds (context : Context) (supply : Supply) (ids : IdTable) :
    (Session.ofIds ids).Tracked context supply := by
  refine ⟨?_, ?_, ?_, ?_, rfl, ?_⟩
  · intro mid m hm
    cases hm
  · intro id w mid hw
    rw [widget?_ofIds] at hw
    cases hw
  · intro mid m hm
    cases hm
  · intro place id
    constructor
    · intro hkept
      cases hkept
    · rintro ⟨m, hm, -⟩
      rw [managerOf?, widget?_ofIds] at hm
      cases hm
  · intro _ id
    rw [childrenOf, widget?_ofIds]
    refine ⟨?_, .nil⟩
    intro child hchild
    cases hchild

/-- Steps lead from tracked sessions to tracked ones. -/
theorem steps (h : s.Tracked context supply) (hsteps : Steps context supply updates s s') :
    s'.Tracked context supply := by
  induction hsteps with
  | refl => exact h
  | tail _ hstep ih => exact ih.step hstep

end Tracked

end Session

end LayoutEngine
