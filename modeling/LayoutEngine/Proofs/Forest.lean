import LayoutEngine.Proofs.Request
import LayoutEngine.Workbench.Basic

/-!
# The forest of widgets

Where all parsers make a new widget every time and no host answers for unknown types, widgets and
their children are a forest: a child was made for the widget whose child it is and for no other, and
it is the newer one (`Context.widgets_forest`).
-/

namespace LayoutEngine

open Session

/-! ## Parsers that make new widgets -/

/-- A further name stands for a parser that is registered. -/
theorem Setup.exists_get?_of_registerAliases {aliases : List (String × String)}
    {registry : Registry} {viewType : String} {parser : ViewParser}
    (h : (registerAliases aliases registry).get? viewType = some parser) :
    ∃ viewType', registry.get? viewType' = some parser := by
  induction aliases generalizing registry with
  | nil => exact ⟨viewType, h⟩
  | cons pair rest ih =>
    obtain ⟨name, base⟩ := pair
    obtain ⟨viewType', h'⟩ := ih h
    dsimp only at h'
    split at h'
    · next original horiginal =>
      by_cases heq : viewType' = name
      · subst heq
        rw [Registry.get?, Registry.addAlias, Entries.get?_put_self] at h'
        exact ⟨base, horiginal.trans h'⟩
      · rw [Registry.get?, Registry.addAlias, Entries.get?_put_of_ne heq] at h'
        exact ⟨viewType', h'⟩
    · exact ⟨viewType', h'⟩

namespace Registry

/-- Where all parsers serve the engine's own kinds, all make new widgets. -/
theorem Provides.makesNew {registry : Registry} {t : IdTable} (h : registry.Provides t) :
    registry.MakesNew := by
  intro viewType parser hget
  obtain ⟨k, hserves⟩ := h viewType parser hget
  rw [ViewParser.place?, hserves.creation]

/-- The engine's own parsers serve its kinds, also under further names. -/
theorem provides_registerAliases (aliases : List (String × String)) (t : IdTable) :
    (Setup.registerAliases aliases (withBuiltins t).1).Provides (withBuiltins t).2 := by
  intro viewType parser hget
  obtain ⟨viewType', hget'⟩ := Setup.exists_get?_of_registerAliases hget
  exact (offers_withBuiltins t).provides viewType' parser hget'

/-- So they make new widgets, also under further names. -/
theorem makesNew_registerAliases (aliases : List (String × String)) (t : IdTable) :
    (Setup.registerAliases aliases (withBuiltins t).1).MakesNew :=
  (provides_registerAliases aliases t).makesNew

end Registry

/-! ## Children -/

namespace Session

variable {context : Context} {supply : Supply} {s : Session} {id child : WidgetId}

/-- Where all parsers make new widgets, one with a manager was made for one layout alone. -/
theorem Tracked.isFresh (ht : s.Tracked context supply) (hnew : context.registry.MakesNew)
    {m : Manager} (hm : s.managerOf? id = some m) : s.IsFresh id :=
  ⟨m, hm, hnew _ _ (ht.parserOf hm).1⟩

/-- A widget has borne another one: the other's view and its manager have the widget as their
parent, the other has the widget's place in a repeated collection, and is newer. -/
structure Bears (s : Session) (id child : WidgetId) (m c : Manager) (v : Widget) : Prop where
  managerOf? : s.managerOf? id = some m
  managerOf?_child : s.managerOf? child = some c
  widget? : s.widget? child = some v
  view : v.view.parent = some id
  parent : c.parent = some id
  index : c.index = m.index
  newer : id.number < child.number

/-- Where all parsers make new widgets and no host answers, the children of a widget have been
borne. -/
theorem Tracked.bears (ht : s.Tracked context supply) (hnew : context.registry.MakesNew)
    (hno : context.fallback = none) (hchild : child ∈ s.childrenOf id) :
    ∃ m c v, s.Bears id child m c v := by
  obtain ⟨m, l, hm, -, hbecomes⟩ :=
    (ht.woven (supply.covers_of_no_fallback hno) id).adopts child hchild
  cases hbecomes with
  | bare hhost _ _ _ => exact absurd hno hhost
  | @managed c hc hcomes hnewer =>
    obtain ⟨w, mid, hw, hmid, hc'⟩ := managerOf?_eq_some_iff.1 hc
    obtain ⟨hindex, hparent⟩ := hcomes.fresh (hnew _ _ (ht.parserOf hc).1)
    obtain ⟨v, hv, -, hview⟩ := ht.managed hc'
    rw [ht.widget_eq hc] at hv
    exact ⟨m, c, v, hm, hc, hv, hview.trans (hparent hno), hparent hno, hindex,
      hnewer (ht.isFresh hnew hc)⟩

end Session

namespace Context

/-- Where the parsers are the engine's own, perhaps under further names, and no host answers for
unknown types, after whatever requests: a widget has borne each of its children, no child occurs
twice among the children of a widget, and none is a child of two. -/
theorem widgets_forest {context : Context} {s : Session} (hserved : context.Served .all s)
    {aliases : List (String × String)} {t : IdTable}
    (hregistry : context.registry = Setup.registerAliases aliases (Registry.withBuiltins t).1)
    (hno : context.fallback = none) :
    (∀ id, ∀ child ∈ s.childrenOf id, ∃ m c v, s.Bears id child m c v) ∧
    (∀ id, (s.childrenOf id).Nodup) ∧
    ∀ id id' child, child ∈ s.childrenOf id → child ∈ s.childrenOf id' → id = id' := by
  have ht := hserved.tracked
  have hnew : context.registry.MakesNew := by
    rw [hregistry]
    exact Registry.makesNew_registerAliases aliases t
  refine ⟨fun id child hchild => ht.bears hnew hno hchild, ?_, ?_⟩
  · intro id
    refine (ht.woven (Supply.all.covers_of_no_fallback hno) id).newer.imp_of_mem ?_
    intro child later _ hlater hnewer
    obtain ⟨m, c, v, h⟩ := ht.bears hnew hno hlater
    rintro rfl
    exact absurd (hnewer (ht.isFresh hnew h.managerOf?_child)) (Nat.lt_irrefl _)
  · intro id id' child hchild hchild'
    obtain ⟨m, c, v, h⟩ := ht.bears hnew hno hchild
    obtain ⟨m', c', v', h'⟩ := ht.bears hnew hno hchild'
    have hview := h'.view
    rw [Option.some.inj (h'.widget?.symm.trans h.widget?), h.view] at hview
    exact Option.some.inj hview

/-- The engine's own parsers, that of containers under a further name as well. -/
def aliased : Context :=
  ⟨Setup.registerAliases [("panel", "relative-layout")] (Registry.withBuiltins .empty).1, .empty,
    none, false⟩

/-- A panel with a text has borne the text. -/
theorem widgets_forest_panel :
    ∃ l t' s m c v,
      LayoutSource.compile ⟨"panel", [], [⟨"text", [], []⟩]⟩ ownIds = (.ok l, t') ∧
      aliased.inflate l [] (some ⟨7⟩) 3 (.ofIds t') = (.ok ⟨1⟩, s) ∧
      s.childrenOf ⟨1⟩ = [⟨2⟩] ∧ s.Bears ⟨1⟩ ⟨2⟩ m c v := by
  have hrun : Fallible.gives (LayoutSource.compile ⟨"panel", [], [⟨"text", [], []⟩]⟩) ownIds
      (fun l t' => Fallible.gives (aliased.inflate l [] (some ⟨7⟩) 3) (.ofIds t') fun root s =>
        decide (root = ⟨1⟩ ∧ s.childrenOf ⟨1⟩ = [⟨2⟩])) = true := by
    decide +kernel
  obtain ⟨l, t', hcompile, hrun⟩ := Fallible.exists_of_gives hrun
  obtain ⟨root, s, hinflate, hrun⟩ := Fallible.exists_of_gives hrun
  obtain ⟨rfl, hchildren⟩ := of_decide_eq_true hrun
  have hserved : aliased.Served .all s := (Served.ofIds aliased .all t').inflate trivial hinflate
  obtain ⟨hbears, -⟩ := widgets_forest hserved (rfl : aliased.registry = _) rfl
  obtain ⟨m, c, v, h⟩ := hbears ⟨1⟩ ⟨2⟩ (hchildren ▸ List.mem_singleton_self _)
  exact ⟨l, t', s, m, c, v, hcompile, hinflate, hchildren, h⟩

end Context

end LayoutEngine
