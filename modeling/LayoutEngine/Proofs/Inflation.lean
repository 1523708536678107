import LayoutEngine.Proofs.Apply
import LayoutEngine.Proofs.Nodes

/-!
# Inflating a source

What inflating a compiled source does where all parsers are the engine's own. A widget starts out
with the next number, a manager and the initial look (`Layout.inflate_start`); its attributes give
it its look, and a container's children are inflated after it. So the nodes of the source stand in
the session one after the other (`LayoutSource.inflate_run`), and from there the tree is read off
(`Session.Mirrors`).
-/

namespace LayoutEngine

/-- No widget at all. -/
def noWidget : WidgetId → Prop := fun _ => False

/-! ## Starting a widget -/

namespace Session

variable {s s' : Session} {id : WidgetId} {mid : ManagerId} {m : Manager} {k : Kind} {w : Widget}
  {look : Look}

/-- A session has one widget and its manager more than another, and perhaps declared attributes
of that widget. -/
structure Starts (s s' : Session) (w : Widget) (m : Manager) : Prop where
  ids : s'.ids = s.ids
  widgets : s'.widgets = s.widgets ++ [w]
  managers : s'.managers = s.managers ++ [m]
  tags : ∀ id, id.number ≤ s.widgets.length → s'.tags.get? id = s.tags.get? id
  manager : w.manager = some ⟨s.managers.length⟩

namespace Starts

variable (h : Starts s s' w m)
include h

/-- There is one widget more. -/
theorem length : s'.widgets.length = s.widgets.length + 1 := by rw [h.widgets]; simp

/-- The new widget is the next one. -/
theorem widget? : s'.widget? ⟨s.widgets.length + 1⟩ = some w := by
  simp [Session.widget?, h.widgets]

/-- The new manager is the next one. -/
theorem manager? : s'.manager? ⟨s.managers.length⟩ = some m := by
  simp [Session.manager?, h.managers]

/-- All that was there before has stayed. -/
theorem frame : Frame noWidget noWidget s s' where
  ids := by rw [h.ids]
  widget? id w' _ hw := by
    obtain ⟨n, rfl, hn⟩ := widget?_eq_some_iff.1 hw
    obtain ⟨hlt, -⟩ := List.getElem?_eq_some_iff.1 hn
    simpa [Session.widget?, h.widgets, List.getElem?_append_left hlt] using hn
  manager? mid' m' _ hm := by
    obtain ⟨hlt, -⟩ := List.getElem?_eq_some_iff.1 hm
    rw [Session.manager?, h.managers, List.getElem?_append_left hlt]
    exact hm
  tags id w' _ hw := h.tags id (number_le_of_widget? hw).2

/-- What the layout declares may be recorded besides. -/
theorem recordTags (l : Layout) :
    Starts s (s'.recordTags ⟨s.widgets.length + 1⟩ l) w m := by
  unfold Session.recordTags
  split
  · exact h
  · split
    · refine ⟨h.ids, h.widgets, h.managers, fun id hid => ?_, h.manager⟩
      have hne : id ≠ ⟨s.widgets.length + 1⟩ := by
        rintro rfl
        exact absurd hid (Nat.not_succ_le_self _)
      rw [← h.tags id hid]
      exact Entries.get?_put_of_ne hne _ _
    · exact h

/-- What happens to the new widget alone leaves all others as they were. -/
theorem frame_of_changes {s'' : Session} {w'' : Widget}
    (hc : Changes ⟨s.widgets.length + 1⟩ s' w s'' w'') : Frame noWidget noWidget s s'' := by
  have hboth := (h.frame.mono (fun _ => False.elim) fun _ => id).trans hc.touches.frame
  refine hboth.forget fun other hother => .inr ?_
  subst hother
  simp [Session.widget?]

end Starts

/-- A new widget is given its parent and a manager. -/
theorem starts_create (s : Session) (item : Item) (parent : Option WidgetId) (m : Manager) :
    Starts s
      (((s.create item).2.changeView ⟨s.widgets.length + 1⟩ (·.attach parent)).addManager
        ⟨s.widgets.length + 1⟩ m)
      { Widget.ofItem item with
        view := (Widget.ofItem item).view.attach parent, manager := some ⟨s.managers.length⟩ } m :=
  ⟨rfl, by simp [create, changeView, addManager, changeWidget, modify_length_append], rfl,
    fun _ _ => rfl, rfl⟩

end Session

namespace ViewParser

variable {parser : ViewParser} {k : Kind} {s : Session}

/-- Where nobody observes nobody is told. -/
theorem report_of_nil (h : parser.observers = []) (call : HostCall) (s : Session) :
    parser.report call s = s := by
  simp [report, isObserved, h]

/-- A parser that serves a kind makes a widget of it. -/
theorem Serves.giveOut (h : parser.Serves k s.ids) (viewType : String) (index : Int) :
    parser.giveOut viewType index s = s.create k.item := by
  simp [ViewParser.giveOut, report_of_nil h.observers, h.creation]

/-- The widget that has been made is given its parent and a manager. -/
theorem Serves.attach (h : parser.Serves k s.ids) (verbose : Bool) (l : Layout) (data : Fields)
    (parent : Option WidgetId) (index : Int) :
    s.Starts
      (parser.attach verbose l data parent index ⟨s.widgets.length + 1⟩ (s.create k.item).2)
      { Widget.ofItem k.item with
        view := (Widget.ofItem k.item).view.attach parent
        manager := some ⟨s.managers.length⟩ }
      ⟨⟨s.widgets.length + 1⟩, l, parser, parent, index, data⟩ := by
  have hnone : (((s.create k.item).2.widget? ⟨s.widgets.length + 1⟩).bind (·.manager)) = none := by
    have hself := Session.widget?_create_self k.item s
    rw [show (⟨s.widgets.length + 1⟩ : WidgetId) = (s.create k.item).1 from rfl, hself]
    rfl
  have hstarts := Session.starts_create s k.item parent
    ⟨⟨s.widgets.length + 1⟩, l, parser, parent, index, data⟩
  unfold ViewParser.attach setUp
  rw [hnone]
  simp only [report_of_nil h.observers]
  split
  all_goals exact ⟨hstarts.ids, hstarts.widgets, hstarts.managers, hstarts.tags, hstarts.manager⟩

end ViewParser

namespace Layout

variable (context : Context) (unknown : UnknownType) (data : Fields) (parent : Option WidgetId)
  (index : Int) {s : Session} {l : Layout} {parser : ViewParser} {k : Kind}

/-- A layout whose type's parser serves a kind becomes a new widget of the kind, with a manager and
the initial look, to which the attributes are applied. -/
theorem inflate_start (hget : context.registry.get? l.viewType = some parser)
    (hserves : parser.Serves k s.ids) :
    ∃ s' w,
      l.inflate context unknown data parent index s =
        (do
          applyAttributes context unknown parser l.viewType ⟨s.widgets.length + 1⟩ l.attributes
          return ⟨s.widgets.length + 1⟩ : Engine WidgetId) s' ∧
      s.Starts s' w ⟨⟨s.widgets.length + 1⟩, l, parser, parent, index, data⟩ ∧
      w.Shows s'.ids k (.initial parent) ∧ w.view.parent = parent ∧ w.children = [] ∧
      s.Tells [] s' := by
  obtain ⟨viewType, attributes, tags⟩ := l
  have hstarts := (hserves.attach context.verbose ⟨viewType, attributes, tags⟩ data parent
    index).recordTags ⟨viewType, attributes, tags⟩
  refine ⟨_, _, ?_, hstarts, ?_, rfl, rfl, ?_⟩
  · rw [inflate_of_mk, hget]
    dsimp only
    rw [Fallible.bind_run_ok (Engine.act_run _ s), hserves.giveOut]
    rw [Fallible.bind_run_ok (Engine.change_run _ _), Fallible.bind_run_ok (Engine.change_run _ _)]
    rfl
  · exact (Look.shows_initial k parent _).of_eq rfl rfl
  · have hcreate : s.Tells [] (s.create k.item).2 := .of_log_eq rfl
    exact (hcreate.then (parser.tells_attach _ _ _ _ _ _ _)).then (Session.tells_recordTags _ _ _)

/-- The new widget is managed before the attributes are applied to it. -/
theorem inflate_managed (hget : context.registry.get? l.viewType = some parser)
    (hserves : parser.Serves k s.ids) :
    ∃ s' w,
      l.inflate context unknown data parent index s =
        (do
          applyAttributes context unknown parser l.viewType ⟨s.widgets.length + 1⟩ l.attributes
          return ⟨s.widgets.length + 1⟩ : Engine WidgetId) s' ∧
      s.Starts s' w ⟨⟨s.widgets.length + 1⟩, l, parser, parent, index, data⟩ ∧
      s'.Managed ⟨s.widgets.length + 1⟩ ⟨s.managers.length⟩
        ⟨⟨s.widgets.length + 1⟩, l, parser, parent, index, data⟩ k w (.initial parent) ∧
      w.view.parent = parent ∧ w.children = [] ∧ s.Tells [] s' := by
  obtain ⟨s', w, hrun, hstarts, hshows, hparent, hchildren, htells⟩ :=
    inflate_start context unknown data parent index hget hserves
  exact ⟨s', w, hrun, hstarts, ⟨hstarts.widget?, hstarts.manager, hstarts.manager?,
    hserves.mono hstarts.frame.ids, hshows⟩, hparent, hchildren, htells⟩

end Layout

/-! ## Nodes -/

namespace Node

/-- The look of a node's widget in data, once all declared attributes have been applied. -/
def look (data : Fields) (index : Int) (node : Node) (k : Kind) : Look :=
  (Look.initial node.parent).settle k data index node.source.declared

/-- A widget of a kind, with a manager for a layout, is what a node has become. -/
structure StandsAs (node : Node) (s : Session) (data : Fields) (index : Int) (look : Look)
    (k : Kind) (mid : ManagerId) (l : Layout) (parser : ViewParser) (w : Widget) : Prop where
  type : Kind.ofType? node.source.viewType = some k
  compiled : node.source.compile s.ids = (.ok l, s.ids)
  managed : s.Managed node.id mid ⟨node.id, l, parser, node.parent, index, data⟩ k w look
  parent : w.view.parent = node.parent
  children : w.children = node.children

/-- A node has become a widget, which shows a look that goes with its kind. -/
def Stands (s : Session) (data : Fields) (index : Int) (node : Node) (look : Kind → Look) : Prop :=
  ∃ k mid l parser w, node.StandsAs s data index (look k) k mid l parser w

variable {s s' : Session} {data : Fields} {index : Int} {node : Node} {look : Kind → Look}

/-- What happens elsewhere does not concern a node. -/
theorem Stands.frame (h : node.Stands s data index look) {T D : WidgetId → Prop}
    (hf : Session.Frame T D s s') (hT : ¬T node.id) (hD : ¬D node.id) :
    node.Stands s' data index look := by
  obtain ⟨k, mid, l, parser, w, h⟩ := h
  exact ⟨k, mid, l, parser, w, h.type, LayoutSource.compile_of_le h.compiled hf.ids,
    h.managed.frame hf hT hD, h.parent, h.children⟩

/-- The children of a widget are those of the node that it stands for. -/
theorem Stands.childrenOf (h : node.Stands s data index look) :
    s.childrenOf node.id = node.children := by
  obtain ⟨k, mid, l, parser, w, h⟩ := h
  rw [Session.childrenOf, h.managed.widget]
  exact h.children

end Node

/-- One session comes from another by adding the widgets of nodes and their managers. -/
structure Session.Built (s s' : Session) (data : Fields) (index : Int) (nodes : List Node) :
    Prop where
  frame : Frame noWidget noWidget s s'
  length : s'.widgets.length = s.widgets.length + nodes.length
  managers : s'.managers.length = s.managers.length + nodes.length
  stands : ∀ node ∈ nodes, node.Stands s' data index (node.look data index)

namespace Session.Built

variable {s s' s'' : Session} {data : Fields} {index : Int}

/-- Without nodes nothing has been built. -/
theorem nil (s : Session) (data : Fields) (index : Int) : s.Built s data index [] :=
  ⟨.refl _ _ s, rfl, rfl, nofun⟩

/-- What has been built in two parts has been built. -/
theorem append {nodes nodes' : List Node} (h : s.Built s' data index nodes)
    (h' : s'.Built s'' data index nodes') : s.Built s'' data index (nodes ++ nodes') := by
  refine ⟨h.frame.trans h'.frame, ?_, ?_, fun node hnode => ?_⟩
  · rw [h'.length, h.length, List.length_append, Nat.add_assoc]
  · rw [h'.managers, h.managers, List.length_append, Nat.add_assoc]
  · rcases List.mem_append.1 hnode with hnode | hnode
    · exact (h.stands node hnode).frame h'.frame id id
    · exact h'.stands node hnode

end Session.Built

/-- The attributes of a layout have been applied to the widget of its source, which had no children.
The widget has the look that they give it, and its children are the widgets of the nodes below. -/
structure Session.Furnished (s s' : Session) (source : LayoutSource) (id : WidgetId)
    (mid : ManagerId) (m : Manager) (k : Kind) (look : Look) (w w' : Widget) : Prop where
  frame : Frame (· = id) noWidget s s'
  length : s'.widgets.length = s.widgets.length + LayoutSource.extents source.inflated
  managers : s'.managers.length = s.managers.length + LayoutSource.extents source.inflated
  managed : s'.Managed id mid m k w' (look.settle k m.data m.index source.declared)
  parent : w'.view.parent = w.view.parent
  children : w'.children = LayoutSource.childIds (s.widgets.length + 1) source.inflated
  below : ∀ node ∈ LayoutSource.childNodes id (s.widgets.length + 1) source.inflated,
    node.Stands s' m.data m.index (node.look m.data m.index)

namespace Session.Furnished

/-- A widget that has got its look is given the widgets below as children. -/
theorem of_built {s s₁ s₂ : Session} {source : LayoutSource} {id : WidgetId} {mid : ManagerId}
    {m : Manager} {k : Kind} {look : Look} {w w₁ : Widget} (hc : Changes id s w s₁ w₁)
    (hm : s₁.Managed id mid m k w₁ (look.settle k m.data m.index source.declared))
    (hbuilt : s₁.Built s₂ m.data m.index
      (LayoutSource.childNodes id (s₁.widgets.length + 1) source.inflated)) (log : List Notice) :
    s.Furnished
      { s₂.replaceChildren id (LayoutSource.childIds (s₁.widgets.length + 1) source.inflated) with
        log := log }
      source id mid m k look w
      { w₁ with
        children := LayoutSource.childIds (s₁.widgets.length + 1) source.inflated } := by
  have hm₂ := hm.frame hbuilt.frame not_false not_false
  have hc₂ := (hm₂.replaceChildren_changes
    (LayoutSource.childIds (s₁.widgets.length + 1) source.inflated)).withLog log
  have hlength := hc.touches.length
  refine ⟨?_, ?_, ?_, ?_, hc.parent, by rw [hlength], ?_⟩
  · exact (hc.touches.frame.trans
      (hbuilt.frame.mono (fun _ => False.elim) fun _ hno => hno)).trans hc₂.touches.frame
  · rw [hc₂.touches.length, hbuilt.length, hlength, LayoutSource.length_childNodes]
  · rw [hc₂.touches.managers, hbuilt.managers, hc.touches.managers,
      LayoutSource.length_childNodes]
  · exact hm₂.changes hc₂ ((hm₂.shows.mono hc₂.touches.ids).of_eq rfl rfl)
  · intro node hnode
    rw [← hlength] at hnode
    have hbounds := LayoutSource.bounds_of_mem_childNodes hnode
    refine (hbuilt.stands node hnode).frame hc₂.touches.frame (fun heq => ?_) not_false
    rw [heq] at hbounds
    exact absurd (number_le_of_widget? hc.widget).2 (Nat.not_le_of_lt hbounds.1)

/-- A new widget that has been furnished has been built with the nodes below. -/
theorem built {s s₁ s' : Session} {source : LayoutSource} {l : Layout}
    {parser : ViewParser} {parent : Option WidgetId} {data : Fields} {index : Int} {k : Kind}
    {w w' : Widget}
    (h : s₁.Furnished s' source ⟨s.widgets.length + 1⟩ ⟨s.managers.length⟩
      ⟨⟨s.widgets.length + 1⟩, l, parser, parent, index, data⟩ k (.initial parent) w w')
    (hstarts : s.Starts s₁ w ⟨⟨s.widgets.length + 1⟩, l, parser, parent, index, data⟩)
    (hk : Kind.ofType? source.viewType = some k)
    (hcompiled : source.compile s'.ids = (.ok l, s'.ids))
    (hparent : w.view.parent = parent) :
    s.Built s' data index (source.nodes parent (s.widgets.length + 1)) where
  frame := ((hstarts.frame.mono (fun _ => False.elim) fun _ => id).trans h.frame).forget
    fun other hother => .inr (by
      subst hother
      simp [Session.widget?])
  length := by
    rw [h.length, hstarts.length, LayoutSource.length_nodes, LayoutSource.extent_eq, Nat.add_assoc]
  managers := by
    rw [h.managers, hstarts.managers, LayoutSource.length_nodes, LayoutSource.extent_eq,
      List.length_append, List.length_singleton, Nat.add_assoc]
  stands := by
    have hbelow := h.below
    have hchildren := h.children
    rw [hstarts.length] at hbelow hchildren
    rw [LayoutSource.nodes_eq]
    exact List.forall_mem_cons.2 ⟨⟨k, _, l, parser, w', hk, hcompiled, h.managed,
      h.parent.trans hparent, hchildren⟩, hbelow⟩

end Session.Furnished

namespace LayoutSource

variable (context : Context) (unknown : UnknownType) (data : Fields) (index : Int)

/-- Inflating what the source is compiled to gives the widgets of its nodes if all types are the
engine's own, and fails otherwise. -/
def Inflates (source : LayoutSource) : Prop :=
  ∀ ⦃s : Session⦄ ⦃l : Layout⦄ ⦃parent : Option WidgetId⦄,
    context.registry.Offers s.ids → source.compile s.ids = (.ok l, s.ids) →
    (source.Known ∧ ∃ s', l.inflate context unknown data parent index s =
        (.ok ⟨s.widgets.length + 1⟩, s') ∧
      s.Built s' data index (source.nodes parent (s.widgets.length + 1))) ∨
    (¬source.Known ∧ ∃ e s', l.inflate context unknown data parent index s = (.error e, s'))

variable {context unknown data index} {s : Session}

/-- Children that inflate one by one inflate one after the other. -/
theorem inflateAll_run (parent : WidgetId) {children : List LayoutSource} {ls : List Layout}
    (hoffers : context.registry.Offers s.ids)
    (h : ∀ child ∈ children, child.Inflates context unknown data index)
    (hcompiled : List.Forall₂ (fun child l => child.compile s.ids = (.ok l, s.ids)) children ls) :
    ((∀ child ∈ children, child.Known) ∧ ∃ s',
      Value.inflateAll context unknown data parent index (ls.map Value.layout) s =
        (.ok (childIds (s.widgets.length + 1) children), s') ∧
      s.Built s' data index (childNodes parent (s.widgets.length + 1) children)) ∨
    ((¬∀ child ∈ children, child.Known) ∧ ∃ e s',
      Value.inflateAll context unknown data parent index (ls.map Value.layout) s =
        (.error e, s')) := by
  induction children generalizing s ls with
  | nil =>
    cases hcompiled
    exact .inl ⟨nofun, s, rfl, .nil s data index⟩
  | cons child rest ih =>
    cases hcompiled with
    | @cons _ l _ ls hl hls =>
    rw [List.map_cons, Value.inflateAll_of_layout]
    rcases h child (by simp) hoffers hl with ⟨hknown, s₁, hrun, hbuilt⟩ | ⟨hunknown, e, s₁, hrun⟩
    · rw [Fallible.bind_run_ok hrun]
      have hlength : s₁.widgets.length + 1 = s.widgets.length + 1 + child.extent := by
        rw [hbuilt.length, length_nodes]
        omega
      rcases ih (hoffers.mono hbuilt.frame.ids)
        (fun c hc => h c (List.mem_cons_of_mem child hc))
        (hls.imp fun _ _ hc => compile_of_le hc hbuilt.frame.ids) with
        ⟨hknown', s₂, hrun', hbuilt'⟩ | ⟨hunknown, e, s₂, hrun'⟩
      · refine .inl ⟨List.forall_mem_cons.2 ⟨hknown, hknown'⟩, s₂, ?_, ?_⟩
        · rw [Fallible.bind_run_ok hrun', Fallible.pure_run, childIds, hlength]
        · rw [childNodes, ← hlength]
          exact hbuilt.append hbuilt'
      · refine .inr ⟨fun hall => hunknown (List.forall_mem_cons.1 hall).2, e, s₂, ?_⟩
        rw [Fallible.bind_run_error hrun']
    · refine .inr ⟨fun hall => hunknown (hall child (by simp)), e, s₁, ?_⟩
      rw [Fallible.bind_run_error hrun]

/-- Splitting what matches two lists one after the other. -/
theorem exists_append_of_forall₂ {α β : Type} {R : α → β → Prop} {xs ys : List α} {zs : List β}
    (h : List.Forall₂ R (xs ++ ys) zs) :
    ∃ zs₁ zs₂, zs = zs₁ ++ zs₂ ∧ List.Forall₂ R xs zs₁ ∧ List.Forall₂ R ys zs₂ := by
  induction xs generalizing zs with
  | nil => exact ⟨[], zs, rfl, .nil, h⟩
  | cons x xs ih =>
    cases h with
    | cons hx hxs =>
    obtain ⟨zs₁, zs₂, rfl, h₁, h₂⟩ := ih hxs
    exact ⟨_ :: zs₁, zs₂, rfl, .cons hx h₁, h₂⟩

variable (context unknown data index)

/-- The declared attributes of a compiled layout give a widget its look, and it is told how they
fared; what is left are the children. -/
theorem applyAttributes_declared {source : LayoutSource} {l : Layout} {below : List Layout}
    {t : IdTable} (hdescribes : source.Describes t l below) (ht : t ≤ s.ids) {id : WidgetId}
    {mid : ManagerId} {m : Manager} {k : Kind} {w : Widget} {look : Look}
    (hm : s.Managed id mid m k w look) (viewType : String) :
    ∃ s' w' last,
      Layout.applyAttributes context unknown m.parser viewType id l.attributes s =
        Layout.applyAttributes context unknown m.parser viewType id last s' ∧
      Session.Changes id s w s' w' ∧
      w'.Shows s'.ids k (look.settle k m.data m.index source.declared) ∧
      w'.children = (if source.declared.any k.clears then [] else w.children) ∧
      List.Forall₂ (Attribute.Bears s'.ids) (Layout.asChildren below) last ∧
      (context.verbose = true →
        s.Tells (source.declared.map (k.outcome m.data m.index id viewType)) s') := by
  obtain ⟨own, last, hattributes, hown, hlast⟩ := exists_append_of_forall₂ hdescribes.attributes
  have hplain : ∀ n ∈ source.declared, n.2.IsPlain := by
    intro n hn
    obtain ⟨a, -, rfl⟩ := List.mem_map.1 hn
    exact Value.isPlain_ofJson a.value
  obtain ⟨s', w', hrun, hc, hshows, hchildren, htells⟩ := hm.applyAttributes_run context unknown
    viewType (hown.imp fun _ _ => Attribute.Bears.mono ht) hplain
  refine ⟨s', w', last, ?_, hc, hshows, hchildren,
    hlast.imp fun _ _ => Attribute.Bears.mono (ht.trans hc.touches.ids), htells⟩
  rw [hattributes]
  exact hrun last

/-- A layout whose type has a parser starts as a new widget. The declared attributes give it its
look, and it is told how they fared; what is left are the children. -/
theorem inflate_started {source : LayoutSource} {l : Layout} {below : List Layout}
    (parent : Option WidgetId) {parser : ViewParser} {k : Kind}
    (hget : context.registry.get? source.viewType = some parser)
    (hserves : parser.Serves k s.ids) (hdescribes : source.Describes s.ids l below) :
    ∃ s₁ w₁ s₂ w last,
      l.inflate context unknown data parent index s =
        (do
          Layout.applyAttributes context unknown parser l.viewType ⟨s.widgets.length + 1⟩ last
          return ⟨s.widgets.length + 1⟩ : Engine WidgetId) s₂ ∧
      s.Starts s₁ w₁ ⟨⟨s.widgets.length + 1⟩, l, parser, parent, index, data⟩ ∧
      Session.Changes ⟨s.widgets.length + 1⟩ s₁ w₁ s₂ w ∧
      s₂.Managed ⟨s.widgets.length + 1⟩ ⟨s.managers.length⟩
        ⟨⟨s.widgets.length + 1⟩, l, parser, parent, index, data⟩ k w
        ((Look.initial parent).settle k data index source.declared) ∧
      w.view.parent = parent ∧ w.children = [] ∧
      List.Forall₂ (Attribute.Bears s₂.ids) (Layout.asChildren below) last ∧
      (context.verbose = true →
        s.Tells (source.declared.map (k.outcome data index ⟨s.widgets.length + 1⟩ l.viewType))
          s₂) := by
  rw [← hdescribes.viewType] at hget
  obtain ⟨s₁, w₁, hrun, hstarts, hm₁, hparent, hchildren, htells⟩ :=
    Layout.inflate_managed context unknown data parent index hget hserves
  obtain ⟨s₂, w₂, last, hrun₂, hc, hshows₂, hchildren₂, hlast, htells₂⟩ :=
    applyAttributes_declared context unknown hdescribes hstarts.frame.ids hm₁ l.viewType
  refine ⟨s₁, w₁, s₂, w₂, last, ?_, hstarts, hc, hm₁.changes hc hshows₂, hc.parent.trans hparent,
    ?_, hlast, fun hverbose => htells.trans (htells₂ hverbose)⟩
  · rw [hrun, Fallible.bind_run, hrun₂, ← Fallible.bind_run]
  · rw [hchildren₂, hchildren]
    split <;> rfl

/-- Where the children are not for the widget, or there are none, nothing happens after the declared
attributes. -/
theorem applyAttributes_ignored {below : List Layout} {id : WidgetId} {mid : ManagerId}
    {m : Manager} {k : Kind} {w : Widget} {look : Look} (hnone : k ≠ .container ∨ below = [])
    (hm : s.Managed id mid m k w look) {last : List Attribute}
    (hlast : List.Forall₂ (Attribute.Bears s.ids) (Layout.asChildren below) last)
    (viewType : String) :
    ∃ log,
      Layout.applyAttributes context unknown m.parser viewType id last s =
        (.ok (), { s with log := log }) ∧
      (context.verbose = true →
        s.Tells ((Layout.asChildren below).map fun named =>
          ⟨id, viewType, named.1, named.2.text, false⟩) { s with log := log }) := by
  cases below with
  | nil =>
    cases hlast
    exact ⟨s.log, rfl, fun _ => .refl s⟩
  | cons l' more =>
    have hne : k ≠ .container := hnone.resolve_right (List.cons_ne_nil l' more)
    obtain ⟨a, hid, rfl⟩ := Layout.exists_of_bears_asChildren hlast
    obtain ⟨log, htells, hlog⟩ := Layout.applyAttributes_cons viewType
      (hm.applyChildren_of_ne context unknown (l' :: more) hid hne)
    rw [Session.attributeName_of_get? hid] at htells
    exact ⟨log, hlog [], htells⟩

/-- Where nothing is inflated below, nothing happens after the declared attributes. -/
theorem applyAttributes_last {source : LayoutSource} {l : Layout} {below : List Layout}
    {t : IdTable} (hdescribes : source.Describes t l below) (hinflated : source.inflated = [])
    {id : WidgetId} {mid : ManagerId} {m : Manager} {k : Kind} {w : Widget} {look : Look}
    (hk : Kind.ofType? source.viewType = some k) (hm : s.Managed id mid m k w look)
    {last : List Attribute}
    (hlast : List.Forall₂ (Attribute.Bears s.ids) (Layout.asChildren below) last)
    (viewType : String) :
    ∃ log, Layout.applyAttributes context unknown m.parser viewType id last s =
      (.ok (), { s with log := log }) := by
  have hnone : k ≠ .container ∨ below = [] := by
    by_cases hne : k = .container
    · subst hne
      rw [inflated, if_pos hk] at hinflated
      have hchildren := hdescribes.children
      rw [hinflated] at hchildren
      exact .inr (List.forall₂_nil_left_iff.1 hchildren)
    · exact .inl hne
  obtain ⟨log, hlog, -⟩ := applyAttributes_ignored context unknown hnone hm hlast viewType
  exact ⟨log, hlog⟩

/-- Where the children of a source inflate, applying the attributes of its layout to a new widget
furnishes the widget if all types below are the engine's own, and fails otherwise. -/
theorem applyAttributes_furnishes {source : LayoutSource} {l : Layout} {below : List Layout}
    {id : WidgetId} {mid : ManagerId} {m : Manager} {k : Kind} {w : Widget} {look : Look}
    (ih : ∀ child ∈ source.children, child.Inflates context unknown m.data m.index)
    (hk : Kind.ofType? source.viewType = some k) (hoffers : context.registry.Offers s.ids)
    (hdescribes : source.Describes s.ids l below) (hm : s.Managed id mid m k w look)
    (hnone : w.children = []) (viewType : String) :
    ((∀ child ∈ source.inflated, child.Known) ∧ ∃ s' w',
      Layout.applyAttributes context unknown m.parser viewType id l.attributes s = (.ok (), s') ∧
      s.Furnished s' source id mid m k look w w') ∨
    ((¬∀ child ∈ source.inflated, child.Known) ∧ ∃ e s',
      Layout.applyAttributes context unknown m.parser viewType id l.attributes s =
        (.error e, s')) := by
  obtain ⟨s₁, w₁, last, hrun, hc, hshows, hchildren, hlast, -⟩ :=
    applyAttributes_declared context unknown hdescribes (le_refl _) hm viewType
  have hm₁ := hm.changes hc hshows
  rw [hnone, ite_self] at hchildren
  -- Layouts under a widget that takes no children are left out, whatever types they are of.
  by_cases hinflated : source.inflated = []
  · obtain ⟨log, hlog⟩ :=
      applyAttributes_last context unknown hdescribes hinflated hk hm₁ hlast viewType
    have hc₂ := hc.withLog log
    refine .inl ⟨by simp [hinflated], { s₁ with log := log }, w₁, hrun.trans hlog, ?_⟩
    refine ⟨hc₂.touches.frame, ?_, ?_, hm₁.withLog log, hc.parent, ?_, ?_⟩
    · rw [hinflated]
      exact hc₂.touches.length
    · rw [hinflated, hc₂.touches.managers]
      rfl
    · rw [hinflated]
      exact hchildren
    · rw [hinflated]
      nofun
  · obtain ⟨rfl, hsame⟩ := container_of_inflated_ne hk hinflated
    obtain ⟨l', more, rfl⟩ : ∃ l' more, below = l' :: more := by
      cases below with
      | nil =>
        exact absurd (hsame.trans (List.forall₂_nil_right_iff.1 hdescribes.children)) hinflated
      | cons l' more => exact ⟨l', more, rfl⟩
    obtain ⟨a, hid, rfl⟩ := Layout.exists_of_bears_asChildren hlast
    have happly := hm₁.applyChildren_eq context unknown (l' :: more) hid rfl
    have hbelow := hdescribes.children
    rw [← hsame] at ih hbelow
    rcases inflateAll_run id (hoffers.mono hc.touches.ids) ih
      (hbelow.imp fun _ _ hc' => compile_of_le hc' hc.touches.ids) with
      ⟨hknown, s₂, hrun₂, hbuilt⟩ | ⟨hunknown, e, s₂, hrun₂⟩
    · rw [Fallible.bind_run_ok hrun₂, Fallible.bind_run_ok (Engine.change_run _ s₂)] at happly
      obtain ⟨log, -, hlog⟩ := Layout.applyAttributes_cons viewType happly
      exact .inl ⟨hknown, _, _, hrun.trans (hlog []), .of_built hc hm₁ hbuilt log⟩
    · rw [Fallible.bind_run_error hrun₂] at happly
      refine .inr ⟨hunknown, e, s₂, ?_⟩
      rw [hrun, Layout.applyAttributes_of_cons, Fallible.bind_run_error happly]

variable {context unknown data index}

/-- A source inflates if its children do. -/
theorem inflates_of_children
    (hfail : ∀ l data index s, ∃ e s', unknown l data index s = (.error e, s'))
    {source : LayoutSource}
    (ih : ∀ child ∈ source.children, child.Inflates context unknown data index) :
    source.Inflates context unknown data index := by
  intro s l parent hoffers hcompiled
  obtain ⟨below, hdescribes⟩ := describes_of_compile hcompiled
  have htype := hoffers source.viewType
  rw [← hdescribes.viewType] at htype
  cases hk : Kind.ofType? l.viewType with
  | none =>
    rw [hk] at htype
    obtain ⟨e, s', herror⟩ := hfail l data index (s.note (.noParser l.viewType))
    refine .inr ⟨?_, e, s', ?_⟩
    · rintro ⟨htype, -⟩
      rw [← hdescribes.viewType, hk] at htype
      cases htype
    · rw [Layout.inflate_of_none unknown data parent index htype s]
      exact herror
  | some k =>
    rw [hk] at htype
    rw [hdescribes.viewType] at hk
    obtain ⟨parser, hget, hserves⟩ := htype
    obtain ⟨s₁, w₁, hrun, hstarts, hm, hparent, hnone, -⟩ :=
      Layout.inflate_managed context unknown data parent index hget hserves
    rw [← hstarts.ids] at hoffers hdescribes hcompiled
    rcases applyAttributes_furnishes context unknown ih hk hoffers hdescribes hm hnone
      l.viewType with
      ⟨hknown, s₂, w₂, hrun₂, h⟩ | ⟨hunknown, e, s₂, hrun₂⟩
    · refine .inl ⟨⟨hk, hknown⟩, s₂, ?_, ?_⟩
      · rw [hrun, Fallible.bind_run_ok hrun₂, Fallible.pure_run]
      · exact h.built hstarts hk (compile_of_le hcompiled h.frame.ids) hparent
    · refine .inr ⟨?_, e, s₂, ?_⟩
      · rintro ⟨-, hchildren⟩
        exact hunknown hchildren
      · rw [hrun, Fallible.bind_run_error hrun₂]

/-- Where no host answers for unknown types, what a source is compiled to inflates to the widgets of
its nodes, or not at all. -/
theorem inflates (hfail : ∀ l data index s, ∃ e s', unknown l data index s = (.error e, s'))
    (source : LayoutSource) : source.Inflates context unknown data index := by
  induction source using induction with
  | step source ih => exact inflates_of_children hfail ih

end LayoutSource

/-! ## Inflation in a context -/

namespace Context

variable {context : Context} {s s' : Session}

/-- The parsers are the engine's own, and there is no host to ask about other types. -/
structure HasOwnParsers (context : Context) (t : IdTable) : Prop where
  registry : context.registry.IsOwn t
  fallback : context.fallback = none

/-- A context with the engine's own parsers offers its types. -/
theorem HasOwnParsers.offers {t : IdTable} (h : context.HasOwnParsers t) :
    context.registry.Offers t := h.registry.offers

/-- Without a host to ask, a type without parser makes inflation fail. -/
theorem unknown_of_no_fallback (h : context.fallback = none) (budget : Nat) (l : Layout)
    (data : Fields) (index : Int) (s : Session) :
    context.unknown budget l data index s = (.error (.unresolvedType l.viewType), s) := by
  cases budget <;> simp only [unknown, h] <;> rfl

/-- What a source is compiled to, once compiled, inflates to the widgets of its nodes if all types
are the engine's own, and not at all otherwise. -/
theorem inflate_run (hcontext : context.HasOwnParsers s.ids) {source : LayoutSource} {l : Layout}
    (hcompiled : source.compile s.ids = (.ok l, s.ids)) (data : Fields)
    (parent : Option WidgetId) (index : Int) :
    (source.Known ∧ ∃ s',
      context.inflate l data parent index s = (.ok ⟨s.widgets.length + 1⟩, s') ∧
      s.Built s' data index (source.nodes parent (s.widgets.length + 1))) ∨
    (¬source.Known ∧ ∃ e s', context.inflate l data parent index s = (.error e, s')) :=
  LayoutSource.inflates
    (fun l data index s => ⟨_, _, unknown_of_no_fallback hcontext.fallback _ l data index s⟩) source
    hcontext.offers hcompiled

/-- What an inflation that succeeds has made. -/
theorem built_of_inflate (hcontext : context.HasOwnParsers s.ids) {source : LayoutSource}
    {l : Layout} (hcompiled : source.compile s.ids = (.ok l, s.ids)) {data : Fields}
    {parent : Option WidgetId} {index : Int} {root : WidgetId}
    (hrun : context.inflate l data parent index s = (.ok root, s')) :
    source.Known ∧ root = ⟨s.widgets.length + 1⟩ ∧
      s.Built s' data index (source.nodes parent (s.widgets.length + 1)) := by
  rcases inflate_run hcontext hcompiled data parent index with
    ⟨hknown, s₁, hok, hbuilt⟩ | ⟨-, e, s₁, herror⟩
  · rw [hrun] at hok
    cases hok
    exact ⟨hknown, rfl, hbuilt⟩
  · rw [hrun] at herror
    cases herror

/-- The engine's own parsers, registered first of all, and nothing else. -/
def own : Context := ⟨(Registry.withBuiltins .empty).1, .empty, none, false⟩

/-- The names that registering the engine's own parsers numbers. -/
def ownIds : IdTable := (Registry.withBuiltins .empty).2

/-- The context with the engine's own parsers and nothing else. -/
theorem own_hasOwnParsers {t : IdTable} (h : ownIds ≤ t) : own.HasOwnParsers t :=
  ⟨⟨.empty, rfl, h⟩, rfl⟩

/-- A container whose own attribute for children is empty, with a text whose child nobody sees. -/
def titledForm : LayoutSource :=
  ⟨"relative-layout", [⟨"children", .array []⟩, ⟨" padding ", .int 4⟩],
    [⟨"text", [⟨"text", .string "@{title}"⟩], [⟨"view", [], []⟩]⟩, ⟨"view", [], []⟩]⟩

end Context

end LayoutEngine
