import LayoutEngine.Proofs.Failure
import LayoutEngine.Proofs.Forest

/-!
# The outcome of an inflation

What inflating a compiled source comes to where the parsers are the engine's own, perhaps under
further names, whatever is done about other types, as long as it answers by type
(`UnknownType.AnswersByType`). Of a source the nodes are reached that `LayoutSource.reached` lists
in preorder: the children of a node are reached only if its type stands for the parser of
containers. Nodes become widgets in this order (`Session.Visits`), up to the first one for whose
type there is neither a parser nor a widget of the host's (`Session.Stops`). If there is none, the
inflation succeeds with a tree of what the nodes have become (`LayoutSource.Renders`); otherwise it
fails, and nothing has been done for the nodes after that one (`LayoutSource.comesOut`, and
`Context.inflate_outcome` for what a context has).
-/

namespace LayoutEngine

open Session

/-! ## Reached nodes -/

/-- A type stands for the engine's parser of containers. -/
def Registry.holdsChildren (viewType : String) (registry : Registry) : Bool :=
  (registry.get? viewType).any (·.typeName = Kind.container.typeName)

namespace LayoutSource

/-- The children that are reached with a node. -/
def reachedChildren (registry : Registry) (source : LayoutSource) : List LayoutSource :=
  if registry.holdsChildren source.viewType then source.children else []

mutual

/-- The nodes that are reached, in preorder. -/
def reached (registry : Registry) : LayoutSource → List LayoutSource
  | ⟨viewType, attributes, children⟩ =>
    ⟨viewType, attributes, children⟩ ::
      if registry.holdsChildren viewType then reachedAll registry children else []
termination_by structural source => source

/-- The nodes of several sources that are reached, in order. -/
def reachedAll (registry : Registry) : List LayoutSource → List LayoutSource
  | [] => []
  | child :: rest => reached registry child ++ reachedAll registry rest
termination_by structural children => children

end

variable {registry : Registry}

/-- A source is reached first, and then what is reached with it. -/
theorem reached_eq (registry : Registry) (source : LayoutSource) :
    source.reached registry = source :: reachedAll registry (source.reachedChildren registry) := by
  obtain ⟨viewType, attributes, children⟩ := source
  rw [reached, reachedChildren]
  split <;> rfl

/-- A node of a type without parser has nothing below it that would be reached. -/
theorem reachedChildren_of_none {source : LayoutSource} (h : registry.get? source.viewType = none) :
    source.reachedChildren registry = [] := by
  simp [reachedChildren, Registry.holdsChildren, h]

/-- Only containers have something below them that is reached. -/
theorem reachedChildren_eq {source : LayoutSource} {parser : ViewParser} {k : Kind} {t : IdTable}
    (hget : registry.get? source.viewType = some parser) (hserves : parser.Serves k t) :
    source.reachedChildren registry = if k = .container then source.children else [] := by
  have hname : parser.typeName = Kind.container.typeName ↔ k = .container := by
    rw [hserves.typeName]
    cases k <;> decide
  simp [reachedChildren, Registry.holdsChildren, hget, hname]

end LayoutSource

/-! ## What nodes become -/

/-- What is done about unknown types answers by type: whether there is a widget for a layout of a
type that has no parser is told by the type, and if there is none it is told as `denies` says.
Widgets that were there before are left alone. -/
structure UnknownType.AnswersByType (registry : Registry) (denies : String → InflateError → Prop)
    (unknown : UnknownType) : Prop where
  reason : ∃ reason, unknown.FailsByType reason
  leavesOld : unknown.LeavesOld registry
  denies : ∀ {viewType e}, unknown.denial? viewType = some e → denies viewType e

/-- Sources become widgets, in order, on the way from one session to another: one of a type that has
a parser gets a new widget and the widget a manager; for one of another type the host is asked and
has a widget. In between no widgets are made. -/
inductive Session.Visits (context : Context) (unknown : UnknownType) (data : Fields) (index : Int) :
    Session → List LayoutSource → Session → Prop
  | still {s s' : Session} (widgets : s'.widgets.length = s.widgets.length)
    (managers : s'.managers = s.managers) : Visits context unknown data index s [] s'
  | made {s s' : Session} {source : LayoutSource} {l : Layout} {parser : ViewParser} {w : Widget}
    {parent : Option WidgetId} (compiled : source.compile s.ids = (.ok l, s.ids))
    (parser? : context.registry.get? source.viewType = some parser)
    (starts : s.Starts s' w ⟨⟨s.widgets.length + 1⟩, l, parser, parent, index, data⟩) :
    Visits context unknown data index s [source] s'
  | given {s s' : Session} {source : LayoutSource} {l : Layout} {id : WidgetId}
    (compiled : source.compile s.ids = (.ok l, s.ids))
    (parser? : context.registry.get? source.viewType = none)
    (asked : unknown l data index (s.note (.noParser l.viewType)) = (.ok id, s')) :
    Visits context unknown data index s [source] s'
  | trans {s s' s'' : Session} {sources more : List LayoutSource}
    (first : Visits context unknown data index s sources s')
    (next : Visits context unknown data index s' more s'') :
    Visits context unknown data index s (sources ++ more) s''

/-- Sources become widgets up to one of a type that has no parser, for which the host has no widget.
What the host leaves behind then is how it ends. -/
inductive Session.Stops (context : Context) (unknown : UnknownType)
    (denies : String → InflateError → Prop) (data : Fields) (index : Int) (s : Session) :
    List LayoutSource → InflateError → Session → Prop
  | here {s₁ s' : Session} {before after : List LayoutSource} {source : LayoutSource} {l : Layout}
    {e : InflateError}
    (provided : ∀ node ∈ before, unknown.refusal? context.registry node.viewType = none)
    (refused : unknown.refusal? context.registry source.viewType = some e)
    (denied : denies source.viewType e) (visits : s.Visits context unknown data index before s₁)
    (compiled : source.compile s₁.ids = (.ok l, s₁.ids))
    (asked : unknown l data index (s₁.note (.noParser l.viewType)) = (.error e, s')) :
    Stops context unknown denies data index s (before ++ source :: after) e s'

namespace Session

variable {context : Context} {unknown : UnknownType} {denies : String → InflateError → Prop}
  {data : Fields} {index : Int} {s s' s'' : Session}
  {sources more : List LayoutSource} {e : InflateError}

/-- What has become of others before, and that there are others after, is of no matter. -/
theorem Stops.after (h : s'.Stops context unknown denies data index sources e s'')
    (hvisits : s.Visits context unknown data index more s')
    (hprovided : ∀ node ∈ more, unknown.refusal? context.registry node.viewType = none) :
    s.Stops context unknown denies data index (more ++ sources) e s'' := by
  cases h with
  | @here s₁ _ before after source l _ provided refused denied visits compiled asked =>
    rw [← List.append_assoc]
    refine .here ?_ refused denied (.trans hvisits visits) compiled asked
    intro node hnode
    rcases List.mem_append.1 hnode with hnode | hnode
    · exact hprovided node hnode
    · exact provided node hnode

/-- Sources that come later make no difference once it has stopped. -/
theorem Stops.append (h : s.Stops context unknown denies data index sources e s')
    (more : List LayoutSource) :
    s.Stops context unknown denies data index (sources ++ more) e s' := by
  cases h with
  | here provided refused denied visits compiled asked =>
    rw [List.append_assoc]
    exact .here provided refused denied visits compiled asked

/-- Where it has stopped there is no widget for the type. -/
theorem Stops.exists_refused (h : s.Stops context unknown denies data index sources e s') :
    ∃ node ∈ sources, unknown.refusal? context.registry node.viewType = some e := by
  cases h with
  | @here _ _ _ _ source _ _ _ refused _ _ _ _ => exact ⟨source, by simp, refused⟩

end Session

/-- A widget is what a source has become: a widget made for it, newer than the first `base` ones,
whose children are what the children of the source have become, or the one that the host had. The
host's is as the host has left it if it was one of the first `first` widgets or has been made by the
host. -/
inductive LayoutSource.Renders (context : Context) (unknown : UnknownType) (data : Fields)
    (index : Int) (first base : Nat) (s : Session) :
    LayoutSource → Option WidgetId → WidgetId → Prop
  | made {source : LayoutSource} {l : Layout} {parser : ViewParser} {parent : Option WidgetId}
    {id : WidgetId} {w : Widget} (compiled : source.compile s.ids = (.ok l, s.ids))
    (parser? : context.registry.get? source.viewType = some parser) (newer : base < id.number)
    (widget : s.widget? id = some w)
    (manager : s.managerOf? id = some ⟨id, l, parser, parent, index, data⟩)
    (attached : w.view.parent = parent)
    (length : w.children.length = (source.reachedChildren context.registry).length)
    (children : ∀ {i : Nat} {child : LayoutSource} {id' : WidgetId},
      (source.reachedChildren context.registry)[i]? = some child → w.children[i]? = some id' →
        Renders context unknown data index first base s child (some id) id') :
    Renders context unknown data index first base s source parent id
  | given {source : LayoutSource} {l : Layout} {parent : Option WidgetId} {id : WidgetId}
    {s₁ s₂ : Session} (compiled : source.compile s₁.ids = (.ok l, s₁.ids))
    (parser? : context.registry.get? source.viewType = none) (later : base ≤ s₁.widgets.length)
    (asked : unknown l data index s₁ = (.ok id, s₂))
    (unchanged : id.number ≤ first ∨ s₁.widgets.length < id.number →
      ∀ w, s₂.widget? id = some w → s.widget? id = some w) :
    Renders context unknown data index first base s source parent id

namespace LayoutSource

variable {context : Context} {unknown : UnknownType} {denies : String → InflateError → Prop}
  {data : Fields} {index : Int} {first base base' : Nat} {s s' : Session}

/-- What a source has become stays so while only widgets change that were made in between. -/
theorem Renders.frame {T : WidgetId → Prop} (hf : Frame T noWidget s s')
    (hT : ∀ id, T id → first < id.number ∧ id.number ≤ base) (hbase : base' ≤ base)
    {source : LayoutSource} {parent : Option WidgetId} {id : WidgetId}
    (h : source.Renders context unknown data index first base s parent id) :
    source.Renders context unknown data index first base' s' parent id := by
  induction h with
  | @made source l parser parent id w compiled hget newer widget manager attached length children
      ih =>
    have hout : ¬T id := fun hid => Nat.not_le_of_lt newer (hT id hid).2
    have hw := hf.widget? id w hout widget
    obtain ⟨w', mid, hw', hmid, hm⟩ := managerOf?_eq_some_iff.1 manager
    rw [widget] at hw'
    cases hw'
    exact .made (compile_of_le compiled hf.ids) hget (Nat.lt_of_le_of_lt hbase newer) hw
      (managerOf?_eq_some_iff.2 ⟨w, mid, hw, hmid, hf.manager? mid _ (fun hno => hno) hm⟩)
      attached length ih
  | given compiled hget later asked unchanged =>
    refine .given compiled hget (Nat.le_trans hbase later) asked ?_
    intro hkept w hw
    refine hf.widget? _ w ?_ (unchanged hkept w hw)
    intro hid
    obtain ⟨hfirst, hlast⟩ := hT _ hid
    rcases hkept with hle | hlt
    · exact Nat.not_le_of_lt hfirst hle
    · exact Nat.not_le_of_lt hlt (Nat.le_trans hlast later)

variable (context unknown denies data index) in
/-- Inflating what the source is compiled to makes widgets of all nodes that are reached, or fails
at the first one for whose type there is no widget. -/
def ComesOut (source : LayoutSource) : Prop :=
  ∀ ⦃s : Session⦄ ⦃l : Layout⦄ ⦃parent : Option WidgetId⦄ ⦃first : Nat⦄,
    context.registry.Provides s.ids → first ≤ s.widgets.length →
    source.compile s.ids = (.ok l, s.ids) →
    ((∀ node ∈ source.reached context.registry,
        unknown.refusal? context.registry node.viewType = none) ∧
      ∃ root s', l.inflate context unknown data parent index s = (.ok root, s') ∧
        s.Visits context unknown data index (source.reached context.registry) s' ∧
        source.Renders context unknown data index first s.widgets.length s' parent root) ∨
    ∃ e s', l.inflate context unknown data parent index s = (.error e, s') ∧
      s.Stops context unknown denies data index (source.reached context.registry) e s'

variable (hhost : unknown.AnswersByType context.registry denies)
include hhost

/-- Children come out one after the other. -/
theorem comesOut_children (parent : WidgetId) {children : List LayoutSource} {ls : List Layout}
    (hprovides : context.registry.Provides s.ids) (hfirst : first ≤ s.widgets.length)
    (h : ∀ child ∈ children, child.ComesOut context unknown denies data index)
    (hcompiled : List.Forall₂ (fun child l => child.compile s.ids = (.ok l, s.ids)) children ls) :
    ((∀ node ∈ reachedAll context.registry children,
        unknown.refusal? context.registry node.viewType = none) ∧
      ∃ ids s', Value.inflateAll context unknown data parent index (ls.map Value.layout) s =
          (.ok ids, s') ∧
        s.Visits context unknown data index (reachedAll context.registry children) s' ∧
        List.Forall₂ (fun child id => child.Renders context unknown data index first
          s.widgets.length s' (some parent) id) children ids) ∨
    ∃ e s', Value.inflateAll context unknown data parent index (ls.map Value.layout) s =
        (.error e, s') ∧
      s.Stops context unknown denies data index (reachedAll context.registry children) e s' := by
  induction children generalizing s ls with
  | nil =>
    cases hcompiled
    exact .inl ⟨nofun, [], s, rfl, .still rfl rfl, .nil⟩
  | cons child rest ih =>
    cases hcompiled with
    | @cons _ l _ ls hl hls =>
    rw [List.map_cons, Value.inflateAll_of_layout]
    have hkeeps := Context.inflate_keeps hhost.leavesOld hprovides data (some parent) index l
    rcases h child (by simp) hprovides hfirst hl with
      ⟨hprovided, id, s₁, hrun, hvisits, hrenders⟩ | ⟨e, s₁, hrun, hstops⟩
    all_goals rw [hrun] at hkeeps
    · have hprovides₁ := hprovides.mono hkeeps.frame.ids
      have hkeeps₁ := Context.inflateAll_keeps hhost.leavesOld hprovides₁ data parent index
        (ls.map Value.layout)
      rw [Fallible.bind_run_ok hrun]
      rcases ih hprovides₁ (Nat.le_trans hfirst hkeeps.length)
        (fun c hc => h c (List.mem_cons_of_mem child hc))
        (hls.imp fun _ _ hc => compile_of_le hc hkeeps.frame.ids) with
        ⟨hprovided', ids, s₂, hrun', hvisits', hrenders'⟩ | ⟨e, s₂, hrun', hstops⟩
      all_goals rw [hrun'] at hkeeps₁
      · refine .inl ⟨?_, id :: ids, s₂, ?_, .trans hvisits hvisits', .cons ?_ ?_⟩
        · rw [reachedAll]
          exact List.forall_mem_append.2 ⟨hprovided, hprovided'⟩
        · rw [Fallible.bind_run_ok hrun', Fallible.pure_run]
        · exact hrenders.frame hkeeps₁.forget (fun _ => False.elim) (Nat.le_refl _)
        · exact hrenders'.imp fun _ _ hr =>
            hr.frame (.refl noWidget noWidget s₂) (fun _ => False.elim) hkeeps.length
      · refine .inr ⟨e, s₂, ?_, hstops.after hvisits hprovided⟩
        rw [Fallible.bind_run_error hrun']
    · refine .inr ⟨e, s₁, ?_, hstops.append _⟩
      rw [Fallible.bind_run_error hrun]

/-- A node for whose type there is no parser is left to the host. -/
theorem comesOut_of_none {source : LayoutSource}
    (hget : context.registry.get? source.viewType = none) :
    source.ComesOut context unknown denies data index := by
  intro s l parent first hprovides hfirst hcompiled
  obtain ⟨_, hdescribes⟩ := describes_of_compile hcompiled
  have htype : l.viewType = source.viewType := hdescribes.viewType
  have hrefusal : unknown.refusal? context.registry source.viewType =
      unknown.denial? source.viewType := by
    simp [UnknownType.refusal?, Registry.contains, hget]
  have hreached : source.reached context.registry = [source] := by
    rw [reached_eq, reachedChildren_of_none hget, reachedAll]
  have hrun := Layout.inflate_of_none unknown data parent index (htype ▸ hget) s
  obtain ⟨reason, hreason⟩ := hhost.reason
  have hfailure := hreason.failure?_eq_denial? l data index (s.note (.noParser l.viewType))
  rw [hrun, hreached]
  rcases hasked : unknown l data index (s.note (.noParser l.viewType)) with ⟨e | id, s'⟩
  · rw [Engine.failure?_of_error hasked, htype] at hfailure
    have hstops : s.Stops context unknown denies data index ([] ++ source :: []) e s' :=
      .here nofun (hrefusal.trans hfailure.symm) (hhost.denies hfailure.symm)
        (.still rfl rfl) hcompiled hasked
    exact .inr ⟨e, s', rfl, hstops⟩
  · rw [Engine.failure?_of_ok hasked, htype] at hfailure
    refine .inl ⟨?_, id, s', rfl, .given hcompiled hget hasked, ?_⟩
    · intro node hnode
      obtain rfl := List.mem_singleton.1 hnode
      exact hrefusal.trans hfailure.symm
    · have hcompiled' : source.compile (s.note (.noParser l.viewType)).ids = _ := hcompiled
      exact .given hcompiled' hget (Nat.le_refl _) hasked fun _ w hw => hw

/-- What is left once the declared attributes have been applied to the newest widget are the
children: a container's come out, and become its children. -/
theorem comesOut_last {children : List LayoutSource} {below : List Layout} {id : WidgetId}
    {mid : ManagerId} {l : Layout} {parser : ViewParser} {parent : Option WidgetId} {k : Kind}
    {w : Widget} {look : Look} (viewType : String)
    (hm : s.Managed id mid ⟨id, l, parser, parent, index, data⟩ k w look) (hw : w.children = [])
    (hnewest : id.number = s.widgets.length) (hfirst : first < id.number)
    (hprovides : context.registry.Provides s.ids)
    (hcompiled : List.Forall₂ (fun child l => child.compile s.ids = (.ok l, s.ids)) children below)
    {last : List Attribute}
    (hlast : List.Forall₂ (Attribute.Bears s.ids) (Layout.asChildren below) last)
    (ih : ∀ child ∈ children, child.ComesOut context unknown denies data index)
    {reachable : List LayoutSource}
    (hreachable : reachable = if k = .container then children else []) :
    ((∀ node ∈ reachedAll context.registry reachable,
        unknown.refusal? context.registry node.viewType = none) ∧
      ∃ w' s', Layout.applyAttributes context unknown parser viewType id last s = (.ok (), s') ∧
        s.Visits context unknown data index (reachedAll context.registry reachable) s' ∧
        s.ids ≤ s'.ids ∧ s'.Managed id mid ⟨id, l, parser, parent, index, data⟩ k w' look ∧
        w'.view.parent = w.view.parent ∧
        List.Forall₂ (fun child id' => child.Renders context unknown data index first
          s.widgets.length s' (some id) id') reachable w'.children) ∨
    ∃ e s', Layout.applyAttributes context unknown parser viewType id last s = (.error e, s') ∧
      s.Stops context unknown denies data index (reachedAll context.registry reachable) e s' := by
  -- The layouts below are looked at only if there are some and the widget may have children.
  by_cases hnone : k ≠ .container ∨ below = []
  · have hempty : reachable = [] := by
      rcases hnone with hne | rfl
      · rw [hreachable, if_neg hne]
      · rw [hreachable, List.forall₂_nil_right_iff.1 hcompiled, ite_self]
    obtain ⟨log, hlog, -⟩ := applyAttributes_ignored context unknown hnone hm hlast viewType
    rw [hempty]
    refine .inl ⟨nofun, w, _, hlog, .still rfl rfl, le_refl s.ids, hm.withLog log, rfl, ?_⟩
    rw [hw]
    exact .nil
  · obtain ⟨hcontainer, hbelow⟩ := not_or.1 hnone
    obtain rfl : k = .container := not_not.1 hcontainer
    obtain ⟨l', more, rfl⟩ := List.exists_cons_of_ne_nil hbelow
    rw [if_pos rfl] at hreachable
    subst hreachable
    obtain ⟨a, ha, rfl⟩ := Layout.exists_of_bears_asChildren hlast
    have happly := hm.applyChildren_eq context unknown (l' :: more) ha rfl
    -- The widget itself outlasts what its children do, so that they still come to be its own.
    have hkeeps := Context.inflateAll_keeps hhost.leavesOld hprovides data id index
      ((l' :: more).map Value.layout)
    rcases comesOut_children hhost id hprovides (Nat.le_of_lt (hnewest ▸ hfirst)) ih hcompiled with
      ⟨hprovided, ids, s', hrun, hvisits, hrenders⟩ | ⟨e, s', hrun, hstops⟩
    all_goals rw [hrun] at hkeeps
    · rw [Fallible.bind_run_ok hrun, Fallible.bind_run_ok (Engine.change_run _ s')] at happly
      obtain ⟨log, -, hlog⟩ := Layout.applyAttributes_cons viewType happly
      have hm' := hm.frame hkeeps.forget (fun hno => hno) fun hno => hno
      have hc := (hm'.replaceChildren_changes ids).withLog log
      have hstill : Session.Visits context unknown data index s' [] _ :=
        .still hc.touches.length hc.touches.managers
      have hvisits := hvisits.trans hstill
      rw [List.append_nil] at hvisits
      refine .inl ⟨hprovided, _, _, hlog [], hvisits, hkeeps.frame.ids.trans hc.touches.ids,
        hm'.changes hc ((hm'.shows.mono hc.touches.ids).of_eq rfl rfl), rfl, ?_⟩
      refine hrenders.imp fun _ _ hr => hr.frame hc.touches.frame ?_ (Nat.le_refl _)
      rintro _ rfl
      exact ⟨hfirst, Nat.le_of_eq hnewest⟩
    · rw [Fallible.bind_run_error hrun] at happly
      refine .inr ⟨e, s', ?_, hstops⟩
      rw [Layout.applyAttributes_of_cons, Fallible.bind_run_error happly]

/-- A node for whose type there is a parser gets a widget, and a container's children come out after
it. -/
theorem comesOut_of_some {source : LayoutSource} {parser : ViewParser}
    (hget : context.registry.get? source.viewType = some parser)
    (ih : ∀ child ∈ source.children, child.ComesOut context unknown denies data index) :
    source.ComesOut context unknown denies data index := by
  intro s l parent first hprovides hfirst hcompiled
  obtain ⟨k, hserves⟩ := hprovides source.viewType parser hget
  obtain ⟨below, hdescribes⟩ := describes_of_compile hcompiled
  obtain ⟨s₁, w₁, s₂, w, last, hrun, hstarts, hc, hm, hparent, hchildren, hlast, -⟩ :=
    inflate_started context unknown data index parent hget hserves hdescribes
  have hids : s.ids ≤ s₂.ids := (hstarts.frame_of_changes hc).ids
  have hlength : s₂.widgets.length = s.widgets.length + 1 :=
    hc.touches.length.trans hstarts.length
  have hself : ∀ node ∈ [source], unknown.refusal? context.registry node.viewType = none := by
    simp [UnknownType.refusal?, Registry.contains, hget]
  have hmade : s.Visits context unknown data index [source] s₂ :=
    .trans (.made hcompiled hget hstarts) (.still hc.touches.length hc.touches.managers)
  rw [reached_eq]
  rcases comesOut_last hhost l.viewType hm hchildren hlength.symm (Nat.lt_succ_of_le hfirst)
    (hprovides.mono hids) (hdescribes.children.imp fun _ _ hc => compile_of_le hc hids) hlast ih
    (reachedChildren_eq hget hserves) with
    ⟨hprovided, w', s', hlast, hvisits, hids', hm', hparent', hrenders⟩ | ⟨e, s', hlast, hstops⟩
  · refine .inl ⟨List.forall_mem_append.2 ⟨hself, hprovided⟩, ⟨s.widgets.length + 1⟩, s', ?_,
      .trans hmade hvisits, ?_⟩
    · rw [hrun, Fallible.bind_run_ok hlast, Fallible.pure_run]
    · rw [List.forall₂_iff_get] at hrenders
      refine .made (compile_of_le hcompiled (hids.trans hids')) hget (Nat.lt_succ_self _)
        hm'.widget hm'.managerOf? (hparent'.trans hparent) hrenders.1.symm ?_
      intro i child id' hi hi'
      obtain ⟨hlt, rfl⟩ := List.getElem?_eq_some_iff.1 hi
      obtain ⟨hlt', rfl⟩ := List.getElem?_eq_some_iff.1 hi'
      exact (hrenders.2 i hlt hlt').frame (.refl noWidget noWidget s') (fun _ => False.elim)
        (by omega)
  · refine .inr ⟨e, s', ?_, hstops.after hmade hself⟩
    rw [hrun, Fallible.bind_run_error hlast]

/-- Where the parsers are the engine's own, every source comes out. -/
theorem comesOut (source : LayoutSource) : source.ComesOut context unknown denies data index := by
  induction source using induction with
  | step source ih =>
    cases hget : context.registry.get? source.viewType with
    | none => exact comesOut_of_none hhost hget
    | some parser => exact comesOut_of_some hhost hget ih

end LayoutSource

namespace Context

/-- What a context has done about unknown types answers by type. -/
theorem unknown_answersByType {context : Context} (hnew : context.registry.MakesNew) :
    (context.unknown context.layouts.size).AnswersByType context.registry context.Denies where
  reason := exists_unknown_failure hnew context.layouts.size
  leavesOld := context.unknown_leavesOld context.layouts.size
  denies := denies_of_denial?

/-- Where the parsers are the engine's own, perhaps under further names, inflating what a source is
compiled to gives a widget if for the type of every node that is reached there is a parser or a
widget of the host's: the nodes become widgets in order, and the tree is what they have become.
Otherwise the first node without such a type decides how it fails. -/
theorem inflate_outcome {context : Context} {aliases : List (String × String)} {t u u' : IdTable}
    {s : Session}
    (hregistry : context.registry = Setup.registerAliases aliases (Registry.withBuiltins t).1)
    (hids : (Registry.withBuiltins t).2 ≤ s.ids) {source : LayoutSource} {l : Layout}
    (hcompiled : source.compile u = (.ok l, u')) (hu : u' ≤ s.ids) (data : Fields)
    (parent : Option WidgetId) (index : Int) :
    ((∀ node ∈ source.reached context.registry, context.refusal? node.viewType = none) ∧
      ∃ root s', context.inflate l data parent index s = (.ok root, s') ∧
        s.Visits context (context.unknown context.layouts.size) data index
          (source.reached context.registry) s' ∧
        source.Renders context (context.unknown context.layouts.size) data index s.widgets.length
          s.widgets.length s' parent root) ∨
    ∃ e s', context.inflate l data parent index s = (.error e, s') ∧
      s.Stops context (context.unknown context.layouts.size) context.Denies data index
        (source.reached context.registry) e s' := by
  have hprovides : context.registry.Provides (Registry.withBuiltins t).2 := by
    rw [hregistry]
    exact Registry.provides_registerAliases aliases t
  exact LayoutSource.comesOut (unknown_answersByType hprovides.makesNew) source
    (hprovides.mono hids) (Nat.le_refl _) (LayoutSource.compile_of_le hcompiled hu)

/-- A host that has a new view for badges and nothing for other types. -/
def hosted : Context :=
  { aliased with
    fallback := some fun viewType => if viewType = "badge" then .newView else .nothing }

/-- A panel of a text and a badge, each with a child that is not reached, and then a chart. -/
def chartPanel : LayoutSource :=
  ⟨"panel", [], [⟨"text", [], [⟨"dial", [], []⟩]⟩, ⟨"badge", [], [⟨"dial", [], []⟩]⟩,
    ⟨"chart", [], []⟩, ⟨"view", [], []⟩]⟩

/-- It is the chart that a panel with a chart fails at. -/
theorem inflate_outcome_chartPanel :
    ∃ l t' s',
      chartPanel.compile ownIds = (.ok l, t') ∧
      hosted.inflate l [] none noDataIndex (.ofIds t') =
        (.error (.callbackReturnedNothing "chart"), s') ∧
      s'.widgets.length = 3 ∧
      (Session.ofIds t').Stops hosted (hosted.unknown hosted.layouts.size) hosted.Denies []
        noDataIndex (chartPanel.reached hosted.registry) (.callbackReturnedNothing "chart") s' := by
  have hrun : Fallible.gives chartPanel.compile ownIds (fun l t' =>
      Fallible.failsWith (hosted.inflate l [] none noDataIndex) (.ofIds t') fun e s' =>
        decide (e = .callbackReturnedNothing "chart" ∧ s'.widgets.length = 3)) = true := by
    decide +kernel
  obtain ⟨l, t', hcompile, hrun⟩ := Fallible.exists_of_gives hrun
  obtain ⟨e, s', hinflate, hrun⟩ := Fallible.exists_of_failsWith hrun
  obtain ⟨rfl, hlength⟩ := of_decide_eq_true hrun
  have hle : ownIds ≤ (Session.ofIds t').ids := (LayoutSource.stable_compile _ hcompile).1
  refine ⟨l, t', s', hcompile, hinflate, hlength, ?_⟩
  rcases inflate_outcome (rfl : hosted.registry = _) hle hcompile (le_refl t') [] none
    noDataIndex with ⟨-, root, s₁, hok, -⟩ | ⟨e, s₁, herror, hstops⟩
  · have hboth := hinflate.symm.trans hok
    cases hboth
  · have hboth := hinflate.symm.trans herror
    cases hboth
    exact hstops

end Context

end LayoutEngine
