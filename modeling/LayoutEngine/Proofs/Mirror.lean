import LayoutEngine.Proofs.Inflation
import LayoutEngine.Session.Tree

/-!
# Inflated trees mirror their sources

The tree that inflation makes of a source (`Context.inflate_mirrors`): widget by widget it has the
source's kinds, a container's children and no others, and managers that know their layouts, parents
and data; and a walk through it in preorder meets the widgets in the order of their numbers.
-/

namespace LayoutEngine

namespace Session

/-- A widget and those below it are what a source describes. The widget is of the kind of the
source's type and lies under the parent; its manager has the layout that the source is compiled to,
the parent, the data and the data index; and its children, in order, are what the children of the
source describe if that is a container, while in any other widget there are none. -/
inductive Mirrors (s : Session) (data : Fields) (index : Int) :
    Option WidgetId → LayoutSource → WidgetId → Prop
  | node {parent : Option WidgetId} {source : LayoutSource} {id : WidgetId} {w : Widget}
    {m : Manager}
    (widget : s.widget? id = some w)
    (kind : w.item.kind = source.viewType)
    (under : w.view.parent = parent)
    (managed : s.managerOf? id = some m)
    (manages : m.widget = id)
    (layout : source.compile s.ids = (.ok m.layout, s.ids))
    (managerParent : m.parent = parent)
    (managerData : m.data = data)
    (managerIndex : m.index = index)
    (length : w.children.length = source.inflated.length)
    (children : ∀ (i : Nat) (child : WidgetId) (below : LayoutSource),
      w.children[i]? = some child → source.inflated[i]? = some below →
      Mirrors s data index (some id) below child) :
    Mirrors s data index parent source id

variable {s : Session} {data : Fields} {index : Int}

/-- A source all of whose nodes stand is mirrored. -/
theorem mirrors_of_stands {source : LayoutSource} {parent : Option WidgetId} {n : Nat}
    (h : ∀ node ∈ source.nodes parent n, node.Stands s data index (node.look data index)) :
    s.Mirrors data index parent source ⟨n⟩ := by
  induction source using LayoutSource.induction generalizing parent n with
  | step source ih =>
    rw [LayoutSource.nodes_eq] at h
    obtain ⟨hroot, hbelow⟩ := List.forall_mem_cons.1 h
    obtain ⟨k, mid, l, parser, w, hstands⟩ := hroot
    have hchildren : w.children = LayoutSource.childIds (n + 1) source.inflated :=
      hstands.children
    refine .node hstands.managed.widget ?_ hstands.parent hstands.managed.managerOf? rfl
      hstands.compiled rfl rfl rfl ?_ ?_
    · rw [Kind.kind_of_isItem hstands.managed.shows.item]
      exact Kind.ofType?_eq_some_iff.1 hstands.type
    · rw [hchildren, LayoutSource.length_childIds]
    · intro i child below hchild hbelow'
      rw [hchildren] at hchild
      have hsubset := LayoutSource.nodes_subset_childNodes ⟨n⟩ hbelow' hchild
      refine ih below (source.inflated_subset (List.mem_of_getElem? hbelow'))
        fun node hnode => hbelow node (hsubset hnode)

/-! ## The walk in preorder -/

/-- Walks through the trees of children, one after the other, are the same in all sessions where the
nodes have their children. -/
theorem exists_walks (fuel depth : Nat) (parent : WidgetId) (n : Nat)
    {children : List LayoutSource}
    (h : ∀ child ∈ children, ∀ n, child.extent ≤ fuel → ∃ walk,
      walk.map (·.2) = (child.nodes (some parent) n).map (·.id) ∧
      ∀ s : Session, (∀ node ∈ child.nodes (some parent) n, s.childrenOf node.id = node.children) →
        s.preorderWithin fuel depth ⟨n⟩ = some walk)
    (hfuel : LayoutSource.extents children ≤ fuel) :
    ∃ walks,
      walks.flatten.map (·.2) = (LayoutSource.childNodes parent n children).map (·.id) ∧
      ∀ s : Session,
        (∀ node ∈ LayoutSource.childNodes parent n children,
          s.childrenOf node.id = node.children) →
        (LayoutSource.childIds n children).mapM (s.preorderWithin fuel depth) = some walks := by
  induction children generalizing n with
  | nil => exact ⟨[], rfl, fun _ _ => rfl⟩
  | cons child rest ih =>
    rw [LayoutSource.extents] at hfuel
    obtain ⟨walk, hids, hwalk⟩ := h child (by simp) n (by omega)
    obtain ⟨walks, hids', hwalks⟩ := ih (n + child.extent)
      (fun c hc => h c (List.mem_cons_of_mem child hc)) (by omega)
    refine ⟨walk :: walks, ?_, ?_⟩
    · rw [List.flatten_cons, List.map_append, hids, hids', LayoutSource.childNodes, List.map_append]
    · intro s hnodes
      rw [LayoutSource.childNodes] at hnodes
      have hfirst := hwalk s fun node hnode => hnodes node (List.mem_append_left _ hnode)
      have hrest := hwalks s fun node hnode => hnodes node (List.mem_append_right _ hnode)
      simp [LayoutSource.childIds, hfirst, hrest]

/-- The walk through the widgets of a source is the same in all sessions where the nodes have their
children, and meets the nodes in order. -/
theorem exists_walk (parent : Option WidgetId) (n depth : Nat) {source : LayoutSource} {fuel : Nat}
    (hfuel : source.extent ≤ fuel) :
    ∃ walk, walk.map (·.2) = (source.nodes parent n).map (·.id) ∧
      ∀ s : Session, (∀ node ∈ source.nodes parent n, s.childrenOf node.id = node.children) →
        s.preorderWithin fuel depth ⟨n⟩ = some walk := by
  induction source using LayoutSource.induction generalizing parent n fuel depth with
  | step source ih =>
    rw [LayoutSource.extent_eq] at hfuel
    obtain ⟨fuel, rfl⟩ : ∃ f, fuel = f + 1 := ⟨fuel - 1, by omega⟩
    obtain ⟨walks, hids, hwalks⟩ := exists_walks fuel (depth + 1) ⟨n⟩ (n + 1)
      (fun child hc m hf => ih child (source.inflated_subset hc) (some ⟨n⟩) m (depth + 1) hf)
      (by omega)
    refine ⟨(depth, ⟨n⟩) :: walks.flatten, ?_, ?_⟩
    · rw [List.map_cons, hids, LayoutSource.nodes_eq, List.map_cons]
    · intro s hnodes
      rw [LayoutSource.nodes_eq] at hnodes
      obtain ⟨hroot, hbelow⟩ := List.forall_mem_cons.1 hnodes
      have hroot' : s.childrenOf ⟨n⟩ = LayoutSource.childIds (n + 1) source.inflated := hroot
      rw [preorderWithin, hroot', hwalks s hbelow]
      rfl

/-- A walk through the widgets of a source meets its nodes in order. -/
theorem preorderWithin_of_stands {source : LayoutSource} {parent : Option WidgetId}
    {n fuel depth : Nat}
    (h : ∀ node ∈ source.nodes parent n, s.childrenOf node.id = node.children)
    (hfuel : source.extent ≤ fuel) :
    ∃ walk, s.preorderWithin fuel depth ⟨n⟩ = some walk ∧
      walk.map (·.2) = (source.nodes parent n).map (·.id) := by
  obtain ⟨walk, hids, hwalk⟩ := exists_walk parent n depth hfuel
  exact ⟨walk, hwalk s h, hids⟩

end Session

namespace Context

/-- An inflated tree mirrors its source. Where the parsers are the engine's own and there is no host
to ask, what a source is compiled to inflates, if it does, to a tree that mirrors the source; its
root's manager has the very layout; and the widgets of the tree, in preorder, are the ones that have
been made, numbered one after the other. -/
theorem inflate_mirrors {t t' : IdTable} {source : LayoutSource} {l : Layout}
    (hcompile : source.compile t = (.ok l, t')) {context : Context} {s s' : Session}
    (hcompiled : t' ≤ s.ids) (hcontext : context.HasOwnParsers s.ids) {data : Fields}
    {parent : Option WidgetId} {index : Int} {root : WidgetId}
    (hrun : context.inflate l data parent index s = (.ok root, s')) :
    s'.Mirrors data index parent source root ∧
      (s'.managerOf? root).map (·.layout) = some l ∧
      ∃ walk, s'.preorder? root = some walk ∧
        walk.map (·.2.number) = List.range' (s.widgets.length + 1) walk.length ∧
        s'.widgets.length = s.widgets.length + walk.length := by
  obtain ⟨-, rfl, hbuilt⟩ :=
    built_of_inflate hcontext (LayoutSource.compile_of_le hcompile hcompiled) hrun
  have hlength : s'.widgets.length = s.widgets.length + source.extent := by
    rw [hbuilt.length, LayoutSource.length_nodes]
  have hmirrors := Session.mirrors_of_stands hbuilt.stands
  obtain ⟨walk, hwalk, hids⟩ : ∃ walk, s'.preorder? ⟨s.widgets.length + 1⟩ = some walk ∧
      walk.map (·.2) = (source.nodes parent (s.widgets.length + 1)).map (·.id) :=
    Session.preorderWithin_of_stands
      (fun node hnode => (hbuilt.stands node hnode).childrenOf) (by omega)
  have hwalklength : walk.length = source.extent := by
    rw [← LayoutSource.length_nodes source parent (s.widgets.length + 1)]
    simpa using congrArg List.length hids
  refine ⟨hmirrors, ?_, walk, hwalk, ?_, by rw [hlength, hwalklength]⟩
  · cases hmirrors with
    | @node _ _ _ w m widget kind under managed manages layout =>
    have hagain := LayoutSource.compile_of_le hcompile (hcompiled.trans hbuilt.frame.ids)
    rw [layout] at hagain
    cases hagain
    rw [managed]
    rfl
  · have hnumbers := congrArg (List.map WidgetId.number) hids
    rw [List.map_map, List.map_map] at hnumbers
    rw [hwalklength, ← LayoutSource.numbers_nodes]
    exact hnumbers

/-- The form inflates to a container with two children. -/
theorem inflate_mirrors_titledForm :
    ∃ l t' s',
      titledForm.compile ownIds = (.ok l, t') ∧
      own.inflate l [("title", .string "Hi")] none 3 (.ofIds t') = (.ok ⟨1⟩, s') ∧
      s'.Mirrors [("title", .string "Hi")] 3 none titledForm ⟨1⟩ ∧ s'.widgets.length = 3 := by
  have hrun : Fallible.gives titledForm.compile ownIds (fun l t' =>
      Fallible.gives (own.inflate l [("title", .string "Hi")] none 3) (.ofIds t') fun root s' =>
        decide (root = ⟨1⟩ ∧ s'.widgets.length = 3)) = true := by
    decide +kernel
  obtain ⟨l, t', hcompile, hrun⟩ := Fallible.exists_of_gives hrun
  obtain ⟨root, s', hinflate, hrun⟩ := Fallible.exists_of_gives hrun
  obtain ⟨rfl, hlength⟩ := of_decide_eq_true hrun
  have hle : ownIds ≤ t' := (LayoutSource.stable_compile titledForm hcompile).1
  exact ⟨l, t', s', hcompile, hinflate,
    (inflate_mirrors hcompile (le_refl t') (own_hasOwnParsers hle) hinflate).1, hlength⟩

end Context

end LayoutEngine
