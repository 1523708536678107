import LayoutEngine.Proofs.Compile
import LayoutEngine.Proofs.Kind

/-!
# The nodes of a source

Of a source only the children of containers become widgets. `LayoutSource.nodes` lists what does in
preorder, each node with the widget of its parent and with the number that its own widget gets when
the first one gets a given number: they are numbered one after the other
(`LayoutSource.numbers_nodes`).
-/

namespace LayoutEngine

namespace LayoutSource

/-- The children that become widgets: a container's. -/
def inflated (source : LayoutSource) : List LayoutSource :=
  if Kind.ofType? source.viewType = some .container then source.children else []

mutual

/-- How many widgets a source makes. -/
def extent : LayoutSource → Nat
  | ⟨viewType, _, children⟩ =>
    1 + if Kind.ofType? viewType = some .container then extents children else 0
termination_by structural source => source

/-- How many widgets several sources get. -/
def extents : List LayoutSource → Nat
  | [] => 0
  | child :: rest => extent child + extents rest
termination_by structural children => children

end

end LayoutSource

/-- A source that becomes a widget, with the parent and the number of the widget. -/
structure Node where
  source : LayoutSource
  parent : Option WidgetId
  id : WidgetId

namespace LayoutSource

mutual

/-- The nodes of a source in preorder, numbered from `n` on. -/
def nodes (parent : Option WidgetId) (n : Nat) : LayoutSource → List Node
  | ⟨viewType, attributes, children⟩ =>
    ⟨⟨viewType, attributes, children⟩, parent, ⟨n⟩⟩ ::
      if Kind.ofType? viewType = some .container then childNodes ⟨n⟩ (n + 1) children else []
termination_by structural source => source

/-- The nodes of children, one child after the other. -/
def childNodes (parent : WidgetId) (n : Nat) : List LayoutSource → List Node
  | [] => []
  | child :: rest => nodes (some parent) n child ++ childNodes parent (n + child.extent) rest
termination_by structural children => children

end

/-- The widgets of children, numbered from `n` on. -/
def childIds (n : Nat) : List LayoutSource → List WidgetId
  | [] => []
  | child :: rest => ⟨n⟩ :: childIds (n + child.extent) rest

/-- All types that become widgets are the engine's own. -/
inductive Known : LayoutSource → Prop
  | mk {source : LayoutSource} {k : Kind} (type : Kind.ofType? source.viewType = some k)
    (children : ∀ child ∈ source.inflated, Known child) : Known source

/-- A source gets a widget, and those of what is inflated below it. -/
theorem extent_eq (source : LayoutSource) : source.extent = 1 + extents source.inflated := by
  obtain ⟨viewType, attributes, children⟩ := source
  rw [extent, inflated]
  split <;> rfl

/-- The nodes of a source are its own and those of what is inflated below it. -/
theorem nodes_eq (parent : Option WidgetId) (n : Nat) (source : LayoutSource) :
    source.nodes parent n = ⟨source, parent, ⟨n⟩⟩ :: childNodes ⟨n⟩ (n + 1) source.inflated := by
  obtain ⟨viewType, attributes, children⟩ := source
  rw [nodes, inflated]
  split <;> rfl

/-- Only children are inflated below a source. -/
theorem inflated_subset (source : LayoutSource) : source.inflated ⊆ source.children := by
  rw [inflated]
  split
  · exact List.Subset.refl _
  · exact List.nil_subset _

/-- Only a container's children are inflated. -/
theorem container_of_inflated_ne {source : LayoutSource} {k : Kind}
    (hk : Kind.ofType? source.viewType = some k) (h : source.inflated ≠ []) :
    k = .container ∧ source.inflated = source.children := by
  rw [inflated] at h ⊢
  split at h
  · next htype =>
    rw [hk] at htype
    exact ⟨Option.some.inj htype, if_pos (hk.trans htype)⟩
  · exact absurd rfl h

/-- Children get their numbers one after the other. -/
theorem numbers_childNodes {parent : WidgetId} {children : List LayoutSource}
    (h : ∀ child ∈ children, ∀ parent n,
      (child.nodes parent n).map (·.id.number) = List.range' n child.extent) (n : Nat) :
    (childNodes parent n children).map (·.id.number) = List.range' n (extents children) := by
  induction children generalizing n with
  | nil => rfl
  | cons child rest ih =>
    rw [childNodes, List.map_append, h child (by simp),
      ih (fun c hc => h c (List.mem_cons_of_mem child hc)), extents, List.range'_append_1]

/-- The widgets of a source are numbered one after the other. -/
theorem numbers_nodes (source : LayoutSource) (parent : Option WidgetId) (n : Nat) :
    (source.nodes parent n).map (·.id.number) = List.range' n source.extent := by
  induction source using induction generalizing parent n with
  | step source ih =>
    rw [nodes_eq, List.map_cons, extent_eq, Nat.add_comm 1, List.range'_succ,
      numbers_childNodes fun child hc => ih child (inflated_subset source hc)]

@[simp] theorem length_nodes (source : LayoutSource) (parent : Option WidgetId) (n : Nat) :
    (source.nodes parent n).length = source.extent := by
  have h := congrArg List.length (numbers_nodes source parent n)
  simpa using h

@[simp] theorem length_childNodes (parent : WidgetId) (n : Nat) (children : List LayoutSource) :
    (childNodes parent n children).length = extents children := by
  have hnumbers : (childNodes parent n children).map (·.id.number) = _ :=
    numbers_childNodes (fun child _ => numbers_nodes child) n
  simpa using congrArg List.length hnumbers

/-- The numbers of the nodes of a source lie in one range. -/
theorem bounds_of_mem_nodes {source : LayoutSource} {parent : Option WidgetId} {n : Nat}
    {node : Node} (h : node ∈ source.nodes parent n) :
    n ≤ node.id.number ∧ node.id.number < n + source.extent := by
  have hmem := List.mem_map_of_mem (f := fun node : Node => node.id.number) h
  rw [numbers_nodes] at hmem
  exact List.mem_range'_1.1 hmem

/-- So do those of the nodes of children. -/
theorem bounds_of_mem_childNodes {parent : WidgetId} {n : Nat} {children : List LayoutSource}
    {node : Node} (h : node ∈ childNodes parent n children) :
    n ≤ node.id.number ∧ node.id.number < n + extents children := by
  have hmem := List.mem_map_of_mem (f := fun node : Node => node.id.number) h
  rw [numbers_childNodes fun child _ => numbers_nodes child] at hmem
  exact List.mem_range'_1.1 hmem

@[simp] theorem length_childIds (n : Nat) (children : List LayoutSource) :
    (childIds n children).length = children.length := by
  induction children generalizing n with
  | nil => rfl
  | cons child rest ih => simp [childIds, ih]

/-- The nodes of a child are among those of all children. -/
theorem nodes_subset_childNodes (parent : WidgetId) {children : List LayoutSource} {n i : Nat}
    {child : LayoutSource} {id : WidgetId} (hchild : children[i]? = some child)
    (hid : (childIds n children)[i]? = some id) :
    child.nodes (some parent) id.number ⊆ childNodes parent n children := by
  induction children generalizing n i with
  | nil => cases hchild
  | cons first rest ih =>
    rw [childNodes]
    cases i with
    | zero =>
      cases hchild
      cases hid
      exact List.subset_append_left _ _
    | succ i => exact List.Subset.trans (ih hchild hid) (List.subset_append_right _ _)

/-- The sources that become widgets, in preorder. -/
def sources (source : LayoutSource) : List LayoutSource := (source.nodes none 0).map (·.source)

/-- Where children stand makes no difference to what they are. -/
theorem map_source_childNodes {children : List LayoutSource}
    (h : ∀ child ∈ children, ∀ parent n parent' n',
      (child.nodes parent n).map (·.source) = (child.nodes parent' n').map (·.source))
    (parent parent' : WidgetId) (n n' : Nat) :
    (childNodes parent n children).map (·.source) =
      (childNodes parent' n' children).map (·.source) := by
  induction children generalizing n n' with
  | nil => rfl
  | cons child rest ih =>
    rw [childNodes, childNodes, List.map_append, List.map_append,
      h child (by simp) (some parent) n (some parent') n',
      ih (fun c hc => h c (List.mem_cons_of_mem child hc))]

/-- What becomes widgets does not depend on their numbers. -/
theorem map_source_nodes (source : LayoutSource) (parent : Option WidgetId) (n : Nat) :
    (source.nodes parent n).map (·.source) = source.sources := by
  rw [sources]
  generalize (none : Option WidgetId) = parent'
  generalize 0 = n'
  induction source using induction generalizing parent n parent' n' with
  | step source ih =>
    rw [nodes_eq, nodes_eq, List.map_cons, List.map_cons,
      map_source_childNodes (fun child hmem p m p' m' =>
        ih child (inflated_subset source hmem) p m p' m') ⟨n⟩ ⟨n'⟩]

/-- A node of children is a node of one of them. -/
theorem exists_of_mem_childNodes {parent : WidgetId} {children : List LayoutSource} {n : Nat}
    {node : Node} (h : node ∈ childNodes parent n children) :
    ∃ child ∈ children, ∃ id ∈ childIds n children,
      node ∈ child.nodes (some parent) id.number ∧
        child.nodes (some parent) id.number ⊆ childNodes parent n children := by
  induction children generalizing n with
  | nil => cases h
  | cons first rest ih =>
    rw [childNodes] at h ⊢
    rcases List.mem_append.1 h with h | h
    · exact ⟨first, by simp, ⟨n⟩, by simp [childIds], h, List.subset_append_left _ _⟩
    · obtain ⟨child, hchild, id, hid, hnode, hsubset⟩ := ih h
      exact ⟨child, List.mem_cons_of_mem first hchild, id, List.mem_cons_of_mem _ hid, hnode,
        List.Subset.trans hsubset (List.subset_append_right _ _)⟩

end LayoutSource

/-- The widgets of a node's children. -/
def Node.children (node : Node) : List WidgetId :=
  LayoutSource.childIds (node.id.number + 1) node.source.inflated

end LayoutEngine
