import LayoutEngine.Proofs.Effect
import LayoutEngine.Proofs.Inflation
import LayoutEngine.Proofs.Living
import LayoutEngine.Session.Update
import Mathlib.Algebra.Order.Ring.Nat

/-!
# Updating an inflated tree

An update of the manager at the root of an inflated tree walks through the nodes of the source: each
gets the new data and its bound attributes applied again, and nothing else in the session changes
(`LayoutSource.updates`). The answer is the sum of what the nodes accept.
-/

namespace LayoutEngine

/-! ## New data for a manager -/

namespace Session

variable {s : Session} {id : WidgetId} {mid : ManagerId} {m : Manager} {k : Kind} {w : Widget}
  {look : Look}

/-- The manager has the data that are set. -/
theorem manager?_setData_self (h : s.manager? mid = some m) (data : Fields) :
    (s.setData mid data).manager? mid = some { m with data := data } := by
  rw [manager?] at h
  simp [setData, manager?, h]

/-- Other managers keep theirs. -/
theorem manager?_setData_of_ne {other : ManagerId} (h : other ≠ mid) (data : Fields)
    (s : Session) : (s.setData mid data).manager? other = s.manager? other := by
  obtain ⟨n⟩ := mid
  obtain ⟨n'⟩ := other
  have hne : n ≠ n' := by
    rintro rfl
    exact h rfl
  simp [setData, manager?, hne]

/-- There is nothing to change about a manager that is not there. -/
theorem setData_of_none (h : s.manager? mid = none) (data : Fields) : s.setData mid data = s := by
  have hle : s.managers.length ≤ mid.number := List.getElem?_eq_none_iff.1 h
  rw [setData, List.modify_eq_self hle]

/-- A managed widget is still managed when its manager has other data. -/
theorem Managed.setData (h : s.Managed id mid m k w look) (data : Fields) :
    (s.setData mid data).Managed id mid { m with data := data } k w look :=
  ⟨h.widget, h.manager, manager?_setData_self h.managed data, h.serves, h.shows⟩

/-- Setting data changes one manager alone. -/
theorem frame_setData (h : s.manager? mid = some m) (data : Fields) :
    Frame noWidget (· = m.widget) s (s.setData mid data) := by
  refine ⟨le_refl s.ids, fun _ _ _ hw => hw, fun other m' hne hm' => ?_, fun _ _ _ _ => rfl⟩
  have hother : other ≠ mid := by
    rintro rfl
    rw [h] at hm'
    cases hm'
    exact hne rfl
  rw [manager?_setData_of_ne hother, hm']

end Session

/-- Children are not bound. -/
theorem Look.bound_append_asChildren (named : List (String × Value)) (below : List Layout) :
    bound (named ++ Layout.asChildren below) = bound named := by
  rw [bound, List.filter_append, ← bound]
  cases below <;> exact List.append_nil _

/-! ## One node -/

namespace Node

/-- How many bound attributes of a node are accepted in data. -/
def acceptedIn (data : Fields) (index : Int) (node : Node) : Nat :=
  match Kind.ofType? node.source.viewType with
  | some k => (Look.bound node.source.declared).countP (k.accepts data index)
  | none => 0

/-- A look in which a node's bound attributes have been applied again. -/
def relook (data : Fields) (index : Int) (node : Node) (look : Kind → Look) (k : Kind) : Look :=
  (look k).settle k data index (Look.bound node.source.declared)

variable (context : Context) {s : Session} {data : Fields} {index : Int} {node : Node}
  {look : Kind → Look}

/-- The widget that a node stands for has a manager. -/
theorem Stands.exists_manager (h : node.Stands s data index look) :
    ∃ mid, (s.widget? node.id).bind (·.manager) = some mid := by
  obtain ⟨k, mid, l, parser, w, h⟩ := h
  rw [h.managed.widget]
  exact ⟨mid, h.managed.manager⟩

/-- A node's manager gets new data, and its bound attributes are applied again. -/
theorem Stands.rebind (h : node.Stands s data index look) (data' : Fields) :
    ∃ mid m s', (s.widget? node.id).bind (·.manager) = some mid ∧
      (s.setData mid data').manager? mid = some m ∧ m.widget = node.id ∧
      context.applyBoundBy context.host m.parser node.id m.layout.attributes (s.setData mid data') =
        (.ok (node.acceptedIn data' index), s') ∧
      node.Stands s' data' index (node.relook data' index look) ∧
      Session.Frame (· = node.id) (· = node.id) s s' := by
  obtain ⟨k, mid, l, parser, w, h⟩ := h
  obtain ⟨below, hdescribes⟩ := LayoutSource.describes_of_compile h.compiled
  have hm := h.managed.setData data'
  obtain ⟨s', w', hrun, hc, hshows, hchildren⟩ := hm.applyBound_run context hdescribes.attributes
  rw [Look.bound_append_asChildren] at hrun hshows
  refine ⟨mid, _, s', ?_, hm.managed, rfl, ?_, ⟨k, mid, l, parser, w', h.type, ?_,
    hm.changes hc hshows, hc.parent.trans h.parent, hchildren.trans h.children⟩, ?_⟩
  · rw [h.managed.widget]
    exact h.managed.manager
  · rw [acceptedIn, h.type]
    exact hrun
  · exact LayoutSource.compile_of_le h.compiled hc.touches.ids
  · exact ((Session.frame_setData h.managed.managed data').mono (fun _ => False.elim)
      fun _ heq => heq).trans (hc.touches.frame.mono (fun _ heq => heq) fun _ => False.elim)

end Node

/-! ## The walk -/

/-- A widget is one of `count` many from `first` on. -/
def WidgetId.Within (first count : Nat) (id : WidgetId) : Prop :=
  first ≤ id.number ∧ id.number < first + count

/-- A wider range has more numbers. -/
theorem WidgetId.Within.mono {first count first' count' : Nat} {id : WidgetId}
    (h : id.Within first count) (hfirst : first' ≤ first)
    (hlast : first + count ≤ first' + count') : id.Within first' count' :=
  ⟨Nat.le_trans hfirst h.1, Nat.lt_of_lt_of_le h.2 hlast⟩

/-- How many bound attributes of nodes are accepted in data. -/
def acceptedIn (data : Fields) (index : Int) (nodes : List Node) : Nat :=
  (nodes.map (Node.acceptedIn data index)).sum

namespace LayoutSource

variable (context : Context) (alive : WidgetId → Bool) {data data' : Fields} {index : Int}
  {look : Node → Kind → Look}

/-- An update that reaches the root of a source that stands walks through its nodes: each has the
new data and has its bound attributes applied again, and nothing else has changed. -/
def Updates (data data' : Fields) (index : Int) (look : Node → Kind → Look) (fuel : Nat)
    (source : LayoutSource) : Prop :=
  ∀ ⦃s : Session⦄ ⦃parent : Option WidgetId⦄ ⦃n : Nat⦄ ⦃mid : ManagerId⦄,
    (∀ node ∈ source.nodes parent n, node.Stands s data index (look node)) →
    (∀ node ∈ source.nodes parent n, alive node.id = true) →
    (s.widget? ⟨n⟩).bind (·.manager) = some mid →
    ∃ s', context.updateWithinBy context.host alive data' fuel mid s =
        (.ok (acceptedIn data' index (source.nodes parent n)), s') ∧
      Session.Frame (WidgetId.Within n source.extent) (WidgetId.Within n source.extent) s s' ∧
      ∀ node ∈ source.nodes parent n,
        node.Stands s' data' index (node.relook data' index (look node))

variable {context alive}

/-- Children that are updated one after the other accept what their nodes accept, and their nodes
stand as relooked in the new data. -/
theorem sumUpdates_run {fuel : Nat} {children : List LayoutSource} {parent : WidgetId} {n : Nat}
    {s : Session} (h : ∀ child ∈ children, child.Updates context alive data data' index look fuel)
    (hstands : ∀ node ∈ childNodes parent n children, node.Stands s data index (look node))
    (halive : ∀ node ∈ childNodes parent n children, alive node.id = true) :
    ∃ s', Context.sumUpdates (context.updateWithinBy context.host alive data' fuel)
        (childIds n children) s =
          (.ok (acceptedIn data' index (childNodes parent n children)), s') ∧
      Session.Frame (WidgetId.Within n (extents children)) (WidgetId.Within n (extents children))
        s s' ∧
      ∀ node ∈ childNodes parent n children,
        node.Stands s' data' index (node.relook data' index (look node)) := by
  induction children generalizing n s with
  | nil => exact ⟨s, rfl, .refl _ _ s, nofun⟩
  | cons child rest ih =>
    rw [childNodes] at hstands halive ⊢
    obtain ⟨hfirst, hrest⟩ := List.forall_mem_append.1 hstands
    obtain ⟨hfirst', hrest'⟩ := List.forall_mem_append.1 halive
    obtain ⟨mid, hmid⟩ : ∃ mid, (s.widget? ⟨n⟩).bind (·.manager) = some mid := by
      have hroot : ⟨child, some parent, ⟨n⟩⟩ ∈ child.nodes (some parent) n := by
        rw [nodes_eq]
        exact List.mem_cons_self
      exact (hfirst _ hroot).exists_manager
    obtain ⟨s₁, hrun₁, hframe₁, hstands₁⟩ := h child (by simp) hfirst hfirst' hmid
    have hrest₁ : ∀ node ∈ childNodes parent (n + child.extent) rest,
        node.Stands s₁ data index (look node) := by
      intro node hnode
      have hbounds := (bounds_of_mem_childNodes hnode).1
      have hout : ¬WidgetId.Within n child.extent node.id := fun hin => by
        have := hin.2
        omega
      exact (hrest node hnode).frame hframe₁ hout hout
    obtain ⟨s₂, hrun₂, hframe₂, hstands₂⟩ :=
      ih (fun c hc => h c (List.mem_cons_of_mem child hc)) hrest₁ hrest'
    refine ⟨s₂, ?_, ?_, List.forall_mem_append.2 ⟨fun node hnode => ?_, hstands₂⟩⟩
    · rw [childIds, Context.sumUpdates, Fallible.bind_run_ok (Engine.look_run _ s), hmid]
      dsimp only
      rw [Fallible.bind_run_ok hrun₁, Fallible.bind_run_ok hrun₂, Fallible.pure_run, acceptedIn,
        acceptedIn, acceptedIn, List.map_append, List.sum_append]
    · rw [extents]
      exact (hframe₁.mono (fun _ h => h.mono (Nat.le_refl n) (by omega))
        fun _ h => h.mono (Nat.le_refl n) (by omega)).trans
          (hframe₂.mono (fun _ h => h.mono (by omega) (by omega))
            fun _ h => h.mono (by omega) (by omega))
    · have hbounds := (bounds_of_mem_nodes hnode).2
      have hout : ¬WidgetId.Within (n + child.extent) (extents rest) node.id := fun hin => by
        have := hin.1
        omega
      exact (hstands₁ node hnode).frame hframe₂ hout hout

/-- A source is updated if what is inflated below it is: its own bound attributes first, and then
its children. -/
theorem updates_of_children {source : LayoutSource} {fuel : Nat}
    (ih : ∀ child ∈ source.inflated, child.Updates context alive data data' index look fuel) :
    source.Updates context alive data data' index look (fuel + 1) := by
  intro s parent n mid hstands halive hmid
  rw [nodes_eq] at hstands halive ⊢
  obtain ⟨hroot, hbelow⟩ := List.forall_mem_cons.1 hstands
  obtain ⟨hroot', hbelow'⟩ := List.forall_mem_cons.1 halive
  obtain ⟨mid', m, s₁, hmid', hm, hwidget, hrun₁, hstands₁, hframe₁⟩ := hroot.rebind context data'
  obtain rfl : mid = mid' := Option.some.inj (hmid.symm.trans hmid')
  have hbelow₁ : ∀ node ∈ childNodes ⟨n⟩ (n + 1) source.inflated,
      node.Stands s₁ data index (look node) := by
    intro node hnode
    have hne : node.id ≠ ⟨n⟩ := by
      intro heq
      have hbounds := (bounds_of_mem_childNodes hnode).1
      rw [heq] at hbounds
      exact absurd hbounds (Nat.not_succ_le_self n)
    exact (hbelow node hnode).frame hframe₁ hne hne
  obtain ⟨s₂, hrun₂, hframe₂, hstands₂⟩ := sumUpdates_run ih hbelow₁ hbelow'
  have hchildren : s₁.childrenOf ⟨n⟩ = childIds (n + 1) source.inflated := hstands₁.childrenOf
  refine ⟨s₂, ?_, ?_, List.forall_mem_cons.2 ⟨?_, hstands₂⟩⟩
  · rw [Context.updateWithinBy, Fallible.bind_run_ok (Engine.change_run _ s),
      Fallible.bind_run_ok (Engine.look_run _ _), hm]
    dsimp only
    rw [hwidget, if_pos hroot', Fallible.bind_run_ok hrun₁,
      Fallible.bind_run_ok (Engine.look_run _ _)]
    dsimp only
    rw [hchildren, Fallible.bind_run_ok hrun₂, Fallible.pure_run, acceptedIn, acceptedIn,
      List.map_cons, List.sum_cons]
  · rw [extent_eq]
    have hroot : ∀ id : WidgetId, id = ⟨n⟩ →
        id.Within n (1 + extents source.inflated) := by
      rintro id rfl
      exact ⟨Nat.le_refl n, by dsimp only; omega⟩
    exact (hframe₁.mono hroot hroot).trans
      (hframe₂.mono (fun _ h => h.mono (by omega) (by omega))
        fun _ h => h.mono (by omega) (by omega))
  · have hout : ¬WidgetId.Within (n + 1) (extents source.inflated) ⟨n⟩ := fun hin =>
      absurd hin.1 (Nat.not_succ_le_self n)
    exact hstands₁.frame hframe₂ hout hout

/-- A child gets no more widgets than all children. -/
theorem extent_le_of_mem {child : LayoutSource} {children : List LayoutSource}
    (h : child ∈ children) : child.extent ≤ extents children := by
  induction children with
  | nil => cases h
  | cons first rest ih =>
    rw [extents]
    rcases List.mem_cons.1 h with rfl | h
    · omega
    · have := ih h
      omega

/-- An update with enough fuel walks through all nodes. -/
theorem updates (source : LayoutSource) {fuel : Nat} (hfuel : source.extent ≤ fuel) :
    source.Updates context alive data data' index look fuel := by
  induction source using induction generalizing fuel with
  | step source ih =>
    rw [extent_eq] at hfuel
    obtain ⟨fuel, rfl⟩ : ∃ f, fuel = f + 1 := ⟨fuel - 1, by omega⟩
    refine updates_of_children fun child hchild => ih child (inflated_subset source hchild) ?_
    have := extent_le_of_mem hchild
    omega

/-- Every node but the first is a child of another one. -/
theorem mem_children_of_mem_nodes {source : LayoutSource} {parent : Option WidgetId} {n : Nat}
    {node : Node} (h : node ∈ source.nodes parent n) :
    node.id = ⟨n⟩ ∨ ∃ other ∈ source.nodes parent n, node.id ∈ other.children := by
  induction source using induction generalizing parent n node with
  | step source ih =>
    rw [nodes_eq] at h ⊢
    rcases List.mem_cons.1 h with rfl | h
    · exact .inl rfl
    · obtain ⟨child, hchild, id, hid, hnode, hsubset⟩ := exists_of_mem_childNodes h
      rcases ih child (source.inflated_subset hchild) hnode with heq | ⟨other, hother, hmem⟩
      · exact .inr ⟨_, List.mem_cons_self, heq ▸ hid⟩
      · exact .inr ⟨other, List.mem_cons_of_mem _ (hsubset hother), hmem⟩

end LayoutSource

namespace Session

/-- Where the first widget of an inflated source is held, they all live. -/
theorem living_of_stands {s : Session} {source : LayoutSource} {parent : Option WidgetId} {n : Nat}
    {data : Fields} {index : Int} {look : Node → Kind → Look}
    (h : ∀ node ∈ source.nodes parent n, node.Stands s data index (look node))
    {held : List WidgetId} (hheld : ⟨n⟩ ∈ held) {node : Node}
    (hnode : node ∈ source.nodes parent n) : (s.living held).contains node.id = true := by
  rw [List.contains_iff_mem]
  refine mem_living (P := fun id => ∃ node ∈ source.nodes parent n, node.id = id) ?_ ?_
    ⟨node, hnode, rfl⟩
  · rintro _ ⟨node, hnode, rfl⟩
    obtain ⟨k, mid, l, parser, w, hstands⟩ := h node hnode
    rw [hstands.managed.widget]
    rfl
  · rintro _ ⟨node, hnode, rfl⟩
    rcases LayoutSource.mem_children_of_mem_nodes hnode with heq | ⟨other, hother, hmem⟩
    · exact .inl (heq ▸ hheld)
    · refine .inr ⟨other.id, ⟨other, hother, rfl⟩, ?_⟩
      rwa [(h other hother).childrenOf]

end Session

end LayoutEngine
