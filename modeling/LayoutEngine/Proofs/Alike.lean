import LayoutEngine.Proofs.Mirror
import LayoutEngine.Proofs.Update
import Mathlib.Algebra.Order.BigOperators.Group.List

/-!
# Updating comes to inflating again

Inflating a source and then updating the root's manager with new data gives the tree that inflating
the source with the new data gives, where no attribute is declared twice and the new data suit all
bound attributes (`Context.update_alike_inflate`). Trees of different sessions are compared widget
by widget (`Session.Alike`): the numbers that views have differ between sessions, so what has to
agree are the names that the numbers stand for, and rules are compared rule by rule.
-/

namespace LayoutEngine

/-! ## Comparing widgets -/

/-- What is related only to itself is equal. -/
theorem eq_of_rel {α : Type} {R : α → α → Prop} (hR : ∀ x y, R x y → x = y) {a b : Option α}
    (h : Option.Rel R a b) : a = b := by
  cases h with
  | none => rfl
  | some h => rw [hR _ _ h]

/-- A relation may be replaced by a weaker one. -/
theorem rel_imp {α : Type} {R R' : α → α → Prop} (hR : ∀ x y, R x y → R' x y) {a b : Option α}
    (h : Option.Rel R a b) : Option.Rel R' a b := by
  cases h with
  | none => exact .none
  | some h => exact .some (hR _ _ h)

/-- Two numbers stand for the view of one name, each in its own table. -/
def SameView (t u : IdTable) (a b : Int) : Prop :=
  ∃ name, t.viewNameOf? a = some name ∧ u.viewNameOf? b = some name

/-- Two anchors are the same, siblings compared by name. -/
inductive RuleAnchor.Alike (t u : IdTable) : RuleAnchor → RuleAnchor → Prop
  | parent : Alike t u .parent .parent
  | sibling {a b : Int} (same : SameView t u a b) : Alike t u (.sibling a) (.sibling b)

/-- Layout parameters are the same, rules compared rule by rule. -/
structure LayoutParams.Alike (t u : IdTable) (p q : LayoutParams) : Prop where
  width : p.width = q.width
  height : p.height = q.height
  rules : ∀ r, Option.Rel (RuleAnchor.Alike t u) (Entries.get? r p.rules) (Entries.get? r q.rules)

/-- Views are the same but for their parents, their own numbers compared by name. -/
structure ViewState.Alike (t u : IdTable) (v v' : ViewState) : Prop where
  id : Option.Rel (SameView t u) v.id v'.id
  params : Option.Rel (LayoutParams.Alike t u) v.params v'.params
  visibility : v.visibility = v'.visibility
  padding : v.padding = v'.padding
  background : v.background = v'.background
  enabled : v.enabled = v'.enabled
  alpha : v.alpha = v'.alpha
  focusable : v.focusable = v'.focusable

/-- Two trees in two sessions are the same: in item, view and the data of their managers, the
widgets' own parents being the given ones, and so are the trees of their children, one by one. -/
inductive Session.Alike (s t : Session) :
    Option WidgetId → Option WidgetId → WidgetId → WidgetId → Prop
  | node {parent parent' : Option WidgetId} {id id' : WidgetId} {w w' : Widget} {m m' : Manager}
    (widget : s.widget? id = some w)
    (widget' : t.widget? id' = some w')
    (item : w.item = w'.item)
    (view : w.view.Alike s.ids t.ids w'.view)
    (under : w.view.parent = parent)
    (under' : w'.view.parent = parent')
    (managed : s.managerOf? id = some m)
    (managed' : t.managerOf? id' = some m')
    (data : m.data = m'.data)
    (index : m.index = m'.index)
    (length : w.children.length = w'.children.length)
    (children : ∀ (i : Nat) (child child' : WidgetId),
      w.children[i]? = some child → w'.children[i]? = some child' →
      Alike s t (some id) (some id') child child') :
    Alike s t parent parent' id id'

/-! ## The same look -/

section

variable {t u : IdTable} {v v' : ViewState} {x : Setting}

/-- Where one setting of the view to anchor at comes of two attributes, the anchors are the same
views. -/
theorem sameView_of_setting? (h : CommonAttribute.setting? t v .id = some x)
    (h' : CommonAttribute.setting? u v' .id = some x) :
    Option.Rel (SameView t u) v.id v'.id := by
  simp only [CommonAttribute.setting?] at h h'
  cases hid : v.id with
  | none =>
    rw [hid] at h
    cases h
    cases hid' : v'.id with
    | none => exact .none
    | some b =>
      rw [hid'] at h'
      obtain ⟨name, -, hx⟩ := Option.map_eq_some_iff.1 h'
      cases hx
  | some a =>
    rw [hid] at h
    obtain ⟨name, hname, rfl⟩ := Option.map_eq_some_iff.1 h
    cases hid' : v'.id with
    | none =>
      rw [hid'] at h'
      cases h'
    | some b =>
      rw [hid'] at h'
      obtain ⟨name', hname', hx⟩ := Option.map_eq_some_iff.1 h'
      cases hx
      exact .some ⟨name, hname, hname'⟩

/-- The anchors of a rule are alike where one setting of it comes of two attributes. -/
theorem sameAnchor_of_setting? {r : RelativeRule}
    (h : CommonAttribute.setting? t v (.rule r) = some x)
    (h' : CommonAttribute.setting? u v' (.rule r) = some x) :
    Option.Rel (RuleAnchor.Alike t u) (Entries.get? r v.placing.rules)
      (Entries.get? r v'.placing.rules) := by
  simp only [CommonAttribute.setting?] at h h'
  generalize Entries.get? r v.placing.rules = anchor at h ⊢
  generalize Entries.get? r v'.placing.rules = anchor' at h' ⊢
  rcases anchor with _ | _ | a <;> rcases anchor' with _ | _ | b
  case none.none => exact .none
  case some.parent.some.parent => exact .some .parent
  case some.sibling.some.sibling =>
    obtain ⟨name, hname, rfl⟩ := Option.map_eq_some_iff.1 h
    obtain ⟨name', hname', hx⟩ := Option.map_eq_some_iff.1 h'
    cases hx
    exact .some (.sibling ⟨name, hname, hname'⟩)
  all_goals cases x <;> simp_all

end

/-- Widgets of a kind with the same look have the same item. -/
theorem Widget.Shows.item_eq {t u : IdTable} {w w' : Widget} {k : Kind} {look : Look}
    (h : w.Shows t k look) (h' : w'.Shows u k look) : w.item = w'.item := by
  have hshell : w.item.shell = w'.item.shell :=
    (Kind.isItem_iff_shell.1 h.item).trans (Kind.isItem_iff_shell.1 h'.item).symm
  refine Widget.item_eq_of_settings (t := t) (u := u) hshell fun p _ => ?_
  by_cases hp : k.Has p
  · rw [h.settings p hp, h'.settings p hp]
  · rw [Property.setting?_of_not_has h.item hp, Property.setting?_of_not_has h'.item hp]

/-- Widgets of a kind with the same look have the same view, but for their parents. -/
theorem Widget.Shows.view_alike {t u : IdTable} {w w' : Widget} {k : Kind} {look : Look}
    (h : w.Shows t k look) (h' : w'.Shows u k look) : w.view.Alike t u w'.view := by
  have hcommon : ∀ a : CommonAttribute, ∃ x,
      a.setting? t w.view = some x ∧ a.setting? u w'.view = some x := fun a =>
    ⟨_, h.settings (.common a) (k.has_common a), h'.settings (.common a) (k.has_common a)⟩
  have hsame : ∀ a : CommonAttribute, a.setting? t w.view = a.setting? u w'.view := fun a => by
    obtain ⟨x, hx, hx'⟩ := hcommon a
    rw [hx, hx']
  have hparams : w.view.params.isSome = w'.view.params.isSome := h.params.trans h'.params.symm
  obtain ⟨x, hx, hx'⟩ := hcommon .id
  refine ⟨sameView_of_setting? hx hx', ?_, ?_, ?_, ?_, ?_, ?_, h.focusable.trans h'.focusable.symm⟩
  · have hplacing : w.view.placing.Alike t u w'.view.placing := by
      refine ⟨?_, ?_, fun r => ?_⟩
      · simpa [CommonAttribute.setting?] using hsame .width
      · simpa [CommonAttribute.setting?] using hsame .height
      · obtain ⟨x, hx, hx'⟩ := hcommon (.rule r)
        exact sameAnchor_of_setting? hx hx'
    unfold ViewState.placing at hplacing
    cases hp : w.view.params <;> cases hp' : w'.view.params <;> rw [hp, hp'] at hparams
    · exact .none
    · cases hparams
    · cases hparams
    · rw [hp, hp'] at hplacing
      exact .some hplacing
  · simpa [CommonAttribute.setting?] using hsame .visibility
  · simpa [CommonAttribute.setting?] using hsame .padding
  · simpa [CommonAttribute.setting?] using hsame .background
  · simpa [CommonAttribute.setting?] using hsame .enabled
  · simpa [CommonAttribute.setting?] using hsame .alpha

/-- Two managed widgets with the same look are the same, and so are their trees if the children are
the widgets of the same sources, in each session, and those are the same one by one. -/
theorem Session.Managed.alike {s t : Session} {id id' : WidgetId} {mid mid' : ManagerId}
    {m m' : Manager} {k : Kind} {w w' : Widget} {look : Look}
    (h : s.Managed id mid m k w look) (h' : t.Managed id' mid' m' k w' look)
    (hdata : m.data = m'.data) (hindex : m.index = m'.index) {children : List LayoutSource}
    {n n' : Nat} (hchildren : w.children = LayoutSource.childIds n children)
    (hchildren' : w'.children = LayoutSource.childIds n' children)
    (hbelow : ∀ below ∈ children, ∀ i i' : Nat,
      below.nodes (some id) i ⊆ LayoutSource.childNodes id n children →
      below.nodes (some id') i' ⊆ LayoutSource.childNodes id' n' children →
      s.Alike t (some id) (some id') ⟨i⟩ ⟨i'⟩) :
    s.Alike t w.view.parent w'.view.parent id id' := by
  refine .node h.widget h'.widget (h.shows.item_eq h'.shows) (h.shows.view_alike h'.shows) rfl rfl
    h.managerOf? h'.managerOf? hdata hindex ?_ fun i child child' hchild hchild' => ?_
  · rw [hchildren, hchildren', LayoutSource.length_childIds, LayoutSource.length_childIds]
  · rw [hchildren] at hchild
    rw [hchildren'] at hchild'
    obtain ⟨below, hmem⟩ : ∃ below, children[i]? = some below := by
      obtain ⟨hlt, -⟩ := List.getElem?_eq_some_iff.1 hchild
      rw [LayoutSource.length_childIds] at hlt
      exact ⟨_, List.getElem?_eq_getElem hlt⟩
    exact hbelow below (List.mem_of_getElem? hmem) child.number child'.number
      (LayoutSource.nodes_subset_childNodes id hmem hchild)
      (LayoutSource.nodes_subset_childNodes id' hmem hchild')

/-- Two trees of one source whose nodes stand with the looks of the same data are the same. -/
theorem Session.alike_of_stands {s t : Session} {data : Fields} {index : Int}
    {source : LayoutSource} {parent parent' : Option WidgetId} {n n' : Nat}
    (h : ∀ node ∈ source.nodes parent n, node.Stands s data index (node.look data index))
    (h' : ∀ node ∈ source.nodes parent' n', node.Stands t data index (node.look data index))
    (hparent : parent.isSome = parent'.isSome) : s.Alike t parent parent' ⟨n⟩ ⟨n'⟩ := by
  induction source using LayoutSource.induction generalizing parent parent' n n' with
  | step source ih =>
    rw [LayoutSource.nodes_eq] at h h'
    obtain ⟨⟨k, mid, l, parser, w, hroot⟩, hbelow⟩ := List.forall_mem_cons.1 h
    obtain ⟨⟨k', mid', l', parser', w', hroot'⟩, hbelow'⟩ := List.forall_mem_cons.1 h'
    obtain rfl : k = k' := Option.some.inj (hroot.type.symm.trans hroot'.type)
    have hlook : Node.look data index ⟨source, parent', ⟨n'⟩⟩ k =
        Node.look data index ⟨source, parent, ⟨n⟩⟩ k := by
      rw [Node.look, Node.look, Look.initial, Look.initial, hparent]
    have hmanaged' := hroot'.managed
    rw [hlook] at hmanaged'
    have halike := hroot.managed.alike hmanaged' rfl rfl hroot.children hroot'.children
      fun below hmem i i' hsubset hsubset' =>
        ih below (source.inflated_subset hmem) (fun node hnode => hbelow node (hsubset hnode))
          (fun node hnode => hbelow' node (hsubset' hnode)) rfl
    rwa [hroot.parent, hroot'.parent] at halike

/-! ## Updating against inflating again -/

namespace LayoutSource

/-- How many bound attributes there are on what becomes widgets. -/
def boundCount (source : LayoutSource) : Nat :=
  (source.sources.map fun below => (Look.bound below.declared).length).sum

/-- Nothing that becomes a widget declares an attribute twice. -/
def DeclaresOnce (source : LayoutSource) : Prop :=
  ∀ below ∈ source.sources, (below.declared.map Prod.fst).Nodup

end LayoutSource

namespace Node

variable {data data' : Fields} {index : Int} {node : Node}

/-- A node accepts no more attributes at an update than it has bound ones. -/
theorem acceptedIn_le (data : Fields) (index : Int) (node : Node) :
    node.acceptedIn data index ≤ (Look.bound node.source.declared).length := by
  unfold acceptedIn
  split
  · exact List.countP_le_length
  · exact Nat.zero_le _

/-- Where new data suit all bound attributes of a node that declares none twice, applying them again
gives the look that the new data give from the start. -/
theorem relook_look {k : Kind} (hk : Kind.ofType? node.source.viewType = some k)
    (hnodup : (node.source.declared.map Prod.fst).Nodup)
    (hall : node.acceptedIn data' index = (Look.bound node.source.declared).length) :
    node.relook data' index (node.look data index) k = node.look data' index k := by
  rw [acceptedIn, hk] at hall
  exact Look.settle_again hnodup (List.countP_eq_length.1 hall) (Look.initial node.parent)

end Node

namespace LayoutSource

variable {data data' : Fields} {index : Int} {source : LayoutSource} {parent : Option WidgetId}
  {n : Nat}

/-- The bound attributes of a source are those of its nodes. -/
theorem boundCount_eq (source : LayoutSource) (parent : Option WidgetId) (n : Nat) :
    source.boundCount =
      ((source.nodes parent n).map fun node => (Look.bound node.source.declared).length).sum := by
  rw [boundCount, ← map_source_nodes source parent n, List.map_map]
  rfl

/-- The nodes of a source accept no more attributes at an update than the source has bound ones. -/
theorem acceptedIn_nodes_le :
    acceptedIn data index (source.nodes parent n) ≤ source.boundCount := by
  rw [boundCount_eq source parent n]
  exact List.sum_le_sum fun node _ => node.acceptedIn_le data index

/-- If as many bound attributes are accepted as there are, then in each node. -/
theorem acceptedIn_eq_of_mem (h : acceptedIn data index (source.nodes parent n) = source.boundCount)
    {node : Node} (hnode : node ∈ source.nodes parent n) :
    node.acceptedIn data index = (Look.bound node.source.declared).length := by
  rw [boundCount_eq source parent n] at h
  by_contra hne
  have hlt := List.sum_lt_sum (Node.acceptedIn data index)
    (fun node => (Look.bound node.source.declared).length)
    (fun node _ => node.acceptedIn_le data index)
    ⟨node, hnode, lt_of_le_of_ne (node.acceptedIn_le data index) hne⟩
  exact absurd h hlt.ne

/-- The attributes of each node of a source that declares none twice have different names. -/
theorem DeclaresOnce.nodup (h : source.DeclaresOnce) {node : Node}
    (hnode : node ∈ source.nodes parent n) : (node.source.declared.map Prod.fst).Nodup := by
  refine h node.source ?_
  rw [← map_source_nodes source parent n]
  exact List.mem_map_of_mem hnode

/-- Where all bound attributes have been accepted, the nodes stand as if they had been inflated with
the new data. -/
theorem stands_of_relook {s : Session} (hdistinct : source.DeclaresOnce)
    (hall : acceptedIn data' index (source.nodes parent n) = source.boundCount)
    (h : ∀ node ∈ source.nodes parent n,
      node.Stands s data' index (node.relook data' index (node.look data index))) :
    ∀ node ∈ source.nodes parent n, node.Stands s data' index (node.look data' index) := by
  intro node hnode
  obtain ⟨k, mid, l, parser, w, hstands⟩ := h node hnode
  have hlook : node.relook data' index (node.look data index) k = node.look data' index k :=
    Node.relook_look hstands.type (hdistinct.nodup hnode) (acceptedIn_eq_of_mem hall hnode)
  rw [hlook] at hstands
  exact ⟨k, mid, l, parser, w, hstands⟩

end LayoutSource

namespace Context

/-- Updating what has just been inflated walks through all of its nodes. -/
theorem update_run (context : Context) {s s₁ : Session} {source : LayoutSource}
    {data : Fields} {parent : Option WidgetId} {index : Int}
    (hbuilt : s.Built s₁ data index (source.nodes parent (s.widgets.length + 1)))
    {held : List WidgetId} (hheld : ⟨s.widgets.length + 1⟩ ∈ held) {mid : ManagerId}
    (hmid : (s₁.widget? ⟨s.widgets.length + 1⟩).bind (·.manager) = some mid) (data' : Fields) :
    ∃ s₂, context.update (s₁.living held).contains mid data' s₁ =
        (.ok (acceptedIn data' index (source.nodes parent (s.widgets.length + 1))), s₂) ∧
      ∀ node ∈ source.nodes parent (s.widgets.length + 1),
        node.Stands s₂ data' index (node.relook data' index (node.look data index)) := by
  have hfuel : source.extent ≤ s₁.managers.length + 1 := by
    have hmanagers := hbuilt.managers
    rw [LayoutSource.length_nodes] at hmanagers
    omega
  obtain ⟨s₂, hrun, -, hstands⟩ := source.updates hfuel hbuilt.stands
    (fun _ hnode => Session.living_of_stands hbuilt.stands hheld hnode) hmid
  refine ⟨s₂, ?_, hstands⟩
  rw [update, updateBy, Fallible.bind_run_ok (Engine.look_run _ s₁)]
  exact hrun

/-- An update comes to inflating again. What a source that declares no attribute of a node twice is
compiled to has been inflated, and the manager of the root, which is held, is updated with new data.
The answer is at most the number of bound attributes. If it is that number, the same source inflates
with the new data in any other session, and there it makes the same tree. -/
theorem update_alike_inflate {source : LayoutSource} (hdistinct : source.DeclaresOnce)
    {t t' u u' : IdTable} {l l' : Layout} (hcompile : source.compile t = (.ok l, t'))
    (hcompile' : source.compile u = (.ok l', u')) {context context' : Context}
    {s s₁ s' : Session} (hcompiled : t' ≤ s.ids) (hcompiled' : u' ≤ s'.ids)
    (hcontext : context.HasOwnParsers s.ids) (hcontext' : context'.HasOwnParsers s'.ids)
    {data : Fields} {parent : Option WidgetId} {index : Int} {root : WidgetId}
    (hinflate : context.inflate l data parent index s = (.ok root, s₁)) {held : List WidgetId}
    (hheld : root ∈ held) (data' : Fields) {parent' : Option WidgetId}
    (hparent : parent.isSome = parent'.isSome) :
    ∃ mid n s₂, (s₁.widget? root).bind (·.manager) = some mid ∧
      context.update (s₁.living held).contains mid data' s₁ = (.ok n, s₂) ∧
      n ≤ source.boundCount ∧
      (n = source.boundCount → ∃ root' s₃,
        context'.inflate l' data' parent' index s' = (.ok root', s₃) ∧
          s₂.Alike s₃ parent parent' root root') := by
  obtain ⟨hknown, rfl, hbuilt⟩ :=
    built_of_inflate hcontext (LayoutSource.compile_of_le hcompile hcompiled) hinflate
  obtain ⟨mid, hmid⟩ : ∃ mid, (s₁.widget? ⟨s.widgets.length + 1⟩).bind (·.manager) = some mid := by
    have hroot : ⟨source, parent, ⟨s.widgets.length + 1⟩⟩ ∈
        source.nodes parent (s.widgets.length + 1) := by
      rw [LayoutSource.nodes_eq]
      exact List.mem_cons_self
    exact (hbuilt.stands _ hroot).exists_manager
  obtain ⟨s₂, hrun, hstands⟩ := context.update_run hbuilt hheld hmid data'
  refine ⟨mid, _, s₂, hmid, hrun, LayoutSource.acceptedIn_nodes_le, ?_⟩
  intro hall
  have hcompiled₂ := LayoutSource.compile_of_le hcompile' hcompiled'
  rcases inflate_run hcontext' hcompiled₂ data' parent' index with
    ⟨-, s₃, hrun₃, hbuilt₃⟩ | ⟨hunknown, -⟩
  · exact ⟨_, s₃, hrun₃, Session.alike_of_stands
      (LayoutSource.stands_of_relook hdistinct hall hstands) hbuilt₃.stands hparent⟩
  · exact absurd hknown hunknown

/-- The form is updated with another title, which it shows as a form that has it from the start. -/
theorem update_alike_inflate_titledForm :
    titledForm.DeclaresOnce ∧ titledForm.boundCount = 1 ∧ ∃ l t' s₁ mid s₂ root' s₃,
      titledForm.compile ownIds = (.ok l, t') ∧
      own.inflate l [("title", .string "Hi")] none 3 (.ofIds t') = (.ok ⟨1⟩, s₁) ∧
      own.update (s₁.living [⟨1⟩]).contains mid [("title", .string "Bye")] s₁ = (.ok 1, s₂) ∧
      own.inflate l [("title", .string "Bye")] none 3 (.ofIds t') = (.ok root', s₃) ∧
      s₂.Alike s₃ none none ⟨1⟩ root' := by
  have hdistinct : titledForm.DeclaresOnce := by
    unfold LayoutSource.DeclaresOnce
    decide +kernel
  have hcount : titledForm.boundCount = 1 := by decide +kernel
  have hrun : Fallible.gives titledForm.compile ownIds (fun l t' =>
      Fallible.gives (own.inflate l [("title", .string "Hi")] none 3) (.ofIds t') fun root s₁ =>
        Fallible.gives (own.update (s₁.living [⟨1⟩]).contains ⟨0⟩ [("title", .string "Bye")]) s₁
          fun n _ => decide (root = ⟨1⟩ ∧ (s₁.widget? ⟨1⟩).bind (·.manager) = some ⟨0⟩ ∧ n = 1)) =
        true := by
    decide +kernel
  obtain ⟨l, t', hcompile, hrun⟩ := Fallible.exists_of_gives hrun
  obtain ⟨root, s₁, hinflate, hrun⟩ := Fallible.exists_of_gives hrun
  obtain ⟨n, s₂, hupdate, hrun⟩ := Fallible.exists_of_gives hrun
  obtain ⟨rfl, hmid, rfl⟩ := of_decide_eq_true hrun
  have hle : ownIds ≤ t' := (LayoutSource.stable_compile titledForm hcompile).1
  have hcompiled : t' ≤ (Session.ofIds t').ids := le_refl t'
  have hcontext : own.HasOwnParsers (Session.ofIds t').ids := own_hasOwnParsers hle
  obtain ⟨mid, n, s₂', hmid', hupdate', -, hagain⟩ :=
    update_alike_inflate hdistinct hcompile hcompile hcompiled hcompiled hcontext hcontext
      hinflate List.mem_cons_self [("title", .string "Bye")] rfl
  obtain rfl : ⟨0⟩ = mid := Option.some.inj (hmid.symm.trans hmid')
  rw [hupdate] at hupdate'
  cases hupdate'
  obtain ⟨root', s₃, hinflate', halike⟩ := hagain hcount.symm
  exact ⟨hdistinct, hcount, l, t', s₁, ⟨0⟩, s₂, root', s₃, hcompile, hinflate, hupdate, hinflate',
    halike⟩

end Context

end LayoutEngine
