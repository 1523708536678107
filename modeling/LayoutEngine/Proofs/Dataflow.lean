import LayoutEngine.Proofs.Alike
import LayoutEngine.Proofs.Concur
import LayoutEngine.Proofs.Faithful
import LayoutEngine.Proofs.Forecast
import LayoutEngine.Proofs.Forest

/-!
# Data and bindings

The data of an inflation reach widgets only through bound attributes. Two data in which the bound
attributes of a tree have the same values cannot be told apart by anything but what managers keep
(`Context.inflate_alike_of_agrees`). Where no node of a tree has bindings, the tree is the same in
all data, and updating it does nothing but give managers the new data
(`Context.updateWithin_leads`).
-/

namespace LayoutEngine

open Session Engine

/-! ## Layouts of nodes -/

/-- What is read as a text is a text. -/
theorem Value.eq_string_of_string? {value : Value} {s : String} (h : value.string? = some s) :
    value = .string s := by
  cases value with
  | string s' => rw [Option.some.inj h]
  | _ => cases h

namespace LayoutSource

/-- What a layout has right below it are the layouts of its source's children. -/
theorem Describes.nested_eq {u : IdTable} {source : LayoutSource} {l : Layout}
    {below : List Layout} (h : source.Describes u l below) : l.nested = below := by
  have hnamed : ∀ {named : List (String × Value)} {attributes : List Attribute},
      List.Forall₂ (Attribute.Bears u) named attributes →
      attributes.flatMap (·.value.layouts) = named.flatMap (·.2.layouts) := by
    intro named attributes hbears
    induction hbears with
    | nil => rfl
    | cons ha _ ih => rw [List.flatMap_cons, List.flatMap_cons, ih, ha.2]
  have hdeclared : source.declared.flatMap (·.2.layouts) = [] := by
    refine List.flatMap_eq_nil_iff.2 fun named hmem => ?_
    obtain ⟨a, -, rfl⟩ := List.mem_map.1 hmem
    exact Value.layouts_ofJson a.value
  rw [Layout.nested, hnamed h.attributes, List.flatMap_append, hdeclared, List.nil_append]
  cases below with
  | nil => rfl
  | cons first more =>
    rw [Layout.asChildren, List.flatMap_singleton, Value.layouts, List.filterMap_map]
    exact List.filterMap_some

/-- A source comes first among its own nodes. -/
theorem mem_preorder_self (source : LayoutSource) : source ∈ source.preorder := by
  obtain ⟨viewType, attributes, children⟩ := source
  rw [preorder]
  exact List.mem_cons_self

/-- The nodes of a child are nodes of the source. -/
theorem preorder_subset {source child : LayoutSource} (h : child ∈ source.children) :
    child.preorder ⊆ source.preorder := by
  obtain ⟨viewType, attributes, children⟩ := source
  rw [preorder]
  refine List.Subset.trans ?_ (List.subset_cons_self _ _)
  induction children with
  | nil => cases h
  | cons first rest ih =>
    rw [preorderAll]
    rcases List.mem_cons.1 h with rfl | h
    · exact List.subset_append_left _ _
    · exact List.Subset.trans (ih h) (List.subset_append_right _ _)

/-- A node of a compiled layout has been compiled from a node of the source. -/
theorem exists_of_isNodeOf {node l : Layout} (hnode : node.IsNodeOf l) {u : IdTable} :
    ∀ {source : LayoutSource}, source.compile u = (.ok l, u) →
      ∃ below ∈ source.preorder, below.compile u = (.ok node, u) := by
  induction hnode using Relation.ReflTransGen.head_induction_on with
  | refl => exact fun {source} h => ⟨source, source.mem_preorder_self, h⟩
  | head hnested _ ih =>
    intro source h
    obtain ⟨layouts, hdescribes⟩ := describes_of_compile h
    rw [hdescribes.nested_eq] at hnested
    obtain ⟨child, hchild, hcompile⟩ := exists_of_mem_forall₂ hdescribes.children.flip hnested
    obtain ⟨below, hbelow, hnode⟩ := ih hcompile
    exact ⟨below, preorder_subset hchild hbelow, hnode⟩

/-- Whether data agree on a compiled layout can be read off the declared attributes. -/
theorem agrees_of_compile {source : LayoutSource} {u : IdTable} {l : Layout}
    (h : source.compile u = (.ok l, u)) {data data' : Fields} {index : Int}
    (hbound : ∀ below ∈ source.preorder, ∀ named ∈ Look.bound below.declared,
      named.2.resolve data index = named.2.resolve data' index) : l.Agrees data data' index := by
  intro node hnode a ha hbinding
  obtain ⟨below, hbelow, hcompile⟩ := exists_of_isNodeOf hnode h
  obtain ⟨layouts, hdescribes⟩ := describes_of_compile hcompile
  obtain ⟨named, hmem, hbears⟩ := exists_of_mem_forall₂ hdescribes.attributes.flip ha
  rw [hbears.2] at hbinding ⊢
  have hmem' := Look.mem_bound_iff.2 ⟨hmem, hbinding⟩
  rw [Look.bound_append_asChildren] at hmem'
  exact hbound below hbelow named hmem'

/-- What becomes a widget of a source has a layout that is a node of the source's. -/
theorem isNodeOf_of_mem_nodes {source : LayoutSource} {u : IdTable} {l below : Layout}
    (h : source.compile u = (.ok l, u)) {parent : Option WidgetId} {n : Nat} {node : Node}
    (hnode : node ∈ source.nodes parent n) (hbelow : node.source.compile u = (.ok below, u)) :
    below.IsNodeOf l := by
  induction source using induction generalizing l parent n with
  | step source ih =>
    rw [nodes_eq] at hnode
    rcases List.mem_cons.1 hnode with rfl | hnode
    · rw [h] at hbelow
      cases hbelow
      exact .refl
    · obtain ⟨child, hchild, id, -, hnode, -⟩ := exists_of_mem_childNodes hnode
      obtain ⟨layouts, hdescribes⟩ := describes_of_compile h
      have hmem := source.inflated_subset hchild
      obtain ⟨l', hl', hcompile⟩ := exists_of_mem_forall₂ hdescribes.children hmem
      rw [← hdescribes.nested_eq] at hl'
      exact .head hl' (ih child hmem hcompile hnode)

/-- The children of a node are nodes as well. -/
theorem exists_of_mem_childIds (parent : WidgetId) {children : List LayoutSource} {n : Nat}
    {id : WidgetId} (h : id ∈ childIds n children) :
    ∃ node ∈ childNodes parent n children, node.id = id := by
  induction children generalizing n with
  | nil => cases h
  | cons child rest ih =>
    rw [childNodes]
    rcases List.mem_cons.1 h with rfl | h
    · refine ⟨⟨child, some parent, ⟨n⟩⟩, List.mem_append_left _ ?_, rfl⟩
      rw [nodes_eq]
      exact List.mem_cons_self
    · obtain ⟨node, hnode, rfl⟩ := ih h
      exact ⟨node, List.mem_append_right _ hnode, rfl⟩

/-- The children of a node are nodes. -/
theorem exists_of_mem_children {source : LayoutSource} {parent : Option WidgetId} {n : Nat}
    {node : Node} (hnode : node ∈ source.nodes parent n) {id : WidgetId}
    (hid : id ∈ node.children) : ∃ below ∈ source.nodes parent n, below.id = id := by
  induction source using induction generalizing parent n with
  | step source ih =>
    rw [nodes_eq] at hnode ⊢
    rcases List.mem_cons.1 hnode with rfl | hnode
    · obtain ⟨below, hbelow, rfl⟩ := exists_of_mem_childIds ⟨n⟩ hid
      exact ⟨below, List.mem_cons_of_mem _ hbelow, rfl⟩
    · obtain ⟨child, hchild, root, -, hnode, hsubset⟩ := exists_of_mem_childNodes hnode
      obtain ⟨below, hbelow, rfl⟩ := ih child (source.inflated_subset hchild) hnode
      exact ⟨below, List.mem_cons_of_mem _ (hsubset hbelow), rfl⟩

end LayoutSource

/-! ## Updates without bindings -/

namespace Session

/-- Two sessions are the same but for the data of managers. -/
def SameBare (s s' : Session) : Prop := s.bare = s'.bare

instance : IsPreorder Session SameBare where
  refl _ := rfl
  trans _ _ _ := Eq.trans

/-- Widgets of a set live and have children of the set alone, and their managers are of layouts
without bindings. -/
structure Unbound (s : Session) (alive : WidgetId → Bool) (among : WidgetId → Prop) : Prop where
  lives : ∀ ⦃id⦄, among id → alive id = true
  children : ∀ ⦃id⦄, among id → ∀ child ∈ s.childrenOf id, among child
  manager : ∀ ⦃id⦄, among id → ∀ ⦃mid⦄, (s.widget? id).bind (·.manager) = some mid →
    ∀ ⦃m⦄, s.manager? mid = some m → m.widget = id ∧ m.layout.hasBindings = false

variable {s s' : Session} {alive : WidgetId → Bool} {among : WidgetId → Prop} {id : WidgetId}

/-- Sessions that differ in data of managers only have the same widgets. -/
theorem widget?_of_sameBare (h : s.SameBare s') (id : WidgetId) : s'.widget? id = s.widget? id := by
  have hbare : s'.bare.widget? id = s.bare.widget? id := congrArg (·.widget? id) (Eq.symm h)
  exact hbare

/-- They have told the same. -/
theorem log_of_sameBare (h : s.SameBare s') : s'.log = s.log := by
  have hbare : s'.bare.log = s.bare.log := congrArg (·.log) (Eq.symm h)
  exact hbare

/-- Setting data changes data only. -/
theorem sameBare_setData (mid : ManagerId) (data : Fields) (s : Session) :
    s.SameBare (s.setData mid data) :=
  congrArg (fun managers => ({ s with managers := managers } : Session))
    (sameShape_setData mid data s).managers.symm

/-- Their managers differ in data only. -/
theorem manager?_of_sameBare (h : s.SameBare s') {mid : ManagerId} {m' : Manager}
    (hm' : s'.manager? mid = some m') : ∃ m, s.manager? mid = some m ∧ m.bare = m'.bare := by
  have hmanagers : s.managers.map Manager.bare = s'.managers.map Manager.bare :=
    congrArg Session.managers h
  have hmap := congrArg (fun managers => managers[mid.number]?) hmanagers
  simp only [List.getElem?_map] at hmap
  rw [manager?] at hm'
  rw [hm'] at hmap
  exact Option.map_eq_some_iff.1 hmap

/-- Whether anything is bound has nothing to do with data. -/
theorem Unbound.of_sameBare (h : s.Unbound alive among) (hsame : s.SameBare s') :
    s'.Unbound alive among := by
  refine ⟨h.lives, fun id hid => ?_, fun id hid mid hmid m' hm' => ?_⟩
  · rw [childrenOf, widget?_of_sameBare hsame]
    exact h.children hid
  · rw [widget?_of_sameBare hsame] at hmid
    obtain ⟨m, hm, hbare⟩ := manager?_of_sameBare hsame hm'
    obtain ⟨data, rfl⟩ := Manager.bare_eq_iff.1 hbare
    have hunbound := h.manager hid hmid hm
    exact hunbound

/-- What has become of a source without bindings is without bindings while its root is held. -/
theorem unbound_of_stands {source : LayoutSource} {l : Layout}
    (hcompiled : source.compile s.ids = (.ok l, s.ids))
    (hnone : ∀ node : Layout, node.IsNodeOf l → node.hasBindings = false)
    {parent : Option WidgetId} {n : Nat} {data : Fields} {index : Int} {look : Node → Kind → Look}
    (h : ∀ node ∈ source.nodes parent n, node.Stands s data index (look node))
    {held : List WidgetId} (hheld : ⟨n⟩ ∈ held) :
    s.Unbound (s.living held).contains fun id => ∃ node ∈ source.nodes parent n, node.id = id := by
  refine ⟨?_, ?_, ?_⟩
  · rintro _ ⟨node, hnode, rfl⟩
    exact living_of_stands h hheld hnode
  · rintro _ ⟨node, hnode, rfl⟩ child hchild
    rw [(h node hnode).childrenOf] at hchild
    exact LayoutSource.exists_of_mem_children hnode hchild
  · rintro _ ⟨node, hnode, rfl⟩ mid hmid m hm
    obtain ⟨k, mid', below, parser, w, hstands⟩ := h node hnode
    rw [hstands.managed.widget, Option.bind_some, hstands.managed.manager] at hmid
    cases hmid
    rw [hstands.managed.managed] at hm
    cases hm
    exact ⟨rfl, hnone below
      (LayoutSource.isNodeOf_of_mem_nodes hcompiled hnode hstands.compiled)⟩

end Session

namespace Context

variable {context : Context} {alive : WidgetId → Bool} {among : WidgetId → Prop} {s : Session}

/-- There is nothing to apply where nothing is bound. -/
theorem applyBound_of_unbound (parser : ViewParser) (id : WidgetId) {attributes : List Attribute}
    (h : ∀ a ∈ attributes, a.value.isBinding = false) (s : Session) :
    context.applyBoundBy context.host parser id attributes s = (.ok 0, s) := by
  induction attributes with
  | nil => rfl
  | cons a rest ih =>
    obtain ⟨ha, hrest⟩ := List.forall_mem_cons.1 h
    obtain ⟨a, value⟩ := a
    rw [applyBound_of_cons, ha, if_neg Bool.false_ne_true,
      Fallible.bind_run_ok (Fallible.pure_run false s)]
    dsimp only
    rw [Fallible.bind_run_ok (ih hrest)]
    rfl

/-- An update among widgets without bindings applies nothing, and only gives managers new data. -/
theorem updateWithin_leads (data : Fields) (fuel : Nat) {s : Session}
    (hs : s.Unbound alive among) {id : WidgetId} (hid : among id) {mid : ManagerId}
    (hmid : (s.widget? id).bind (·.manager) = some mid) :
    Leads SameBare (context.updateWithinBy context.host alive data fuel mid) s
      fun n _ => n = 0 := by
  induction fuel generalizing s id mid with
  | zero => exact .throw _
  | succ fuel ih =>
    have hset := sameBare_setData mid data s
    have hs' := hs.of_sameBare hset
    rw [updateWithinBy]
    refine .change_bind hset (.look_bind ?_)
    cases hm : (s.setData mid data).manager? mid with
    | none => exact .pure rfl
    | some m =>
      obtain ⟨rfl, hunbound⟩ := hs'.manager hid hmid hm
      have hattributes : ∀ a ∈ m.layout.attributes, a.value.isBinding = false := fun a ha =>
        Bool.not_eq_true _ ▸ List.any_eq_false.1 hunbound a ha
      have hown : context.applyBoundBy context.host m.parser m.widget m.layout.attributes
          (s.setData mid data) = (.ok 0, s.setData mid data) :=
        applyBound_of_unbound m.parser m.widget hattributes _
      dsimp only
      rw [if_pos (hs.lives hid)]
      refine .of_run (Fallible.bind_run_ok hown) rfl (.look_bind ?_)
      have hbelow : Leads SameBare
          (sumUpdates (context.updateWithinBy context.host alive data fuel)
            ((s.setData mid data).childrenOf m.widget)) (s.setData mid data) fun n _ => n = 0 :=
        sumUpdates_leads SameBare (·.Unbound alive among) (fun h hs => hs.of_sameBare h) (by rfl)
          (by rintro _ _ rfl rfl; rfl) (fun _ hs _ hid _ hmid => ih hs hid hmid) (hs'.children hid)
          hs'
      refine hbelow.bind ?_
      rintro _ s₁ - rfl
      exact .pure rfl

end Context

/-! ## Inflations that cannot be told apart -/

namespace Session

variable {s s' s'' : Session} {outcomes more : List Outcome}

/-- What a log tells of attributes is one thing. -/
theorem Tells.unique (h : s.Tells outcomes s') (h' : s.Tells more s'') (hlog : s'.log = s''.log) :
    outcomes = more := by
  obtain ⟨told, htold, rfl⟩ := h
  obtain ⟨told', htold', rfl⟩ := h'
  rw [htold, htold'] at hlog
  rw [List.append_cancel_left hlog]

end Session

/-- An outcome is known from what it is after further widgets. -/
theorem Outcome.after_injective (base : Nat) : Function.Injective (Outcome.after base) := by
  rintro ⟨⟨n⟩, viewType, name, value, accepted⟩ ⟨⟨n'⟩, viewType', name', value', accepted'⟩ h
  simp only [after, mk.injEq, WidgetId.mk.injEq] at h
  obtain ⟨hn, rfl, rfl, rfl, rfl⟩ := h
  rw [Nat.add_left_cancel hn]

/-- Two steps that meet forecasts, end alike and tell the same have been forecast the same. -/
theorem Engine.Meets.unique {α : Type} {x y : Engine α} {base : Nat} {s : Session}
    {f f' : Forecast} (h : x.Meets true base s f) (h' : y.Meets true base s f')
    (hresult : (x s).1 = (y s).1) (hlog : (x s).2.log = (y s).2.log) : f = f' := by
  have houtcomes := (h.tells rfl).unique (h'.tells rfl) hlog
  have hfailure : x.failure? s = y.failure? s := by rw [Engine.failure?, hresult, Engine.failure?]
  rw [h.failure?, h'.failure?] at hfailure
  obtain ⟨outcomes, failure?⟩ := f
  obtain ⟨outcomes', failure?'⟩ := f'
  cases hfailure
  obtain rfl : outcomes = outcomes' :=
    List.map_injective_iff.2 (Outcome.after_injective base) houtcomes
  rfl

namespace Context

variable {context : Context} {s : Session}

/-- Without a host to ask, a layout inflates alike in data that agree. -/
theorem inflate_concurs (hcontext : context.HasOwnParsers s.ids) {data data' : Fields}
    {index : Int} {l : Layout} (h : l.Agrees data data' index) (parent : Option WidgetId) :
    (context.inflate l data parent index s).1 = (context.inflate l data' parent index s).1 ∧
      (context.inflate l data parent index s).2.SameBare
        (context.inflate l data' parent index s).2 := by
  have hnew := Registry.Provides.makesNew hcontext.offers.provides
  have hconcurs : Concurs False context context (context.unknown context.layouts.size)
      (context.unknown context.layouts.size) :=
    concurs_of_no_fallback rfl rfl hnew hcontext.fallback (.inr hcontext.fallback) _ _
  exact (l.inflate_concurs hconcurs h parent rfl).eq

/-- What is forecast of a source is the same in data that agree. -/
theorem forecast_of_agrees (hcontext : context.HasOwnParsers s.ids) {source : LayoutSource}
    {l : Layout} (hcompiled : source.compile s.ids = (.ok l, s.ids)) {data data' : Fields}
    {index : Int} (h : l.Agrees data data' index) :
    source.forecast data index 1 = source.forecast data' index 1 := by
  -- A context that tells of attributes tells the same in both data.
  have htelling : ({ context with verbose := true } : Context).HasOwnParsers s.ids :=
    ⟨hcontext.registry, hcontext.fallback⟩
  obtain ⟨hresult, hsame⟩ := inflate_concurs htelling h none
  exact (inflate_meets htelling hcompiled data none index).unique
    (inflate_meets htelling hcompiled data' none index) hresult (log_of_sameBare hsame).symm

/-- An update of a tree without bindings that has been inflated and is held applies nothing, and
only gives managers new data. -/
theorem update_of_unbound (hcontext : context.HasOwnParsers s.ids) {source : LayoutSource}
    {l : Layout} (hcompiled : source.compile s.ids = (.ok l, s.ids))
    (hnone : ∀ node : Layout, node.IsNodeOf l → node.hasBindings = false) {data : Fields}
    {parent : Option WidgetId} {index : Int} {root : WidgetId} {s₁ : Session}
    (hinflate : context.inflate l data parent index s = (.ok root, s₁)) {held : List WidgetId}
    (hheld : root ∈ held) (data' : Fields) :
    ∃ mid s₂, (s₁.widget? root).bind (·.manager) = some mid ∧
      context.update (s₁.living held).contains mid data' s₁ = (.ok 0, s₂) ∧ s₁.SameBare s₂ := by
  obtain ⟨-, rfl, hbuilt⟩ := built_of_inflate hcontext hcompiled hinflate
  have hroot : ⟨source, parent, ⟨s.widgets.length + 1⟩⟩ ∈
      source.nodes parent (s.widgets.length + 1) := by
    rw [LayoutSource.nodes_eq]
    exact List.mem_cons_self
  obtain ⟨mid, hmid⟩ := (hbuilt.stands _ hroot).exists_manager
  have hunbound := Session.unbound_of_stands
    (LayoutSource.compile_of_le hcompiled hbuilt.frame.ids) hnone hbuilt.stands hheld
  obtain ⟨s₂, hrun, -⟩ := context.update_run hbuilt hheld hmid data'
  have hleads : Leads SameBare (context.update (s₁.living held).contains mid data') s₁
      fun n _ => n = 0 :=
    .look_bind (updateWithin_leads data' _ hunbound ⟨_, hroot, rfl⟩ hmid)
  have hsame := hleads.along
  have hzero := hleads.result
  rw [hrun] at hsame hzero
  refine ⟨mid, s₂, hmid, ?_, hsame⟩
  rw [hrun, hzero _ rfl]

/-- In two data a layout inflates to the same result, or fails alike, the same is forecast of its
attributes, and the sessions that are left differ in nothing but the data of managers. -/
structure InflatesAlike (context : Context) (source : LayoutSource) (l : Layout)
    (data data' : Fields) (parent : Option WidgetId) (index : Int) (s : Session) : Prop where
  result : (context.inflate l data parent index s).1 = (context.inflate l data' parent index s).1
  session : (context.inflate l data parent index s).2.SameBare
    (context.inflate l data' parent index s).2
  forecast : source.forecast data index 1 = source.forecast data' index 1

/-- Data in which all bound attributes of a tree have the same values inflate it alike. Where no
node of a tree has bindings, all data do, and an update of what the tree has been inflated to
applies nothing and only gives managers the new data. -/
theorem inflate_alike_of_agrees {source : LayoutSource} {t t' : IdTable} {l : Layout}
    (hcompile : source.compile t = (.ok l, t')) (hcompiled : t' ≤ s.ids)
    (hcontext : context.HasOwnParsers s.ids) (parent : Option WidgetId) (index : Int) :
    (∀ data data', l.Agrees data data' index →
      context.InflatesAlike source l data data' parent index s) ∧
    ((∀ node : Layout, node.IsNodeOf l → node.hasBindings = false) →
      (∀ data data', context.InflatesAlike source l data data' parent index s) ∧
      ∀ data root s₁, context.inflate l data parent index s = (.ok root, s₁) →
        ∀ held, root ∈ held → ∀ data', ∃ mid s₂,
          (s₁.widget? root).bind (·.manager) = some mid ∧
          context.update (s₁.living held).contains mid data' s₁ = (.ok 0, s₂) ∧
          s₁.SameBare s₂) := by
  have hcompiled' := LayoutSource.compile_of_le hcompile hcompiled
  have halike : ∀ data data', l.Agrees data data' index →
      context.InflatesAlike source l data data' parent index s := by
    intro data data' hagrees
    obtain ⟨hresult, hsession⟩ := inflate_concurs hcontext hagrees parent
    exact ⟨hresult, hsession, forecast_of_agrees hcontext hcompiled' hagrees⟩
  refine ⟨halike, fun hnone => ⟨fun data data' => ?_, fun data root s₁ hinflate held hheld => ?_⟩⟩
  · exact halike data data' (Layout.agrees_of_hasBindings hnone data data' index)
  · exact update_of_unbound hcontext hcompiled' hnone hinflate hheld

/-- Of the data that a titled form is inflated in, only the title can be seen. -/
theorem inflate_alike_titledForm : ∃ l t',
    titledForm.compile ownIds = (.ok l, t') ∧
    l.Agrees [("title", .string "Hi")] [("title", .string "Hi"), ("count", .int 3)] 0 ∧
    own.InflatesAlike titledForm l [("title", .string "Hi")]
      [("title", .string "Hi"), ("count", .int 3)] none 0 (.ofIds t') := by
  have hrun : Fallible.gives titledForm.compile ownIds (fun _ _ => true) = true := by
    decide +kernel
  obtain ⟨l, t', hcompile, -⟩ := Fallible.exists_of_gives hrun
  have htitle : ∀ below ∈ titledForm.preorder, ∀ named ∈ Look.bound below.declared,
      (named.2.resolve [("title", .string "Hi")] 0).string? = some "Hi" ∧
      (named.2.resolve [("title", .string "Hi"), ("count", .int 3)] 0).string? = some "Hi" := by
    decide +kernel
  have hids : t' ≤ (Session.ofIds t').ids := le_refl t'
  have hcontext : own.HasOwnParsers (Session.ofIds t').ids :=
    own_hasOwnParsers (LayoutSource.stable_compile titledForm hcompile).1
  have hagrees : l.Agrees [("title", .string "Hi")]
      [("title", .string "Hi"), ("count", .int 3)] 0 := by
    refine LayoutSource.agrees_of_compile (LayoutSource.compile_of_le hcompile hids) ?_
    intro below hbelow named hnamed
    obtain ⟨h, h'⟩ := htitle below hbelow named hnamed
    rw [Value.eq_string_of_string? h, Value.eq_string_of_string? h']
  exact ⟨l, t', hcompile, hagrees,
    (inflate_alike_of_agrees hcompile hids hcontext none 0).1 _ _ hagrees⟩

end Context

end LayoutEngine
