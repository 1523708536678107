import LayoutEngine.Proofs.Alike
import LayoutEngine.Proofs.Carry
import LayoutEngine.Proofs.Edit

/-!
# Editing comes to declaring last

An edit goes through the parser of a widget's manager, long after the widget has been inflated; an
attribute at the end of a layout is applied by the parser of the registry, after the children have
been made. Where the parsers are the engine's own this is the same: inflating a layout and then
editing the root gives the tree that inflating the layout with that attribute appended gives, and
the edit succeeds if and only if the appended attribute is accepted (`Context.edit_alike_append`).
-/

namespace LayoutEngine

open Session

/-! ## An appended attribute -/

/-- Attributes one after the other are applied one after the other. -/
theorem Layout.applyAttributes_append (context : Context) (unknown : UnknownType)
    (parser : ViewParser) (viewType : String) (id : WidgetId) (first rest : List Attribute) :
    applyAttributes context unknown parser viewType id (first ++ rest) =
      (do
        applyAttributes context unknown parser viewType id first
        applyAttributes context unknown parser viewType id rest : Engine Unit) := by
  induction first with
  | nil => rw [List.nil_append, applyAttributes_of_nil, pure_bind]
  | cons head first ih =>
    obtain ⟨a, value⟩ := head
    rw [List.cons_append, applyAttributes_of_cons, applyAttributes_of_cons, ih]
    cases context.verbose <;> simp

namespace Context

/-- A layout is inflated with an attribute appended to those that it has. Its widget starts, the
layout's own attributes are applied, and after them the appended one, which is accepted or not. -/
def InflatesAppending (context : Context) (l : Layout) (appended : Attribute) (data : Fields)
    (parent : Option WidgetId) (index : Int) (s : Session) (id : WidgetId) (accepted : Bool)
    (s' : Session) : Prop :=
  ∃ parser s₀ s₁ s₂, context.registry.get? l.viewType = some parser ∧
    parser.start context.verbose (l.addAttributes [appended]) data parent index s = (id, s₀) ∧
    Layout.applyAttributes context (context.unknown context.layouts.size) parser l.viewType id
      l.attributes s₀ = (.ok (), s₁) ∧
    context.apply parser id appended.id appended.value s₁ = (.ok accepted, s₂) ∧
    s' = if context.verbose then
        s₂.noteOutcome id l.viewType appended.id appended.value accepted
      else s₂

/-- That is what inflating the longer layout does. -/
theorem InflatesAppending.inflate {context : Context} {l : Layout} {appended : Attribute}
    {data : Fields} {parent : Option WidgetId} {index : Int} {s s' : Session} {id : WidgetId}
    {accepted : Bool}
    (h : context.InflatesAppending l appended data parent index s id accepted s') :
    context.inflate (l.addAttributes [appended]) data parent index s = (.ok id, s') := by
  obtain ⟨parser, s₀, s₁, s₂, hget, hstart, hrun, happly, hend⟩ := h
  obtain ⟨a, value⟩ := appended
  have hlast : Layout.applyAttributes context (context.unknown context.layouts.size) parser
      l.viewType id [⟨a, value⟩] s₁ = (.ok (), s') := by
    have hvalue : value.apply context (context.unknown context.layouts.size) parser id a s₁ =
      (.ok accepted, s₂) := happly
    rw [hend, Layout.applyAttributes_of_cons, Fallible.bind_run_ok hvalue]
    cases context.verbose <;> rfl
  have hinflate := Layout.inflate_eq_start (context.unknown context.layouts.size) data parent index
    (l := l.addAttributes [⟨a, value⟩]) hget s
  rw [hstart] at hinflate
  rw [Context.inflate, hinflate, Layout.addAttributes, Layout.applyAttributes_append]
  dsimp only
  rw [Fallible.bind_run_ok ((Fallible.bind_run_ok hrun).trans hlast), Fallible.pure_run]

end Context

/-! ## Both ways -/

/-- A parser that serves a kind starts a new widget of it, which is managed and looks as new ones
do. -/
theorem ViewParser.Serves.start {parser : ViewParser} {k : Kind} {s : Session}
    (h : parser.Serves k s.ids) (verbose : Bool) (l : Layout) (data : Fields)
    (parent : Option WidgetId) (index : Int) :
    ∃ s₀ w, parser.start verbose l data parent index s = (⟨s.widgets.length + 1⟩, s₀) ∧
      s.Starts s₀ w ⟨⟨s.widgets.length + 1⟩, l, parser, parent, index, data⟩ ∧
      s₀.Managed ⟨s.widgets.length + 1⟩ ⟨s.managers.length⟩
        ⟨⟨s.widgets.length + 1⟩, l, parser, parent, index, data⟩ k w (.initial parent) ∧
      w.view.parent = parent ∧ w.children = [] := by
  have hstarts := (h.attach verbose l data parent index).recordTags l
  have hshows := Look.shows_initial k parent s.ids
  refine ⟨_, _, ?_, hstarts, ?_, rfl, rfl⟩
  · simp only [ViewParser.start, h.giveOut]
    rfl
  · exact ⟨hstarts.widget?, hstarts.manager, hstarts.manager?, h.mono hstarts.frame.ids,
      (hshows.mono hstarts.frame.ids).of_eq rfl rfl⟩

namespace Context

variable {context : Context} {s : Session}

/-- An edit changes its widget as its name and value tell, and succeeds if they are accepted. -/
theorem edit_changes (context : Context) {id : WidgetId} {mid : ManagerId} {m : Manager} {k : Kind}
    {w : Widget} {look : Look} (h : s.Managed id mid m k w look) {name : String}
    (hname : Text.trimmed name ≠ "") (json : Json) :
    ∃ s' w', context.edit id name json s =
        (if k.accepts m.data m.index (Text.trimmed name, .ofJson json) then .ok ()
        else .error (.rejected (Text.trimmed name) m.layout.viewType), s') ∧
      s'.Managed id mid m k w' (look.apply k m.data m.index (Text.trimmed name, .ofJson json)) ∧
      w'.view.parent = w.view.parent ∧
      w'.children = (if k.clears (Text.trimmed name, .ofJson json) then [] else w.children) ∧
      Frame (· = id) noWidget s s' := by
  obtain ⟨s', w', hrun, hc, hshows, hchildren⟩ := h.edit_run context hname json
  have hm := h.changes hc hshows
  cases haccepts : k.accepts m.data m.index (Text.trimmed name, .ofJson json) with
  | false =>
    rw [haccepts] at hrun
    exact ⟨s', w', hrun, hm, hc.parent, hchildren, hc.touches.frame⟩
  | true =>
    rw [haccepts] at hrun
    refine ⟨_, w', hrun, hm.recordEdit id (Text.trimmed name) json, hc.parent, hchildren, ?_⟩
    refine hc.touches.frame.trans ⟨le_refl _, fun _ _ _ hw => hw, fun _ _ _ hm => hm, ?_⟩
    exact fun _ _ hne _ => get?_tags_recordEdit_of_ne hne _ json s'

/-- What a source is compiled to is inflated with an attribute appended: its widget has the look
that the declared attributes and then the appended one give it, and the children of the source,
unless the appended attribute takes them away. -/
theorem inflatesAppending_run (hcontext : context.HasOwnParsers s.ids) {source : LayoutSource}
    {l : Layout} (hcompiled : source.compile s.ids = (.ok l, s.ids)) {k : Kind}
    (hk : Kind.ofType? source.viewType = some k) (hknown : ∀ child ∈ source.inflated, child.Known)
    {name : String} {a : Int} (ha : s.ids.get? name = some a) (json : Json) (data : Fields)
    (parent : Option WidgetId) (index : Int) :
    ∃ s' mid m w,
      context.InflatesAppending l ⟨a, .ofJson json⟩ data parent index s ⟨s.widgets.length + 1⟩
        (k.accepts data index (name, .ofJson json)) s' ∧
      s'.Managed ⟨s.widgets.length + 1⟩ mid m k w
        (((Look.initial parent).settle k data index source.declared).apply k data index
          (name, .ofJson json)) ∧
      m.data = data ∧ m.index = index ∧ w.view.parent = parent ∧
      w.children = (if k.clears (name, .ofJson json) then []
        else LayoutSource.childIds (s.widgets.length + 2) source.inflated) ∧
      ∀ node ∈ LayoutSource.childNodes ⟨s.widgets.length + 1⟩ (s.widgets.length + 2)
        source.inflated, node.Stands s' data index (node.look data index) := by
  obtain ⟨below, hdescribes⟩ := LayoutSource.describes_of_compile hcompiled
  have hoffers := hcontext.offers
  obtain ⟨parser, hget, hserves⟩ : ∃ parser, context.registry.get? l.viewType = some parser ∧
      parser.Serves k s.ids := by
    have htype := hoffers source.viewType
    rw [hk] at htype
    rwa [hdescribes.viewType]
  obtain ⟨s₀, w₀, hstart, hstarts, hm₀, hparent, hnone⟩ := hserves.start context.verbose
    (l.addAttributes [⟨a, .ofJson json⟩]) data parent index
  rw [← hstarts.ids] at hoffers hdescribes ha
  rcases LayoutSource.applyAttributes_furnishes context (context.unknown context.layouts.size)
    (fun child _ => LayoutSource.inflates (fun l data index s =>
      ⟨_, _, unknown_of_no_fallback hcontext.fallback _ l data index s⟩) child)
    hk hoffers hdescribes hm₀ hnone l.viewType with ⟨-, s₁, w₁, hrun, h⟩ | ⟨hunknown, -⟩
  · obtain ⟨s₂, w₂, happly, hc, hshows, hchildren, -⟩ := h.managed.apply_run context
      (context.unknown context.layouts.size) (IdTable.get?_mono h.frame.ids ha)
      (Value.isPlain_ofJson json)
    obtain ⟨log, hlog⟩ : ∃ log, (if context.verbose then
        s₂.noteOutcome ⟨s.widgets.length + 1⟩ l.viewType a (.ofJson json)
          (k.accepts data index (name, .ofJson json)) else s₂) = { s₂ with log := log } := by
      unfold noteOutcome
      dsimp only
      split
      · split <;> exact ⟨_, rfl⟩
      · exact ⟨_, rfl⟩
    have hbelow := h.below
    have hchildren₁ := h.children
    rw [hstarts.length] at hbelow hchildren₁
    refine ⟨_, ⟨s.managers.length⟩, ⟨⟨s.widgets.length + 1⟩, l.addAttributes [⟨a, .ofJson json⟩],
      parser, parent, index, data⟩, w₂, ⟨parser, s₀, s₁, s₂, hget, hstart, hrun, happly, rfl⟩, ?_,
      rfl, rfl, ?_, ?_, ?_⟩
    · rw [hlog]
      exact (h.managed.changes hc hshows).withLog log
    · exact (hc.parent.trans h.parent).trans hparent
    · rw [hchildren, hchildren₁]
    · intro node hnode
      have hbounds := LayoutSource.bounds_of_mem_childNodes hnode
      rw [hlog]
      refine (hbelow node hnode).frame (hc.withLog log).touches.frame (fun heq => ?_) not_false
      rw [heq] at hbounds
      exact absurd hbounds.1 (Nat.not_succ_le_self _)
  · exact absurd hknown hunknown

/-- Editing comes to declaring last. Where the parsers are the engine's own and there is no host to
ask, what a source is compiled to has been inflated, and an attribute of the root, whose name is not
blank, is edited. In any other session the layout inflates with that attribute appended, under the
number of its name there, and makes the same tree. The edit succeeds if the appended attribute is
accepted, and is rejected otherwise. -/
theorem edit_alike_append {source : LayoutSource} {t t' u u' : IdTable} {l l' : Layout}
    (hcompile : source.compile t = (.ok l, t')) (hcompile' : source.compile u = (.ok l', u'))
    {context context' : Context} {s s₁ s' : Session} (hcompiled : t' ≤ s.ids)
    (hcompiled' : u' ≤ s'.ids) (hcontext : context.HasOwnParsers s.ids)
    (hcontext' : context'.HasOwnParsers s'.ids) {data : Fields} {parent : Option WidgetId}
    {index : Int} {root : WidgetId}
    (hinflate : context.inflate l data parent index s = (.ok root, s₁)) {name : String}
    (hname : Text.trimmed name ≠ "") (json : Json) {a : Int}
    (ha : s'.ids.get? (Text.trimmed name) = some a) {parent' : Option WidgetId}
    (hparent : parent.isSome = parent'.isSome) :
    ∃ accepted s₂ root' s₃,
      context.edit root name json s₁ =
        (if accepted then .ok () else .error (.rejected (Text.trimmed name) l.viewType), s₂) ∧
      context'.inflate (l'.addAttributes [⟨a, .ofJson json⟩]) data parent' index s' =
        (.ok root', s₃) ∧
      context'.InflatesAppending l' ⟨a, .ofJson json⟩ data parent' index s' root' accepted s₃ ∧
      s₂.Alike s₃ parent parent' root root' := by
  obtain ⟨hknown, rfl, hbuilt⟩ :=
    built_of_inflate hcontext (LayoutSource.compile_of_le hcompile hcompiled) hinflate
  have hstands := hbuilt.stands
  rw [LayoutSource.nodes_eq] at hstands
  obtain ⟨⟨k, mid, l₁, parser, w, hroot⟩, hbelow⟩ := List.forall_mem_cons.1 hstands
  obtain rfl : l = l₁ := by
    have hlater := LayoutSource.compile_of_le hcompile (hcompiled.trans hbuilt.frame.ids)
    rw [hroot.compiled] at hlater
    cases hlater
    rfl
  obtain ⟨s₂, w₂, hedit, hm₂, hparent₂, hchildren₂, hframe⟩ :=
    edit_changes context hroot.managed hname json
  have hchildrenKnown : ∀ child ∈ source.inflated, child.Known := by
    obtain ⟨-, hall⟩ := hknown
    exact hall
  obtain ⟨s₃, mid', m', w₃, happends, hm₃, hdata, hindex, hparent₃, hchildren₃, hbelow₃⟩ :=
    inflatesAppending_run hcontext' (LayoutSource.compile_of_le hcompile' hcompiled')
      hroot.type hchildrenKnown ha json data parent' index
  refine ⟨_, s₂, _, s₃, hedit, happends.inflate, happends, ?_⟩
  -- Both widgets have the children of the source, or neither has any.
  obtain ⟨children, hnodes, hids⟩ : ∃ children,
      (∀ id n, LayoutSource.childNodes id n children ⊆
        LayoutSource.childNodes id n source.inflated) ∧
      ∀ n, (if k.clears (Text.trimmed name, .ofJson json) then []
        else LayoutSource.childIds n source.inflated) = LayoutSource.childIds n children := by
    cases k.clears (Text.trimmed name, .ofJson json) with
    | true => exact ⟨[], fun id n => List.nil_subset _, fun n => rfl⟩
    | false => exact ⟨source.inflated, fun id n => List.Subset.refl _, fun n => rfl⟩
  have hlook : Look.initial parent' = Look.initial parent := by
    rw [Look.initial, Look.initial, hparent]
  rw [hlook] at hm₃
  rw [hroot.children, Node.children, hids] at hchildren₂
  rw [hids] at hchildren₃
  have halike := hm₂.alike hm₃ hdata.symm hindex.symm hchildren₂ hchildren₃ ?_
  · rwa [hparent₂, hroot.parent, hparent₃] at halike
  intro below _ i i' hsubset hsubset'
  refine alike_of_stands (fun node hnode => ?_)
    (fun node hnode => hbelow₃ node (hnodes _ _ (hsubset' hnode))) rfl
  have hmem := hnodes _ _ (hsubset hnode)
  refine (hbelow node hmem).frame hframe (fun heq => ?_) not_false
  have hbounds := LayoutSource.bounds_of_mem_childNodes hmem
  rw [heq] at hbounds
  exact absurd hbounds.1 (Nat.not_succ_le_self _)

/-- The form's children are taken away by an edit, as by an attribute at the end of the form. -/
theorem edit_alike_append_titledForm :
    ∃ l t' a s₁ s₂ root' s₃,
      titledForm.compile ownIds = (.ok l, t') ∧
      t'.get? (Text.trimmed " children ") = some a ∧ Text.trimmed " children " ≠ "" ∧
      own.inflate l formData none 3 (.ofIds t') = (.ok ⟨1⟩, s₁) ∧
      s₁.childrenOf ⟨1⟩ = [⟨2⟩, ⟨3⟩] ∧
      own.edit ⟨1⟩ " children " (.array []) s₁ = (.ok (), s₂) ∧ s₂.childrenOf ⟨1⟩ = [] ∧
      own.inflate (l.addAttributes [⟨a, .ofJson (.array [])⟩]) formData none 3 (.ofIds t') =
        (.ok root', s₃) ∧
      own.InflatesAppending l ⟨a, .ofJson (.array [])⟩ formData none 3 (.ofIds t') root' true s₃ ∧
      s₂.Alike s₃ none none ⟨1⟩ root' := by
  have hrun : Fallible.gives titledForm.compile ownIds (fun l t' =>
      Fallible.gives (own.inflate l formData none 3) (.ofIds t') fun root s₁ =>
        Fallible.gives (own.edit ⟨1⟩ " children " (.array [])) s₁ fun _ s₂ =>
          (t'.get? (Text.trimmed " children ")).any fun _ =>
            decide (root = ⟨1⟩ ∧ s₁.childrenOf ⟨1⟩ = [⟨2⟩, ⟨3⟩] ∧ s₂.childrenOf ⟨1⟩ = [])) =
      true := by
    decide +kernel
  have hname : Text.trimmed " children " ≠ "" := by decide +kernel
  obtain ⟨l, t', hcompile, hrun⟩ := Fallible.exists_of_gives hrun
  obtain ⟨root, s₁, hinflate, hrun⟩ := Fallible.exists_of_gives hrun
  obtain ⟨⟨⟩, s₂, hedit, hrun⟩ := Fallible.exists_of_gives hrun
  obtain ⟨a, ha, hrun⟩ := (Option.any_eq_true _ _).1 hrun
  obtain ⟨rfl, hchildren, hnone⟩ := of_decide_eq_true hrun
  have hcontext : own.HasOwnParsers (Session.ofIds t').ids :=
    own_hasOwnParsers (LayoutSource.stable_compile titledForm hcompile).1
  obtain ⟨accepted, s₂', root', s₃, hedit', hinflate', happends, halike⟩ :=
    edit_alike_append hcompile hcompile (le_refl t') (le_refl t') hcontext hcontext hinflate hname
      (.array []) ha (Eq.refl (none : Option WidgetId).isSome)
  rw [hedit] at hedit'
  obtain ⟨haccepted, rfl⟩ := Prod.mk.inj hedit'
  cases accepted with
  | false => cases haccepted
  | true =>
    exact ⟨l, t', a, s₁, s₂, root', s₃, hcompile, ha, hname, hinflate, hchildren, hedit, hnone,
      hinflate', happends, halike⟩

end Context

end LayoutEngine
