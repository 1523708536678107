import LayoutEngine.Proofs.Carry
import LayoutEngine.Proofs.Request
import LayoutEngine.Proofs.Walk

/-!
# Widgets with one holder

Where every parser makes a new widget every time, and a host gives out none that was there before,
the widgets that become of layouts are new and nobody's children yet (`Layout.inflate_spares`). So
no widget ever becomes a child of two others, or twice of one, whatever is asked of the engine
(`Context.single`), and a walk from a widget to those below it comes by each of them once
(`Session.Single.nodup_preorderWithin`).
-/

namespace LayoutEngine

open Session Engine

namespace Session

variable {s s' s'' : Session} {id child other : WidgetId} {ids : List WidgetId}

/-- No widget is a child of two others or twice of one, and only widgets that are there are
children. -/
structure Single (s : Session) : Prop where
  nodup : ∀ id, (s.childrenOf id).Nodup
  holder : ∀ {id other child}, child ∈ s.childrenOf id → child ∈ s.childrenOf other → id = other
  present : ∀ {id child}, child ∈ s.childrenOf id → (s.widget? child).isSome = true

/-- Widgets stay there when others are added. -/
theorem isSome_widget?_of_length (h : s.widgets.length ≤ s'.widgets.length)
    (hid : (s.widget? id).isSome = true) : (s'.widget? id).isSome = true := by
  rw [isSome_widget?_iff] at hid ⊢
  exact ⟨hid.1, hid.2.trans h⟩

/-! ## What inflating does to children -/

/-- Widgets have been added, and only such have become children, each of one widget and none of one
below it. -/
structure Expands (s s' : Session) : Prop where
  length : s.widgets.length ≤ s'.widgets.length
  taken : ∀ {id child}, child ∈ s'.childrenOf id →
    child ∈ s.childrenOf id ∨ s.widgets.length < child.number
  single : s.Single → s'.Single
  acyclic : s.Acyclic → s'.Acyclic

instance : IsPreorder Session Expands where
  refl _ := ⟨Nat.le_refl _, .inl, fun h => h, fun h => h⟩
  trans _ _ _ h₁ h₂ := by
    refine ⟨Nat.le_trans h₁.length h₂.length, fun hchild => ?_, fun h => h₂.single (h₁.single h),
      fun h => h₂.acyclic (h₁.acyclic h)⟩
    rcases h₂.taken hchild with hold | hnew
    · exact h₁.taken hold
    · exact .inr (Nat.lt_of_le_of_lt h₁.length hnew)

/-- Only widgets that have been added are children of such. -/
theorem Expands.newer (h : Expands s s') (hid : s.widgets.length < id.number)
    (hchild : child ∈ s'.childrenOf id) : s.widgets.length < child.number := by
  rcases h.taken hchild with hold | hnew
  · obtain ⟨w, hw⟩ := exists_widget_of_child hold
    exact absurd (number_le_of_widget? hw).2 (Nat.not_le_of_lt hid)
  · exact hnew

/-- Widgets have been added, and all children are where they were. -/
theorem Expands.of_childrenOf (hlength : s.widgets.length ≤ s'.widgets.length)
    (h : ∀ id, s'.childrenOf id = s.childrenOf id) : Expands s s' where
  length := hlength
  taken hchild := .inl (h _ ▸ hchild)
  single hs := by
    refine ⟨fun id => h id ▸ hs.nodup id, fun hid hother => ?_, fun hchild => ?_⟩
    · exact hs.holder (h _ ▸ hid) (h _ ▸ hother)
    · exact isSome_widget?_of_length hlength (hs.present (h _ ▸ hchild))
  acyclic hs id child hchild hbelow := by
    simp only [Below, h] at hchild hbelow
    exact hs id child hchild hbelow

/-- So it is where the widgets are as they were. -/
theorem Expands.of_widgets (h : s'.widgets = s.widgets) : Expands s s' :=
  .of_childrenOf (Nat.le_of_eq (congrArg List.length h.symm)) fun id => by
    rw [childrenOf, childrenOf, widget?_congr h]

/-- Where the shape is the same nothing has become a child. -/
theorem SameShape.expands {updates : Prop} (h : SameShape updates s s') : Expands s s' :=
  .of_childrenOf (Nat.le_of_eq h.length.symm) h.childrenOf

/-- A new widget is nobody's child. -/
theorem expands_create (item : Item) (s : Session) : Expands s (s.create item).2 :=
  .of_childrenOf (by simp [create]) (childrenOf_of_append rfl rfl)

/-- Nor is one with a manager. -/
theorem Born.expands {m : Manager} (h : s.Born s' m) : Expands s s' := by
  obtain ⟨w, hw, hlinks⟩ := h.widgets
  have hchildren : w.children = [] := congrArg (·.2.2) hlinks
  exact .of_childrenOf (by simp [hw]) (childrenOf_of_append hw hchildren)

/-- Different widgets have been made that are nobody's children yet. -/
structure Spare (s s' : Session) (ids : List WidgetId) : Prop where
  nodup : ids.Nodup
  newer : ∀ id ∈ ids, s.widgets.length < id.number
  present : ∀ id ∈ ids, (s'.widget? id).isSome = true
  free : s.Single → ∀ id ∈ ids, ∀ holder, id ∉ s'.childrenOf holder

namespace Spare

/-- No widgets at all are nobody's children. -/
theorem nil (s s' : Session) : Spare s s' [] :=
  ⟨List.nodup_nil, List.forall_mem_nil _, List.forall_mem_nil _, fun _ => List.forall_mem_nil _⟩

/-- What has happened before does not matter. -/
theorem after (hbefore : Expands s s') (h : Spare s' s'' ids) : Spare s s'' ids :=
  ⟨h.nodup, fun id hid => Nat.lt_of_le_of_lt hbefore.length (h.newer id hid), h.present,
    fun hs => h.free (hbefore.single hs)⟩

/-- A widget that is made is spare. -/
theorem of_create (item : Item) (s : Session) :
    Spare s (s.create item).2 [(s.create item).1] := by
  refine ⟨List.nodup_singleton _, ?_, ?_, ?_⟩
  all_goals simp only [List.mem_singleton, forall_eq]
  · exact Nat.lt_succ_self _
  · exact isSome_widget?_iff.2 ⟨Nat.succ_pos _, by simp [create]⟩
  · intro hs holder hmem
    have hsame : (s.create item).2.childrenOf holder = s.childrenOf holder :=
      childrenOf_of_append rfl rfl holder
    have hold := isSome_widget?_iff.1 (hs.present (hsame ▸ hmem))
    exact absurd hold.2 (Nat.not_succ_le_self _)

/-- Nor does it become a child by what happens later. -/
theorem before (h : Spare s s' ids) (hafter : Expands s' s'') : Spare s s'' ids := by
  refine ⟨h.nodup, h.newer,
    fun id hid => isSome_widget?_of_length hafter.length (h.present id hid), ?_⟩
  intro hs id hid holder hmem
  rcases hafter.taken hmem with hold | hnew
  · exact h.free hs id hid holder hold
  · exact absurd (isSome_widget?_iff.1 (h.present id hid)).2 (Nat.not_le_of_lt hnew)

/-- Widgets that have been made one after the other are different. -/
theorem cons (hfirst : Spare s s' [id]) (hexpands : Expands s s') (hafter : Expands s' s'')
    (hmore : Spare s' s'' ids) : Spare s s'' (id :: ids) := by
  have hid := hfirst.before hafter
  have hrest := hmore.after hexpands
  have hthere := isSome_widget?_iff.1 (hfirst.present id (List.mem_singleton_self id))
  have hne : id ∉ ids := fun hmem => absurd (hmore.newer id hmem) (Nat.not_lt_of_le hthere.2)
  refine ⟨List.nodup_cons.2 ⟨hne, hmore.nodup⟩, ?_, ?_, fun hs => ?_⟩
  · exact List.forall_mem_cons.2 ⟨hid.newer id (List.mem_singleton_self id), hrest.newer⟩
  · exact List.forall_mem_cons.2 ⟨hid.present id (List.mem_singleton_self id), hrest.present⟩
  · exact List.forall_mem_cons.2 ⟨hid.free hs id (List.mem_singleton_self id), hrest.free hs⟩

/-- What is below a widget that has been added, once others of these have become children of a
widget that was there, has been added as well and is as it was before. -/
theorem below_setChildren (hexpands : Expands s s') (hid : (s.widget? id).isSome = true)
    {low top : WidgetId} (htop : s.widgets.length < top.number)
    (h : (s'.setChildren id ids).Below low top) :
    s.widgets.length < low.number ∧ s'.Below low top := by
  induction h with
  | refl => exact ⟨htop, .refl⟩
  | @tail holder low _ hchild ih =>
    obtain ⟨hholder, hbelow⟩ := ih
    rcases childrenOf_setChildren id ids holder s' with heq | ⟨rfl, -⟩
    · rw [heq] at hchild
      exact ⟨hexpands.newer hholder hchild, hbelow.tail hchild⟩
    · exact absurd (isSome_widget?_iff.1 hid).2 (Nat.not_le_of_lt hholder)

/-- Spare widgets that become children of a widget that was there close no cycle. -/
theorem acyclic_setChildren (h : Spare s s' ids) (hexpands : Expands s s')
    (hid : (s.widget? id).isSome = true) (ha : s'.Acyclic) : (s'.setChildren id ids).Acyclic := by
  have hcases : ∀ {low top}, (s'.setChildren id ids).Below low top →
      s'.Below low top ∨ s.widgets.length < low.number := by
    intro low top hbelow
    induction hbelow with
    | refl => exact .inl .refl
    | @tail holder low _ hchild ih =>
      rcases childrenOf_setChildren id ids holder s' with heq | ⟨-, heq⟩
      · rw [heq] at hchild
        rcases ih with hold | hnew
        · exact .inl (hold.tail hchild)
        · exact .inr (hexpands.newer hnew hchild)
      · rw [heq] at hchild
        exact .inr (h.newer low hchild)
  intro holder child hchild hbelow
  rcases childrenOf_setChildren id ids holder s' with heq | ⟨rfl, heq⟩
  · rw [heq] at hchild
    rcases hcases hbelow with hold | hnew
    · exact ha holder child hchild hold
    · exact ha holder child hchild
        (below_setChildren hexpands hid (hexpands.newer hnew hchild) hbelow).2
  · rw [heq] at hchild
    have hnew := (below_setChildren hexpands hid (h.newer child hchild) hbelow).1
    exact absurd (isSome_widget?_iff.1 hid).2 (Nat.not_le_of_lt hnew)

/-- Spare widgets may take the place of those that were children. -/
theorem setChildren (h : Spare s s' ids) (hexpands : Expands s s')
    (hid : (s.widget? id).isSome = true) : Expands s (s'.setChildren id ids) := by
  have hlength : (s'.setChildren id ids).widgets.length = s'.widgets.length :=
    length_changeWidget id _ s'
  have hcases : ∀ {holder child}, child ∈ (s'.setChildren id ids).childrenOf holder →
      child ∈ s'.childrenOf holder ∨ holder = id ∧ child ∈ ids := by
    intro holder child hchild
    rcases childrenOf_setChildren id ids holder s' with heq | ⟨rfl, heq⟩
    · exact .inl (heq ▸ hchild)
    · exact .inr ⟨rfl, heq ▸ hchild⟩
  refine ⟨hlength ▸ hexpands.length, fun hchild => ?_, fun hs => ⟨fun holder => ?_, ?_, ?_⟩,
    fun hs => h.acyclic_setChildren hexpands hid (hexpands.acyclic hs)⟩
  · rcases hcases hchild with hold | ⟨-, hmem⟩
    · exact hexpands.taken hold
    · exact .inr (h.newer _ hmem)
  · rcases childrenOf_setChildren id ids holder s' with heq | ⟨-, heq⟩
    · rw [heq]
      exact (hexpands.single hs).nodup holder
    · rw [heq]
      exact h.nodup
  · intro holder other child hholder hother
    rcases hcases hholder with hold | ⟨rfl, hmem⟩ <;> rcases hcases hother with hold' | ⟨rfl, hmem'⟩
    · exact (hexpands.single hs).holder hold hold'
    · exact absurd hold (h.free hs child hmem' holder)
    · exact absurd hold' (h.free hs child hmem other)
    · rfl
  · intro holder child hchild
    refine isSome_widget?_of_length hlength.ge ?_
    rcases hcases hchild with hold | ⟨-, hmem⟩
    · exact (hexpands.single hs).present hold
    · exact h.present child hmem

end Spare

end Session

/-! ## Inflating any layout -/

/-- What is done about a type without parser makes a spare widget. -/
def UnknownType.Spares (registry : Registry) (unknown : UnknownType) : Prop :=
  ∀ (l : Layout) (data : Fields) (index : Int) (s : Session), registry.get? l.viewType = none →
    Engine.Leads Expands (unknown l data index) s fun id s' => s.Spare s' [id]

section

variable {context : Context} {unknown : UnknownType} {s : Session}

/-- Telling how an attribute fared expands a session by nothing. -/
theorem Session.expands_noteOutcome (id : WidgetId) (viewType : String) (a : Int) (value : Value)
    (accepted : Bool) (s : Session) : Expands s (s.noteOutcome id viewType a value accepted) := by
  unfold noteOutcome
  dsimp only
  split <;> exact .of_widgets rfl

/-- A layout becomes a new widget to which its attributes are applied, or is left to the host. -/
theorem Layout.inflate_spares_of_attributes (hnew : context.registry.MakesNew)
    (hunknown : unknown.Spares context.registry) (data : Fields) (parent : Option WidgetId)
    (index : Int) (l : Layout) (s : Session)
    (hattributes : ∀ (parser : ViewParser) (id : WidgetId) (s : Session),
      Leads Expands (applyAttributes context unknown parser l.viewType id l.attributes) s
        fun _ _ => True) :
    Leads Expands (l.inflate context unknown data parent index) s fun id s' => s.Spare s' [id] := by
  cases hget : context.registry.get? l.viewType with
  | none =>
    have hnote : Expands s (s.note (.noParser l.viewType)) := .of_widgets rfl
    refine .of_run (inflate_of_none unknown data parent index hget s) hnote ?_
    exact (hunknown l data index _ hget).imp fun _ _ _ hspare => hspare.after hnote
  | some parser =>
    obtain ⟨hid, hborn⟩ := ViewParser.start_of_new (hnew _ _ hget) context.verbose l data parent
      index s
    obtain ⟨w, hw, hlinks⟩ := hborn.widgets
    have hspare : s.Spare (parser.start context.verbose l data parent index s).2
        [(parser.start context.verbose l data parent index s).1] := by
      refine ⟨List.nodup_singleton _, ?_, ?_, ?_⟩
      all_goals simp only [List.mem_singleton, forall_eq, hid]
      · exact Nat.lt_succ_self _
      · exact isSome_widget?_iff.2 ⟨Nat.succ_pos _, by simp [hw]⟩
      · intro hs holder hmem
        rw [childrenOf_of_append hw (congrArg (·.2.2) hlinks)] at hmem
        exact absurd (isSome_widget?_iff.1 (hs.present hmem)).2 (Nat.not_succ_le_self _)
    refine .of_run (inflate_eq_start unknown data parent index hget s) hborn.expands ?_
    refine (hattributes parser _ _).bind fun _ s' hexpands _ => .pure ?_
    exact hspare.before hexpands

/-- An attribute is applied, and then the next ones are. -/
theorem Layout.applyAttributes_spares_cons {parser : ViewParser} {viewType : String} {id : WidgetId}
    {a : Int} {value : Value} {rest : List Attribute}
    (hvalue : Leads Expands (value.apply context unknown parser id a) s fun _ _ => True)
    (hrest : ∀ s, Leads Expands (applyAttributes context unknown parser viewType id rest) s
      fun _ _ => True) :
    Leads Expands (applyAttributes context unknown parser viewType id (⟨a, value⟩ :: rest)) s
      fun _ _ => True := by
  rw [applyAttributes_of_cons]
  refine hvalue.bind ?_
  intro accepted s₁ _ _
  dsimp only
  split
  · exact .change_bind (s₁.expands_noteOutcome id viewType a value accepted) (hrest _)
  · exact hrest s₁

/-- An attribute is left out, sets a property of its widget, or gives it spare widgets as
children. -/
theorem Value.apply_spares_of_inflateAll (parser : ViewParser) (id : WidgetId) (a : Int)
    (value : Value)
    (hall : ∀ items, value = .array items → ∀ data index,
      Leads Expands (inflateAll context unknown data id index items) s
        fun ids s' => s.Spare s' ids) :
    Leads Expands (value.apply context unknown parser id a) s fun _ _ => True := by
  have hnote : ∀ (notice : Notice) (s : Session), Expands s (s.note notice) :=
    fun _ _ => .of_widgets rfl
  have hreport : ∀ result s', Expands s' (parser.reportHandled a value result s') :=
    fun result s' => (sameShape_reportHandled True parser a value result s').expands
  cases hroute : parser.handler.route a with
  | property p =>
    rw [apply_of_property hroute]
    have happly := (sameShape_applyProperty True id p value s).expands
    exact Leads.observe (.act happly trivial) parser a value hreport
  | children =>
    by_cases harray : ∃ items, value = .array items
    · obtain ⟨items, rfl⟩ := harray
      rw [apply_of_children hroute]
      refine Leads.observe (.look_bind ?_) parser a _ hreport
      cases hm : s.managerOf? id with
      | none => exact .change_bind (hnote _ s) (.pure trivial)
      | some m =>
        dsimp only
        split
        · refine (hall items rfl m.data m.index).bind_from fun children s₁ hexpands hspare => ?_
          refine ⟨?_, fun _ _ => trivial⟩
          rw [Fallible.bind_run_ok (change_run _ s₁), Fallible.pure_run]
          obtain ⟨w, _, hw, -⟩ := managerOf?_eq_some_iff.1 hm
          have hset := hspare.setChildren hexpands (Option.isSome_of_eq_some hw)
          unfold replaceChildren
          dsimp only
          split
          · exact hset
          · exact trans_of Expands hset (hnote _ _)
        · exact .change_bind (hnote _ s) (.pure trivial)
    · rw [apply_of_not_array hroute fun items hitems => harray ⟨items, hitems⟩]
      exact Leads.observe (.pure trivial) parser a value hreport
  | presence =>
    rw [apply_of_presence hroute]
    exact Leads.observe (.pure trivial) parser a value hreport
  | unknown =>
    rw [apply_of_unknown hroute]
    exact Leads.observe (.pure trivial) parser a value hreport

/-- A layout among values is inflated, and then the other values are. -/
theorem Value.inflateAll_spares_cons {data : Fields} {parent : WidgetId} {index : Int} {l : Layout}
    {rest : List Value}
    (hl : Leads Expands (l.inflate context unknown data (some parent) index) s
      fun id s' => s.Spare s' [id])
    (hrest : ∀ s, Leads Expands (inflateAll context unknown data parent index rest) s
      fun ids s' => s.Spare s' ids) :
    Leads Expands (inflateAll context unknown data parent index (.layout l :: rest)) s
      fun ids s' => s.Spare s' ids := by
  rw [inflateAll_of_layout]
  refine hl.bind fun id s₁ hexpands hspare => ?_
  exact (hrest s₁).bind fun ids s₂ hexpands' hmore =>
    .pure (hspare.cons hexpands hexpands' hmore)

end

section

variable {context : Context} {unknown : UnknownType}

mutual

/-- Inflating a layout makes a spare widget. -/
theorem Layout.inflate_spares (hnew : context.registry.MakesNew)
    (hunknown : unknown.Spares context.registry) (data : Fields) (parent : Option WidgetId)
    (index : Int) : ∀ (l : Layout) (s : Session),
      Leads Expands (l.inflate context unknown data parent index) s fun id s' => s.Spare s' [id]
  | ⟨viewType, attributes, tags⟩, s =>
    Layout.inflate_spares_of_attributes hnew hunknown data parent index
      ⟨viewType, attributes, tags⟩ s fun parser id s =>
        Layout.applyAttributes_spares hnew hunknown parser viewType id attributes s
termination_by structural l => l

/-- Applying attributes gives widgets spare ones as children. -/
theorem Layout.applyAttributes_spares (hnew : context.registry.MakesNew)
    (hunknown : unknown.Spares context.registry) (parser : ViewParser) (viewType : String)
    (id : WidgetId) : ∀ (attributes : List Attribute) (s : Session),
      Leads Expands (Layout.applyAttributes context unknown parser viewType id attributes) s
        fun _ _ => True
  | [], _ => .pure trivial
  | ⟨a, value⟩ :: rest, s =>
    Layout.applyAttributes_spares_cons (Value.apply_spares hnew hunknown parser id a value s)
      (Layout.applyAttributes_spares hnew hunknown parser viewType id rest)
termination_by structural attributes => attributes

/-- Applying an attribute expands a session. -/
theorem Value.apply_spares (hnew : context.registry.MakesNew)
    (hunknown : unknown.Spares context.registry) (parser : ViewParser) (id : WidgetId) (a : Int) :
    ∀ (value : Value) (s : Session),
      Leads Expands (value.apply context unknown parser id a) s fun _ _ => True
  | .array items, s =>
    Value.apply_spares_of_inflateAll parser id a (.array items) fun items' hitems data index => by
      cases hitems
      exact Value.inflateAll_spares hnew hunknown data id index items s
  | .null, _ | .bool _, _ | .int _, _ | .float _, _ | .string _, _ | .object _, _ | .binding _, _
  | .layout _, _ => Value.apply_spares_of_inflateAll parser id a _ nofun
termination_by structural value => value

/-- Layouts inflated one after the other get different widgets that are nobody's children yet. -/
theorem Value.inflateAll_spares (hnew : context.registry.MakesNew)
    (hunknown : unknown.Spares context.registry) (data : Fields) (parent : WidgetId) (index : Int) :
    ∀ (items : List Value) (s : Session),
      Leads Expands (Value.inflateAll context unknown data parent index items) s
        fun ids s' => s.Spare s' ids
  | [], s => .pure (.nil s s)
  | .layout l :: rest, s =>
    Value.inflateAll_spares_cons
      (Layout.inflate_spares hnew hunknown data (some parent) index l s)
      (Value.inflateAll_spares hnew hunknown data parent index rest)
  | .null :: rest, s | .bool _ :: rest, s | .int _ :: rest, s | .float _ :: rest, s
  | .string _ :: rest, s | .object _ :: rest, s | .binding _ :: rest, s | .array _ :: rest, s =>
    Value.inflateAll_spares hnew hunknown data parent index rest s
termination_by structural items => items

end

end

namespace Context

variable {context : Context} {s : Session} (hnew : context.registry.MakesNew)
  (hcovers : Supply.all.Covers context)
include hnew hcovers

/-- The fallback makes spare widgets. -/
theorem unknown_spares (budget : Nat) : (context.unknown budget).Spares context.registry := by
  induction budget using Nat.strongRecOn with
  | ind budget ih =>
    intro l data index s hnone
    cases hfallback : context.fallback with
    | none =>
      have hrun : context.unknown budget l data index = throw (.unresolvedType l.viewType) := by
        cases budget <;> simp only [unknown, hfallback]
      rw [hrun]
      exact .throw _
    | some answer =>
      have htell : Expands s
          (s.tell (.unknown l.viewType l.attributes.length data.length index)) := .of_widgets rfl
      have hnote : ∀ (notice : Notice) (s : Session), Expands s (s.note notice) :=
        fun _ _ => .of_widgets rfl
      have hcreate : ∀ {s' : Session}, Expands s s' →
          Leads Expands (act (·.create .view)) s' fun id s'' => s.Spare s'' [id] :=
        fun hbefore => .act (expands_create .view _) ((Spare.of_create .view _).after hbefore)
      rw [unknown, hfallback]
      refine .change_bind htell ?_
      cases hanswer : answer l.viewType with
      | nothing => exact .throw _
      | newView => exact hcreate htell
      | placeholder =>
        exact .change_bind (hnote _ _) (hcreate (trans_of Expands htell (hnote _ _)))
      | widget id => exact absurd hanswer (hcovers.answer trivial hnone hfallback id)
      | layout name =>
        dsimp only
        cases context.layouts.get? name with
        | none => exact .throw _
        | some named =>
          cases budget with
          | zero => exact .throw _
          | succ budget =>
            have hinflate := named.inflate_spares hnew (ih budget (Nat.lt_succ_self budget)) data
              none index (s.tell (.unknown l.viewType l.attributes.length data.length index))
            refine (hinflate.imp fun _ _ _ hspare => hspare.after htell).tryCatch fun e s' _ => ?_
            split <;> exact .throw _

end Context

namespace Context

variable {context : Context} {unknown : UnknownType} (hnew : context.registry.MakesNew)
  (hunknown : unknown.Spares context.registry)
include hnew hunknown

/-- A request leaves every widget at most one holder and none below itself, whether or not it
fails. -/
theorem serveBy_expands (r : Request) (s : Session) :
    Expands s (context.serveBy (.own unknown) s r) := by
  have hinflate : ∀ (l : Layout) data parent index,
      Expands s (l.inflate context unknown data parent index s).2 := fun l data parent index =>
    (l.inflate_spares hnew hunknown data parent index s).along
  have happly : ∀ (parser : ViewParser) id a (value : Value) (s : Session),
      Expands s (value.apply context unknown parser id a s).2 := fun parser id a value s =>
    (value.apply_spares hnew hunknown parser id a s).along
  cases r with
  | act act =>
    cases act with
    | name name => exact .of_widgets rfl
    | inflate l data parent index => exact hinflate l data parent index
    | edit id name json =>
      refine context.editBy_keeps id name json (fun m _ => ?_) fun _ _ _ _ => .of_widgets rfl
      have hname : Expands s (s.intern (Text.trimmed name)).2 := .of_widgets rfl
      exact trans_of Expands hname (happly m.parser id _ (.ofJson json) _)
    | update held mid data =>
      show Expands s (context.updateBy (.own unknown) _ mid data s).2
      rw [updateBy_own]
      exact (context.update_shape _ mid data s).expands
  | create item => exact expands_create item s
  | compile source => exact .of_widgets rfl
  | inflateNamed name data parent index =>
    rw [serveBy, inflateNamedBy]
    cases context.layouts.get? name with
    | none => exact refl_of Expands s
    | some l => exact hinflate l data parent index
  | handle parser id a value => exact happly parser id a value s

/-- So do requests one after the other. -/
theorem serveAllBy_expands (requests : List Request) (s : Session) :
    Expands s (context.serveAllBy (.own unknown) requests s) := by
  induction requests generalizing s with
  | nil => exact refl_of Expands s
  | cons r rest ih => exact trans_of Expands (serveBy_expands hnew hunknown r s) (ih _)

end Context

/-- At first there are no children. -/
theorem Session.childrenOf_ofIds (t : IdTable) (id : WidgetId) :
    (Session.ofIds t).childrenOf id = [] := by
  rw [childrenOf, widget?_ofIds]
  rfl

/-- Without widgets none is the child of two. -/
theorem Session.single_ofIds (t : IdTable) : (Session.ofIds t).Single := by
  refine ⟨fun id => childrenOf_ofIds t id ▸ List.nodup_nil, fun hid => ?_, fun hid => ?_⟩
  all_goals
    rw [childrenOf_ofIds] at hid
    cases hid

/-- Without widgets none is below itself. -/
theorem Session.acyclic_ofIds (t : IdTable) : (Session.ofIds t).Acyclic := fun id child hchild => by
  rw [childrenOf_ofIds] at hchild
  cases hchild

/-! ## Walks -/

namespace Session

variable {s : Session}

/-- Of two widgets above a third one is above the other. -/
theorem Single.below_total (hs : s.Single) {id top top' : WidgetId} (h : s.Below id top)
    (h' : s.Below id top') : s.Below top top' ∨ s.Below top' top := by
  have hunique : Relator.RightUnique fun child holder : WidgetId => child ∈ s.childrenOf holder :=
    fun _ _ _ => hs.holder
  rcases Relation.ReflTransGen.total_of_right_unique hunique h.swap h'.swap with h | h
  · exact .inl h.swap
  · exact .inr h.swap

/-- What is below one child of a widget is not below another. -/
theorem Single.eq_of_below (hs : s.Single) (ha : s.Acyclic) {id top child child' : WidgetId}
    (hchild : child ∈ s.childrenOf top) (hchild' : child' ∈ s.childrenOf top)
    (h : s.Below id child) (h' : s.Below id child') : child = child' := by
  have hsame : ∀ {child child' : WidgetId}, child ∈ s.childrenOf top → child' ∈ s.childrenOf top →
      s.Below child child' → child = child' := by
    intro child child' hchild hchild' hbelow
    rcases hbelow.cases_tail with heq | ⟨holder, hholder, hmem⟩
    · exact heq
    · rw [hs.holder hmem hchild] at hholder
      exact absurd hholder (ha top child' hchild')
  rcases hs.below_total h h' with hbelow | hbelow
  · exact hsame hchild hchild' hbelow
  · exact (hsame hchild' hchild hbelow).symm

/-- Where no widget has two holders, a walk in preorder comes by none twice. -/
theorem Single.nodup_preorderWithin (hs : s.Single) (ha : s.Acyclic) {fuel depth : Nat}
    {top : WidgetId} {walk : List (Nat × WidgetId)}
    (h : s.preorderWithin fuel depth top = some walk) : (walk.map Prod.snd).Nodup := by
  induction fuel generalizing depth top walk with
  | zero => cases h
  | succ fuel ih =>
    obtain ⟨rfl, hchildren⟩ := preorderWithin_eq h
    rw [List.map_cons, preorderAll, List.map_flatMap, List.nodup_cons, List.nodup_flatMap]
    refine ⟨?_, ?_, ?_⟩
    · intro htop
      obtain ⟨child, hchild, hbelow⟩ := List.mem_flatMap.1 htop
      obtain ⟨below, hrun⟩ := hchildren child hchild
      rw [hrun, Option.getD_some] at hbelow
      exact ha top child hchild ((mem_preorderWithin_iff hrun).1 hbelow)
    · intro child hchild
      obtain ⟨below, hrun⟩ := hchildren child hchild
      rw [hrun, Option.getD_some]
      exact ih hrun
    · refine (hs.nodup top).imp_of_mem ?_
      intro child child' hchild hchild' hne id hid hid'
      obtain ⟨below, hrun⟩ := hchildren child hchild
      obtain ⟨below', hrun'⟩ := hchildren child' hchild'
      dsimp only at hid hid'
      rw [hrun, Option.getD_some] at hid
      rw [hrun', Option.getD_some] at hid'
      exact hne (hs.eq_of_below ha hchild hchild' ((mem_preorderWithin_iff hrun).1 hid)
        ((mem_preorderWithin_iff hrun').1 hid'))

end Session

end LayoutEngine
