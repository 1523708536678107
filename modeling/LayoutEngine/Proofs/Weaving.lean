import LayoutEngine.Proofs.Growth

/-!
# Inflation step by step

Inflating a layout and applying attributes to a widget take a session further by steps, whatever
the layout holds, whatever parsers are registered and whatever a host answers
(`Layout.inflate_leads`, `Value.apply_leads`). A layout whose type has a parser first gets its
widget and the widget its manager, and only then are its attributes applied
(`Layout.inflate_manages`).
-/

namespace LayoutEngine

open Session Engine

/-! ## The start of an inflation -/

namespace ViewParser

variable {parser : ViewParser} {s s' : Session}

/-- Telling observers leaves all but what they have been told as it is. -/
theorem report_eq (parser : ViewParser) (call : HostCall) (s : Session) :
    parser.report call s = { s with calls := (parser.report call s).calls } := by
  unfold report
  split <;> rfl

@[simp] theorem widgets_report (parser : ViewParser) (call : HostCall) (s : Session) :
    (parser.report call s).widgets = s.widgets := by
  rw [report_eq]

@[simp] theorem managers_report (parser : ViewParser) (call : HostCall) (s : Session) :
    (parser.report call s).managers = s.managers := by
  rw [report_eq]

@[simp] theorem kept_report (parser : ViewParser) (call : HostCall) (s : Session) :
    (parser.report call s).kept = s.kept := by
  rw [report_eq]

/-- Making or giving out a widget tells observers nothing of managers. -/
theorem sameShape_report (updates : Prop) (parser : ViewParser) {call : HostCall}
    (h : call.isAttachment = false) (s : Session) :
    SameShape updates s (parser.report call s) := by
  unfold report
  split
  · exact sameShape_tell updates h s
  · exact .refl updates s

/-- A session has one widget more than another, which is kept if its parser makes only one. -/
structure Makes (parser : ViewParser) (s s' : Session) (item : Item) : Prop where
  widgets : s'.widgets = s.widgets ++ [.ofItem item]
  managers : s'.managers = s.managers
  vacant : ∀ place, parser.place? = some place → Entries.get? place s.kept = none
  kept : s'.kept = parser.keep ⟨s.widgets.length + 1⟩ s.kept
  calls : s'.calls.filter HostCall.isAttachment = s.calls.filter HostCall.isAttachment

/-- A parser gives out the widget that it has kept, or makes one. -/
theorem giveOut_run (parser : ViewParser) (viewType : String) (index : Int) (s : Session) :
    (∃ id place s', parser.giveOut viewType index s = (id, s') ∧ SameShape False s s' ∧
      parser.place? = some place ∧ Entries.get? place s.kept = some id) ∨
    ∃ item s', parser.giveOut viewType index s = (⟨s.widgets.length + 1⟩, s') ∧
      parser.Makes s s' item := by
  have hreport : SameShape False s (parser.report (.create parser.typeName viewType index) s) := by
    refine parser.sameShape_report False ?_ s
    rfl
  have hwidgets := widgets_report parser (.create parser.typeName viewType index) s
  unfold giveOut
  generalize parser.report (.create parser.typeName viewType index) s = s₁ at hreport hwidgets
  dsimp only
  cases hcreation : parser.creation with
  | fresh item =>
    have hplace : parser.place? = none := by rw [place?, hcreation]
    refine .inr ⟨item, _, Prod.ext (by simp [create, hwidgets]) rfl, ?_⟩
    refine ⟨?_, hreport.data not_false, by simp [hplace], ?_, hreport.calls⟩
    · simp [create, hwidgets]
    · simp [create, keep, hplace, hreport.kept]
  | kept place item =>
    have hplace : parser.place? = some place := by rw [place?, hcreation]
    dsimp only
    rw [hreport.kept]
    cases hkept : Entries.get? place s.kept with
    | some id => exact .inl ⟨id, place, s₁, rfl, hreport, hplace, hkept⟩
    | none =>
      refine .inr ⟨item, _, Prod.ext (by simp [create, hwidgets]) rfl, ?_⟩
      refine ⟨?_, hreport.data not_false, ?_, ?_, hreport.calls⟩
      · simp [create, hwidgets]
      · rintro own hown
        rw [hplace] at hown
        cases hown
        exact hkept
      · simp [create, keep, hplace, hreport.kept, hwidgets]

/-- Giving out a widget changes the widgets, what is kept of them and what observers know. -/
theorem giveOut_eq (parser : ViewParser) (viewType : String) (index : Int) (s : Session) :
    (parser.giveOut viewType index s).2 =
      { s with
        widgets := (parser.giveOut viewType index s).2.widgets
        kept := (parser.giveOut viewType index s).2.kept
        calls := (parser.giveOut viewType index s).2.calls } := by
  unfold giveOut
  rw [parser.report_eq]
  split
  · rfl
  · dsimp only
    split <;> rfl

/-- Giving a widget its manager changes the widgets and managers, and what is told of them. -/
theorem attach_eq (parser : ViewParser) (verbose : Bool) (l : Layout) (data : Fields)
    (parent : Option WidgetId) (index : Int) (id : WidgetId) (s : Session) :
    parser.attach verbose l data parent index id s =
      { s with
        widgets := (parser.attach verbose l data parent index id s).widgets
        managers := (parser.attach verbose l data parent index id s).managers
        log := (parser.attach verbose l data parent index id s).log
        calls := (parser.attach verbose l data parent index id s).calls
        attaching := (parser.attach verbose l data parent index id s).attaching } := by
  unfold ViewParser.attach setUp report
  split
  · split <;> rfl
  · obtain ⟨_ | n⟩ := id <;> cases parser.isObserved <;> cases verbose <;> rfl

/-- A widget that has been made is given its manager. -/
theorem Makes.attach {item : Item} (h : parser.Makes s s' item) (verbose : Bool) (l : Layout)
    (data : Fields) (parent : Option WidgetId) (index : Int) :
    s.Born (parser.attach verbose l data parent index ⟨s.widgets.length + 1⟩ s')
      ⟨⟨s.widgets.length + 1⟩, l, parser, parent, index, data⟩ := by
  have hself : s'.widget? ⟨s.widgets.length + 1⟩ = some (.ofItem item) :=
    (widget?_append_iff h.widgets).2 (.inr ⟨rfl, rfl⟩)
  have hborn : s.Born
      ((parser.report (.manager parser.typeName)
        ((parser.setUp ⟨s.widgets.length + 1⟩ parent index
          (s'.ask (.setUp ⟨s.widgets.length + 1⟩))).ask
            (.manager ⟨s.widgets.length + 1⟩))).addManager ⟨s.widgets.length + 1⟩
        ⟨⟨s.widgets.length + 1⟩, l, parser, parent, index, data⟩)
      ⟨⟨s.widgets.length + 1⟩, l, parser, parent, index, data⟩ := by
    refine ⟨rfl, ?_, ?_, h.vacant, ?_, ?_⟩
    · refine ⟨{ Widget.ofItem item with
        view := (Widget.ofItem item).view.attach parent
        manager := some ⟨s.managers.length⟩ }, ?_, rfl⟩
      simp [setUp, ask, addManager, changeView, changeWidget, h.widgets, h.managers,
        modify_length_append]
    · simp [setUp, ask, addManager, changeView, changeWidget, h.managers]
    · simp [setUp, ask, addManager, changeView, changeWidget, h.kept]
    · rw [← h.calls]
      unfold setUp report Manager.attachment
      cases parser.isObserved <;>
        simp [ask, addManager, changeView, changeWidget, Session.tell, HostCall.isAttachment]
  rw [ViewParser.attach, hself]
  dsimp only [Option.bind_some, Widget.ofItem]
  split
  · exact ⟨hborn.widget, hborn.widgets, hborn.managers, hborn.vacant, hborn.kept, hborn.calls⟩
  · exact hborn

/-- A widget that has a manager keeps it. -/
theorem attach_of_managed {id : WidgetId} {mid : ManagerId}
    (h : (s.widget? id).bind (·.manager) = some mid) (parser : ViewParser) (verbose : Bool)
    (l : Layout) (data : Fields) (parent : Option WidgetId) (index : Int) :
    SameShape False s (parser.attach verbose l data parent index id s) := by
  rw [ViewParser.attach, h]
  dsimp only
  split <;> exact .of_eq rfl rfl rfl rfl rfl

/-- A widget that is there has a manager afterwards. -/
theorem attach_manages {id : WidgetId} (h : (s.widget? id).isSome = true) (parser : ViewParser)
    (verbose : Bool) (l : Layout) (data : Fields) (parent : Option WidgetId) (index : Int) :
    (((parser.attach verbose l data parent index id s).widget? id).bind (·.manager)).isSome =
      true := by
  cases hmid : (s.widget? id).bind (·.manager) with
  | some mid =>
    rw [(attach_of_managed hmid parser verbose l data parent index).manager, hmid]
    rfl
  | none =>
    have hself : ∀ (m : Manager) (s' : Session), (s'.widget? id).isSome = true →
        (((s'.addManager id m).widget? id).bind (·.manager)).isSome = true := by
      intro m s' hs'
      obtain ⟨w, hw⟩ := Option.isSome_iff_exists.1 hs'
      have hadd : (s'.addManager id m).widget? id = (s'.changeWidget id fun widget =>
          { widget with manager := some ⟨s'.managers.length⟩ }).widget? id := widget?_congr rfl id
      rw [hadd, widget?_changeWidget_self, hw]
      rfl
    have hthere : ((parser.report (.manager parser.typeName)
        ((parser.setUp id parent index (s.ask (.setUp id))).ask (.manager id))).widget? id).isSome =
          true := by
      have hask : ∀ (call : ParserCall) (s' : Session), (s'.ask call).widget? id = s'.widget? id :=
        fun _ _ => widget?_congr rfl id
      rw [widget?_congr (widgets_report parser _ _), hask, setUp, changeView,
        widget?_changeWidget_self, widget?_congr (widgets_report parser _ _), hask,
        Option.isSome_map, h]
    have hmanaged := hself ⟨id, l, parser, parent, index, data⟩ _ hthere
    rw [ViewParser.attach, hmid]
    dsimp only
    split <;> exact hmanaged

end ViewParser

/-- The kept widgets are there. -/
def Session.KeepsWidgets (s : Session) : Prop :=
  ∀ place id, Entries.get? place s.kept = some id → (s.widget? id).isSome = true

/-- Recording what is declared leaves the shape. -/
theorem Session.sameShape_recordTags (updates : Prop) (id : WidgetId) (l : Layout) (s : Session) :
    SameShape updates s (s.recordTags id l) := by
  unfold Session.recordTags
  split
  · exact .refl updates s
  · split <;> exact .of_eq rfl rfl rfl rfl rfl

/-- Recording declared attributes makes nothing. -/
theorem Session.Born.recordTags {s s' : Session} {m : Manager} (h : s.Born s' m) (id : WidgetId)
    (l : Layout) : s.Born (s'.recordTags id l) m := by
  unfold Session.recordTags
  split
  · exact h
  · split
    · exact ⟨h.widget, h.widgets, h.managers, h.vacant, h.kept, h.calls⟩
    · exact h

namespace Layout

variable {context : Context} {supply : Supply} (unknown : UnknownType) {s : Session}
  {parser : ViewParser}

/-- The start of an inflation: a widget is given out and managed, and its declared attributes are
recorded. -/
theorem inflate_eq (data : Fields) (parent : Option WidgetId) (index : Int) {l : Layout}
    (hget : context.registry.get? l.viewType = some parser) (s : Session) :
    l.inflate context unknown data parent index s =
      (do
        applyAttributes context unknown parser l.viewType
          (parser.giveOut l.viewType index s).1 l.attributes
        return (parser.giveOut l.viewType index s).1 : Engine WidgetId)
      ((parser.attach context.verbose l data parent index (parser.giveOut l.viewType index s).1
        (parser.giveOut l.viewType index s).2).recordTags
          (parser.giveOut l.viewType index s).1 l) := by
  obtain ⟨viewType, attributes, tags⟩ := l
  rw [inflate_of_mk, hget]
  dsimp only
  rw [Fallible.bind_run_ok (act_run _ s), Fallible.bind_run_ok (change_run _ _),
    Fallible.bind_run_ok (change_run _ _)]

/-- In a session that has its kept widgets, a layout whose type has a parser gets a widget that has
a manager, and only then are its attributes applied. -/
theorem inflate_manages (hkept : s.KeepsWidgets) (data : Fields) (parent : Option WidgetId)
    (index : Int) {l : Layout} (hget : context.registry.get? l.viewType = some parser) :
    ∃ id s',
      l.inflate context unknown data parent index s =
        (do
          applyAttributes context unknown parser l.viewType id l.attributes
          return id : Engine WidgetId) s' ∧
      ((s'.widget? id).bind (·.manager)).isSome = true := by
  refine ⟨_, _, inflate_eq unknown data parent index hget s, ?_⟩
  have hexists : ((parser.giveOut l.viewType index s).2.widget?
      (parser.giveOut l.viewType index s).1).isSome = true := by
    rcases parser.giveOut_run l.viewType index s with
      ⟨id, place, s₁, hgive, hsame, -, hid⟩ | ⟨item, s₁, hgive, hmakes⟩
    all_goals rw [hgive]
    · obtain ⟨w, hw⟩ := Option.isSome_iff_exists.1 (hkept place id hid)
      obtain ⟨w', hw', -⟩ := hsame.widget? hw
      exact Option.isSome_iff_exists.2 ⟨w', hw'⟩
    · exact Option.isSome_iff_exists.2
        ⟨_, (widget?_append_iff hmakes.widgets).2 (.inr ⟨rfl, rfl⟩)⟩
  have hmanaged := ViewParser.attach_manages hexists parser context.verbose l data parent index
  rwa [(sameShape_recordTags False _ l _).manager]

/-- A layout whose type has a parser gets a widget, and the widget a manager, before its attributes
are applied. The widget is new, or one that the parser has kept. -/
theorem inflate_start_of_tracked (ht : s.Tracked context supply) (data : Fields)
    (parent : Option WidgetId) (index : Int) {l : Layout}
    (hget : context.registry.get? l.viewType = some parser) :
    ∃ id s',
      l.inflate context unknown data parent index s =
        (do
          applyAttributes context unknown parser l.viewType id l.attributes
          return id : Engine WidgetId) s' ∧
      (s.Born s' ⟨id, l, parser, parent, index, data⟩ ∨
        s.SameShape False s' ∧ ∃ place, parser.place? = some place ∧
          Entries.get? place s.kept = some id) := by
  have hrun := inflate_eq unknown data parent index hget s
  rcases parser.giveOut_run l.viewType index s with
    ⟨id, place, s₁, hgive, hsame, hplace, hkept⟩ | ⟨item, s₁, hgive, hmakes⟩
  all_goals rw [hgive] at hrun
  · obtain ⟨m, hm, -⟩ := ht.exists_of_kept hkept
    obtain ⟨w, mid, hw, hmid, -⟩ := managerOf?_eq_some_iff.1 hm
    have hmanaged : (s₁.widget? id).bind (·.manager) = some mid := by
      rw [hsame.manager, hw]
      exact hmid
    refine ⟨id, _, hrun, .inr ⟨?_, place, hplace, hkept⟩⟩
    exact (hsame.trans (ViewParser.attach_of_managed hmanaged parser context.verbose l data parent
      index)).trans (sameShape_recordTags False id l _)
  · exact ⟨_, _, hrun, .inl ((hmakes.attach context.verbose l data parent index).recordTags _ l)⟩

end Layout

/-! ## Inflating any layout -/

namespace Session

variable {context : Context} {supply : Supply} {updates : Prop} {s s' s'' : Session}
  {id : WidgetId} {parent : Option WidgetId} {index : Int} {first : Nat}

/-- A layout may go under a widget. -/
def Takes (context : Context) (supply : Supply) (s : Session) (id : WidgetId) (l : Layout) : Prop :=
  ∃ m, s.managerOf? id = some m ∧ m.Takes context supply l

/-- Widgets are what has become of some of the layouts, one after the other. -/
structure Brings (context : Context) (first : Nat) (parent : WidgetId) (index : Int)
    (ls : List Layout) (ids : List WidgetId) (s : Session) : Prop where
  becomes : ∀ id ∈ ids, ∃ l ∈ ls, s.Becomes context first (some parent) index l id
  newer : ids.Pairwise fun id later => s.IsFresh later → id.number < later.number

/-- A layout that a widget may take it may take still when the session has grown. -/
theorem Grows.takes (h : Grows updates s s') {l : Layout} (ht : s.Takes context supply id l) :
    s'.Takes context supply id l := by
  obtain ⟨m, hm, htakes⟩ := ht
  obtain ⟨data, hm'⟩ := h.managerOf? hm
  exact ⟨_, hm', htakes⟩

namespace Becomes

variable {l l' : Layout}

/-- What has become of a layout is a widget that is there. -/
theorem number_le (h : s.Becomes context first parent index l id) :
    id.number ≤ s.widgets.length := by
  cases h with
  | managed hm _ _ =>
    obtain ⟨w, mid, hw, -⟩ := managerOf?_eq_some_iff.1 hm
    exact (number_le_of_widget? hw).2
  | bare _ hw _ _ => exact (number_le_of_widget? hw).2

/-- If it was made for the layout, it is one of the newer widgets. -/
theorem newer (h : s.Becomes context first parent index l id) (hfresh : s.IsFresh id) :
    first < id.number := by
  cases h with
  | managed _ _ hnewer => exact hnewer hfresh
  | bare _ _ _ hnewer => exact hnewer

/-- It is so for fewer widgets that were there first. -/
theorem of_le {first' : Nat} (hle : first' ≤ first)
    (h : s.Becomes context first parent index l id) :
    s.Becomes context first' parent index l id := by
  cases h with
  | managed hm hcomes hnewer =>
    exact .managed hm hcomes fun hfresh => Nat.lt_of_le_of_lt hle (hnewer hfresh)
  | bare hhost hw hmid hnewer => exact .bare hhost hw hmid (Nat.lt_of_le_of_lt hle hnewer)

/-- A host has had another layout inflated, and may have left out the parent. -/
theorem of_replaces {parent' : Option WidgetId} (hreplaces : context.Replaces l l')
    (h : s.Becomes context first parent' index l' id) :
    s.Becomes context first parent index l id := by
  cases h with
  | managed hm hcomes hnewer =>
    obtain ⟨l'', hchain, hshares⟩ := hcomes.shares
    refine .managed hm ⟨⟨l'', hchain.head hreplaces, hshares⟩, fun hplace => ?_⟩ hnewer
    refine ⟨(hcomes.fresh hplace).1, fun hno => ?_⟩
    obtain ⟨answer, name, hanswer, -⟩ := hreplaces
    rw [hno] at hanswer
    cases hanswer
  | bare hhost hw hmid hnewer => exact .bare hhost hw hmid hnewer

end Becomes

/-- What is brought later is newer. -/
theorem Brings.cons {parent : WidgetId} {l : Layout} {ls : List Layout} {more : List WidgetId}
    (hfirst : first ≤ s.widgets.length) (hl : s.Becomes context first (some parent) index l id)
    (hsteps : Grows updates s s')
    (hmore : s'.Brings context s.widgets.length parent index ls more) :
    s'.Brings context first parent index (l :: ls) (id :: more) := by
  have hnewer : ∀ other ∈ more, s'.IsFresh other → s.widgets.length < other.number := by
    intro other hother
    obtain ⟨l', -, hbecomes⟩ := hmore.becomes other hother
    exact hbecomes.newer
  refine ⟨List.forall_mem_cons.2 ⟨⟨l, List.mem_cons_self, hsteps.becomes hl⟩, ?_⟩,
    List.pairwise_cons.2 ⟨?_, hmore.newer⟩⟩
  · intro other hother
    obtain ⟨l', hl', hbecomes⟩ := hmore.becomes other hother
    exact ⟨l', List.mem_cons_of_mem l hl', hbecomes.of_le hfirst⟩
  · intro other hother hfresh
    exact Nat.lt_of_le_of_lt hl.number_le (hnewer other hother hfresh)

/-- Widgets that have become of layouts that may go under a widget may be its children. -/
theorem Brings.weaves {ls : List Layout} {ids : List WidgetId} {m : Manager}
    (hm : s.managerOf? id = some m) (hls : ∀ l ∈ ls, m.Takes context supply l)
    (hfirst : id.number ≤ first) (h : s.Brings context first id m.index ls ids) :
    s.Weaves context supply id ids := by
  refine ⟨?_, h.newer⟩
  intro child hchild
  obtain ⟨l, hl, hbecomes⟩ := h.becomes child hchild
  exact ⟨m, l, hm, hls l hl, hbecomes.of_le hfirst⟩

end Session

/-- Whatever is done about unknown types comes down to steps, and the result is what has become of
the layout, whatever its parent. -/
def UnknownType.Leads (context : Context) (supply : Supply) (unknown : UnknownType) : Prop :=
  ∀ (l : Layout) (data : Fields) (index : Int) {s : Session}, s.Tracked context supply →
    context.registry.get? l.viewType = none → (supply.Covers context → supply.layouts l) →
    Engine.Leads (Steps context supply False) (unknown l data index) s fun id s' =>
      supply.Covers context → ∀ parent, s'.Becomes context s.widgets.length parent index l id

section

variable {context : Context} {supply : Supply} {unknown : UnknownType} {s : Session}

/-- A layout of a known type starts and has its attributes applied, and one of an unknown type is
left to the host. Both come down to steps, if applying the attributes does. -/
theorem Layout.inflate_leads_of_attributes (hunknown : unknown.Leads context supply)
    (data : Fields) (parent : Option WidgetId) (index : Int) (l : Layout)
    (hl : supply.Covers context → supply.layouts l) (ht : s.Tracked context supply)
    (hattributes : ∀ {s : Session} (parser : ViewParser) (id : WidgetId),
      s.Tracked context supply →
      (supply.Covers context → ∀ l' ∈ l.nested, s.Takes context supply id l') →
      Leads (Steps context supply False)
        (applyAttributes context unknown parser l.viewType id l.attributes) s fun _ _ => True) :
    Leads (Steps context supply False) (l.inflate context unknown data parent index) s
      fun id s' => supply.Covers context →
        s'.Becomes context s.widgets.length parent index l id := by
  cases hget : context.registry.get? l.viewType with
  | none =>
    have hrun := inflate_of_none unknown data parent index hget s
    have hnote : s.Steps context supply False (s.note (.noParser l.viewType)) :=
      .single (.shape (.of_eq rfl rfl rfl rfl rfl))
    refine .of_run hrun hnote ((hunknown l data index (ht.steps hnote) hget hl).imp ?_)
    exact fun id s' _ hbecomes hcovers => hbecomes hcovers parent
  | some parser =>
    obtain ⟨id, s₁, hrun, hstart⟩ :=
      inflate_start_of_tracked unknown ht data parent index hget
    have hstart : s.Steps context supply False s₁ ∧ ∃ m, s₁.managerOf? id = some m ∧
        context.registry.Shares m.layout l ∧
        (m.parser.place? = none → m.index = index ∧ m.parent = parent) ∧
        (s₁.IsFresh id → s.widgets.length < id.number) := by
      rcases hstart with hborn | ⟨hsame, place, hplace, hkept⟩
      · refine ⟨.single (.start hborn hget hl), _, hborn.managerOf?, .inl rfl, ?_, ?_⟩
        · exact fun _ => ⟨rfl, rfl⟩
        · intro _
          obtain rfl : id = ⟨s.widgets.length + 1⟩ := hborn.widget
          exact Nat.lt_succ_self _
      · obtain ⟨m, hm, hown⟩ := ht.exists_of_kept hkept
        obtain ⟨data', hm'⟩ := hsame.grows.managerOf? hm
        have hshares : context.registry.Shares m.layout l := by
          refine .inr ⟨place, (ht.place?_layout hm).trans hown, ?_⟩
          rw [Registry.place?, hget, Option.bind_some, hplace]
        refine ⟨.single (.shape hsame), _, hm', hshares, ?_, ?_⟩
        · intro hnone
          rw [hown] at hnone
          cases hnone
        · rintro ⟨c, hc, hnone⟩
          rw [hm'] at hc
          cases hc
          rw [hown] at hnone
          cases hnone
    obtain ⟨hsteps, m, hm, hshares, hfresh, hnewer⟩ := hstart
    have hcomes : m.Comes context parent index l :=
      ⟨⟨l, .refl, hshares⟩, fun hplace => ⟨(hfresh hplace).1, fun _ => (hfresh hplace).2⟩⟩
    refine .of_run hrun hsteps ((hattributes parser id (ht.steps hsteps) ?_).bind ?_)
    · intro hcovers l' hl'
      exact ⟨m, hm, .inr ⟨l, hl hcovers, hshares, hl'⟩⟩
    · intro _ s₂ hsteps₂ _
      exact .pure fun _ => hsteps₂.grows.becomes (.managed hm hcomes hnewer)

/-- An attribute is applied, and then the next ones are. -/
theorem Layout.applyAttributes_leads_cons {parser : ViewParser} {viewType : String} {id : WidgetId}
    {a : Int} {value : Value} {rest : List Attribute}
    (ht : s.Tracked context supply)
    (htakes : supply.Covers context →
      ∀ l ∈ ((⟨a, value⟩ : Attribute) :: rest).flatMap (·.value.layouts),
        s.Takes context supply id l)
    (hvalue : (supply.Covers context → ∀ m, s.managerOf? id = some m → ∀ l ∈ value.layouts,
        m.Takes context supply l) →
      Leads (Steps context supply False) (value.apply context unknown parser id a) s
        fun _ _ => True)
    (hrest : ∀ {s : Session}, s.Tracked context supply →
      (supply.Covers context → ∀ l ∈ rest.flatMap (·.value.layouts),
        s.Takes context supply id l) →
      Leads (Steps context supply False)
        (applyAttributes context unknown parser viewType id rest) s fun _ _ => True) :
    Leads (Steps context supply False)
      (applyAttributes context unknown parser viewType id (⟨a, value⟩ :: rest)) s
        fun _ _ => True := by
  rw [List.flatMap_cons] at htakes
  have hnext : ∀ {s₁ : Session}, s.Steps context supply False s₁ →
      Leads (Steps context supply False)
        (applyAttributes context unknown parser viewType id rest) s₁ fun _ _ => True :=
    fun hsteps => hrest (ht.steps hsteps) fun hcovers l hl =>
      hsteps.grows.takes (htakes hcovers l (List.mem_append_right _ hl))
  have hown : supply.Covers context → ∀ m, s.managerOf? id = some m → ∀ l ∈ value.layouts,
      m.Takes context supply l := by
    intro hcovers m hm l hl
    obtain ⟨m', hm', htake⟩ := htakes hcovers l (List.mem_append_left _ hl)
    rw [hm] at hm'
    cases hm'
    exact htake
  rw [applyAttributes_of_cons]
  refine (hvalue hown).bind ?_
  intro accepted s₁ hsteps _
  dsimp only
  split
  · have hnote : s₁.Steps context supply False (s₁.noteOutcome id viewType a value accepted) := by
      refine .single (.shape ?_)
      unfold noteOutcome
      dsimp only
      split <;> exact .of_eq rfl rfl rfl rfl rfl
    exact .change_bind hnote (hnext (hsteps.trans hnote))
  · exact hnext hsteps

/-- Widgets that have come of layouts that may go under a widget take the place of its children. -/
theorem Session.Steps.replaceChildren {id : WidgetId} {children : List WidgetId}
    (hweaves : supply.Covers context → s.Weaves context supply id children) :
    s.Steps context supply False (s.replaceChildren id children) := by
  have hweave : s.Steps context supply False (s.setChildren id children) :=
    .single (.weave s id children hweaves)
  unfold Session.replaceChildren
  dsimp only
  split
  · exact hweave
  · exact hweave.tail (.shape (.of_eq rfl rfl rfl rfl rfl))

/-- An attribute is left out, sets a property of its widget, or gives it other children. -/
theorem Value.apply_leads_of_inflateAll (parser : ViewParser) (id : WidgetId) (a : Int)
    (value : Value)
    (htakes : supply.Covers context → ∀ m, s.managerOf? id = some m → ∀ l ∈ value.layouts,
      m.Takes context supply l)
    (hall : ∀ items, value = .array items → ∀ m, s.managerOf? id = some m → ∀ data index,
      Leads (Steps context supply False) (inflateAll context unknown data id index items) s
        fun ids s' => supply.Covers context →
          s'.Brings context s.widgets.length id index (items.filterMap layout?) ids) :
    Leads (Steps context supply False) (value.apply context unknown parser id a) s
      fun _ _ => True := by
  have hreport : ∀ result s', Session.Steps context supply False s'
      (parser.reportHandled a value result s') := fun result s' =>
    .single (.shape (sameShape_reportHandled False parser a value result s'))
  cases hroute : parser.handler.route a with
  | property p =>
    rw [apply_of_property hroute]
    have hset : s.Steps context supply False (s.applyProperty id p value).2 :=
      .single (.shape (sameShape_applyProperty False id p value s))
    exact Leads.observe (.act hset trivial) parser a value hreport
  | children =>
    by_cases harray : ∃ items, value = .array items
    · obtain ⟨items, rfl⟩ := harray
      rw [apply_of_children hroute]
      refine Leads.observe (.look_bind ?_) parser a _ hreport
      cases hm : s.managerOf? id with
      | none => exact .change_bind (.single (.shape (.of_eq rfl rfl rfl rfl rfl))) (.pure trivial)
      | some m =>
        dsimp only
        split
        · refine (hall items rfl m hm m.data m.index).bind ?_
          intro children s₁ hsteps hbrings
          obtain ⟨data, hm₁⟩ := hsteps.grows.managerOf? hm
          have hreplace : s₁.Steps context supply False (s₁.replaceChildren id children) := by
            refine Steps.replaceChildren fun hcovers => ?_
            refine Brings.weaves hm₁ (fun l hl => htakes hcovers m hm l hl) ?_ (hbrings hcovers)
            obtain ⟨w, mid, hw, -⟩ := managerOf?_eq_some_iff.1 hm
            exact (number_le_of_widget? hw).2
          exact .change_bind hreplace (.pure trivial)
        · exact .change_bind (.single (.shape (.of_eq rfl rfl rfl rfl rfl))) (.pure trivial)
    · rw [apply_of_not_array hroute fun items hitems => harray ⟨items, hitems⟩]
      exact Leads.observe (.pure trivial) parser a value hreport
  | presence =>
    rw [apply_of_presence hroute]
    exact Leads.observe (.pure trivial) parser a value hreport
  | unknown =>
    rw [apply_of_unknown hroute]
    exact Leads.observe (.pure trivial) parser a value hreport

/-- A layout among values is inflated, and then the other values are. -/
theorem Value.inflateAll_leads_cons {data : Fields} {parent : WidgetId} {index : Int} {l : Layout}
    {rest : List Value} (ht : s.Tracked context supply)
    (hl : Leads (Steps context supply False)
      (l.inflate context unknown data (some parent) index) s fun id s' =>
        supply.Covers context →
          s'.Becomes context s.widgets.length (some parent) index l id)
    (hrest : ∀ {s : Session}, s.Tracked context supply →
      Leads (Steps context supply False) (inflateAll context unknown data parent index rest) s
        fun ids s' => supply.Covers context →
          s'.Brings context s.widgets.length parent index (rest.filterMap layout?) ids) :
    Leads (Steps context supply False)
      (inflateAll context unknown data parent index (.layout l :: rest)) s fun ids s' =>
        supply.Covers context →
          s'.Brings context s.widgets.length parent index
            ((Value.layout l :: rest).filterMap layout?) ids := by
  rw [inflateAll_of_layout]
  refine hl.bind fun id s₁ hsteps hid => ?_
  refine (hrest (ht.steps hsteps)).bind fun more s₂ hsteps₂ hmore => .pure ?_
  intro hcovers
  have hid' : s₁.Becomes context s.widgets.length (some parent) index l id := hid hcovers
  exact .cons hsteps.grows.length hid' hsteps₂.grows (hmore hcovers)

end

section

variable {context : Context} {supply : Supply} {unknown : UnknownType}

mutual

/-- Inflating a layout comes down to steps. The result is what has become of the layout. -/
theorem Layout.inflate_leads (hunknown : unknown.Leads context supply) (data : Fields)
    (parent : Option WidgetId) (index : Int) :
    ∀ (l : Layout) {s : Session}, (supply.Covers context → supply.layouts l) →
      s.Tracked context supply →
      Leads (Steps context supply False) (l.inflate context unknown data parent index) s
        fun id s' => supply.Covers context →
          s'.Becomes context s.widgets.length parent index l id
  | ⟨viewType, attributes, tags⟩, _, hl, ht =>
    Layout.inflate_leads_of_attributes hunknown data parent index ⟨viewType, attributes, tags⟩ hl ht
      fun parser id ht htakes =>
        Layout.applyAttributes_leads hunknown parser viewType id attributes ht htakes
termination_by structural l => l

/-- So does applying attributes to a widget. -/
theorem Layout.applyAttributes_leads (hunknown : unknown.Leads context supply)
    (parser : ViewParser) (viewType : String) (id : WidgetId) :
    ∀ (attributes : List Attribute) {s : Session}, s.Tracked context supply →
      (supply.Covers context → ∀ l ∈ attributes.flatMap (·.value.layouts),
        s.Takes context supply id l) →
      Leads (Steps context supply False)
        (Layout.applyAttributes context unknown parser viewType id attributes) s fun _ _ => True
  | [], _, _, _ => .pure trivial
  | ⟨a, value⟩ :: rest, _, ht, htakes =>
    Layout.applyAttributes_leads_cons ht htakes
      (Value.apply_leads hunknown parser id a value ht)
      (Layout.applyAttributes_leads hunknown parser viewType id rest)
termination_by structural attributes => attributes

/-- Applying an attribute comes down to steps. -/
theorem Value.apply_leads (hunknown : unknown.Leads context supply) (parser : ViewParser)
    (id : WidgetId) (a : Int) :
    ∀ (value : Value) {s : Session}, s.Tracked context supply →
      (supply.Covers context → ∀ m, s.managerOf? id = some m → ∀ l ∈ value.layouts,
        m.Takes context supply l) →
      Leads (Steps context supply False) (value.apply context unknown parser id a) s
        fun _ _ => True
  | .array items, _, ht, htakes =>
    Value.apply_leads_of_inflateAll parser id a (.array items) htakes
      fun items' hitems m hm data index => by
        cases hitems
        exact Value.inflateAll_leads hunknown data id index items ht fun hcovers l hl =>
          Manager.Takes.layouts (htakes hcovers m hm l hl)
  | .null, _, _, htakes | .bool _, _, _, htakes | .int _, _, _, htakes | .float _, _, _, htakes
  | .string _, _, _, htakes | .object _, _, _, htakes | .binding _, _, _, htakes
  | .layout _, _, _, htakes => Value.apply_leads_of_inflateAll parser id a _ htakes nofun
termination_by structural value => value

/-- Inflating layouts one after the other comes down to steps that bring their widgets. -/
theorem Value.inflateAll_leads (hunknown : unknown.Leads context supply) (data : Fields)
    (parent : WidgetId) (index : Int) :
    ∀ (items : List Value) {s : Session}, s.Tracked context supply →
      (supply.Covers context → ∀ l ∈ items.filterMap Value.layout?, supply.layouts l) →
      Leads (Steps context supply False)
        (Value.inflateAll context unknown data parent index items) s fun ids s' =>
          supply.Covers context →
            s'.Brings context s.widgets.length parent index (items.filterMap Value.layout?) ids
  | [], _, _, _ => .pure fun _ => ⟨nofun, .nil⟩
  | .layout l :: rest, _, ht, hitems =>
    Value.inflateAll_leads_cons ht
      (Layout.inflate_leads hunknown data (some parent) index l
        (fun hcovers => hitems hcovers l List.mem_cons_self) ht)
      fun ht => Value.inflateAll_leads hunknown data parent index rest ht fun hcovers l' hl' =>
        hitems hcovers l' (List.mem_cons_of_mem l hl')
  | .null :: rest, _, ht, hitems | .bool _ :: rest, _, ht, hitems
  | .int _ :: rest, _, ht, hitems | .float _ :: rest, _, ht, hitems
  | .string _ :: rest, _, ht, hitems | .object _ :: rest, _, ht, hitems
  | .binding _ :: rest, _, ht, hitems | .array _ :: rest, _, ht, hitems =>
    Value.inflateAll_leads hunknown data parent index rest ht hitems
termination_by structural items => items

end

end

namespace Context

variable {context : Context} {supply : Supply} {s : Session}

/-- What a host answers for an unknown type makes widgets without managers, gives out what was there
before, or has a named layout inflated. -/
theorem unknown_leads (context : Context) (supply : Supply) (budget : Nat) :
    (context.unknown budget).Leads context supply := by
  -- Each named layout takes from the budget; what it comes to is known for all that is left.
  induction budget using Nat.strongRecOn with
  | ind budget ih =>
    intro l data index s ht hget hl
    cases hfallback : context.fallback with
    | none =>
      have hrun : context.unknown budget l data index = throw (.unresolvedType l.viewType) := by
        cases budget <;> simp only [unknown, hfallback]
      rw [hrun]
      exact .throw _
    | some answer =>
      have hhost : context.fallback ≠ none := by
        rw [hfallback]
        exact Option.some_ne_none answer
      have htell : s.Steps context supply False
          (s.tell (.unknown l.viewType l.attributes.length data.length index)) :=
        .single (.shape (sameShape_tell False rfl s))
      have hcreate : ∀ s' : Session, s'.widgets.length = s.widgets.length →
          Leads (Steps context supply False) (act (·.create .view)) s' fun id s' =>
            supply.Covers context → ∀ parent,
              s'.Becomes context s.widgets.length parent index l id := by
        intro s' hlength
        refine .act (.single (.create s' .view)) fun _ parent => ?_
        refine .bare hhost (widget?_create_self .view s') rfl ?_
        rw [← hlength]
        exact Nat.lt_succ_self _
      rw [unknown, hfallback]
      refine .change_bind htell ?_
      cases hanswer : answer l.viewType with
      | nothing => exact .throw _
      | newView => exact hcreate _ rfl
      | placeholder =>
        exact .change_bind (.single (.shape (.of_eq rfl rfl rfl rfl rfl))) (hcreate _ rfl)
      | widget id =>
        exact .pure fun hcovers => absurd hanswer (hcovers.answer (hl hcovers) hget hfallback id)
      | layout name =>
        dsimp only
        cases hnamed : context.layouts.get? name with
        | none => exact .throw _
        | some named =>
          have hreplaces : context.Replaces l named :=
            ⟨answer, name, hfallback, hget, hanswer, hnamed⟩
          cases budget with
          | zero => exact .throw _
          | succ budget =>
            have hinflate := named.inflate_leads (ih budget (Nat.lt_succ_self budget)) data none
              index (fun hcovers => hcovers.replaced (hl hcovers) hreplaces) (ht.steps htell)
            refine .tryCatch (hinflate.imp fun id s' _ hbecomes hcovers parent => ?_) ?_
            · exact (hbecomes hcovers).of_replaces hreplaces
            · intro e s' _
              split <;> exact .throw _

/-- Inflating a layout comes down to steps, whatever it holds. -/
theorem inflate_leads (ht : s.Tracked context supply) (l : Layout)
    (hl : supply.Covers context → supply.layouts l) (data : Fields) (parent : Option WidgetId)
    (index : Int) :
    Leads (Steps context supply False) (context.inflate l data parent index) s fun id s' =>
      supply.Covers context → s'.Becomes context s.widgets.length parent index l id :=
  l.inflate_leads (context.unknown_leads supply _) data parent index hl ht

/-- So does applying an attribute to any widget, through any parser. -/
theorem apply_leads (ht : s.Tracked context supply) (parser : ViewParser) (id : WidgetId) (a : Int)
    (value : Value)
    (htakes : supply.Covers context → ∀ m, s.managerOf? id = some m → ∀ l ∈ value.layouts,
      m.Takes context supply l) :
    Leads (Steps context supply False) (context.apply parser id a value) s fun _ _ => True :=
  value.apply_leads (context.unknown_leads supply _) parser id a ht htakes

end Context

end LayoutEngine
