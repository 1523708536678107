import LayoutEngine.Proofs.Failure

/-!
# Inflating one layout in two data

What a widget looks like depends on the data only by way of bound attributes. So where these have
the same values in two data, a layout inflates alike in both: with the same result, and to sessions
that differ in nothing but the data that managers keep (`Layout.inflate_concurs`). The two may
inflate in different contexts, if these have the same parsers and differ only in what is done about
types without parser; and it may be allowed that the first one fails where the second one does not
(`Engine.Concur`).

A handler takes the data from the manager of the widget at hand. That this is what the layout is
inflated with rests on parsers making new widgets, and on managers being left alone by all that is
inflated below.
-/

namespace LayoutEngine

open Session Engine

/-! ## Bindings of a layout -/

/-- A value resolves alike in two data if it is not bound. -/
theorem Value.resolve_of_not_isBinding {value : Value} (h : value.isBinding = false)
    (data : Fields) (index : Int) : value.resolve data index = value := by
  cases value <;> first | rfl | cases h

namespace Layout

/-- A layout is a node of the tree that another one is the root of. -/
def IsNodeOf (node l : Layout) : Prop := Relation.ReflTransGen (fun l l' => l' ∈ l.nested) l node

/-- In all nodes of a layout bound attributes have the same values in two data. -/
def Agrees (data data' : Fields) (index : Int) (l : Layout) : Prop :=
  ∀ node : Layout, node.IsNodeOf l → ∀ a ∈ node.attributes, a.value.isBinding = true →
    a.value.resolve data index = a.value.resolve data' index

variable {data data' : Fields} {index : Int} {l : Layout}

/-- An attribute of such a layout has the same value in both data. -/
theorem Agrees.resolve (h : l.Agrees data data' index) {a : Attribute} (ha : a ∈ l.attributes) :
    a.value.resolve data index = a.value.resolve data' index := by
  cases hbinding : a.value.isBinding with
  | true => exact h l .refl a ha hbinding
  | false =>
    rw [Value.resolve_of_not_isBinding hbinding, Value.resolve_of_not_isBinding hbinding]

/-- What holds of a layout holds of those nested in it. -/
theorem Agrees.nested (h : l.Agrees data data' index) {below : Layout} (hbelow : below ∈ l.nested) :
    below.Agrees data data' index :=
  fun node hnode => h node (.head hbelow hnode)

/-- Data agree with themselves. -/
theorem agrees_refl (data : Fields) (index : Int) (l : Layout) : l.Agrees data data index :=
  fun _ _ _ _ _ => rfl

/-- Any data agree where nothing is bound. -/
theorem agrees_of_hasBindings (h : ∀ node : Layout, node.IsNodeOf l → node.hasBindings = false)
    (data data' : Fields) (index : Int) : l.Agrees data data' index := by
  intro node hnode a ha hbinding
  have hnone := List.any_eq_false.1 (h node hnode) a ha
  exact absurd hbinding hnone

end Layout

/-- A value is the same in two data, and so are the bound attributes of the layouts in it. -/
structure Value.Agrees (data data' : Fields) (index : Int) (value : Value) : Prop where
  resolve : value.resolve data index = value.resolve data' index
  layouts : ∀ l ∈ value.layouts, l.Agrees data data' index

/-- Values of such a layout agree, and so do the layouts nested in them. -/
theorem Layout.Agrees.attribute {data data' : Fields} {index : Int} {l : Layout}
    (h : l.Agrees data data' index) {a : Attribute} (ha : a ∈ l.attributes) :
    a.value.Agrees data data' index :=
  ⟨h.resolve ha, fun _ hbelow => h.nested (List.mem_flatMap.2 ⟨a, ha, hbelow⟩)⟩

/-! ## Sessions without data -/

namespace Session

/-- A session without the data of its managers. -/
def bare (s : Session) : Session := { s with managers := s.managers.map Manager.bare }

variable {s s' : Session} {id : WidgetId}

/-- Changing a widget has nothing to do with data of managers. -/
theorem bare_changeWidget (id : WidgetId) (change : Widget → Widget) (s : Session) :
    (s.changeWidget id change).bare = s.bare.changeWidget id change := by
  obtain ⟨_ | n⟩ := id <;> rfl

/-- A new manager stands bare in the bare session. -/
theorem bare_addManager (id : WidgetId) (m : Manager) (s : Session) :
    (s.addManager id m).bare = s.bare.addManager id m.bare := by
  obtain ⟨_ | n⟩ := id <;> simp [addManager, changeWidget, bare]

/-- Telling an observer has nothing to do with data of managers. -/
theorem bare_report (parser : ViewParser) (call : HostCall) (s : Session) :
    (parser.report call s).bare = parser.report call s.bare := by
  unfold ViewParser.report
  split <;> rfl

/-- Observers are told of values as they are declared. -/
theorem bare_reportHandled (parser : ViewParser) (a : Int) (value : Value) (result : Option Bool)
    (s : Session) :
    (parser.reportHandled a value result s).bare = parser.reportHandled a value result s.bare := by
  unfold ViewParser.reportHandled
  induction parser.observers generalizing s with
  | nil => rfl
  | cons name rest ih => exact ih _

/-- Nor has telling how an attribute fared. -/
theorem bare_noteOutcome (id : WidgetId) (viewType : String) (a : Int) (value : Value)
    (accepted : Bool) (s : Session) :
    (s.noteOutcome id viewType a value accepted).bare =
      s.bare.noteOutcome id viewType a value accepted := by
  unfold noteOutcome
  dsimp only
  split <;> rfl

/-- Nor has recording declared attributes. -/
theorem bare_recordTags (id : WidgetId) (l : Layout) (s : Session) :
    (s.recordTags id l).bare = s.bare.recordTags id l := by
  unfold recordTags
  split
  · rfl
  · split <;> rfl

/-- Nor has replacing children. -/
theorem bare_replaceChildren (id : WidgetId) (children : List WidgetId) (s : Session) :
    (s.replaceChildren id children).bare = s.bare.replaceChildren id children := by
  unfold replaceChildren setChildren
  dsimp only
  have hchildren : s.bare.childrenOf id = s.childrenOf id := rfl
  rw [hchildren, ← bare_changeWidget]
  split <;> rfl

/-- Nor has giving out a widget. -/
theorem bare_giveOut (parser : ViewParser) (viewType : String) (index : Int) (s : Session) :
    parser.giveOut viewType index s.bare =
      ((parser.giveOut viewType index s).1, (parser.giveOut viewType index s).2.bare) := by
  unfold ViewParser.giveOut
  dsimp only
  rw [← bare_report]
  cases parser.creation with
  | fresh item => rfl
  | kept place item =>
    dsimp only
    have hkept : ∀ s : Session, s.bare.kept = s.kept := fun _ => rfl
    rw [hkept]
    split <;> rfl

/-- A widget gets a manager in the bare session as in the session, but for the data. -/
theorem bare_attach (parser : ViewParser) (verbose : Bool) (l : Layout) (data : Fields)
    (parent : Option WidgetId) (index : Int) (id : WidgetId) (s : Session) :
    (parser.attach verbose l data parent index id s).bare =
      parser.attach verbose l [] parent index id s.bare := by
  have hask : ∀ (call : ParserCall) (s : Session), (s.ask call).bare = s.bare.ask call :=
    fun _ _ => rfl
  unfold ViewParser.attach ViewParser.setUp changeView
  have hwidget : s.bare.widget? id = s.widget? id := rfl
  rw [hwidget]
  split
  · split <;> rfl
  · dsimp only
    rw [← hask, ← bare_report, ← bare_changeWidget, ← hask, ← bare_report]
    have hadd := bare_addManager id ⟨id, l, parser, parent, index, data⟩
      (parser.report (.manager parser.typeName)
        (((parser.report (.created parser.typeName parent index)
          (s.ask (.setUp id))).changeWidget id fun widget =>
            { widget with view := widget.view.attach parent }).ask (.manager id)))
    split
    · exact congrArg (·.note (.managerAttached l.viewType id)) hadd
    · exact hadd

/-- What a widget starts as does not depend on the data, apart from its manager. -/
theorem bare_start (parser : ViewParser) (verbose : Bool) (l : Layout) (data : Fields)
    (parent : Option WidgetId) (index : Int) (s : Session) :
    parser.start verbose l [] parent index s.bare =
      ((parser.start verbose l data parent index s).1,
        (parser.start verbose l data parent index s).2.bare) := by
  unfold ViewParser.start
  rw [bare_giveOut]
  dsimp only
  rw [bare_recordTags, bare_attach]

/-- Nor has changing an item. -/
theorem bare_applyItem (id : WidgetId) (applied? : Item → Option Item) (s : Session) :
    s.bare.applyItem id applied? =
      ((s.applyItem id applied?).1, (s.applyItem id applied?).2.bare) := by
  unfold applyItem
  have hwidget : s.bare.widget? id = s.widget? id := rfl
  rw [hwidget]
  split
  · rfl
  · exact congrArg (Prod.mk true) (bare_changeWidget id _ s).symm

/-- Nor has telling of a value that is no text. -/
theorem bare_noteNotText (id : WidgetId) (a : TextAttribute) (s : Session) :
    (s.noteNotText id a).bare = s.bare.noteNotText id a := by
  unfold noteNotText
  have hwidget : s.bare.widget? id = s.widget? id := rfl
  rw [hwidget]
  split <;> rfl

/-- Where a value resolves alike, a property is set alike. -/
theorem bare_applyProperty (h : s.bare = s'.bare) (p : Property) {value : Value}
    (hvalue : s.resolve id value = s'.resolve id value) :
    (s.applyProperty id p value).1 = (s'.applyProperty id p value).1 ∧
      (s.applyProperty id p value).2.bare = (s'.applyProperty id p value).2.bare := by
  have hitem : ∀ {s₁ s₂ : Session} (applied? : Item → Option Item), s₁.bare = s₂.bare →
      (s₁.applyItem id applied?).1 = (s₂.applyItem id applied?).1 ∧
        (s₁.applyItem id applied?).2.bare = (s₂.applyItem id applied?).2.bare := by
    intro s₁ s₂ applied? hbare
    have hrun := congrArg (fun s : Session => s.applyItem id applied?) hbare
    rw [bare_applyItem, bare_applyItem] at hrun
    exact Prod.mk.inj hrun
  cases p with
  | common a =>
    have hwidget : s.bare.widget? id = s'.bare.widget? id := by rw [h]
    have hids : s.bare.ids = s'.bare.ids := by rw [h]
    change s.widget? id = s'.widget? id at hwidget
    change s.ids = s'.ids at hids
    simp only [applyProperty, applyCommon, hwidget, hvalue, hids]
    split
    · exact ⟨rfl, h⟩
    · split
      · exact ⟨rfl, h⟩
      · next view ids _ =>
        have hview :
            (s.changeView id fun _ => view).bare = (s'.changeView id fun _ => view).bare := by
          rw [changeView, changeView, bare_changeWidget, bare_changeWidget, h]
        exact ⟨rfl, congrArg (fun s : Session => { s with ids := ids }) hview⟩
  | text a =>
    simp only [applyProperty, hvalue]
    refine hitem _ ?_
    rw [bare_noteNotText, bare_noteNotText, h]
  | editText a =>
    simp only [applyProperty, hvalue]
    exact hitem _ h
  | gravity =>
    simp only [applyProperty, hvalue]
    exact hitem _ h

end Session

/-! ## Two runs -/

namespace Engine

variable {α β : Type} {excused : Prop} {x x' : Engine α} {f f' : α → Engine β} {s s' : Session}

/-- Two runs have the same result, and leave the same session but for the data of managers; or the
first one has failed, where that is excused. -/
inductive Concur (excused : Prop) :
    Except InflateError α × Session → Except InflateError α × Session → Prop
  | same {result : Except InflateError α} {s s' : Session} (bare : s.bare = s'.bare) :
    Concur excused (result, s) (result, s')
  | failed {e : InflateError} {s : Session} {r : Except InflateError α × Session}
    (allowed : excused) : Concur excused (.error e, s) r

namespace Concur

/-- Where nothing is excused, the results are the same, and so are the sessions but for data. -/
theorem eq {r r' : Except InflateError α × Session} (h : Concur False r r') :
    r.1 = r'.1 ∧ r.2.bare = r'.2.bare := by
  cases h with
  | same hbare => exact ⟨rfl, hbare⟩
  | failed hexcused => exact hexcused.elim

/-- What concurs with a result is a result. -/
theorem of_ok {a : α} {r' : Except InflateError α × Session}
    (h : Concur excused (.ok a, s) r') : ∃ s', r' = (.ok a, s') ∧ s.bare = s'.bare := by
  cases h with
  | same hbare => exact ⟨_, rfl, hbare⟩

/-- Steps that concur may be followed by steps that concur. -/
theorem bind (h : Concur excused (x s) (x' s'))
    (hf : ∀ a s₁ s₁', x s = (.ok a, s₁) → x' s' = (.ok a, s₁') → s₁.bare = s₁'.bare →
      Concur excused (f a s₁) (f' a s₁')) :
    Concur excused ((x >>= f) s) ((x' >>= f') s') := by
  generalize hrun : x s = r at h
  generalize hrun' : x' s' = r' at h
  cases h with
  | @same result s₁ s₁' hbare =>
    cases result with
    | error e =>
      rw [Fallible.bind_run_error hrun, Fallible.bind_run_error hrun']
      exact .same hbare
    | ok a =>
      rw [Fallible.bind_run_ok hrun, Fallible.bind_run_ok hrun']
      exact hf a s₁ s₁' hrun hrun' hbare
  | failed hexcused =>
    rw [Fallible.bind_run_error hrun]
    exact .failed hexcused

/-- A change on either side may come before steps that concur. -/
theorem change_bind {step step' : Session → Session} {f f' : Unit → Engine β}
    (h : Concur excused (f () (step s)) (f' () (step' s'))) :
    Concur excused ((change step >>= f) s) ((change step' >>= f') s') := by
  rw [Fallible.bind_run_ok (change_run step s), Fallible.bind_run_ok (change_run step' s')]
  exact h

/-- Observers are told alike. -/
theorem observe {handle handle' : Engine Bool} (h : Concur excused (handle s) (handle' s'))
    (parser : ViewParser) (a : Int) (value : Value) :
    Concur excused (parser.observe a value handle s) (parser.observe a value handle' s') := by
  simp only [ViewParser.observe, ExceptT.mk]
  generalize handle s = r at h
  generalize handle' s' = r' at h
  cases h with
  | @same result s₁ s₁' hbare =>
    have hreport : ∀ result, (parser.reportHandled a value result s₁).bare =
        (parser.reportHandled a value result s₁').bare := fun result => by
      rw [bare_reportHandled, bare_reportHandled, hbare]
    cases result with
    | error e => exact .same (hreport none)
    | ok accepted => exact .same (hreport (some accepted))
  | failed hexcused => exact .failed hexcused

end Concur

end Engine

/-! ## Two inflations -/

/-- The handlers of a widget's attributes look values up in the data, at the index. -/
def Session.LooksUp (s : Session) (id : WidgetId) (data : Fields) (index : Int) : Prop :=
  ∃ m, s.managerOf? id = some m ∧ m.data = data ∧ m.index = index

namespace Session.LooksUp

variable {s s' : Session} {id : WidgetId} {data : Fields} {index : Int}

/-- What is looked up in the data of the manager is looked up in those. -/
theorem resolve (h : s.LooksUp id data index) (value : Value) :
    s.resolve id value = value.resolve data index := by
  obtain ⟨m, hm, rfl, rfl⟩ := h
  rw [Session.resolve, hm]

/-- What only grows looks up in the same data. -/
theorem grows (h : s.LooksUp id data index) (hgrows : Grows False s s') :
    s'.LooksUp id data index := by
  obtain ⟨m, hm, hdata, hindex⟩ := h
  obtain ⟨w, mid, hw, hmid, hm⟩ := managerOf?_eq_some_iff.1 hm
  obtain ⟨w', hw', hmid'⟩ := hgrows.manager hw
  obtain ⟨data', hm', hsame⟩ := hgrows.manager? hm
  exact ⟨_, managerOf?_eq_some_iff.2 ⟨w', mid, hw', hmid'.trans hmid, hm'⟩,
    (hsame not_false).trans hdata, hindex⟩

end Session.LooksUp

/-- Two contexts go together, each with something that is done about types without parser: they have
the same parsers, which make new widgets, and both or none tell of attributes. What is done about
types without parser runs alike, and leaves managers alone. -/
structure Context.Concurs (excused : Prop) (context context' : Context)
    (unknown unknown' : UnknownType) : Prop where
  registry : context'.registry = context.registry
  verbose : context'.verbose = context.verbose
  makesNew : context.registry.MakesNew
  concur : ∀ l data data' index {s s' : Session}, s.bare = s'.bare →
    Concur excused (unknown l data index s) (unknown' l data' index s')
  grows : ∀ l data index s, Grows False s (unknown l data index s).2
  grows' : ∀ l data index s, Grows False s (unknown' l data index s).2

section

variable {context context' : Context} {unknown unknown' : UnknownType} {excused : Prop}
  {data data' : Fields} {index : Int} {s s' : Session}

/-- A widget that starts looks values up in the data it starts with. -/
theorem ViewParser.looksUp_start {parser : ViewParser} (hnew : parser.place? = none)
    (verbose : Bool) (l : Layout) (data : Fields) (parent : Option WidgetId) (index : Int)
    (s : Session) :
    (parser.start verbose l data parent index s).2.LooksUp
      (parser.start verbose l data parent index s).1 data index := by
  obtain ⟨hid, hborn⟩ := parser.start_of_new hnew verbose l data parent index s
  rw [hid]
  exact ⟨_, hborn.managerOf?, rfl, rfl⟩

/-- Whatever an attribute is applied to, managers stay as they are. -/
theorem Value.grows_apply {context : Context} {unknown : UnknownType}
    (hnew : context.registry.MakesNew)
    (hunknown : ∀ l data index s, Grows False s (unknown l data index s).2) (parser : ViewParser)
    (id : WidgetId) (a : Int) (value : Value) (s : Session) :
    Grows False s (value.apply context unknown parser id a s).2 :=
  (Value.apply_carries (Context.carries_grows False hnew)
    (fun l _ data index s _ => ⟨hunknown l data index s, fun _ _ => trivial⟩) parser trivial a value
    trivial).along

variable (hconcurs : Context.Concurs excused context context' unknown unknown')

include hconcurs in
/-- Where the attributes of a layout are applied alike, the layout inflates alike. -/
theorem Layout.inflate_concurs_of_attributes (parent : Option WidgetId) {l : Layout}
    (h : s.bare = s'.bare)
    (hattributes : ∀ parser {id : WidgetId} {s s' : Session}, s.bare = s'.bare →
      s.LooksUp id data index → s'.LooksUp id data' index →
      Concur excused (applyAttributes context unknown parser l.viewType id l.attributes s)
        (applyAttributes context' unknown' parser l.viewType id l.attributes s')) :
    Concur excused (l.inflate context unknown data parent index s)
      (l.inflate context' unknown' data' parent index s') := by
  have hget' : context'.registry.get? l.viewType = context.registry.get? l.viewType := by
    rw [hconcurs.registry]
  cases hget : context.registry.get? l.viewType with
  | none =>
    rw [hget] at hget'
    rw [inflate_of_none unknown data parent index hget s,
      inflate_of_none unknown' data' parent index hget' s']
    exact hconcurs.concur l data data' index (congrArg (·.note (.noParser l.viewType)) h)
  | some parser =>
    rw [hget] at hget'
    have hstart := bare_start parser context.verbose l data parent index s
    rw [h, bare_start parser context.verbose l data' parent index s'] at hstart
    obtain ⟨hid, hbare⟩ := Prod.mk.inj hstart
    have hnew := hconcurs.makesNew l.viewType parser hget
    have hlooks := parser.looksUp_start hnew context.verbose l data parent index s
    have hlooks' := parser.looksUp_start hnew context.verbose l data' parent index s'
    rw [inflate_eq_start unknown data parent index hget s,
      inflate_eq_start unknown' data' parent index hget' s', hconcurs.verbose]
    rw [hid] at hlooks' ⊢
    exact (hattributes parser hbare.symm hlooks hlooks').bind fun _ _ _ _ _ => .same

include hconcurs in
/-- After an attribute that is applied alike, the next ones are. -/
theorem Layout.applyAttributes_concur_cons {parser : ViewParser} {viewType : String}
    {id : WidgetId} {a : Int} {value : Value} {rest : List Attribute}
    (hlooks : s.LooksUp id data index) (hlooks' : s'.LooksUp id data' index)
    (hvalue : Concur excused (value.apply context unknown parser id a s)
      (value.apply context' unknown' parser id a s'))
    (hrest : ∀ {s s' : Session}, s.bare = s'.bare → s.LooksUp id data index →
      s'.LooksUp id data' index →
      Concur excused (applyAttributes context unknown parser viewType id rest s)
        (applyAttributes context' unknown' parser viewType id rest s')) :
    Concur excused (applyAttributes context unknown parser viewType id (⟨a, value⟩ :: rest) s)
      (applyAttributes context' unknown' parser viewType id (⟨a, value⟩ :: rest) s') := by
  rw [applyAttributes, applyAttributes_of_cons]
  refine hvalue.bind ?_
  intro accepted s₁ s₁' hrun hrun' hbare
  have hlooks₁ : s₁.LooksUp id data index := by
    have hgrows := Value.grows_apply hconcurs.makesNew hconcurs.grows parser id a value s
    rw [hrun] at hgrows
    exact hlooks.grows hgrows
  have hlooks₁' : s₁'.LooksUp id data' index := by
    have hnew : context'.registry.MakesNew := hconcurs.registry ▸ hconcurs.makesNew
    have hgrows := Value.grows_apply hnew hconcurs.grows' parser id a value s'
    rw [hrun'] at hgrows
    exact hlooks'.grows hgrows
  dsimp only
  rw [hconcurs.verbose]
  split
  · have hnote : ∀ s : Session, Grows False s (s.noteOutcome id viewType a value accepted) :=
      (Context.carries_grows False hconcurs.makesNew).noteOutcome id viewType a value accepted
    refine .change_bind (hrest ?_ (hlooks₁.grows (hnote s₁)) (hlooks₁'.grows (hnote s₁')))
    rw [bare_noteOutcome, bare_noteOutcome, hbare]
  · exact hrest hbare hlooks₁ hlooks₁'

/-- An attribute whose value agrees is applied alike if the layouts in it inflate alike. -/
theorem Value.apply_concurs_of_inflateAll (parser : ViewParser) {id : WidgetId} (a : Int)
    {value : Value} (hvalue : value.resolve data index = value.resolve data' index)
    (h : s.bare = s'.bare) (hlooks : s.LooksUp id data index)
    (hlooks' : s'.LooksUp id data' index)
    (hall : ∀ items, value = .array items →
      Concur excused (inflateAll context unknown data id index items s)
        (inflateAll context' unknown' data' id index items s')) :
    Concur excused (value.apply context unknown parser id a s)
      (value.apply context' unknown' parser id a s') := by
  cases hroute : parser.handler.route a with
  | property p =>
    rw [apply_of_property hroute, apply_of_property hroute]
    have hset := bare_applyProperty h p ((hlooks.resolve value).trans
      (hvalue.trans (hlooks'.resolve value).symm))
    refine Concur.observe ?_ parser a value
    rw [act_run, act_run, hset.1]
    exact .same hset.2
  | children =>
    by_cases harray : ∃ items, value = .array items
    · obtain ⟨items, rfl⟩ := harray
      rw [apply_of_children hroute, apply_of_children hroute]
      refine Concur.observe ?_ parser a _
      obtain ⟨m, hm, hdata, hindex⟩ := hlooks
      obtain ⟨m', hm', hdata', hindex'⟩ := hlooks'
      rw [Fallible.bind_run_ok (look_run _ s), Fallible.bind_run_ok (look_run _ s'), hm, hm']
      dsimp only
      rw [hdata, hindex, hdata', hindex']
      split
      · refine (hall items rfl).bind ?_
        intro children s₁ s₁' _ _ hbare
        refine .change_bind (.same ?_)
        rw [bare_replaceChildren, bare_replaceChildren, hbare]
      · exact .change_bind (.same (congrArg (·.note (.childNoLayout id)) h))
    · have hnone : ∀ items, value ≠ .array items := fun items hitems => harray ⟨items, hitems⟩
      rw [apply_of_not_array hroute hnone, apply_of_not_array hroute hnone]
      exact Concur.observe (.same h) parser a value
  | presence =>
    rw [apply_of_presence hroute, apply_of_presence hroute]
    exact Concur.observe (.same h) parser a value
  | unknown =>
    rw [apply_of_unknown hroute, apply_of_unknown hroute]
    exact Concur.observe (.same h) parser a value

/-- After a layout that inflates alike, the other values do. -/
theorem Value.inflateAll_concur_cons {parent : WidgetId} {l : Layout} {rest : List Value}
    (hl : Concur excused (l.inflate context unknown data (some parent) index s)
      (l.inflate context' unknown' data' (some parent) index s'))
    (hrest : ∀ {s s' : Session}, s.bare = s'.bare →
      Concur excused (inflateAll context unknown data parent index rest s)
        (inflateAll context' unknown' data' parent index rest s')) :
    Concur excused (inflateAll context unknown data parent index (.layout l :: rest) s)
      (inflateAll context' unknown' data' parent index (.layout l :: rest) s') := by
  rw [inflateAll, inflateAll_of_layout]
  refine hl.bind fun id s₁ s₁' _ _ hbare => ?_
  exact (hrest hbare).bind fun _ _ _ _ _ => .same

mutual

/-- A layout whose bound attributes have the same values in two data inflates alike in both. -/
theorem Layout.inflate_concurs
    (hconcurs : Context.Concurs excused context context' unknown unknown') :
    ∀ (l : Layout), l.Agrees data data' index → ∀ (parent : Option WidgetId) {s s' : Session},
      s.bare = s'.bare →
      Concur excused (l.inflate context unknown data parent index s)
        (l.inflate context' unknown' data' parent index s')
  | ⟨viewType, attributes, _⟩, hagrees, parent, _, _, h =>
    Layout.inflate_concurs_of_attributes hconcurs parent h
      fun parser _ _ _ h hlooks hlooks' =>
        Layout.applyAttributes_concur hconcurs parser viewType attributes
          (fun _ ha => hagrees.attribute ha) h hlooks hlooks'
termination_by structural l => l

/-- So do the attributes of one widget. -/
theorem Layout.applyAttributes_concur
    (hconcurs : Context.Concurs excused context context' unknown unknown') (parser : ViewParser)
    (viewType : String) {id : WidgetId} :
    ∀ (attributes : List Attribute), (∀ a ∈ attributes, a.value.Agrees data data' index) →
      ∀ {s s' : Session}, s.bare = s'.bare → s.LooksUp id data index →
      s'.LooksUp id data' index →
      Concur excused (Layout.applyAttributes context unknown parser viewType id attributes s)
        (Layout.applyAttributes context' unknown' parser viewType id attributes s')
  | [], _, _, _, h, _, _ => .same h
  | ⟨a, value⟩ :: rest, hagree, _, _, h, hlooks, hlooks' =>
    Layout.applyAttributes_concur_cons hconcurs hlooks hlooks'
      (Value.apply_concurs hconcurs parser a value
        (hagree _ List.mem_cons_self) h hlooks hlooks')
      (Layout.applyAttributes_concur hconcurs parser viewType rest
        fun _ ha => hagree _ (List.mem_cons_of_mem _ ha))
termination_by structural attributes => attributes

/-- Applying an attribute to a widget concurs where its value agrees in both data. -/
theorem Value.apply_concurs
    (hconcurs : Context.Concurs excused context context' unknown unknown') (parser : ViewParser)
    {id : WidgetId} (a : Int) :
    ∀ (value : Value), value.Agrees data data' index → ∀ {s s' : Session}, s.bare = s'.bare →
      s.LooksUp id data index → s'.LooksUp id data' index →
      Concur excused (value.apply context unknown parser id a s)
        (value.apply context' unknown' parser id a s')
  | .array items, hagrees, _, _, h, hlooks, hlooks' =>
    Value.apply_concurs_of_inflateAll parser a hagrees.resolve h hlooks hlooks'
      fun items' hitems => by
        cases hitems
        exact Value.inflateAll_concurs hconcurs id items hagrees.layouts h
  | .null, hagrees, _, _, h, hlooks, hlooks' | .bool _, hagrees, _, _, h, hlooks, hlooks'
  | .int _, hagrees, _, _, h, hlooks, hlooks' | .float _, hagrees, _, _, h, hlooks, hlooks'
  | .string _, hagrees, _, _, h, hlooks, hlooks' | .object _, hagrees, _, _, h, hlooks, hlooks'
  | .binding _, hagrees, _, _, h, hlooks, hlooks' | .layout _, hagrees, _, _, h, hlooks, hlooks' =>
    Value.apply_concurs_of_inflateAll parser a hagrees.resolve h hlooks hlooks' nofun
termination_by structural value => value

/-- Inflating layouts in order concurs where each of them agrees in both data. -/
theorem Value.inflateAll_concurs
    (hconcurs : Context.Concurs excused context context' unknown unknown') (parent : WidgetId) :
    ∀ (items : List Value), (∀ l ∈ items.filterMap Value.layout?, l.Agrees data data' index) →
      ∀ {s s' : Session}, s.bare = s'.bare →
      Concur excused (Value.inflateAll context unknown data parent index items s)
        (Value.inflateAll context' unknown' data' parent index items s')
  | [], _, _, _, h => .same h
  | .layout l :: rest, hagree, _, _, h =>
    Value.inflateAll_concur_cons
      (Layout.inflate_concurs hconcurs l (hagree l List.mem_cons_self)
        (some parent) h)
      (Value.inflateAll_concurs hconcurs parent rest
        fun _ hl => hagree _ (List.mem_cons_of_mem _ hl))
  | .null :: rest, hagree, _, _, h | .bool _ :: rest, hagree, _, _, h
  | .int _ :: rest, hagree, _, _, h | .float _ :: rest, hagree, _, _, h
  | .string _ :: rest, hagree, _, _, h | .object _ :: rest, hagree, _, _, h
  | .binding _ :: rest, hagree, _, _, h | .array _ :: rest, hagree, _, _, h =>
    Value.inflateAll_concurs hconcurs parent rest hagree h
termination_by structural items => items

end

end

namespace Context

variable {context context' : Context} {excused : Prop}

/-- What a context has done about unknown types makes a session grow. -/
theorem unknown_grows (hnew : context.registry.MakesNew) (budget : Nat) (l : Layout)
    (data : Fields) (index : Int) (s : Session) :
    Grows False s (context.unknown budget l data index s).2 :=
  (unknown_carries (carries_grows False hnew) budget l data index s trivial).along

/-- Contexts with the same parsers go together if neither has a host to ask. Where failures of the
first one are excused, the second one may have a host. -/
theorem concurs_of_no_fallback (hregistry : context'.registry = context.registry)
    (hverbose : context'.verbose = context.verbose) (hnew : context.registry.MakesNew)
    (hnone : context.fallback = none) (hexcused : excused ∨ context'.fallback = none)
    (budget budget' : Nat) :
    Concurs excused context context' (context.unknown budget) (context'.unknown budget') where
  registry := hregistry
  verbose := hverbose
  makesNew := hnew
  concur l data data' index s s' h := by
    rw [unknown_of_no_fallback hnone]
    rcases hexcused with hexcused | hnone'
    · exact .failed hexcused
    · rw [unknown_of_no_fallback hnone']
      exact .same h
  grows l data index s := unknown_grows hnew budget l data index s
  grows' l data index s := unknown_grows (hregistry ▸ hnew) budget' l data index s

end Context

end LayoutEngine
