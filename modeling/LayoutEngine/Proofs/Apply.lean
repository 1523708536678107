import LayoutEngine.Proofs.Compile
import LayoutEngine.Proofs.Engine
import LayoutEngine.Proofs.Report
import LayoutEngine.Session.Update

/-!
# Applying attributes to a widget

What applying attributes does to a widget whose manager has a parser that serves its kind
(`Session.Managed`). An attribute without layouts in it is accepted or not as its name, its value
and the data tell, changes the look of that one widget accordingly, and takes its children away if
it gives a container an empty array of them (`Session.Managed.apply_run`). So do the attributes of
a layout in order (`Session.Managed.applyAttributes_run`).
-/

namespace LayoutEngine

namespace Value

/-- The value does not bring layouts as children. -/
def IsPlain (value : Value) : Prop :=
  ∀ items, value = .array items → items.all isLayout = true → items = []

/-- Nothing that is read from JSON is a layout. -/
theorem isLayout_ofJson (json : Json) : (ofJson json).isLayout = false := by
  cases json with
  | int n =>
    simp only [ofJson, ofInteger]
    split <;> rfl
  | string s =>
    simp only [ofJson]
    split <;> rfl
  | _ => rfl

/-- JSON has no layouts in it. -/
theorem isPlain_ofJson (json : Json) : (ofJson json).IsPlain := by
  intro items h hall
  cases json with
  | array jsons =>
    cases jsons with
    | nil =>
      cases h
      rfl
    | cons item rest =>
      cases h
      rw [itemsOfJson, List.all_cons, isLayout_ofJson] at hall
      cases hall
  | int n =>
    simp only [ofJson, ofInteger] at h
    split at h <;> cases h
  | string s =>
    simp only [ofJson] at h
    split at h <;> cases h
  | _ => cases h

end Value

/-- An attribute that is bound is applied, and then the next ones are. -/
theorem Context.applyBoundBy_of_cons (context : Context) (unknown : UnknownType)
    (parser : ViewParser) (id : WidgetId) (a : Int) (value : Value) (rest : List Attribute) :
    context.applyBoundBy (.own unknown) parser id (⟨a, value⟩ :: rest) = (do
      let accepted ←
        if value.isBinding then value.apply context unknown parser id a else pure false
      let more ← context.applyBoundBy (.own unknown) parser id rest
      return (if accepted then 1 else 0) + more) := rfl

/-- Only bound attributes are handled at an update, one after the other. -/
theorem Context.applyBound_of_cons (context : Context) (parser : ViewParser) (id : WidgetId)
    (a : Int) (value : Value) (rest : List Attribute) :
    context.applyBoundBy context.host parser id (⟨a, value⟩ :: rest) = (do
      let accepted ← if value.isBinding then context.apply parser id a value else pure false
      let more ← context.applyBoundBy context.host parser id rest
      return (if accepted then 1 else 0) + more) :=
  context.applyBoundBy_of_cons _ parser id a value rest

/-- What is done about unknown types does not matter to a bound value, which brings no layouts. -/
theorem Value.apply_of_isBinding (context : Context) (unknown : UnknownType) (parser : ViewParser)
    (id : WidgetId) (a : Int) {value : Value} (h : value.isBinding = true) :
    value.apply context unknown parser id a = context.apply parser id a value := by
  cases value with
  | binding => rfl
  | null | bool | int | float | string | object | array | layout => cases h

/-- Nor does it matter to bound attributes one after the other. -/
theorem Context.applyBoundBy_own (context : Context) (unknown : UnknownType)
    (parser : ViewParser) (id : WidgetId) (attributes : List Attribute) :
    context.applyBoundBy (.own unknown) parser id attributes =
      context.applyBoundBy context.host parser id attributes := by
  induction attributes with
  | nil => rfl
  | cons first rest ih =>
    obtain ⟨a, value⟩ := first
    rw [applyBoundBy_of_cons, applyBound_of_cons, ih]
    split
    · next h => rw [Value.apply_of_isBinding context unknown parser id a h]
    · rfl

/-! ## Where an attribute goes -/

namespace Value

variable {context : Context} {unknown : UnknownType} {parser : ViewParser} {id : WidgetId} {a : Int}

/-- An attribute for a property sets it, and the observers are told. -/
theorem apply_of_property {value : Value} {p : Property}
    (h : parser.handler.route a = .property p) :
    value.apply context unknown parser id a =
      parser.observe a value (Engine.act (·.applyProperty id p value)) := by
  cases value <;> simp only [apply, applyBy, Host.own, h]

/-- An attribute that its parser does not know is rejected. -/
theorem apply_of_unknown {value : Value} (h : parser.handler.route a = .unknown) :
    value.apply context unknown parser id a = parser.observe a value (pure false) := by
  cases value <;> simp only [apply, applyBy, Host.own, h]

/-- An attribute that is only looked for is accepted unless it is null. -/
theorem apply_of_presence {value : Value} (h : parser.handler.route a = .presence) :
    value.apply context unknown parser id a =
      parser.observe a value (pure !value.isNull) := by
  cases value <;> simp only [apply, applyBy, Host.own, h]
  rfl

/-- An array under the number of children: its layouts become children, all or none. -/
theorem apply_of_children {items : List Value} (h : parser.handler.route a = .children) :
    (array items).apply context unknown parser id a =
      parser.observe a (.array items) (do
        match ← Engine.look (·.managerOf? id) with
        | none =>
          Engine.change (·.note (.noManagerForChildren id))
          return false
        | some manager =>
          if items.all isLayout then
            let children ← inflateAll context unknown manager.data id manager.index items
            Engine.change (·.replaceChildren id children)
            return true
          else
            Engine.change (·.note (.childNoLayout id))
            return false) := by
  simp only [apply, applyBy, Host.own, h]
  rfl

/-- Nothing but an array is accepted as children. -/
theorem apply_of_not_array {value : Value} (h : parser.handler.route a = .children)
    (harray : ∀ items, value ≠ .array items) :
    value.apply context unknown parser id a = parser.observe a value (pure false) := by
  cases value <;> first | exact absurd rfl (harray _) | simp only [apply, applyBy, Host.own, h]

end Value

/-- After an attribute the next ones are applied; only what is told of it comes between. -/
theorem Layout.applyAttributes_cons {context : Context} {unknown : UnknownType}
    {parser : ViewParser} {id : WidgetId} {a : Int} {value : Value} {s s' : Session}
    {accepted : Bool} (viewType : String)
    (h : value.apply context unknown parser id a s = (.ok accepted, s')) :
    ∃ log,
      (context.verbose = true →
        s'.Tells [⟨id, viewType, s'.attributeName a, value.text, accepted⟩]
          { s' with log := log }) ∧
      ∀ rest, applyAttributes context unknown parser viewType id (⟨a, value⟩ :: rest) s =
        applyAttributes context unknown parser viewType id rest { s' with log := log } := by
  cases hverbose : context.verbose with
  | true =>
    have hnote : s'.noteOutcome id viewType a value accepted =
        { s' with log := (s'.noteOutcome id viewType a value accepted).log } := by
      cases accepted <;> rfl
    refine ⟨(s'.noteOutcome id viewType a value accepted).log, ?_, ?_⟩
    · intro _
      rw [← hnote]
      exact s'.tells_noteOutcome id viewType a value accepted
    · intro rest
      rw [applyAttributes_of_cons, Fallible.bind_run_ok h, if_pos hverbose, ← hnote]
      rfl
  | false =>
    refine ⟨s'.log, nofun, ?_⟩
    intro rest
    rw [applyAttributes_of_cons, Fallible.bind_run_ok h, if_neg (by simp [hverbose])]

/-- An attribute bears its name in any later table, too. -/
theorem Attribute.Bears.mono {t u : IdTable} (h : t ≤ u) {named : String × Value} {a : Attribute}
    (hbears : a.Bears t named) : a.Bears u named :=
  ⟨IdTable.get?_mono h hbears.1, hbears.2⟩

namespace ViewParser

/-- Nobody is told where nobody observes. -/
theorem observe_of_nil {parser : ViewParser} (h : parser.observers = []) (a : Int) (value : Value)
    (handle : Engine Bool) (s : Session) : parser.observe a value handle s = handle s := by
  unfold observe
  simp only [reportHandled, h, List.foldl_nil, ExceptT.mk]
  rcases handle s with ⟨r | e, s'⟩ <;> rfl

/-- Observers are told, and nothing else comes of it. -/
theorem reportHandled_eq (parser : ViewParser) (a : Int) (value : Value) (result : Option Bool)
    (s : Session) :
    ∃ calls, parser.reportHandled a value result s = { s with calls := calls } := by
  unfold reportHandled
  induction parser.observers generalizing s with
  | nil => exact ⟨s.calls, rfl⟩
  | cons name rest ih =>
    obtain ⟨calls, hrest⟩ := ih (s.tell (.handled name (s.attributeName a) value result))
    exact ⟨calls, hrest⟩

/-- What comes of an attribute is what its handling gives; only the observers are told besides. -/
theorem observe_run {handle : Engine Bool} {accepted : Bool} {s s' : Session}
    (h : handle s = (.ok accepted, s')) (parser : ViewParser) (a : Int) (value : Value) :
    ∃ calls, parser.observe a value handle s = (.ok accepted, { s' with calls := calls }) := by
  obtain ⟨calls, hreport⟩ := parser.reportHandled_eq a value (some accepted) s'
  exact ⟨calls, by simp only [observe, ExceptT.mk, h, hreport]⟩

end ViewParser

namespace Session

/-- A widget has a manager whose parser serves its kind, and shows a look. -/
structure Managed (s : Session) (id : WidgetId) (mid : ManagerId) (m : Manager) (k : Kind)
    (w : Widget) (look : Look) : Prop where
  widget : s.widget? id = some w
  manager : w.manager = some mid
  managed : s.manager? mid = some m
  serves : m.parser.Serves k s.ids
  shows : w.Shows s.ids k look

/-- Nothing but one widget has changed, and that neither its manager nor its parent. -/
structure Changes (id : WidgetId) (s : Session) (w : Widget) (s' : Session) (w' : Widget) :
    Prop where
  touches : Touches id s s'
  widget : s'.widget? id = some w'
  manager : w'.manager = w.manager
  parent : w'.view.parent = w.view.parent

variable {s s' s'' : Session} {id : WidgetId} {mid : ManagerId} {m : Manager} {k : Kind}
  {w w' w'' : Widget} {look look' : Look}

/-- A widget that stays as it is. -/
theorem Changes.refl (h : s.widget? id = some w) : Changes id s w s w :=
  ⟨.refl id s, h, rfl, rfl⟩

/-- Changes of a widget, one after the other. -/
theorem Changes.trans (h₁ : Changes id s w s' w') (h₂ : Changes id s' w' s'' w'') :
    Changes id s w s'' w'' :=
  ⟨h₁.touches.trans h₂.touches, h₂.widget, h₂.manager.trans h₁.manager,
    h₂.parent.trans h₁.parent⟩

/-- It does not matter what has been told. -/
theorem Changes.withLog (h : Changes id s w s' w') (log : List Notice) :
    Changes id s w { s' with log := log } w' :=
  ⟨⟨h.touches.ids, h.touches.others, h.touches.length, h.touches.managers, h.touches.tags⟩,
    h.widget, h.manager, h.parent⟩

/-- A widget has the data that it had. -/
theorem Changes.resolve (h : Changes id s w s' w') (hw : s.widget? id = some w) (value : Value) :
    s'.resolve id value = s.resolve id value := by
  have hmanager : s'.managerOf? id = s.managerOf? id := by
    simp only [managerOf?, h.widget, hw, Option.bind_eq_bind, Option.bind_some, h.manager]
    exact Option.bind_congr fun mid _ => h.touches.manager? mid
  rw [Session.resolve, Session.resolve, hmanager]

namespace Managed

/-- A widget that has changed is still managed. -/
theorem changes (h : s.Managed id mid m k w look) (hc : Changes id s w s' w')
    (hshows : w'.Shows s'.ids k look') : s'.Managed id mid m k w' look' :=
  ⟨hc.widget, hc.manager.trans h.manager, (hc.touches.manager? mid).trans h.managed,
    h.serves.mono hc.touches.ids, hshows⟩

/-- What happens elsewhere does not concern a managed widget. -/
theorem frame (h : s.Managed id mid m k w look) {T D : WidgetId → Prop} (hf : Frame T D s s')
    (hT : ¬T id) (hD : ¬D m.widget) : s'.Managed id mid m k w look :=
  ⟨hf.widget? id w hT h.widget, h.manager, hf.manager? mid m hD h.managed, h.serves.mono hf.ids,
    h.shows.mono hf.ids⟩

/-- The manager of a managed widget. -/
theorem managerOf? (h : s.Managed id mid m k w look) : s.managerOf? id = some m := by
  rw [managerOf?_of_widget? h.widget h.manager, h.managed]

/-- The values of a managed widget are resolved in the data of its manager. -/
theorem resolve (h : s.Managed id mid m k w look) (value : Value) :
    s.resolve id value = value.resolve m.data m.index := by
  rw [Session.resolve, h.managerOf?]

/-! ## One attribute -/

variable {name : String} {value : Value} {p : Property}

/-- A property that the widget has is set as a value in the manager's data says, or left as it is if
it does not accept that value. -/
theorem applyProperty_of_has (h : s.Managed id mid m k w look) (hp : k.Has p) (value : Value) :
    ∃ s' w', s.applyProperty id p value =
        ((p.settingOf? (value.resolve m.data m.index)).isSome, s') ∧
      Changes id s w s' w' ∧
      w'.Shows s'.ids k
        (((p.settingOf? (value.resolve m.data m.index)).map (look.set p)).getD look) ∧
      w'.children = w.children := by
  rw [← h.resolve]
  cases hsetting : p.settingOf? (s.resolve id value) with
  | none =>
    exact ⟨s, w, applyProperty_of_rejected h.widget h.shows.item hp hsetting, .refl h.widget,
      h.shows, rfl⟩
  | some x =>
    obtain ⟨s', w', hrun, htouches, hw', hsets⟩ :=
      applyProperty_of_accepted h.widget h.shows.item hp h.shows.rules hsetting
    exact ⟨s', w', hrun, ⟨htouches, hw', hsets.manager, hsets.parent⟩,
      Look.shows_set hsets h.shows, hsets.children⟩

/-- An attribute of a property. -/
theorem applyProperty_run (h : s.Managed id mid m k w look) (value : Value)
    (hroute : k.route name = .property p) :
    ∃ s' w', s.applyProperty id p value = (k.accepts m.data m.index (name, value), s') ∧
      Changes id s w s' w' ∧ w'.Shows s'.ids k (look.apply k m.data m.index (name, value)) ∧
      w'.children = w.children := by
  have hclears : k.clears (name, value) = false := by simp [Kind.clears, hroute]
  have heffect : k.effectIn? m.data m.index (name, value) =
      (p.settingOf? (value.resolve m.data m.index)).map fun x => (p, x) := by
    simp only [Kind.effectIn?, Kind.effect?, hroute]
  obtain ⟨s', w', hrun, hc, hshows, hchildren⟩ :=
    h.applyProperty_of_has (Kind.route_eq_property hroute).2 value
  refine ⟨s', w', ?_, hc, ?_, hchildren⟩
  · rw [hrun, Kind.accepts, hclears, heffect, Bool.or_false, Option.isSome_map]
  · rw [Look.apply, heffect]
    cases hsetting : p.settingOf? (value.resolve m.data m.index) <;> rwa [hsetting] at hshows

/-- Other children take the place of those that were there. -/
theorem replaceChildren_changes (h : s.Managed id mid m k w look) (children : List WidgetId) :
    Changes id s w (s.replaceChildren id children) { w with children := children } := by
  have hset : Changes id s w (s.setChildren id children) { w with children := children } :=
    ⟨.changeWidget id _ s, by simp [setChildren, h.widget], rfl, rfl⟩
  unfold replaceChildren
  dsimp only
  split
  · exact hset
  · exact hset.withLog _

variable (context : Context) (unknown : UnknownType)

/-- An attribute without layouts in it is accepted as its name and value tell, and changes the look
accordingly. Nobody is told yet. -/
theorem apply_run (h : s.Managed id mid m k w look) {a : Int} (ha : s.ids.get? name = some a)
    (hplain : value.IsPlain) :
    ∃ s' w',
      value.apply context unknown m.parser id a s =
        (.ok (k.accepts m.data m.index (name, value)), s') ∧
      Changes id s w s' w' ∧ w'.Shows s'.ids k (look.apply k m.data m.index (name, value)) ∧
      (w'.children = if k.clears (name, value) then [] else w.children) ∧ s.Tells [] s' := by
  have hroute : m.parser.handler.route a = k.route name := h.serves.route (le_refl s.ids) ha
  have hobserve := ViewParser.observe_of_nil h.serves.observers a value
  cases hk : k.route name with
  | property p =>
    rw [hk] at hroute
    rw [Value.apply_of_property hroute, hobserve]
    obtain ⟨s', w', hrun, hc, hshows, hchildren⟩ := h.applyProperty_run value hk
    have hclears : k.clears (name, value) = false := by simp [Kind.clears, hk]
    have htells := tells_applyProperty id p value s
    rw [hrun] at htells
    refine ⟨s', w', by rw [Engine.act_run, hrun], hc, hshows, ?_, htells⟩
    rw [hclears]
    exact hchildren
  | children =>
    rw [hk] at hroute
    have heffect : k.effectIn? m.data m.index (name, value) = none := by
      simp only [Kind.effectIn?, Kind.effect?, hk]
    have hlook : look.apply k m.data m.index (name, value) = look := by
      rw [Look.apply, heffect]
    have haccepts : k.accepts m.data m.index (name, value) = value.isEmptyArray := by
      simp [Kind.accepts, Kind.clears, heffect, hk]
    have hclears : k.clears (name, value) = value.isEmptyArray := by simp [Kind.clears, hk]
    rw [hlook, haccepts, hclears]
    by_cases harray : ∃ items, value = .array items
    · obtain ⟨items, rfl⟩ := harray
      rw [Value.apply_of_children hroute, hobserve, Fallible.bind_run_ok (Engine.look_run _ s),
        h.managerOf?]
      dsimp only
      cases hall : items.all Value.isLayout with
      | true =>
        -- All its items are layouts, and it has none: only the empty array is left.
        obtain rfl := hplain items rfl hall
        have hc := h.replaceChildren_changes []
        exact ⟨_, _, rfl, hc, (h.shows.mono hc.touches.ids).of_eq rfl rfl, rfl,
          tells_replaceChildren id [] s⟩
      | false =>
        obtain ⟨item, rest, rfl⟩ : ∃ item rest, items = item :: rest := by
          cases items with
          | nil => cases hall
          | cons item rest => exact ⟨item, rest, rfl⟩
        exact ⟨_, _, rfl, (Changes.refl h.widget).withLog _, h.shows, rfl, s.tells_note _⟩
    · have hnone : value.isEmptyArray = false := by
        cases value <;> first | rfl | exact absurd ⟨_, rfl⟩ harray
      rw [Value.apply_of_not_array hroute fun items hitems => harray ⟨items, hitems⟩, hobserve,
        hnone]
      exact ⟨s, w, rfl, .refl h.widget, h.shows, rfl, .refl s⟩
  | presence => exact absurd hk (k.route_ne_presence name)
  | unknown =>
    rw [hk] at hroute
    have heffect : k.effectIn? m.data m.index (name, value) = none := by
      simp only [Kind.effectIn?, Kind.effect?, hk]
    have hclears : k.clears (name, value) = false := by simp [Kind.clears, hk]
    rw [Value.apply_of_unknown hroute, hobserve, Kind.accepts, Look.apply, heffect, hclears]
    exact ⟨s, w, rfl, .refl h.widget, h.shows, rfl, .refl s⟩

/-! ## Children -/

/-- It does not matter what has been told. -/
theorem withLog (h : s.Managed id mid m k w look) (log : List Notice) :
    { s with log := log }.Managed id mid m k w look :=
  ⟨h.widget, h.manager, h.managed, h.serves, h.shows⟩

section

variable (ls : List Layout) {a : Int} (h : s.Managed id mid m k w look)
  (ha : s.ids.get? Layout.childrenName = some a)
include h ha

/-- Only containers take children. -/
theorem applyChildren_of_ne (hk : k ≠ .container) :
    (Value.array (ls.map Value.layout)).apply context unknown m.parser id a s =
      (.ok false, s) := by
  have hroute : m.parser.handler.route a = .unknown := by
    rw [h.serves.route (le_refl s.ids) ha]
    exact Kind.route_childrenName_of_ne hk
  rw [Value.apply_of_unknown hroute, ViewParser.observe_of_nil h.serves.observers]
  rfl

/-- A container's children are inflated in the data of its manager. -/
theorem applyChildren_eq (hk : k = .container) :
    (Value.array (ls.map Value.layout)).apply context unknown m.parser id a s =
      (do
        let children ← Value.inflateAll context unknown m.data id m.index (ls.map Value.layout)
        Engine.change (·.replaceChildren id children)
        return true : Engine Bool) s := by
  have hroute : m.parser.handler.route a = .children := by
    rw [h.serves.route (le_refl s.ids) ha]
    exact Kind.route_eq_children_iff.2 ⟨hk, rfl⟩
  rw [Value.apply_of_children hroute, ViewParser.observe_of_nil h.serves.observers,
    Fallible.bind_run_ok (Engine.look_run _ s), h.managerOf?]
  have hall : (ls.map Value.layout).all Value.isLayout = true := by simp [Value.isLayout]
  dsimp only
  rw [if_pos hall]

end

/-! ## The attributes of a layout -/

/-- Attributes without layouts in them, at the start of a list. It is told how each fared. -/
theorem applyAttributes_run (h : s.Managed id mid m k w look) (viewType : String)
    {named : List (String × Value)} {attributes : List Attribute}
    (hbears : List.Forall₂ (Attribute.Bears s.ids) named attributes)
    (hplain : ∀ n ∈ named, n.2.IsPlain) :
    ∃ s' w',
      (∀ rest,
        Layout.applyAttributes context unknown m.parser viewType id (attributes ++ rest) s =
          Layout.applyAttributes context unknown m.parser viewType id rest s') ∧
      Changes id s w s' w' ∧ w'.Shows s'.ids k (look.settle k m.data m.index named) ∧
      (w'.children = if named.any k.clears then [] else w.children) ∧
      (context.verbose = true →
        s.Tells (named.map (k.outcome m.data m.index id viewType)) s') := by
  induction named generalizing s w look attributes with
  | nil =>
    cases hbears
    exact ⟨s, w, fun rest => rfl, .refl h.widget, h.shows, rfl, fun _ => .refl s⟩
  | cons n ns ih =>
    cases hbears with
    | @cons _ a _ attributes hn hns =>
    obtain ⟨a, value⟩ := a
    obtain ⟨hid, rfl⟩ := hn
    obtain ⟨s₁, w₁, hrun, hc, hshows, hchildren, htells⟩ :=
      h.apply_run context unknown hid (hplain n (by simp))
    obtain ⟨log, hlog, hnext⟩ := Layout.applyAttributes_cons viewType hrun
    have hc₂ := hc.withLog log
    obtain ⟨s', w', hrest, hc', hshows', hchildren', htells'⟩ := ih (h.changes hc₂ hshows)
      (hns.imp fun _ _ => Attribute.Bears.mono hc₂.touches.ids)
      (fun n' hn' => hplain n' (List.mem_cons_of_mem n hn'))
    refine ⟨s', w', fun rest => (hnext _).trans (hrest rest), hc₂.trans hc', hshows', ?_, ?_⟩
    · rw [hchildren', hchildren, List.any_cons]
      cases k.clears n <;> cases ns.any k.clears <;> rfl
    · intro hverbose
      have hname : s₁.attributeName a = n.1 :=
        attributeName_of_get? (IdTable.get?_mono hc.touches.ids hid)
      have hfirst := htells.trans (hlog hverbose)
      rw [hname] at hfirst
      exact hfirst.trans (htells' hverbose)

end Managed

end Session

end LayoutEngine
