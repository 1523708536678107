import LayoutEngine.Proofs.Retention
import LayoutEngine.Session.Edit
import LayoutEngine.Session.Update

/-!
# Hosts that keep managers

`Session.Yields` is what is asked of a step wherever code of a host may run: it retains what there
is and leaves no place for a manager locked, unless it does not end. `Host.Keeps` asks it of all
that the engine leaves to others. What a host does otherwise is open, and so is how often it comes
back to the engine. Then inflating layouts, applying attributes, edits and updates yield as much
(`Layout.inflateBy_yields`, `Context.editBy_yields`, `Context.updateBy_yields`), and a layout whose
type has a parser gets a widget that has a manager before its attributes are applied
(`Layout.inflateBy_manages`).
-/

namespace LayoutEngine

open Session Engine

variable {updates : Prop} {s s' t : Session} {id : WidgetId} {calls : List ParserCall}
  {α β : Type} {x : Engine α} {f : α → Engine β} {post post' : α → Session → Prop}
  {post'' : β → Session → Prop}

/-! ## Steps -/

/-- What comes of a step retains what there was. Unless the step does not end, the places for
managers are locked that were locked before. Its result, if it has one, is as the postcondition
says. -/
structure Session.Yields (updates : Prop) (s : Session) (r : Except InflateError α × Session)
    (post : α → Session → Prop) : Prop where
  upholds : s.Upholds updates r.2
  locked : r.1 ≠ .error .endless → r.2.attaching.locked = s.attaching.locked
  result : ∀ a, r.1 = .ok a → post a r.2

/-- If a step fails, that is since it does not end. -/
def Engine.Unfailing (x : Engine α) : Prop := ∀ s e, (x s).1 = .error e → e = .endless

namespace Engine.Unfailing

/-- A result is no failure. -/
theorem pure (a : α) : Unfailing (pure a : Engine α) := fun _ _ h => by cases h

/-- What does not end is the one failure that is allowed. -/
theorem endless : Unfailing (throw .endless : Engine α) := fun _ _ h => by
  cases h
  rfl

/-- A step that has a result does not fail. -/
theorem act (step : Session → α × Session) : Unfailing (act step) := fun _ _ h => by cases h

/-- A change does not fail. -/
theorem change (step : Session → Session) : Unfailing (change step) := act _

/-- A look at the session does not fail. -/
theorem look (read : Session → α) : Unfailing (look read) := act _

/-- Steps one after the other do not fail if none of them does. -/
theorem bind (hx : Unfailing x) (hf : ∀ a, Unfailing (f a)) : Unfailing (x >>= f) := by
  intro s e he
  rcases hrun : x s with ⟨e' | a, s'⟩
  · rw [Fallible.bind_run_error hrun] at he
    cases he
    exact hx s e (congrArg Prod.fst hrun)
  · rw [Fallible.bind_run_ok hrun] at he
    exact hf a s' e he

end Engine.Unfailing

namespace Session.Yields

/-- A postcondition may be replaced by a weaker one. -/
theorem imp {r : Except InflateError α × Session} (h : s.Yields updates r post)
    (hpost : ∀ a s', s.Upholds updates s' → post a s' → post' a s') : s.Yields updates r post' :=
  ⟨h.upholds, h.locked, fun a ha => hpost a _ h.upholds (h.result a ha)⟩

/-- A step that has a result leaves no place locked. -/
theorem locked_of_ok {a : α} (h : s.Yields updates (.ok a, s') post) :
    s'.attaching.locked = s.attaching.locked :=
  h.locked fun hends => by cases hends

/-- A step may be judged by what came before it. -/
theorem after {r : Except InflateError α × Session} (h : s'.Yields updates r post)
    (hs : s.Upholds updates s') (hlocked : s'.attaching.locked = s.attaching.locked) :
    s.Yields updates r post :=
  ⟨hs.trans h.upholds, fun hends => (h.locked hends).trans hlocked, h.result⟩

/-- A result, after whatever upholds what there was. -/
theorem pure {a : α} (hs : s.Upholds updates t)
    (hlocked : t.attaching.locked = s.attaching.locked) (h : post a t) :
    s.Yields updates ((pure a : Engine α) t) post := by
  refine ⟨hs, fun _ => hlocked, fun b hb => ?_⟩
  cases hb
  exact h

/-- A failure changes nothing. -/
theorem throw (e : InflateError) (s : Session) :
    s.Yields updates ((throw e : Engine α) s) post :=
  ⟨.refl updates s, fun _ => rfl, fun _ ha => by cases ha⟩

/-- A step that has a result, by what it does. -/
theorem act {step : Session → α × Session} (hs : s.Upholds updates (step s).2)
    (hlocked : (step s).2.attaching.locked = s.attaching.locked)
    (h : post (step s).1 (step s).2) : s.Yields updates (Engine.act step s) post := by
  refine ⟨hs, fun _ => hlocked, fun a ha => ?_⟩
  cases ha
  exact h

/-- Steps one after the other, judged by what there was before the first. -/
theorem bind (hx : s.Yields updates (x t) post)
    (hf : ∀ a s', s.Upholds updates s' → s'.attaching.locked = s.attaching.locked → post a s' →
      s.Yields updates (f a s') post'') : s.Yields updates ((x >>= f) t) post'' := by
  rcases hrun : x t with ⟨e | a, s'⟩
  all_goals rw [hrun] at hx
  · rw [Fallible.bind_run_error hrun]
    exact ⟨hx.upholds, fun hends => hx.locked fun heq => hends (by cases heq; rfl),
      fun _ hb => by cases hb⟩
  · rw [Fallible.bind_run_ok hrun]
    exact hf a s' hx.upholds hx.locked_of_ok (hx.result a rfl)

/-- A step, and then one that is judged on its own. -/
theorem next (hx : s.Yields updates (x s) post)
    (hf : ∀ a s', s.Upholds updates s' → post a s' → s'.Yields updates (f a s') post'') :
    s.Yields updates ((x >>= f) s) post'' :=
  hx.bind fun a s' hs hlocked ha => (hf a s' hs ha).after hs hlocked

/-- A change, and then what is judged on its own. -/
theorem change_next {step : Session → Session} {f : Unit → Engine β}
    (hs : s.Upholds updates (step s))
    (hlocked : (step s).attaching.locked = s.attaching.locked)
    (hf : (step s).Yields updates (f () (step s)) post'') :
    s.Yields updates ((change step >>= f) s) post'' := by
  rw [Fallible.bind_run_ok (change_run step s)]
  exact hf.after hs hlocked

/-- A look at the session, and then what comes after it. -/
theorem look_next {read : Session → α} (hf : s.Yields updates (f (read s) s) post'') :
    s.Yields updates ((look read >>= f) s) post'' := by
  rwa [Fallible.bind_run_ok (look_run read s)]

/-- Telling the observers of an attribute comes after handling it. -/
theorem observe {handle : Engine Bool} (h : s.Yields updates (handle s) fun _ _ => True)
    (parser : ViewParser) (a : Int) (value : Value) :
    s.Yields updates (parser.observe a value handle s) fun _ _ => True := by
  have hreport : ∀ result s', Upholds updates s' (parser.reportHandled a value result s') ∧
      (parser.reportHandled a value result s').attaching.locked = s'.attaching.locked := by
    intro result s'
    have hsame := sameShape_reportHandled updates parser a value result s'
    exact ⟨hsame.upholds, congrArg Attaching.locked hsame.attaching⟩
  simp only [ViewParser.observe, ExceptT.mk]
  rcases hrun : handle s with ⟨e | accepted, s'⟩
  all_goals rw [hrun] at h
  · obtain ⟨hs, hlocked⟩ := hreport none s'
    exact ⟨h.upholds.trans hs, fun hends => hlocked.trans (h.locked hends), fun _ _ => trivial⟩
  · obtain ⟨hs, hlocked⟩ := hreport (some accepted) s'
    exact ⟨h.upholds.trans hs, fun _ => hlocked.trans h.locked_of_ok, fun _ _ => trivial⟩

end Session.Yields

/-- While a place for a manager is being filled, a step is done that does not fail. -/
theorem Session.Filling.bind (h : Filling updates id calls s t)
    (hx : t.Yields updates (x t) post) (hfails : Unfailing x)
    (hf : ∀ a t', Filling updates id calls s t' → s.Yields updates (f a t') post'') :
    s.Yields updates ((x >>= f) t) post'' := by
  rcases hrun : x t with ⟨e | a, t'⟩
  all_goals rw [hrun] at hx
  -- The one failure there can be is that there was no end, after which nothing is claimed.
  · obtain rfl : e = .endless := hfails t e (by rw [hrun])
    rw [Fallible.bind_run_error hrun]
    exact ⟨h.upholds.trans hx.upholds, fun hends => absurd rfl hends, fun _ hb => by cases hb⟩
  · rw [Fallible.bind_run_ok hrun]
    exact hf a t' (h.step hx.upholds hx.locked_of_ok)

/-! ## Hosts -/

/-- Whatever the engine leaves to others, it yields, and what gives out widgets gives out such as
are there. Of what is asked until a widget has its manager nothing fails, and nobody gets into a
locked place. -/
structure Host.Keeps (updates : Prop) (host : Host) : Prop where
  create : ∀ parser l data parent index {s : Session}, s.Consistent →
    s.Yields updates (host.create parser l data parent index s)
      fun id s' => (s'.widget? id).isSome = true
  enter : ∀ id {s : Session}, s.Consistent →
    s.Yields updates (host.enter id s) fun _ s' => id ∉ s'.attaching.locked
  setUp : ∀ parser id parent index {s : Session}, s.Consistent →
    s.Yields updates (host.setUp parser id parent index s) fun _ _ => True
  manager : ∀ maker keeper id l data parent index {s : Session}, s.Consistent →
    s.Yields updates (host.manager maker keeper id l data parent index s) fun _ _ => True
  handle : ∀ parser id a value {own : Engine Bool},
    (∀ {s : Session}, s.Consistent → s.Yields updates (own s) fun _ _ => True) →
    ∀ {s : Session}, s.Consistent →
    s.Yields updates (host.handle parser id a value own s) fun _ _ => True
  unknown : ∀ l data index {s : Session}, s.Consistent →
    s.Yields updates (host.unknown l data index s) fun id s' => (s'.widget? id).isSome = true
  unfailing_create : ∀ parser l data parent index,
    Unfailing (host.create parser l data parent index)
  unfailing_enter : ∀ id, Unfailing (host.enter id)
  unfailing_setUp : ∀ parser id parent index, Unfailing (host.setUp parser id parent index)
  unfailing_manager : ∀ maker keeper id l data parent index,
    Unfailing (host.manager maker keeper id l data parent index)

namespace Host.Keeps

variable {host : Host} (hhost : host.Keeps updates)
include hhost

/-- A place for a manager that is empty is filled. -/
theorem fill (hs : s.Consistent) (hopen : id ∉ s.attaching.locked) (hvacant : s.slot id = none)
    (hthere : (s.widget? id).isSome = true) (verbose : Bool) (parser : ViewParser) (l : Layout)
    (data : Fields) (parent : Option WidgetId) (index : Int) :
    s.Yields updates (host.fill verbose parser l data parent index id s)
      fun _ s' => (s'.slot id).isSome = true := by
  -- Whatever the host does in between, it cannot get into the place: it stays locked to the end.
  have hlock : Filling updates id [.setUp id] s ((s.lock id).ask (.setUp id)) :=
    (Filling.lock hs hopen hvacant).ask hopen rfl List.not_mem_nil
  rw [Host.fill, Fallible.bind_run_ok (change_run _ s)]
  refine hlock.bind (hhost.setUp parser id parent index (hlock.upholds.consistent hs))
    (hhost.unfailing_setUp parser id parent index) ?_
  intro _ s₂ h₂
  have hask : Filling updates id [.setUp id, .manager id] s (s₂.ask (.manager id)) :=
    h₂.ask hopen rfl (by simp)
  rw [Fallible.bind_run_ok (change_run _ s₂)]
  refine hask.bind (hhost.manager parser parser id l data parent index
    (hask.upholds.consistent hs)) (hhost.unfailing_manager parser parser id l data parent index) ?_
  intro m s₃ h₃
  obtain ⟨hupholds, hlocked, hmanaged⟩ := h₃.finish hopen (h₃.upholds.widget? id hthere) m
  rw [Fallible.bind_run_ok (change_run _ s₃)]
  split
  · exact ⟨hupholds.trans (upholds_note updates _ _), fun _ => hlocked, fun _ _ => hmanaged⟩
  · exact .pure hupholds hlocked hmanaged

/-- A widget that is there gets a manager, unless it has one. -/
theorem attach (hs : s.Consistent) (hthere : (s.widget? id).isSome = true) (verbose : Bool)
    (parser : ViewParser) (l : Layout) (data : Fields) (parent : Option WidgetId) (index : Int) :
    s.Yields updates (host.attach verbose parser l data parent index id s)
      fun _ s' => (s'.slot id).isSome = true := by
  rw [Host.attach]
  refine (hhost.enter id hs).next ?_
  intro _ s₁ h₁ hopen
  refine .look_next ?_
  cases hslot : (s₁.widget? id).bind (·.manager) with
  | some mid =>
    have hmanaged : (s₁.slot id).isSome = true := Option.isSome_iff_exists.2 ⟨mid, hslot⟩
    dsimp only
    split
    · exact .act (upholds_note updates _ s₁) rfl hmanaged
    · exact .pure (.refl updates s₁) rfl hmanaged
  | none =>
    exact hhost.fill (h₁.consistent hs) hopen hslot (h₁.widget? id hthere) verbose parser l data
      parent index

end Host.Keeps

/-! ## The engine -/

section

variable {context : Context} {host : Host}

/-- Children take the place of those that were there. -/
theorem Session.upholds_replaceChildren (updates : Prop) (id : WidgetId) (children : List WidgetId)
    (s : Session) : Upholds updates s (s.replaceChildren id children) ∧
      (s.replaceChildren id children).attaching = s.attaching := by
  have hset : Upholds updates s (s.changeWidget id fun w => { w with children := children }) := by
    refine .changeWidget updates id ?_ s
    exact fun _ => rfl
  have hattaching : (s.setChildren id children).attaching = s.attaching := by
    rw [setChildren, changeWidget_eq]
  unfold replaceChildren
  dsimp only
  split
  · exact ⟨hset, hattaching⟩
  · exact ⟨hset.trans (upholds_note updates _ _), hattaching⟩

/-- It is told how an attribute fared. -/
theorem Session.upholds_noteOutcome (updates : Prop) (id : WidgetId) (viewType : String) (a : Int)
    (value : Value) (accepted : Bool) (s : Session) :
    Upholds updates s (s.noteOutcome id viewType a value accepted) ∧
      (s.noteOutcome id viewType a value accepted).attaching = s.attaching := by
  unfold noteOutcome
  dsimp only
  split <;> exact ⟨upholds_note updates _ s, rfl⟩

/-- An attribute that sets a property. -/
theorem Session.yields_applyProperty (updates : Prop) (id : WidgetId) (p : Property) (value : Value)
    (s : Session) :
    s.Yields updates (Engine.act (·.applyProperty id p value) s) fun _ _ => True :=
  have hsame := sameShape_applyProperty updates id p value s
  .act hsame.upholds (congrArg Attaching.locked hsame.attaching) trivial

/-- An attribute that is no array is left out, or sets a property of its widget. -/
theorem Value.applyBy_yields_of_not_array (hhost : host.Keeps updates) (parser : ViewParser)
    (id : WidgetId) (a : Int) {value : Value} (harray : ∀ items, value ≠ .array items)
    (hs : s.Consistent) :
    s.Yields updates (value.applyBy context host parser id a s) fun _ _ => True := by
  cases value with
  | array items => exact absurd rfl (harray items)
  | null | bool | int | float | string | object | binding | layout =>
    refine hhost.handle parser id a _ ?_ hs
    intro s _
    cases parser.handler.route a with
    | property p => exact yields_applyProperty updates id p _ s
    | presence | children | unknown => exact .pure (.refl updates s) rfl trivial

/-- An array gives its widget children, is left out, or sets a property. -/
theorem Value.applyBy_yields_of_inflateAll (hhost : host.Keeps updates) (parser : ViewParser)
    (id : WidgetId) (a : Int) (items : List Value) (hs : s.Consistent)
    (hall : ∀ {s : Session} data index, s.Consistent →
      s.Yields updates (Value.inflateAllBy context host data id index items s) fun _ _ => True) :
    s.Yields updates ((Value.array items).applyBy context host parser id a s)
      fun _ _ => True := by
  refine hhost.handle parser id a (.array items) ?_ hs
  intro s hs
  cases parser.handler.route a with
  | property p => exact yields_applyProperty updates id p _ s
  | presence | unknown => exact .pure (.refl updates s) rfl trivial
  | children =>
    refine .look_next ?_
    cases s.managerOf? id with
    | none =>
      exact .change_next (upholds_note updates _ s) rfl (.pure (.refl updates _) rfl trivial)
    | some m =>
      dsimp only
      split
      · refine (hall m.data m.index hs).next ?_
        intro children s₁ _ _
        obtain ⟨hupholds, hattaching⟩ := upholds_replaceChildren updates id children s₁
        exact .change_next hupholds (congrArg Attaching.locked hattaching)
          (.pure (.refl updates _) rfl trivial)
      · exact .change_next (upholds_note updates _ s) rfl (.pure (.refl updates _) rfl trivial)

/-- The start of an inflation: a layout whose type has a parser gets a widget and the widget a
manager, and what the layout declares is recorded. -/
def Layout.startBy (context : Context) (host : Host) (parser : ViewParser) (data : Fields)
    (parent : Option WidgetId) (index : Int) (l : Layout) : Engine WidgetId := do
  let id ← host.create parser l data parent index
  host.attach context.verbose parser l data parent index id
  Engine.change (·.recordTags id l)
  return id

/-- A layout whose type has a parser starts, and then its attributes are applied. -/
theorem Layout.inflateBy_of_some (host : Host) {l : Layout} {parser : ViewParser}
    (hget : context.registry.get? l.viewType = some parser) (data : Fields)
    (parent : Option WidgetId) (index : Int) :
    l.inflateBy context host data parent index = (do
      let id ← l.startBy context host parser data parent index
      applyAttributesBy context host parser l.viewType id l.attributes
      return id) := by
  obtain ⟨viewType, attributes, tags⟩ := l
  simp only [inflateBy, hget, startBy, bind_assoc, pure_bind]

/-- At its start the widget of a layout gets a manager. -/
theorem Layout.startBy_yields (hhost : host.Keeps updates) (l : Layout) (data : Fields)
    (parent : Option WidgetId) (index : Int) (parser : ViewParser) (hs : s.Consistent) :
    s.Yields updates (l.startBy context host parser data parent index s)
      fun id s' => (s'.slot id).isSome = true := by
  refine (hhost.create parser l data parent index hs).next ?_
  intro id s₁ h₁ hthere
  refine (hhost.attach (h₁.consistent hs) hthere context.verbose parser l data parent index).next ?_
  intro _ s₂ _ hmanaged
  have hsame := sameShape_recordTags updates id l s₂
  refine .change_next hsame.upholds (congrArg Attaching.locked hsame.attaching)
    (.pure (.refl updates _) rfl ?_)
  rwa [slot, hsame.manager]

/-- A layout starts, or is left to the host, and its attributes are applied. -/
theorem Layout.inflateBy_yields_of_attributes (hhost : host.Keeps updates) (data : Fields)
    (parent : Option WidgetId) (index : Int) {l : Layout} (hs : s.Consistent)
    (hattributes : ∀ {s : Session} parser id, s.Consistent →
      s.Yields updates (applyAttributesBy context host parser l.viewType id l.attributes s)
        fun _ _ => True) :
    s.Yields updates (l.inflateBy context host data parent index s)
      fun id s' => (s'.widget? id).isSome = true := by
  cases hget : context.registry.get? l.viewType with
  | none =>
    have hnote := upholds_note updates (.noParser l.viewType) s
    have hrun : l.inflateBy context host data parent index s =
        host.unknown l data index (s.note (.noParser l.viewType)) := by
      obtain ⟨viewType, attributes, tags⟩ := l
      simp only [inflateBy, hget]
      exact Fallible.bind_run_ok (change_run _ s)
    rw [hrun]
    exact (hhost.unknown l data index (hnote.consistent hs)).after hnote rfl
  | some parser =>
    rw [inflateBy_of_some host hget]
    refine (startBy_yields hhost l data parent index parser hs).next ?_
    intro id s₁ h₁ hmanaged
    refine (hattributes parser id (h₁.consistent hs)).next ?_
    intro _ s₂ h₂ _
    obtain ⟨mid, hmid⟩ := Option.isSome_iff_exists.1 hmanaged
    obtain ⟨w, hw, -⟩ := Option.bind_eq_some_iff.1 (h₂.slot id mid hmid)
    exact .pure (.refl updates s₂) rfl (Option.isSome_iff_exists.2 ⟨w, hw⟩)

/-- An attribute is told of once it has been handled, if at all. -/
theorem Layout.applyAttributesBy_yields_cons {parser : ViewParser} {viewType : String}
    {a : Int} {value : Value} {rest : List Attribute} (hs : s.Consistent)
    (hvalue : s.Yields updates (value.applyBy context host parser id a s) fun _ _ => True)
    (hrest : ∀ {s : Session}, s.Consistent →
      s.Yields updates (applyAttributesBy context host parser viewType id rest s)
        fun _ _ => True) :
    s.Yields updates (applyAttributesBy context host parser viewType id (⟨a, value⟩ :: rest) s)
      fun _ _ => True := by
  refine hvalue.next ?_
  intro accepted s₁ h₁ _
  have hs₁ := h₁.consistent hs
  obtain ⟨hupholds, hattaching⟩ := upholds_noteOutcome updates id viewType a value accepted s₁
  dsimp only
  split
  · exact .change_next hupholds (congrArg Attaching.locked hattaching)
      (hrest (hupholds.consistent hs₁))
  · exact hrest hs₁

mutual

/-- Inflating a layout retains what there is, whatever the host does meanwhile. -/
theorem Layout.inflateBy_yields (hhost : host.Keeps updates) (data : Fields)
    (parent : Option WidgetId) (index : Int) :
    ∀ (l : Layout) {s : Session}, s.Consistent →
      s.Yields updates (l.inflateBy context host data parent index s)
        fun id s' => (s'.widget? id).isSome = true
  | ⟨viewType, attributes, tags⟩, _, hs =>
    Layout.inflateBy_yields_of_attributes (l := ⟨viewType, attributes, tags⟩) hhost data parent
      index hs fun parser id hs =>
        Layout.applyAttributesBy_yields hhost parser viewType id attributes hs
termination_by structural l => l

/-- So does applying attributes to a widget. -/
theorem Layout.applyAttributesBy_yields (hhost : host.Keeps updates) (parser : ViewParser)
    (viewType : String) (id : WidgetId) :
    ∀ (attributes : List Attribute) {s : Session}, s.Consistent →
      s.Yields updates (Layout.applyAttributesBy context host parser viewType id attributes s)
        fun _ _ => True
  | [], _, _ => .pure (.refl updates _) rfl trivial
  | ⟨a, value⟩ :: rest, _, hs =>
    Layout.applyAttributesBy_yields_cons hs (Value.applyBy_yields hhost parser id a value hs)
      fun hs => Layout.applyAttributesBy_yields hhost parser viewType id rest hs
termination_by structural attributes => attributes

/-- So does applying one attribute. -/
theorem Value.applyBy_yields (hhost : host.Keeps updates) (parser : ViewParser) (id : WidgetId)
    (a : Int) :
    ∀ (value : Value) {s : Session}, s.Consistent →
      s.Yields updates (value.applyBy context host parser id a s) fun _ _ => True
  | .array items, _, hs =>
    Value.applyBy_yields_of_inflateAll hhost parser id a items hs fun data index hs =>
      (Value.inflateAllBy_yields hhost data id index items hs)
  | .null, _, hs | .bool _, _, hs | .int _, _, hs | .float _, _, hs | .string _, _, hs
  | .object _, _, hs | .binding _, _, hs | .layout _, _, hs =>
    Value.applyBy_yields_of_not_array hhost parser id a nofun hs
termination_by structural value => value

/-- So does inflating the layouts among values. -/
theorem Value.inflateAllBy_yields (hhost : host.Keeps updates) (data : Fields)
    (parent : WidgetId) (index : Int) :
    ∀ (items : List Value) {s : Session}, s.Consistent →
      s.Yields updates (Value.inflateAllBy context host data parent index items s)
        fun _ _ => True
  | [], _, _ => .pure (.refl updates _) rfl trivial
  | .layout l :: rest, _, hs =>
    (Layout.inflateBy_yields hhost data (some parent) index l hs).next fun _ _ h₁ _ =>
      (Value.inflateAllBy_yields hhost data parent index rest (h₁.consistent hs)).next
        fun _ _ _ _ => .pure (.refl updates _) rfl trivial
  | .null :: rest, _, hs | .bool _ :: rest, _, hs | .int _ :: rest, _, hs
  | .float _ :: rest, _, hs | .string _ :: rest, _, hs | .object _ :: rest, _, hs
  | .binding _ :: rest, _, hs | .array _ :: rest, _, hs =>
    Value.inflateAllBy_yields hhost data parent index rest hs
termination_by structural items => items

end

end

end LayoutEngine
