import LayoutEngine.Proofs.Fallible
import LayoutEngine.Session.Inflate
import Mathlib.Order.Defs.Unbundled

/-!
# Running steps of a session

What the steps give and leave behind that an engine is built of. `Engine.Leads` is a contract for a
step: it takes a session to one that a relation allows, whether or not it fails, and its result is
as a postcondition says. Contracts follow the structure of a step, `Leads.bind` where one step comes
after another.
-/

namespace LayoutEngine.Engine

variable {α β : Type}

@[simp] theorem act_run (step : Session → α × Session) (s : Session) :
    act step s = (.ok (step s).1, (step s).2) := rfl

@[simp] theorem change_run (step : Session → Session) (s : Session) :
    change step s = (.ok (), step s) := rfl

@[simp] theorem look_run (read : Session → α) (s : Session) : look read s = (.ok (read s), s) := rfl

/-- A step after one that does not fail. -/
theorem returns_bind {x : Engine α} {f : α → Engine β} {s : Session}
    (hx : ∃ a, (x s).1 = .ok a) (hf : ∀ a s', x s = (.ok a, s') → ∃ b, (f a s').1 = .ok b) :
    ∃ b, ((x >>= f) s).1 = .ok b := by
  rcases hrun : x s with ⟨e | a, s'⟩
  · obtain ⟨a, ha⟩ := hx
    rw [hrun] at ha
    cases ha
  · rw [Fallible.bind_run_ok hrun]
    exact hf a s' hrun

/-! ## Contracts -/

/-- From a session a step leads to one that the relation allows, and its result, if it has one, is
as the postcondition says. -/
structure Leads (R : Session → Session → Prop) (x : Engine α) (s : Session)
    (post : α → Session → Prop) : Prop where
  along : R s (x s).2
  result : ∀ a, (x s).1 = .ok a → post a (x s).2

namespace Leads

variable {R : Session → Session → Prop} {x y : Engine α} {f : α → Engine β} {s s' : Session}
  {post post' : α → Session → Prop} {post'' : β → Session → Prop}

/-- A postcondition may be replaced by a weaker one. -/
theorem imp (h : Leads R x s post)
    (hpost : ∀ a s', R s s' → post a s' → post' a s') : Leads R x s post' :=
  ⟨h.along, fun a ha => hpost a _ h.along (h.result a ha)⟩

/-- A step that does not fail, by what it does. -/
theorem act {step : Session → α × Session} (hstep : R s (step s).2)
    (hpost : post (step s).1 (step s).2) : Leads R (Engine.act step) s post := by
  refine ⟨hstep, ?_⟩
  intro a ha
  cases ha
  exact hpost

variable [IsPreorder Session R]

/-- A result, without a step. -/
theorem pure {a : α} (h : post a s) : Leads R (pure a) s post := by
  refine ⟨refl_of R s, ?_⟩
  intro b hb
  cases hb
  exact h

/-- A step that fails leaves nothing to be shown. -/
theorem throw (e : InflateError) : Leads R (throw e) s post :=
  ⟨refl_of R s, fun _ ha => by cases ha⟩

/-- A step that does what another does from where the session has got to. -/
theorem of_run (hrun : x s = y s') (h : R s s') (hy : Leads R y s' post) : Leads R x s post := by
  refine ⟨?_, ?_⟩
  · rw [hrun]
    exact trans_of R h hy.along
  · rw [hrun]
    exact hy.result

omit [IsPreorder Session R] in
/-- What comes after a step may be judged by where that step started. -/
theorem bind_from (hx : Leads R x s post)
    (hf : ∀ a s', R s s' → post a s' →
      R s (f a s').2 ∧ ∀ b, (f a s').1 = .ok b → post'' b (f a s').2) :
    Leads R (x >>= f) s post'' := by
  rcases hrun : x s with ⟨e | a, s'⟩
  all_goals
    have halong := hx.along
    have hresult := hx.result
    rw [hrun] at halong hresult
  · refine ⟨?_, ?_⟩
    · rw [Fallible.bind_run_error hrun]
      exact halong
    · rw [Fallible.bind_run_error hrun]
      intro b hb
      cases hb
  · have hnext := hf a s' halong (hresult a rfl)
    rw [← Fallible.bind_run_ok (f := f) hrun] at hnext
    exact ⟨hnext.1, hnext.2⟩

/-- Steps one after the other, if what they keep is transitive. -/
theorem bind (hx : Leads R x s post)
    (hf : ∀ a s', R s s' → post a s' → Leads R (f a) s' post'') : Leads R (x >>= f) s post'' :=
  hx.bind_from fun a s' h ha => ⟨trans_of R h (hf a s' h ha).along, (hf a s' h ha).result⟩

/-- A change, and then what comes after it. -/
theorem change_bind {step : Session → Session} {f : Unit → Engine β} (hstep : R s (step s))
    (hf : Leads R (f ()) (step s) post'') : Leads R (change step >>= f) s post'' :=
  of_run (Fallible.bind_run_ok (change_run step s)) hstep hf

/-- A look at the session, and then what comes after it. -/
theorem look_bind {read : Session → α} (hf : Leads R (f (read s)) s post'') :
    Leads R (look read >>= f) s post'' :=
  of_run (Fallible.bind_run_ok (look_run read s)) (refl_of R s) hf

/-- A step that deals with failures. -/
theorem tryCatch {handle : InflateError → Engine α} (hx : Leads R x s post)
    (hhandle : ∀ e s', R s s' → Leads R (handle e) s' post) :
    Leads R (tryCatch x handle) s post := by
  rcases hrun : x s with ⟨e | a, s'⟩
  all_goals
    have halong := hx.along
    have hresult := hx.result
    have hcatch := Fallible.tryCatch_run x handle s
    rw [hrun] at halong hresult hcatch
  · exact of_run hcatch halong (hhandle e s' halong)
  · refine ⟨?_, ?_⟩
    · rw [hcatch]
      exact halong
    · rw [hcatch]
      exact hresult

/-- Telling the observers of an attribute comes after handling it. -/
theorem observe {handle : Engine Bool} (h : Leads R handle s fun _ _ => True)
    (parser : ViewParser) (a : Int) (value : Value)
    (hreport : ∀ result s', R s' (parser.reportHandled a value result s')) :
    Leads R (parser.observe a value handle) s fun _ _ => True := by
  refine ⟨?_, fun _ _ => True.intro⟩
  have halong := h.along
  simp only [ViewParser.observe, ExceptT.mk]
  rcases hrun : handle s with ⟨e | accepted, s'⟩
  all_goals
    rw [hrun] at halong
    exact trans_of R halong (hreport _ s')

end Leads

end LayoutEngine.Engine

/-! ## The steps of an inflation -/

namespace LayoutEngine

variable {context : Context} {unknown : UnknownType}

/-- The session in which a widget has a manager and knows its parent, unless it already had one, as
the engine's own parsers have it. -/
def ViewParser.attach (parser : ViewParser) (verbose : Bool) (l : Layout) (data : Fields)
    (parent : Option WidgetId) (index : Int) (id : WidgetId) (s : Session) : Session :=
  match (s.widget? id).bind (·.manager) with
  | some _ => if verbose then s.note (.managerKept id) else s
  | none =>
    let s := parser.setUp id parent index (s.ask (.setUp id))
    let s := parser.report (.manager parser.typeName) (s.ask (.manager id))
    let s := s.addManager id ⟨id, l, parser, parent, index, data⟩
    if verbose then s.note (.managerAttached l.viewType id) else s

/-- The engine's own parsers do not come back while a place for a manager is locked, so that it is
locked makes no difference. -/
theorem Host.attach_own (unknown : UnknownType) (verbose : Bool) (parser : ViewParser) (l : Layout)
    (data : Fields) (parent : Option WidgetId) (index : Int) (id : WidgetId) :
    (own unknown).attach verbose parser l data parent index id =
      Engine.change (parser.attach verbose l data parent index id) := by
  funext s
  rw [Engine.change_run, attach, ViewParser.attach]
  have henter : (own unknown).enter id s = (.ok (), s) := rfl
  rw [Fallible.bind_run_ok henter, Fallible.bind_run_ok (Engine.look_run _ s)]
  cases (s.widget? id).bind (·.manager) with
  | some mid => cases verbose <;> rfl
  | none =>
    have hunlock : ((parser.report (.manager parser.typeName)
          ((parser.setUp id parent index ((s.lock id).ask (.setUp id))).ask
            (.manager id))).addManager id ⟨id, l, parser, parent, index, data⟩).unlock id =
        (parser.report (.manager parser.typeName)
          ((parser.setUp id parent index (s.ask (.setUp id))).ask (.manager id))).addManager id
            ⟨id, l, parser, parent, index, data⟩ := by
      obtain ⟨_ | n⟩ := id <;> cases hobserved : parser.isObserved <;>
        simp [ViewParser.setUp, ViewParser.report, hobserved, Session.lock, Session.ask,
          Session.unlock, Session.addManager, Session.changeView, Session.changeWidget,
          Session.tell]
    dsimp only
    rw [← hunlock]
    cases verbose <;> rfl

namespace Layout

variable (data : Fields) (parent : Option WidgetId) (index : Int) (viewType : String)
  (attributes : List Attribute) (tags : Option (List Descriptor))

/-- A layout gets a widget, if its type has a parser, and then its attributes are applied. -/
theorem inflate_of_mk :
    inflate context unknown data parent index ⟨viewType, attributes, tags⟩ = (do
      match context.registry.get? viewType with
      | none =>
        Engine.change (·.note (.noParser viewType))
        unknown ⟨viewType, attributes, tags⟩ data index
      | some parser =>
        let id ← Engine.act (parser.giveOut viewType index)
        let l : Layout := ⟨viewType, attributes, tags⟩
        Engine.change (parser.attach context.verbose l data parent index id)
        Engine.change (·.recordTags id l)
        applyAttributes context unknown parser viewType id attributes
        return id) := by
  simp only [← Host.attach_own unknown]
  rfl

variable (parser : ViewParser) (id : WidgetId) (a : Int) (value : Value) (rest : List Attribute)

@[simp] theorem applyAttributes_of_nil :
    applyAttributes context unknown parser viewType id [] = pure () := rfl

/-- Attributes are applied one after the other. -/
theorem applyAttributes_of_cons :
    applyAttributes context unknown parser viewType id (⟨a, value⟩ :: rest) = (do
      let accepted ← value.apply context unknown parser id a
      if context.verbose then Engine.change (·.noteOutcome id viewType a value accepted)
      applyAttributes context unknown parser viewType id rest) := rfl

/-- A layout of a type without parser is left to what is done about such types. -/
theorem inflate_of_none (unknown : UnknownType) (data : Fields) (parent : Option WidgetId)
    (index : Int) {l : Layout} (hget : context.registry.get? l.viewType = none) (s : Session) :
    l.inflate context unknown data parent index s =
      unknown l data index (s.note (.noParser l.viewType)) := by
  obtain ⟨viewType, attributes, tags⟩ := l
  rw [inflate_of_mk, hget]
  exact Fallible.bind_run_ok (Engine.change_run _ s)

end Layout

/-- A named layout is inflated, if there is one of the name. -/
theorem Context.inflateNamed_eq (context : Context) (name : String) (data : Fields)
    (parent : Option WidgetId) (index : Int) :
    context.inflateNamed name data parent index =
      match context.layouts.get? name with
      | none => throw (.layoutNotFound name)
      | some l => context.inflate l data parent index := rfl

namespace Value

variable (data : Fields) (parent : WidgetId) (index : Int) (l : Layout) (rest : List Value)

/-- Layouts are inflated one after the other. -/
theorem inflateAll_of_layout :
    inflateAll context unknown data parent index (.layout l :: rest) = (do
      let id ← l.inflate context unknown data (some parent) index
      let more ← inflateAll context unknown data parent index rest
      return id :: more) := rfl

end Value

end LayoutEngine
