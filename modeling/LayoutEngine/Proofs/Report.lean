import LayoutEngine.Proofs.Engine
import LayoutEngine.Proofs.Look
import LayoutEngine.Proofs.Session

/-!
# What is told of attributes

A verbose engine tells of every attribute of a layout, once it has been applied, how it fared
(`Outcome`). `Session.Tells` says which outcomes have been told on the way from one session to
another; what else has been told is left open. Nothing but `Session.noteOutcome` tells of any.
-/

namespace LayoutEngine

/-- How an attribute of a layout fared with a widget. -/
structure Outcome where
  widget : WidgetId
  viewType : String
  name : String
  value : String
  accepted : Bool

/-- The outcome with its widget numbered on from a number. -/
def Outcome.after (base : Nat) (outcome : Outcome) : Outcome :=
  { outcome with widget := ⟨base + outcome.widget.number⟩ }

/-- What a notice tells of an attribute of a layout. -/
def Notice.outcome? : Notice → Option Outcome
  | .attributeHandled widget viewType name value => some ⟨widget, viewType, name, value, true⟩
  | .attributeRejected widget viewType name value => some ⟨widget, viewType, name, value, false⟩
  | _ => none

/-- How an attribute fares with a widget of a kind in data. -/
def Kind.outcome (k : Kind) (data : Fields) (index : Int) (id : WidgetId) (viewType : String)
    (named : String × Value) : Outcome :=
  ⟨id, viewType, named.1, named.2.text, k.accepts data index named⟩

namespace Session

/-- On the way from one session to another the outcomes have been told, in order. -/
def Tells (s : Session) (outcomes : List Outcome) (s' : Session) : Prop :=
  ∃ told, s'.log = s.log ++ told ∧ told.filterMap Notice.outcome? = outcomes

variable {s s' s'' : Session} {outcomes more : List Outcome}

/-- Where nothing is told no outcomes are. -/
theorem Tells.of_log_eq (h : s'.log = s.log) : s.Tells [] s' :=
  ⟨[], by rw [h, List.append_nil], rfl⟩

/-- Where nothing happens nothing is told. -/
theorem Tells.refl (s : Session) : s.Tells [] s := .of_log_eq rfl

/-- Outcomes are told one after the other. -/
theorem Tells.trans (h : s.Tells outcomes s') (h' : s'.Tells more s'') :
    s.Tells (outcomes ++ more) s'' := by
  obtain ⟨told, hlog, rfl⟩ := h
  obtain ⟨told', hlog', rfl⟩ := h'
  exact ⟨told ++ told', by rw [hlog', hlog, List.append_assoc], List.filterMap_append⟩

/-- What tells of no attribute can be told in between. -/
theorem Tells.then (h : s.Tells outcomes s') (h' : s'.Tells [] s'') : s.Tells outcomes s'' := by
  have hboth := h.trans h'
  rwa [List.append_nil] at hboth

/-- A notice tells the outcome that it is about, if it is about one. -/
theorem tells_note (notice : Notice) (s : Session) :
    s.Tells notice.outcome?.toList (s.note notice) := by
  refine ⟨[notice], rfl, ?_⟩
  rw [List.filterMap_cons]
  cases notice.outcome? <;> rfl

/-- Of an attribute its name is told. -/
theorem attributeName_of_get? {name : String} {a : Int} (h : s.ids.get? name = some a) :
    s.attributeName a = name := by
  rw [attributeName, IdTable.get?_eq_some_iff.1 h]
  rfl

/-- How an attribute fared is an outcome. -/
theorem tells_noteOutcome (id : WidgetId) (viewType : String) (a : Int) (value : Value)
    (accepted : Bool) (s : Session) :
    s.Tells [⟨id, viewType, s.attributeName a, value.text, accepted⟩]
      (s.noteOutcome id viewType a value accepted) := by
  cases accepted with
  | true => exact s.tells_note (.attributeHandled id viewType (s.attributeName a) value.text)
  | false => exact s.tells_note (.attributeRejected id viewType (s.attributeName a) value.text)

/-- Giving children to a widget tells no outcomes. -/
theorem tells_replaceChildren (id : WidgetId) (children : List WidgetId) (s : Session) :
    s.Tells [] (s.replaceChildren id children) := by
  have hset : s.Tells [] (s.setChildren id children) := .of_log_eq (log_changeWidget id _ s)
  unfold replaceChildren
  dsimp only
  split
  · exact hset
  · exact hset.then (tells_note _ _)

/-- Setting a property tells no outcomes. -/
theorem tells_applyProperty (id : WidgetId) (p : Property) (value : Value) (s : Session) :
    s.Tells [] (s.applyProperty id p value).2 := by
  have hitem : ∀ (applied? : Item → Option Item) (s : Session),
      s.Tells [] (s.applyItem id applied?).2 := by
    intro applied? s
    unfold applyItem
    split
    · exact .refl s
    · exact .of_log_eq (log_changeWidget id _ s)
  cases p with
  | common a =>
    simp only [applyProperty, applyCommon]
    split
    · exact .refl s
    · split
      · exact .refl s
      · exact .of_log_eq (log_changeWidget id _ s)
  | text a =>
    have hnote : s.Tells [] (s.noteNotText id a) := by
      unfold noteNotText
      split
      · exact .refl s
      · exact .refl s
      · exact s.tells_note _
    exact hnote.trans (hitem _ _)
  | editText a => exact hitem _ s
  | gravity => exact hitem _ s

/-- Recording what is declared tells no outcomes. -/
theorem tells_recordTags (id : WidgetId) (l : Layout) (s : Session) :
    s.Tells [] (s.recordTags id l) := by
  unfold recordTags
  split
  · exact .refl s
  · split <;> exact .of_log_eq rfl

end Session

/-- Giving a widget a manager tells no outcomes. -/
theorem ViewParser.tells_attach (parser : ViewParser) (verbose : Bool) (l : Layout)
    (data : Fields) (parent : Option WidgetId) (index : Int) (id : WidgetId) (s : Session) :
    s.Tells [] (parser.attach verbose l data parent index id s) := by
  have hreport : ∀ (call : HostCall) (s : Session), (parser.report call s).log = s.log := by
    intro call s
    unfold report
    split <;> rfl
  unfold attach
  split
  · split
    · exact s.tells_note _
    · exact .refl s
  · have hadd : ∀ s' : Session, s'.log = s.log →
        s.Tells [] (if verbose then s'.note (.managerAttached l.viewType id) else s') := by
      intro s' hs'
      split
      · exact (Session.Tells.of_log_eq hs').then (s'.tells_note _)
      · exact .of_log_eq hs'
    refine hadd _ ?_
    simp [setUp, Session.ask, Session.addManager, Session.changeView, hreport]

end LayoutEngine
