import LayoutEngine.Proofs.Edit

/-!
# Edits as a whole

An edit is all or nothing, whatever parsers there are and whatever the session holds. Its value
comes from JSON, so it has no layouts in it: it is accepted or not, and one that is not changes no
widget (`Value.apply_answers`). Descriptors are recorded after that. So an edit either succeeds and
leaves one descriptor of its name, in the place of the first there was, or fails and leaves widgets
and descriptors as they were (`Context.edit_atomic`).
-/

namespace LayoutEngine

namespace Session

variable {s s' s'' : Session} {accepted : Bool}

/-- An attribute has been answered: no declared attributes have changed, and no widget either if it
was not accepted. -/
structure Answers (s s' : Session) (accepted : Bool) : Prop where
  tags : s'.tags = s.tags
  widgets : accepted = false → s'.widgets = s.widgets

/-- What is told before and after is of no matter. -/
theorem Answers.of_eq (h : s.Answers s' accepted) (hwidgets : s''.widgets = s'.widgets)
    (htags : s''.tags = s'.tags) : s.Answers s'' accepted :=
  ⟨htags.trans h.tags, fun hno => hwidgets.trans (h.widgets hno)⟩

/-- What is not accepted leaves the widgets as they are. -/
theorem widgets_applyItem (id : WidgetId) (applied? : Item → Option Item) (s : Session)
    (h : (s.applyItem id applied?).1 = false) :
    (s.applyItem id applied?).2.widgets = s.widgets := by
  unfold applyItem at h ⊢
  split at h <;> simp_all

/-- Setting a property answers whether it has changed something. -/
theorem answers_applyProperty (id : WidgetId) (p : Property) (value : Value) (s : Session) :
    s.Answers (s.applyProperty id p value).2 (s.applyProperty id p value).1 := by
  refine ⟨(touches_applyProperty id p value s).tags, ?_⟩
  cases p with
  | common a =>
    simp only [applyProperty, applyCommon]
    intro hno
    split at hno
    · rfl
    · split at hno
      · rfl
      · cases hno
  | text a =>
    have hnote : (s.noteNotText id a).widgets = s.widgets := by
      unfold noteNotText
      split <;> rfl
    intro hno
    exact ((s.noteNotText id a).widgets_applyItem id _ hno).trans hnote
  | editText a => exact s.widgets_applyItem id _
  | gravity => exact s.widgets_applyItem id _

/-- What was declared has nothing to do with children. -/
theorem tags_replaceChildren (id : WidgetId) (children : List WidgetId) (s : Session) :
    (s.replaceChildren id children).tags = s.tags := by
  unfold replaceChildren
  dsimp only
  split <;> exact tags_changeWidget id _ s

end Session

/-- A value without layouts in it is accepted or not, whatever parser it comes through, and a widget
changes only if it is. -/
theorem Value.apply_answers (context : Context) (unknown : UnknownType) (parser : ViewParser)
    (id : WidgetId) (a : Int) {value : Value} (hplain : value.IsPlain) (s : Session) :
    ∃ accepted s', value.apply context unknown parser id a s = (.ok accepted, s') ∧
      s.Answers s' accepted := by
  have hobserve : ∀ {handle : Engine Bool} accepted s₁, handle s = (.ok accepted, s₁) →
      s.Answers s₁ accepted → ∃ accepted s',
        parser.observe a value handle s = (.ok accepted, s') ∧ s.Answers s' accepted := by
    intro handle accepted s₁ hrun h
    obtain ⟨calls, hobserve⟩ := ViewParser.observe_run hrun parser a value
    exact ⟨accepted, { s₁ with calls := calls }, hobserve, h.of_eq rfl rfl⟩
  have hsame : ∀ accepted, s.Answers s accepted := fun _ => ⟨rfl, fun _ => rfl⟩
  cases hroute : parser.handler.route a with
  | property p =>
    rw [apply_of_property hroute]
    exact hobserve _ _ (Engine.act_run _ s) (s.answers_applyProperty id p value)
  | presence =>
    rw [apply_of_presence hroute]
    exact hobserve _ _ (Fallible.pure_run _ s) (hsame _)
  | unknown =>
    rw [apply_of_unknown hroute]
    exact hobserve _ _ (Fallible.pure_run _ s) (hsame _)
  | children =>
    by_cases harray : ∃ items, value = .array items
    · obtain ⟨items, rfl⟩ := harray
      rw [apply_of_children hroute]
      cases hmanager : s.managerOf? id with
      | none =>
        refine hobserve false (s.note (.noManagerForChildren id)) ?_
          ⟨rfl, fun _ => rfl⟩
        rw [Fallible.bind_run_ok (Engine.look_run _ s), hmanager]
        rfl
      | some m =>
        cases hall : items.all isLayout with
        | true =>
          -- Children that are all layouts are none at all.
          obtain rfl := hplain items rfl hall
          refine hobserve true (s.replaceChildren id []) ?_
            ⟨s.tags_replaceChildren id [], fun h => absurd h.symm Bool.false_ne_true⟩
          rw [Fallible.bind_run_ok (Engine.look_run _ s), hmanager]
          rfl
        | false =>
          refine hobserve false (s.note (.childNoLayout id)) ?_
            ⟨rfl, fun _ => rfl⟩
          rw [Fallible.bind_run_ok (Engine.look_run _ s), hmanager]
          dsimp only
          rfl
    · rw [apply_of_not_array hroute fun items hitems => harray ⟨items, hitems⟩]
      exact hobserve _ _ (Fallible.pure_run _ s) (hsame _)

/-- A widget has one descriptor of a name, in the place of the first there was of that name or after
all others. Its other descriptors, and those of other widgets, have stayed. -/
structure Session.Edited (id : WidgetId) (d : Descriptor) (s s' : Session) : Prop where
  only : (s'.attributesOf id).filter (·.name = d.name) = [d]
  place :
    (∃ before first after, s.attributesOf id = before ++ first :: after ∧ first.name = d.name ∧
      (∀ e ∈ before, e.name ≠ d.name) ∧
      s'.attributesOf id = before ++ d :: after.filter (·.name ≠ d.name)) ∨
    (∀ e ∈ s.attributesOf id, e.name ≠ d.name) ∧ s'.attributesOf id = s.attributesOf id ++ [d]
  others : (s'.attributesOf id).filter (·.name ≠ d.name) =
    (s.attributesOf id).filter (·.name ≠ d.name)
  elsewhere : ∀ other ≠ id, s'.tags.get? other = s.tags.get? other

/-- What recording an edit comes to. -/
theorem Session.edited_recordEdit (id : WidgetId) (name : String) (json : Json) (s : Session) :
    s.Edited id (.ofJson name json) (s.recordEdit id name json) := by
  have hself := s.attributesOf_recordEdit_self id name json
  refine ⟨?_, ?_, ?_, fun other hne => get?_tags_recordEdit_of_ne hne name json s⟩
  · rw [hself, Descriptor.filter_upsert_self]
  · rw [hself]
    exact Descriptor.upsert_place _ _
  · rw [hself, Descriptor.filter_ne_upsert]

/-- An edit succeeds and records the descriptor of its trimmed name and its value, or fails and
leaves all widgets and all declared attributes as they were. -/
theorem Context.edit_atomic (context : Context) (id : WidgetId) (name : String) (json : Json)
    (s : Session) :
    (∃ s', context.edit id name json s = (.ok (), s') ∧
      s.Edited id (.ofJson (Text.trimmed name) json) s') ∨
    ∃ e s', context.edit id name json s = (.error e, s') ∧ s'.widgets = s.widgets ∧
      s'.tags = s.tags := by
  rw [edit_eq]
  cases s.managerOf? id with
  | none => exact .inr ⟨_, s, rfl, rfl, rfl⟩
  | some m =>
    dsimp only
    by_cases hname : Text.trimmed name = ""
    · rw [if_pos hname]
      exact .inr ⟨_, s, rfl, rfl, rfl⟩
    · obtain ⟨accepted, s', hrun, hanswers⟩ := Value.apply_answers context
        (context.unknown context.layouts.size) m.parser id (s.intern (Text.trimmed name)).1
        (Value.isPlain_ofJson json) (s.intern (Text.trimmed name)).2
      have happly : context.apply m.parser id (s.intern (Text.trimmed name)).1 (.ofJson json)
          (s.intern (Text.trimmed name)).2 = (.ok accepted, s') := hrun
      rw [if_neg hname, happly]
      cases accepted with
      | true =>
        refine .inl ⟨_, rfl, ?_⟩
        have hbefore : s'.tags = s.tags := hanswers.tags
        have hattributes : s'.attributesOf id = s.attributesOf id := by
          rw [Session.attributesOf, hbefore, Session.attributesOf]
        obtain ⟨honly, hplace, hothers, helsewhere⟩ :=
          s'.edited_recordEdit id (Text.trimmed name) json
        rw [hattributes] at hplace hothers
        rw [hbefore] at helsewhere
        exact ⟨honly, hplace, hothers, helsewhere⟩
      | false => exact .inr ⟨_, s', rfl, hanswers.widgets rfl, hanswers.tags⟩

/-- The text of a text is edited. It has no transparency of one half in words. -/
example :
    let s := (Context.own.inflate ⟨"text", [], none⟩ [] none noDataIndex
      (.ofIds Context.ownIds)).2
    Fallible.gives (Context.own.edit ⟨1⟩ " text " (.string "Hi")) s (fun _ s' =>
      decide (s'.attributesOf ⟨1⟩ = [⟨"text", "Hi"⟩])) = true ∧
    Fallible.failsWith (Context.own.edit ⟨1⟩ "alpha" (.string "half")) s (fun e s' =>
      decide (e = .rejected "alpha" "text" ∧ s'.attributesOf ⟨1⟩ = [])) = true := by
  decide +kernel

end LayoutEngine
