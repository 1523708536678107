import LayoutEngine.Proofs.Effect

/-!
# What a widget holds

What a property of a widget is set to as the widget stores it, other views by their numbers
(`Property.held?`), and so without regard to which names have numbers. A property that is accepted
leaves what the widget holds of every other one as it is. This holds of every widget, whatever its
item (`Session.applyProperty_of_effective`), so that effects may come one after the other
(`Session.Applied`).
-/

namespace LayoutEngine

/-! ## Views -/

namespace CommonAttribute

/-- What a view holds of an attribute, other views by their numbers. -/
def held (view : ViewState) : CommonAttribute → Setting
  | .id => view.id.elim (.view none) .number
  | .width => .dimension view.placing.width
  | .height => .dimension view.placing.height
  | .visibility => .visibility view.visibility
  | .padding => .number view.padding
  | .background => .optional view.background
  | .enabled => .flag view.enabled
  | .alpha => .single view.alpha
  | .rule r =>
    match Entries.get? r view.placing.rules with
    | none => .noRule
    | some .parent => .parent
    | some (.sibling anchor) => .number anchor

variable {a b : CommonAttribute} {value : Value} {view view' : ViewState} {ids ids' : IdTable}

/-- Where the same is held of the id, the id is the same. -/
theorem id_eq_of_held (h : id.held view' = id.held view) : view'.id = view.id := by
  simp only [held] at h
  generalize view.id = own at h ⊢
  generalize view'.id = own' at h ⊢
  cases own <;> cases own' <;> cases h <;> rfl

/-- Where the same is held of a rule, its anchor is the same. -/
theorem rule_eq_of_held {r : RelativeRule} (h : (rule r).held view' = (rule r).held view) :
    Entries.get? r view'.placing.rules = Entries.get? r view.placing.rules := by
  simp only [held] at h
  generalize Entries.get? r view.placing.rules = anchor at h ⊢
  generalize Entries.get? r view'.placing.rules = anchor' at h ⊢
  rcases anchor with _ | _ | _ <;> rcases anchor' with _ | _ | _ <;> first | rfl | cases h <;> rfl

/-- What an attribute is set to depends on what the view holds of it. -/
theorem setting?_of_held (h : a.held view' = a.held view) (t : IdTable) :
    a.setting? t view' = a.setting? t view := by
  cases a with
  | id => simp only [setting?, id_eq_of_held h]
  | rule r => simp only [setting?, rule_eq_of_held h]
  | _ => exact congrArg some h

/-- Changing one rule leaves what is held of all other attributes. -/
theorem held_changeRules {r : RelativeRule}
    (change : List (RelativeRule × RuleAnchor) → List (RelativeRule × RuleAnchor))
    (hothers : ∀ q ≠ r, Entries.get? q (change view.placing.rules) =
      Entries.get? q view.placing.rules) (hb : b ≠ rule r) :
    b.held (view.changeParams fun p => { p with rules := change p.rules }) = b.held view := by
  cases b with
  | rule q =>
    have hq := hothers q fun heq => hb (heq ▸ rfl)
    simp only [ViewState.placing] at hq
    simp only [held, ViewState.placing, ViewState.changeParams, Option.getD_some, hq]
  | _ => rfl

/-- An attribute that is accepted leaves alone what the view holds of the others. -/
theorem held_of_applied? (h : a.applied? value view ids = some (view', ids')) (hb : b ≠ a) :
    b.held view' = b.held view := by
  cases a with
  | rule r =>
    simp only [applied?, applyRule?] at h
    split at h
    · obtain ⟨⟨anchor, ids₁⟩, -, hview⟩ := Option.map_eq_some_iff.1 h
      cases hview
      exact held_changeRules (Entries.put r _) (fun q hq => Entries.get?_put_of_ne hq _ _) hb
    · obtain ⟨on, -, hview⟩ := Option.map_eq_some_iff.1 h
      cases hview
      cases on with
      | true =>
        exact held_changeRules (Entries.put r _) (fun q hq => Entries.get?_put_of_ne hq _ _) hb
      | false =>
        exact held_changeRules (Entries.erase r) (fun q hq => Entries.get?_erase_of_ne hq _) hb
  | _ =>
    obtain ⟨x, -, hview⟩ := Option.map_eq_some_iff.1 h
    cases hview
    cases b <;> first | rfl | exact absurd rfl hb

end CommonAttribute

/-- A name that has a number once a name has got one had it before or is that one. -/
theorem IdTable.mem_names_intern {key name : String} {t : IdTable} :
    key ∈ (t.intern name).2.names ↔ key ∈ t.names ∨ key = name := by
  unfold intern
  split
  · next hmem => exact ⟨.inl, fun h => h.elim id (· ▸ hmem)⟩
  · rw [List.mem_append, List.mem_singleton]

/-- A name that has a number once a setting refers to views by number had it before or is that of
such a view. -/
theorem Setting.mem_names_numbered {key : String} {t : IdTable} {x : Setting} :
    key ∈ (x.numbered t).names ↔ key ∈ t.names ∨ x.key? = some key := by
  unfold numbered
  cases x.key? with
  | none => simp
  | some own => rw [IdTable.mem_names_intern, Option.some_inj, eq_comm]

namespace Property

/-- What a widget holds of a property, other views by their numbers, if its item has the
property. -/
def held? (w : Widget) : Property → Option Setting
  | .common a => some (a.held w.view)
  | .text a =>
    match w.item with
    | .text state => some (a.setting state)
    | _ => none
  | .editText a =>
    match w.item with
    | .editText state => some (a.setting state)
    | _ => none
  | .gravity =>
    match w.item with
    | .relativeLayout state => some (.gravity state.gravity)
    | _ => none

/-- What a property is set to depends on what the widget holds of it. -/
theorem setting?_of_held {p : Property} {w w' : Widget} (h : p.held? w' = p.held? w)
    (t : IdTable) : p.setting? t w' = p.setting? t w := by
  cases p with
  | common a => exact CommonAttribute.setting?_of_held (Option.some.inj h) t
  | _ => exact h

/-- Only attributes of views refer to views. -/
theorem key?_of_settingOf? {p : Property} (hcommon : ∀ a, p ≠ .common a) {value : Value}
    {x : Setting} (h : p.settingOf? value = some x) : x.key? = none := by
  cases p with
  | common a => exact absurd rfl (hcommon a)
  | text a | editText a =>
    cases a <;> first
      | cases h
        rfl
      | obtain ⟨y, -, rfl⟩ := Option.map_eq_some_iff.1 h
        rfl
  | gravity =>
    obtain ⟨flags, -, rfl⟩ := Option.map_eq_some_iff.1 h
    rfl

end Property

/-! ## Effects on a widget -/

namespace Look

/-- Of effects in a row the last one on a property is among the later ones if any of these is on it.
-/
theorem lastOf?_append (p : Property) (first rest : List (Property × Setting)) :
    lastOf? p (first ++ rest) = (lastOf? p rest).or (lastOf? p first) := by
  rw [lastOf?, List.filterMap_append, List.getLast?_append]
  rfl

/-- A single effect is the last one on its property. -/
theorem lastOf?_singleton (p q : Property) (x : Setting) :
    lastOf? q [(p, x)] = if p = q then some x else none := by
  by_cases h : p = q <;> simp [lastOf?, h]

end Look

namespace Session

/-- Names have been numbered and effects have come to a widget, one after the other. It holds of
each property what it held before if there is no effect on it, and the property is set as the last
effect says otherwise. There are layout parameters if there were before or an effect is on one of
them. The names, and the views that effects refer to, have numbers, and nothing else has changed. -/
structure Applied (id : WidgetId) (numbered : List String) (effects : List (Property × Setting))
    (s : Session) (w : Widget) (s' : Session) (w' : Widget) : Prop where
  changes : Changes id s w s' w'
  kept : s'.kept = s.kept
  children : w'.children = w.children
  focusable : w'.view.focusable = w.view.focusable
  shell : w'.item.shell = w.item.shell
  held : ∀ p, Look.lastOf? p effects = none → p.held? w' = p.held? w
  settled : ∀ p x, Look.lastOf? p effects = some x → p.setting? s'.ids w' = some x
  params : w'.view.params.isSome = (w.view.params.isSome || effects.any (·.1.isParam))
  names : ∀ key, key ∈ s'.ids.names ↔
    key ∈ s.ids.names ∨ key ∈ numbered ∨ ∃ e ∈ effects, e.2.key? = some key
  rules : w'.view.RulesDistinct

variable {s s' s'' : Session} {id : WidgetId} {w w' w'' : Widget} {p : Property} {value : Value}
  {x : Setting}

namespace Applied

/-- Nothing comes to a widget when something is told. -/
theorem nil (hw : s.widget? id = some w) (hrules : w.view.RulesDistinct) (log : List Notice) :
    Applied id [] [] s w { s with log := log } w where
  changes := (Changes.refl hw).withLog log
  kept := rfl
  children := rfl
  focusable := rfl
  shell := rfl
  held _ _ := rfl
  settled _ _ h := nomatch h
  params := (Bool.or_false _).symm
  names key := by simp
  rules := hrules

/-- A name has been numbered, and nothing else has changed. -/
theorem intern (hw : s.widget? id = some w) (hrules : w.view.RulesDistinct) (name : String) :
    Applied id [name] [] s w (s.intern name).2 w where
  changes :=
    ⟨⟨IdTable.le_intern name s.ids, fun _ _ => rfl, rfl, rfl, rfl⟩, hw, rfl, rfl⟩
  kept := rfl
  children := rfl
  focusable := rfl
  shell := rfl
  held _ _ := rfl
  settled _ _ h := nomatch h
  params := (Bool.or_false _).symm
  names key := by
    rw [Session.intern, IdTable.mem_names_intern]
    simp
  rules := hrules

/-- One property has been set, and nothing else has changed. -/
theorem single (changes : Changes id s w s' w') (kept : s'.kept = s.kept)
    (children : w'.children = w.children)
    (focusable : w'.view.focusable = w.view.focusable) (shell : w'.item.shell = w.item.shell)
    (others : ∀ q ≠ p, q.held? w' = q.held? w) (self : p.setting? s'.ids w' = some x)
    (params : w'.view.params.isSome = (w.view.params.isSome || p.isParam))
    (ids : s'.ids = x.numbered s.ids)
    (rules : w'.view.RulesDistinct) : Applied id [] [(p, x)] s w s' w' where
  changes := changes
  kept := kept
  children := children
  focusable := focusable
  shell := shell
  held q hq := by
    refine others q fun heq => ?_
    rw [Look.lastOf?_singleton, if_pos heq.symm] at hq
    cases hq
  settled q y hq := by
    rw [Look.lastOf?_singleton] at hq
    split at hq
    · next heq =>
      subst heq
      exact self.trans hq
    · cases hq
  params := by rw [params, List.any_cons, List.any_nil, Bool.or_false]
  names key := by
    rw [ids, Setting.mem_names_numbered]
    simp
  rules := rules

/-- What has come to a widget in two parts has come to it. -/
theorem append {numbered numbered' : List String} {first rest : List (Property × Setting)}
    (h₁ : Applied id numbered first s w s' w') (h₂ : Applied id numbered' rest s' w' s'' w'') :
    Applied id (numbered ++ numbered') (first ++ rest) s w s'' w'' where
  changes := h₁.changes.trans h₂.changes
  kept := h₂.kept.trans h₁.kept
  children := h₂.children.trans h₁.children
  focusable := h₂.focusable.trans h₁.focusable
  shell := h₂.shell.trans h₁.shell
  held p hp := by
    rw [Look.lastOf?_append, Option.or_eq_none_iff] at hp
    exact (h₂.held p hp.1).trans (h₁.held p hp.2)
  settled p x hp := by
    rw [Look.lastOf?_append] at hp
    cases hlast : Look.lastOf? p rest with
    | some y =>
      rw [hlast] at hp
      exact (h₂.settled p y hlast).trans hp
    | none =>
      rw [hlast] at hp
      rw [Property.setting?_of_held (h₂.held p hlast)]
      exact Property.setting?_mono h₂.changes.touches.ids (h₁.settled p x hp)
  params := by rw [h₂.params, h₁.params, List.any_append, Bool.or_assoc]
  names key := by
    rw [h₂.names, h₁.names]
    simp only [List.mem_append, or_and_right, exists_or, or_assoc, or_left_comm]
  rules := h₂.rules

end Applied

/-- An effect on the item. -/
theorem applied_setItem (hw : s.widget? id = some w) {item : Item}
    (hcommon : ∀ a, p ≠ .common a) (hx : p.settingOf? value = some x) (h : p.SetsItem x w item)
    (hrules : w.view.RulesDistinct) :
    Applied id [] [(p, x)] s w (s.setItem id item) { w with item := item } := by
  refine .single ⟨Touches.changeWidget id _ s, widget?_setItem hw item, rfl, rfl⟩
    (kept_changeWidget id _ s) rfl rfl h.shell (fun q hq => ?_) (h.self _) ?_ ?_ hrules
  · cases q with
    | common b => rfl
    | _ => exact h.others _ hq .empty
  · rw [Property.isParam_of_ne_common hcommon, Bool.or_false]
  · rw [ids_setItem, Setting.numbered, Property.key?_of_settingOf? hcommon hx]

/-- A property that the item has and that accepts the value has its effect on the widget. -/
theorem applyProperty_of_effective (hw : s.widget? id = some w) (hrules : w.view.RulesDistinct)
    (hp : w.item.has p = true) (hx : p.settingOf? (s.resolve id value) = some x) :
    ∃ s' w', s.applyProperty id p value = (true, s') ∧ Applied id [] [(p, x)] s w s' w' := by
  by_cases hcommon : ∀ a, p ≠ .common a
  · obtain ⟨item, hrun, hset⟩ := applyProperty_of_item hw hp hcommon hx
    exact ⟨_, _, hrun, applied_setItem hw hcommon hx hset hrules⟩
  · push Not at hcommon
    obtain ⟨a, rfl⟩ := hcommon
    obtain ⟨view, s', hrun, htouches, hkept, hself, happlied, hsets⟩ :=
      applyProperty_of_common hw hrules hx
    refine ⟨s', _, hrun, .single ⟨htouches, hself, rfl, hsets.parent⟩ hkept rfl hsets.focusable rfl
      (fun q hq => ?_) hsets.self hsets.params (CommonAttribute.ids_of_applied? hx happlied)
      hsets.rules⟩
    cases q with
    | common b =>
      refine congrArg some (CommonAttribute.held_of_applied? happlied ?_)
      rintro rfl
      exact hq rfl
    | _ => rfl

end Session

end LayoutEngine
