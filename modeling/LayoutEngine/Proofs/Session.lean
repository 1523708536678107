import LayoutEngine.Proofs.IdTable
import LayoutEngine.Session.Inflate

/-!
# Widgets and managers of a session

Which widgets and managers a session has after each of its changes, and what the changes leave
alone. `Session.Frame touched rebound` says that one session comes from another by adding names,
widgets and managers and by changing the widgets in `touched` and the managers of those in
`rebound`, and nothing else; `Session.Touches` that only one widget has been changed.
-/

namespace LayoutEngine

/-- What comes last is changed by its place. -/
theorem modify_length_append {α : Type} (l : List α) (x : α) (f : α → α) :
    (l ++ [x]).modify l.length f = l ++ [f x] := by
  induction l with
  | nil => rfl
  | cons y l ih => simpa using ih

/-- What is in a place of a longer list was there before or is the new one in the last place. -/
theorem eq_of_getElem?_append_singleton {α : Type} {l : List α} {x y : α} {n : Nat}
    (h : (l ++ [x])[n]? = some y) : l[n]? = some y ∨ n = l.length ∧ y = x := by
  rw [List.getElem?_append] at h
  split at h
  · exact .inl h
  · next hlt =>
    obtain ⟨hlast, rfl⟩ := List.getElem?_eq_some_iff.1 h
    rw [List.length_singleton] at hlast
    exact .inr ⟨by omega, List.getElem_singleton ..⟩

namespace Session

variable {s s' s'' : Session} {id other : WidgetId}

/-! ## Widgets -/

/-- Widgets are numbered from one on. -/
theorem widget?_eq_some_iff {w : Widget} :
    s.widget? id = some w ↔ ∃ n, id = ⟨n + 1⟩ ∧ s.widgets[n]? = some w := by
  obtain ⟨n⟩ := id
  cases n with
  | zero => simp [widget?]
  | succ n => simp [widget?]

/-- The widgets of a session are all that matters to finding one. -/
theorem widget?_congr (h : s'.widgets = s.widgets) (id : WidgetId) :
    s'.widget? id = s.widget? id := by
  obtain ⟨_ | n⟩ := id
  · rfl
  · rw [widget?, h, widget?]

/-- Widgets are numbered from one on. -/
theorem number_le_of_widget? {w : Widget} (h : s.widget? id = some w) :
    1 ≤ id.number ∧ id.number ≤ s.widgets.length := by
  obtain ⟨n, rfl, hn⟩ := widget?_eq_some_iff.1 h
  obtain ⟨hlt, -⟩ := List.getElem?_eq_some_iff.1 hn
  exact ⟨Nat.succ_pos n, hlt⟩

/-- Widgets are numbered from one on. -/
theorem isSome_widget?_iff :
    (s.widget? id).isSome = true ↔ 1 ≤ id.number ∧ id.number ≤ s.widgets.length := by
  constructor
  · intro h
    obtain ⟨w, hw⟩ := Option.isSome_iff_exists.1 h
    exact number_le_of_widget? hw
  · rintro ⟨hpos, hle⟩
    obtain ⟨_ | n⟩ := id
    · exact absurd hpos (Nat.not_succ_le_zero 0)
    · rw [widget?, List.getElem?_eq_getElem hle]
      rfl

@[simp] theorem widget?_changeWidget_self (change : Widget → Widget) (s : Session) :
    (s.changeWidget id change).widget? id = (s.widget? id).map change := by
  obtain ⟨n⟩ := id
  cases n with
  | zero => rfl
  | succ n => simp [changeWidget, widget?]

/-- Changing a widget leaves the others. -/
theorem widget?_changeWidget_of_ne (h : other ≠ id) (change : Widget → Widget) (s : Session) :
    (s.changeWidget id change).widget? other = s.widget? other := by
  obtain ⟨n⟩ := id
  obtain ⟨m⟩ := other
  cases n with
  | zero => rfl
  | succ n =>
    cases m with
    | zero => rfl
    | succ m =>
      have hne : n ≠ m := by
        rintro rfl
        exact h rfl
      simp [changeWidget, widget?, hne]

@[simp] theorem length_changeWidget (id : WidgetId) (change : Widget → Widget) (s : Session) :
    (s.changeWidget id change).widgets.length = s.widgets.length := by
  obtain ⟨n⟩ := id
  cases n with
  | zero => rfl
  | succ n => exact List.length_modify change s.widgets n

/-- A change of a widget leaves all but the widgets as it is. -/
theorem changeWidget_eq (id : WidgetId) (change : Widget → Widget) (s : Session) :
    s.changeWidget id change = { s with widgets := (s.changeWidget id change).widgets } := by
  obtain ⟨n⟩ := id
  cases n <;> rfl

@[simp] theorem ids_changeWidget (id : WidgetId) (change : Widget → Widget) (s : Session) :
    (s.changeWidget id change).ids = s.ids := by
  rw [changeWidget_eq]

@[simp] theorem tags_changeWidget (id : WidgetId) (change : Widget → Widget) (s : Session) :
    (s.changeWidget id change).tags = s.tags := by
  rw [changeWidget_eq]

@[simp] theorem kept_changeWidget (id : WidgetId) (change : Widget → Widget) (s : Session) :
    (s.changeWidget id change).kept = s.kept := by
  rw [changeWidget_eq]

@[simp] theorem managers_changeWidget (id : WidgetId) (change : Widget → Widget) (s : Session) :
    (s.changeWidget id change).managers = s.managers := by
  rw [changeWidget_eq]

@[simp] theorem log_changeWidget (id : WidgetId) (change : Widget → Widget) (s : Session) :
    (s.changeWidget id change).log = s.log := by
  rw [changeWidget_eq]

/-- Nothing has been made at first. -/
theorem widget?_ofIds (t : IdTable) (id : WidgetId) : (ofIds t).widget? id = none := by
  obtain ⟨_ | n⟩ := id <;> rfl

/-- A widget that is made gets the next number. -/
theorem widget?_create_self (item : Item) (s : Session) :
    (s.create item).2.widget? (s.create item).1 = some (.ofItem item) := by
  simp [create, widget?]

/-- A new widget leaves those that there are. -/
theorem widget?_create_of_some {w : Widget} (h : s.widget? id = some w) (item : Item) :
    (s.create item).2.widget? id = some w := by
  obtain ⟨n, rfl, hn⟩ := widget?_eq_some_iff.1 h
  obtain ⟨hlt, -⟩ := List.getElem?_eq_some_iff.1 hn
  simpa [create, widget?, List.getElem?_append_left hlt] using hn

/-- A session has one widget more than another. -/
theorem widget?_append_iff {w v : Widget} (h : s'.widgets = s.widgets ++ [w]) :
    s'.widget? id = some v ↔ s.widget? id = some v ∨ id = ⟨s.widgets.length + 1⟩ ∧ v = w := by
  constructor
  · intro hv
    obtain ⟨n, rfl, hn⟩ := widget?_eq_some_iff.1 hv
    rw [h] at hn
    rcases eq_of_getElem?_append_singleton hn with hn | ⟨rfl, rfl⟩
    · exact .inl (widget?_eq_some_iff.2 ⟨n, rfl, hn⟩)
    · exact .inr ⟨rfl, rfl⟩
  · rintro (hv | ⟨rfl, rfl⟩)
    · obtain ⟨n, rfl, hn⟩ := widget?_eq_some_iff.1 hv
      obtain ⟨hlt, -⟩ := List.getElem?_eq_some_iff.1 hn
      rw [widget?, h, List.getElem?_append_left hlt, hn]
    · rw [widget?, h, List.getElem?_concat_length]

/-! ## Managers -/

/-- The manager of a widget is the one that stands in its place. -/
theorem managerOf?_of_widget? {w : Widget} {mid : ManagerId} (hw : s.widget? id = some w)
    (hmid : w.manager = some mid) : s.managerOf? id = s.manager? mid := by
  rw [managerOf?, hw]
  exact congrArg (·.bind s.manager?) hmid

/-- A widget has a manager if one stands in its place and is there. -/
theorem managerOf?_eq_some_iff {m : Manager} :
    s.managerOf? id = some m ↔
      ∃ w mid, s.widget? id = some w ∧ w.manager = some mid ∧ s.manager? mid = some m := by
  constructor
  · intro h
    obtain ⟨w, hw, h⟩ := Option.bind_eq_some_iff.1 h
    obtain ⟨mid, hmid, hm⟩ := Option.bind_eq_some_iff.1 h
    exact ⟨w, mid, hw, hmid, hm⟩
  · rintro ⟨w, mid, hw, hmid, hm⟩
    rw [managerOf?_of_widget? hw hmid, hm]

/-- A session has one manager more than another. -/
theorem manager?_append_iff {mid : ManagerId} {m m' : Manager}
    (h : s'.managers = s.managers ++ [m]) :
    s'.manager? mid = some m' ↔
      s.manager? mid = some m' ∨ mid = ⟨s.managers.length⟩ ∧ m' = m := by
  obtain ⟨n⟩ := mid
  constructor
  · intro hm'
    rw [manager?, h] at hm'
    rcases eq_of_getElem?_append_singleton hm' with hm' | ⟨rfl, rfl⟩
    · exact .inl hm'
    · exact .inr ⟨rfl, rfl⟩
  · rintro (hm' | ⟨heq, rfl⟩)
    · obtain ⟨hlt, -⟩ := List.getElem?_eq_some_iff.1 hm'
      rw [manager?, h, List.getElem?_append_left hlt]
      exact hm'
    · cases heq
      rw [manager?, h, List.getElem?_concat_length]

/-! ## What is left alone -/

/-- Names, widgets and managers have been added, the widgets in `touched`, with their declared
attributes, and the managers of widgets in `rebound` have been changed, and nothing else. -/
structure Frame (touched rebound : WidgetId → Prop) (s s' : Session) : Prop where
  ids : s.ids ≤ s'.ids
  widget? : ∀ id w, ¬touched id → s.widget? id = some w → s'.widget? id = some w
  manager? : ∀ mid m, ¬rebound m.widget → s.manager? mid = some m → s'.manager? mid = some m
  tags : ∀ id w, ¬touched id → s.widget? id = some w → s'.tags.get? id = s.tags.get? id

namespace Frame

variable {T D T' D' : WidgetId → Prop}

/-- A session frames itself. -/
theorem refl (T D : WidgetId → Prop) (s : Session) : Frame T D s s :=
  ⟨le_refl s.ids, fun _ _ _ h => h, fun _ _ _ h => h, fun _ _ _ _ => rfl⟩

/-- What is changed one after the other is changed. -/
theorem trans (h₁ : Frame T D s s') (h₂ : Frame T D s' s'') : Frame T D s s'' :=
  ⟨h₁.ids.trans h₂.ids, fun id w hid hw => h₂.widget? id w hid (h₁.widget? id w hid hw),
    fun mid m hm h => h₂.manager? mid m hm (h₁.manager? mid m hm h),
    fun id w hid hw => (h₂.tags id w hid (h₁.widget? id w hid hw)).trans (h₁.tags id w hid hw)⟩

/-- More may have been changed. -/
theorem mono (h : Frame T D s s') (hT : ∀ id, T id → T' id) (hD : ∀ id, D id → D' id) :
    Frame T' D' s s' :=
  ⟨h.ids, fun id w hid hw => h.widget? id w (fun ht => hid (hT id ht)) hw,
    fun mid m hm h' => h.manager? mid m (fun hd => hm (hD _ hd)) h',
    fun id w hid hw => h.tags id w (fun ht => hid (hT id ht)) hw⟩

/-- Widgets that were not there before need not be mentioned. -/
theorem forget (h : Frame T D s s') (hT : ∀ id, T id → T' id ∨ s.widget? id = none) :
    Frame T' D s s' := by
  have hout : ∀ id w, ¬T' id → s.widget? id = some w → ¬T id := by
    intro id w hid hw ht
    rcases hT id ht with ht' | hnone
    · exact hid ht'
    · rw [hw] at hnone
      cases hnone
  exact ⟨h.ids, fun id w hid hw => h.widget? id w (hout id w hid hw) hw, h.manager?,
    fun id w hid hw => h.tags id w (hout id w hid hw) hw⟩

end Frame

/-- Nothing but one widget has been changed, and names have been added. -/
structure Touches (id : WidgetId) (s s' : Session) : Prop where
  ids : s.ids ≤ s'.ids
  others : ∀ other, other ≠ id → s'.widget? other = s.widget? other
  length : s'.widgets.length = s.widgets.length
  managers : s'.managers = s.managers
  tags : s'.tags = s.tags

namespace Touches

/-- Nothing may have been changed. -/
theorem refl (id : WidgetId) (s : Session) : Touches id s s :=
  ⟨le_refl s.ids, fun _ _ => rfl, rfl, rfl, rfl⟩

/-- A widget may be changed more than once. -/
theorem trans (h₁ : Touches id s s') (h₂ : Touches id s' s'') : Touches id s s'' :=
  ⟨h₁.ids.trans h₂.ids, fun other h => (h₂.others other h).trans (h₁.others other h),
    h₂.length.trans h₁.length, h₂.managers.trans h₁.managers, h₂.tags.trans h₁.tags⟩

/-- Touching a widget leaves the managers. -/
theorem manager? (h : Touches id s s') (mid : ManagerId) : s'.manager? mid = s.manager? mid := by
  rw [Session.manager?, h.managers, Session.manager?]

/-- Changing a widget touches it. -/
theorem changeWidget (id : WidgetId) (change : Widget → Widget) (s : Session) :
    Touches id s (s.changeWidget id change) :=
  ⟨by simp, fun _ h => widget?_changeWidget_of_ne h change s, by simp, by simp, by simp⟩

/-- Touching a widget changes no other. -/
theorem frame (h : Touches id s s') : Frame (· = id) (fun _ => False) s s' :=
  ⟨h.ids, fun other _ hne hw => (h.others other hne).trans hw,
    fun mid _ _ hm => (h.manager? mid).trans hm, fun other _ _ _ => by rw [h.tags]⟩

end Touches

end Session

end LayoutEngine
