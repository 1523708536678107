import LayoutEngine.Proofs.Weaving

/-!
# Managers are retained

A widget that has got a manager keeps it, whatever comes. `Session.Upholds` says so of two sessions,
and that the places for managers that were locked have been left alone; `Session.Consistent` is the
invariant of single sessions that goes with it. All changes of a session but one only have to be
looked at for what they leave alone (`Session.Upholds.of_slot`). The one is that a place for a
manager is filled; while that is going on, `Session.Filling` holds between the session in which it
began and the present one.
-/

namespace LayoutEngine

open Session Engine

/-- The widget that a parser is asked about. -/
def ParserCall.widget : ParserCall → WidgetId
  | .setUp id | .manager id => id

/-! ## Sessions -/

namespace Session

variable {updates : Prop} {s s' s'' t t' : Session} {id : WidgetId} {mid : ManagerId} {m : Manager}
  {calls : List ParserCall}

/-- What stands in a widget's place for a manager. -/
def slot (s : Session) (id : WidgetId) : Option ManagerId := (s.widget? id).bind (·.manager)

/-- The kept widgets and the managers of widgets are there. Parsers have been asked for nothing
twice, and only about widgets that have a manager since, or whose places for one are locked. -/
structure Consistent (s : Session) : Prop where
  kept : s.KeepsWidgets
  owned : ∀ id mid, s.slot id = some mid → (s.manager? mid).isSome = true
  nodup : s.attaching.asked.Nodup
  answered : ∀ call ∈ s.attaching.asked,
    call.widget ∈ s.attaching.locked ∨ (s.slot call.widget).isSome = true

/-- Widgets and managers are still there. Each widget has kept its manager, and each manager all
that it was made from; only updates give it other data. Where a place for a manager was locked, it
is so still, nothing has come to stand in it, and parsers have not been asked about the widget. -/
structure Upholds (updates : Prop) (s s' : Session) : Prop where
  widget? : ∀ id, (s.widget? id).isSome = true → (s'.widget? id).isSome = true
  slot : ∀ id mid, s.slot id = some mid → s'.slot id = some mid
  manager? : ∀ mid m, s.manager? mid = some m →
    ∃ data, s'.manager? mid = some { m with data := data } ∧ (¬updates → data = m.data)
  locked : ∀ id ∈ s.attaching.locked, id ∈ s'.attaching.locked ∧ s'.slot id = s.slot id ∧
    ∀ call ∈ s'.attaching.asked, call.widget = id → call ∈ s.attaching.asked
  consistent : s.Consistent → s'.Consistent

namespace Upholds

/-- What there is is retained. -/
theorem refl (updates : Prop) (s : Session) : Upholds updates s s :=
  ⟨fun _ h => h, fun _ _ h => h, fun _ m h => ⟨m.data, h, fun _ => rfl⟩,
    fun _ h => ⟨h, rfl, fun _ hcall _ => hcall⟩, id⟩

/-- What is retained twice is retained. -/
theorem trans (h₁ : Upholds updates s s') (h₂ : Upholds updates s' s'') :
    Upholds updates s s'' where
  widget? id h := h₂.widget? id (h₁.widget? id h)
  slot id mid h := h₂.slot id mid (h₁.slot id mid h)
  manager? mid m h := by
    obtain ⟨data₁, hm₁, hdata₁⟩ := h₁.manager? mid m h
    obtain ⟨data₂, hm₂, hdata₂⟩ := h₂.manager? mid _ hm₁
    exact ⟨data₂, hm₂, fun hno => (hdata₂ hno).trans (hdata₁ hno)⟩
  locked id h := by
    obtain ⟨hlocked₁, hslot₁, hasked₁⟩ := h₁.locked id h
    obtain ⟨hlocked₂, hslot₂, hasked₂⟩ := h₂.locked id hlocked₁
    exact ⟨hlocked₂, hslot₂.trans hslot₁,
      fun call hcall hwidget => hasked₁ call (hasked₂ call hcall hwidget) hwidget⟩
  consistent h := h₂.consistent (h₁.consistent h)

/-- Changes that leave alone what stands in places for managers. Of the kept widgets, new ones are
there. -/
theorem of_slot (hwidget : ∀ id, (s.widget? id).isSome = true → (s'.widget? id).isSome = true)
    (hslot : ∀ id, s'.slot id = s.slot id)
    (hmanager : ∀ mid m, s.manager? mid = some m →
      ∃ data, s'.manager? mid = some { m with data := data } ∧ (¬updates → data = m.data))
    (hkept : ∀ place id, Entries.get? place s'.kept = some id →
      Entries.get? place s.kept = some id ∨ (s'.widget? id).isSome = true)
    (hattaching : s'.attaching = s.attaching) : Upholds updates s s' where
  widget? := hwidget
  slot id mid h := (hslot id).trans h
  manager? := hmanager
  locked id h := by
    rw [hattaching]
    exact ⟨h, hslot id, fun _ hcall _ => hcall⟩
  consistent h := by
    refine ⟨?_, ?_, ?_, ?_⟩
    · intro place id hid
      rcases hkept place id hid with hold | hnew
      · exact hwidget id (h.kept place id hold)
      · exact hnew
    · intro id mid hmid
      rw [hslot] at hmid
      obtain ⟨m, hm⟩ := Option.isSome_iff_exists.1 (h.owned id mid hmid)
      obtain ⟨data, hm', -⟩ := hmanager mid m hm
      exact Option.isSome_iff_exists.2 ⟨_, hm'⟩
    · rw [hattaching]
      exact h.nodup
    · intro call hcall
      rw [hattaching] at hcall ⊢
      rw [hslot]
      exact h.answered call hcall

/-- Names, declared attributes, and what is told. -/
theorem of_eq (hwidgets : s'.widgets = s.widgets) (hmanagers : s'.managers = s.managers)
    (hkept : s'.kept = s.kept) (hattaching : s'.attaching = s.attaching) :
    Upholds updates s s' := by
  have hwidget : ∀ id, s'.widget? id = s.widget? id := widget?_congr hwidgets
  refine of_slot (fun id h => ?_) (fun id => ?_) (fun mid m hm => ⟨m.data, ?_, fun _ => rfl⟩)
    (fun _ _ h => .inl (hkept ▸ h)) hattaching
  · rw [hwidget]
    exact h
  · rw [Session.slot, hwidget, Session.slot]
  · rw [Session.manager?, hmanagers]
    exact hm

/-- A widget is changed, but not its manager. -/
theorem changeWidget (updates : Prop) (id : WidgetId) {change : Widget → Widget}
    (hchange : ∀ w, (change w).manager = w.manager) (s : Session) :
    Upholds updates s (s.changeWidget id change) := by
  have hwidget : ∀ other, (s.changeWidget id change).widget? other =
      if other = id then (s.widget? other).map change else s.widget? other := by
    intro other
    split
    · next heq =>
      subst heq
      exact widget?_changeWidget_self change s
    · next hne => exact widget?_changeWidget_of_ne hne change s
  refine of_slot (fun other h => ?_) (fun other => ?_)
    (fun mid m hm => ⟨m.data, ?_, fun _ => rfl⟩) (fun _ _ h => .inl ?_) ?_
  · rw [hwidget]
    split
    · rwa [Option.isSome_map]
    · exact h
  · rw [Session.slot, hwidget, Session.slot]
    split
    · rw [Option.bind_map]
      exact congrArg (Option.bind _) (funext hchange)
    · rfl
  · rw [Session.manager?, managers_changeWidget]
    exact hm
  · rwa [kept_changeWidget] at h
  · rw [changeWidget_eq]

/-- A widget is made, and perhaps kept. -/
theorem of_append {item : Item} (hwidgets : s'.widgets = s.widgets ++ [.ofItem item])
    (hmanagers : s'.managers = s.managers)
    (hkept : ∀ place id, Entries.get? place s'.kept = some id →
      Entries.get? place s.kept = some id ∨ id = ⟨s.widgets.length + 1⟩)
    (hattaching : s'.attaching = s.attaching) : Upholds updates s s' := by
  refine of_slot (fun id h => ?_) (fun id => ?_) (fun mid m hm => ⟨m.data, ?_, fun _ => rfl⟩)
    (fun place id h => (hkept place id h).imp_right ?_) hattaching
  · obtain ⟨w, hw⟩ := Option.isSome_iff_exists.1 h
    exact Option.isSome_iff_exists.2 ⟨w, (widget?_append_iff hwidgets).2 (.inl hw)⟩
  · unfold Session.slot
    cases hw : s.widget? id with
    | some w => rw [(widget?_append_iff hwidgets).2 (.inl hw)]
    | none =>
      cases hw' : s'.widget? id with
      | none => rfl
      | some w' =>
        rcases (widget?_append_iff hwidgets).1 hw' with hold | ⟨-, rfl⟩
        · rw [hw] at hold
          cases hold
        · rfl
  · rw [Session.manager?, hmanagers]
    exact hm
  · rintro rfl
    exact Option.isSome_iff_exists.2 ⟨_, (widget?_append_iff hwidgets).2 (.inr ⟨rfl, rfl⟩)⟩

/-- A manager is made that no widget has so far. -/
theorem of_append_manager (hwidgets : s'.widgets = s.widgets)
    (hmanagers : s'.managers = s.managers ++ [m]) (hkept : s'.kept = s.kept)
    (hattaching : s'.attaching = s.attaching) : Upholds updates s s' := by
  have hwidget : ∀ id, s'.widget? id = s.widget? id := widget?_congr hwidgets
  refine of_slot (fun id h => ?_) (fun id => ?_) (fun mid m hm => ⟨m.data, ?_, fun _ => rfl⟩)
    (fun _ _ h => .inl (hkept ▸ h)) hattaching
  · rw [hwidget]
    exact h
  · rw [Session.slot, hwidget, Session.slot]
  · exact (manager?_append_iff hmanagers).2 (.inl hm)

end Upholds

/-- What leaves the shape of a session alone retains all there is. -/
theorem SameShape.upholds (h : SameShape updates s s') : Upholds updates s s' := by
  refine .of_slot (fun id hid => ?_) h.manager (fun mid m hm => ?_)
    (fun _ _ hid => .inl (h.kept ▸ hid)) h.attaching
  · obtain ⟨w, hw⟩ := Option.isSome_iff_exists.1 hid
    obtain ⟨w', hw', -⟩ := h.widget? hw
    exact Option.isSome_iff_exists.2 ⟨w', hw'⟩
  · obtain ⟨data, hm', hdata⟩ := h.grows.manager? hm
    exact ⟨data, hm', hdata⟩

/-- Telling something leaves all that there is. -/
theorem upholds_note (updates : Prop) (notice : Notice) (s : Session) :
    Upholds updates s (s.note notice) :=
  .of_eq rfl rfl rfl rfl

/-- A widget's place for a manager is filled that was empty, and was not locked to begin with. It
may be that the place is no longer locked then. -/
theorem Upholds.fill (h : Upholds updates s t) (hopen : id ∉ s.attaching.locked)
    (hvacant : t.slot id = none) (hmid : (t.manager? mid).isSome = true)
    (hwidgets : t'.widgets = (t.changeWidget id fun w => { w with manager := some mid }).widgets)
    (hmanagers : t'.managers = t.managers) (hkept : t'.kept = t.kept)
    (hasked : t'.attaching.asked = t.attaching.asked)
    (hstill : ∀ other ∈ s.attaching.locked, other ∈ t'.attaching.locked)
    (hlocked : ∀ other ∈ t.attaching.locked,
      other ∈ t'.attaching.locked ∨ other = id ∧ (t.widget? id).isSome = true) :
    Upholds updates s t' := by
  have hself : t'.slot id = (t.widget? id).map fun _ => mid := by
    rw [Session.slot, widget?_congr hwidgets, widget?_changeWidget_self, Option.bind_map]
    cases t.widget? id <;> rfl
  have hother : ∀ other, other ≠ id → t'.slot other = t.slot other := by
    intro other hne
    rw [Session.slot, widget?_congr hwidgets, widget?_changeWidget_of_ne hne, Session.slot]
  have hmanager : ∀ mid, t'.manager? mid = t.manager? mid := by
    intro mid
    rw [Session.manager?, hmanagers, Session.manager?]
  have hwidget : ∀ other, (t.widget? other).isSome = true → (t'.widget? other).isSome = true := by
    intro other hthere
    rw [widget?_congr hwidgets]
    by_cases heq : other = id
    · subst heq
      rwa [widget?_changeWidget_self, Option.isSome_map]
    · rwa [widget?_changeWidget_of_ne heq]
  have hslot : ∀ other mid, t.slot other = some mid → t'.slot other = some mid := by
    intro other mid hother'
    rw [hother other fun heq => by rw [heq, hvacant] at hother'; cases hother']
    exact hother'
  refine ⟨fun other hthere => hwidget other (h.widget? other hthere),
    fun other mid hother' => hslot other mid (h.slot other mid hother'), ?_, ?_, fun hs => ?_⟩
  · intro mid m hm
    rw [hmanager]
    exact h.manager? mid m hm
  · intro other hlock
    obtain ⟨-, hslot', hasked'⟩ := h.locked other hlock
    rw [hasked]
    exact ⟨hstill other hlock, (hother other fun heq => hopen (heq ▸ hlock)).trans hslot', hasked'⟩
  · have ht := h.consistent hs
    refine ⟨?_, ?_, ?_, ?_⟩
    · intro place other hplace
      rw [hkept] at hplace
      exact hwidget other (ht.kept place other hplace)
    · intro other mid' hmid'
      rw [hmanager]
      by_cases heq : other = id
      · subst heq
        rw [hself] at hmid'
        obtain ⟨w, -, rfl⟩ := Option.map_eq_some_iff.1 hmid'
        exact hmid
      · exact ht.owned other mid' ((hother other heq).symm.trans hmid')
    · rw [hasked]
      exact ht.nodup
    · intro call hcall
      rw [hasked] at hcall
      rcases ht.answered call hcall with hlock | hmanaged
      · rcases hlocked _ hlock with hlock' | ⟨heq, hthere⟩
        · exact .inl hlock'
        · rw [heq, hself, Option.isSome_map]
          exact .inr hthere
      · obtain ⟨mid', hmid'⟩ := Option.isSome_iff_exists.1 hmanaged
        exact .inr (Option.isSome_iff_exists.2 ⟨mid', hslot _ _ hmid'⟩)

/-- On the way from a session to another, a widget's place for a manager has been locked and nothing
has come to stand in it. About the widget parsers have been asked no more than some things. -/
structure Filling (updates : Prop) (id : WidgetId) (calls : List ParserCall) (s t : Session) :
    Prop where
  upholds : Upholds updates s t
  locked : t.attaching.locked = id :: s.attaching.locked
  vacant : t.slot id = none
  asked : ∀ call ∈ t.attaching.asked, call.widget = id → call ∈ calls

namespace Filling

/-- A widget's place for a manager is locked. Parsers have not been asked about the widget. -/
theorem lock (hs : s.Consistent) (hopen : id ∉ s.attaching.locked) (hvacant : s.slot id = none) :
    Filling updates id [] s (s.lock id) where
  upholds :=
    ⟨fun _ h => h, fun _ _ h => h, fun _ m h => ⟨m.data, h, fun _ => rfl⟩,
      fun _ h => ⟨.tail _ h, rfl, fun _ hcall _ => hcall⟩,
      fun _ => ⟨hs.kept, hs.owned, hs.nodup,
        fun call hcall => (hs.answered call hcall).imp_left (.tail _)⟩⟩
  locked := rfl
  vacant := hvacant
  asked call hcall hwidget := by
    rcases hs.answered call hcall with hlocked | hmanaged
    · exact absurd (hwidget ▸ hlocked) hopen
    · rw [hwidget, hvacant] at hmanaged
      cases hmanaged

variable (h : Filling updates id calls s t)
include h

/-- A parser is asked for something new. -/
theorem ask (hopen : id ∉ s.attaching.locked) {call : ParserCall} (hid : call.widget = id)
    (hnew : call ∉ calls) : Filling updates id (calls ++ [call]) s (t.ask call) where
  upholds := by
    have hcall : call ∉ t.attaching.asked := fun hmem => hnew (h.asked call hmem hid)
    refine ⟨h.upholds.widget?, h.upholds.slot, h.upholds.manager?, ?_, ?_⟩
    · intro other hother
      obtain ⟨hlocked, hslot, hasked⟩ := h.upholds.locked other hother
      refine ⟨hlocked, hslot, fun call' hcall' hwidget => ?_⟩
      rcases List.mem_append.1 hcall' with hold | hlast
      · exact hasked call' hold hwidget
      · rw [List.mem_singleton.1 hlast, hid] at hwidget
        exact absurd (hwidget ▸ hother) hopen
    · intro hs
      have ht := h.upholds.consistent hs
      refine ⟨ht.kept, ht.owned, ?_, ?_⟩
      · exact ht.nodup.append (List.nodup_singleton call)
          (List.disjoint_singleton.2 hcall)
      · intro call' hcall'
        rcases List.mem_append.1 hcall' with hold | hlast
        · exact ht.answered call' hold
        · refine .inl ?_
          show call'.widget ∈ t.attaching.locked
          rw [List.mem_singleton.1 hlast, hid, h.locked]
          exact List.mem_cons_self
  locked := h.locked
  vacant := h.vacant
  asked call' hcall' hwidget := by
    rcases List.mem_append.1 hcall' with hold | hlast
    · exact List.mem_append_left _ (h.asked call' hold hwidget)
    · exact List.mem_append_right _ hlast

/-- What retains all there is leaves a locked place alone. -/
theorem step (hstep : Upholds updates t t') (hlocked : t'.attaching.locked = t.attaching.locked) :
    Filling updates id calls s t' := by
  have hid : id ∈ t.attaching.locked := by
    rw [h.locked]
    exact List.mem_cons_self
  obtain ⟨-, hslot, hasked⟩ := hstep.locked id hid
  exact ⟨h.upholds.trans hstep, hlocked.trans h.locked, hslot.trans h.vacant,
    fun call hcall hwidget => h.asked call (hasked call hcall hwidget) hwidget⟩

/-- The widget gets its manager, and its place for one is no longer locked. -/
theorem finish (hopen : id ∉ s.attaching.locked) (hthere : (t.widget? id).isSome = true)
    (m : Manager) :
    Upholds updates s ((t.addManager id m).unlock id) ∧
      ((t.addManager id m).unlock id).attaching.locked = s.attaching.locked ∧
      (((t.addManager id m).unlock id).slot id).isSome = true := by
  have hmade : Upholds updates t { t with managers := t.managers ++ [m] } :=
    .of_append_manager rfl rfl rfl rfl
  have hattaching : (t.addManager id m).attaching = t.attaching := by
    rw [addManager, changeWidget_eq]
  have hlocked : ((t.addManager id m).unlock id).attaching.locked = s.attaching.locked := by
    show (t.addManager id m).attaching.locked.erase id = _
    rw [hattaching, h.locked, List.erase_cons_head]
  have hwidgets : ((t.addManager id m).unlock id).widgets =
      (({ t with managers := t.managers ++ [m] } : Session).changeWidget id fun w =>
        { w with manager := some ⟨t.managers.length⟩ }).widgets := by
    obtain ⟨_ | n⟩ := id <;> rfl
  refine ⟨(h.upholds.trans hmade).fill hopen h.vacant ?_ hwidgets rfl ?_ ?_ ?_ ?_, hlocked, ?_⟩
  · exact Option.isSome_iff_exists.2 ⟨m, (manager?_append_iff rfl).2 (.inr ⟨rfl, rfl⟩)⟩
  · exact kept_changeWidget id _ t
  · show (t.addManager id m).attaching.asked = t.attaching.asked
    rw [hattaching]
  · intro other hother
    rwa [hlocked]
  · intro other hother
    rw [hlocked]
    rcases List.mem_cons.1 (h.locked ▸ hother) with rfl | hold
    · exact .inr ⟨rfl, hthere⟩
    · exact .inl hold
  · obtain ⟨w, hw⟩ := Option.isSome_iff_exists.1 (hmade.widget? id hthere)
    rw [slot, widget?_congr hwidgets, widget?_changeWidget_self, hw]
    rfl

end Filling

end Session

end LayoutEngine
