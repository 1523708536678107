import LayoutEngine.Proofs.Sound
import LayoutEngine.Proofs.Update
import LayoutEngine.Proofs.Walk

/-!
# The walk of an update

An update of a manager of a sound session walks from its widget to those below (`Session.Tours`).
To every widget that the walk comes by, it gives the new data, and has the bound attributes of the
widget's layout take effect again; nothing else is changed (`Session.Renews`). The answer counts the
effects. A widget that the walk comes by more than once is as if it had come by once, since the same
effects once more change nothing. This holds of whatever walk has been made until an update that
does not come to an end is given up (`Context.update_renewed`).
-/

namespace LayoutEngine

namespace Session

variable {alive : WidgetId → Bool} {data : Fields} {walk walk' ids ids' : List WidgetId}
  {s s' s'' : Session} {id : WidgetId} {mid : ManagerId} {m : Manager} {k : Kind} {w w' : Widget}
  {look : Look}

/-- What the bound attributes of a widget's layout set in data, if the widget lives and has a
manager. -/
def effectsAt (s : Session) (alive : WidgetId → Bool) (data : Fields) (id : WidgetId) :
    List (Property × Setting) :=
  match s.managerOf? id with
  | some m => if alive id then m.effectsIn data else []
  | none => []

/-- At a managed widget that lives, the effects are those of its manager. -/
theorem Managed.effectsAt (h : s.Managed id mid m k w look) (alive : WidgetId → Bool)
    (data : Fields) :
    s.effectsAt alive data id = if alive id then m.effectsIn data else [] := by
  rw [Session.effectsAt, h.managerOf?]

/-- How many effects a walk has. -/
def effectCount (s : Session) (alive : WidgetId → Bool) (data : Fields) (walk : List WidgetId) :
    Nat := (walk.map fun id => (s.effectsAt alive data id).length).sum

namespace SameShape

variable {updates : Prop} (h : SameShape updates s s')
include h

/-- Renewing managers gives them other data at most. -/
theorem managerOf? (id : WidgetId) :
    (s'.managerOf? id).map Manager.bare = (s.managerOf? id).map Manager.bare := by
  have hmanager := h.manager id
  simp only [Session.managerOf?, Option.bind_eq_bind] at hmanager ⊢
  rw [← Option.bind_assoc, ← Option.bind_assoc, hmanager]
  cases (s.widget? id).bind (·.manager) with
  | none => rfl
  | some mid => exact h.manager?_bare mid

/-- Effects do not depend on the data that managers have, or on what widgets look like. -/
theorem effectsAt (alive : WidgetId → Bool) (data : Fields) (id : WidgetId) :
    s'.effectsAt alive data id = s.effectsAt alive data id := by
  have hmanager := h.managerOf? id
  unfold Session.effectsAt
  cases hm : s.managerOf? id with
  | none =>
    rw [hm] at hmanager
    rw [Option.map_eq_none_iff.1 hmanager]
  | some m =>
    rw [hm] at hmanager
    obtain ⟨m', hm', hbare⟩ := Option.map_eq_some_iff.1 hmanager
    obtain ⟨data', rfl⟩ := Manager.bare_eq_iff.1 hbare
    rw [hm']
    rfl

/-- How many effects there are on a walk is the same after renewing managers. -/
theorem effectCount (alive : WidgetId → Bool) (data : Fields) (walk : List WidgetId) :
    s'.effectCount alive data walk = s.effectCount alive data walk := by
  simp only [Session.effectCount, h.effectsAt]

end SameShape

/-! ## New data and effects -/

/-- A session comes from another one by a walk that gave every widget that it came by new data and
had its bound attributes take effect. Views that the effects refer to have numbers, and no name has
been numbered if they had their numbers before. -/
structure Renews (alive : WidgetId → Bool) (data : Fields) (walk : List WidgetId)
    (s s' : Session) : Prop where
  manned : s'.Manned
  ids : s.ids ≤ s'.ids
  tags : s'.tags = s.tags
  shape : SameShape True s s'
  given : ∀ ⦃id mid m k w look⦄, s.Managed id mid m k w look → id ∈ walk → ∃ w',
    s'.Managed id mid { m with data := data } k w' (look.setAll (s.effectsAt alive data id))
  widget? : ∀ ⦃id⦄, (id ∈ walk → s.effectsAt alive data id = []) → s'.widget? id = s.widget? id
  manager? : ∀ ⦃mid m⦄, s.manager? mid = some m → m.widget ∉ walk → s'.manager? mid = some m
  named : ∀ id ∈ walk, ∀ e ∈ s.effectsAt alive data id, e.2.Named s'.ids
  still : (∀ id ∈ walk, ∀ e ∈ s.effectsAt alive data id, e.2.Named s.ids) → s'.ids = s.ids

/-- Managers that are given new data stay those of their widgets. -/
theorem Manned.setData (hs : s.Manned) (mid : ManagerId) (data : Fields) :
    (s.setData mid data).Manned := by
  refine ⟨fun {mid' m'} hm' => ?_, fun {id w mid'} hw hmid => ?_⟩
  · cases hm : s.manager? mid with
    | none =>
      rw [setData_of_none hm] at hm' ⊢
      exact hs.managed hm'
    | some m =>
      by_cases heq : mid' = mid
      · subst heq
        rw [manager?_setData_self hm] at hm'
        cases hm'
        obtain ⟨k, w, look, h⟩ := hs.managed hm
        exact ⟨k, w, look, h.setData data⟩
      · have hother := hm'
        rw [manager?_setData_of_ne heq] at hm'
        obtain ⟨k, w, look, h⟩ := hs.managed hm'
        exact ⟨k, w, look, h.widget, h.manager, hother, h.serves, h.shows⟩
  · obtain ⟨m, hm, hid⟩ := hs.owned hw hmid
    obtain ⟨data', hm'⟩ := (sameShape_setData mid data s).manager? hm
    exact ⟨_, hm', hid⟩

namespace Renews

/-- Nothing happens where the walk comes by nothing. -/
theorem refl (hs : s.Manned) (alive : WidgetId → Bool) (data : Fields) :
    Renews alive data [] s s where
  manned := hs
  ids := le_refl s.ids
  tags := rfl
  shape := .refl True s
  given _ _ _ _ _ _ _ hid := absurd hid List.not_mem_nil
  widget? _ _ := rfl
  manager? _ _ hm _ := hm
  named _ hid := absurd hid List.not_mem_nil
  still _ := rfl

/-- A managed widget that the walk has not come by is as it was. -/
theorem managed (h : Renews alive data walk s s') (hs : s.Manned)
    (hm : s.Managed id mid m k w look) (hid : id ∉ walk) : s'.Managed id mid m k w look := by
  have hwidget : m.widget = id := hs.widget_eq hm
  exact ⟨(h.widget? fun hmem => absurd hmem hid).trans hm.widget, hm.manager,
    h.manager? hm.managed (hwidget ▸ hid), hm.serves.mono h.ids, hm.shows.mono h.ids⟩

/-- Managers are renewed on one walk and then on another. -/
theorem trans (hs : s.Manned) (h₁ : Renews alive data walk s s')
    (h₂ : Renews alive data walk' s' s'') : Renews alive data (walk ++ walk') s s'' where
  manned := h₂.manned
  ids := h₁.ids.trans h₂.ids
  tags := h₂.tags.trans h₁.tags
  shape := h₁.shape.trans h₂.shape
  given id mid m k w look hm hid := by
    have heffects := h₁.shape.effectsAt alive data id
    by_cases hfirst : id ∈ walk
    · obtain ⟨w₁, hm₁⟩ := h₁.given hm hfirst
      by_cases hlater : id ∈ walk'
      · obtain ⟨w₂, hm₂⟩ := h₂.given hm₁ hlater
        rw [heffects, Look.setAll_setAll] at hm₂
        exact ⟨w₂, hm₂⟩
      · exact ⟨w₁, h₂.managed h₁.manned hm₁ hlater⟩
    · have hlater : id ∈ walk' := (List.mem_append.1 hid).resolve_left hfirst
      rw [← heffects]
      exact h₂.given (h₁.managed hs hm hfirst) hlater
  widget? id hid := by
    have hfirst := h₁.widget? fun hmem => hid (List.mem_append_left walk' hmem)
    refine (h₂.widget? fun hmem => ?_).trans hfirst
    rw [h₁.shape.effectsAt]
    exact hid (List.mem_append_right walk hmem)
  manager? mid m hm hid := by
    rw [List.mem_append, not_or] at hid
    exact h₂.manager? (h₁.manager? hm hid.1) hid.2
  named id hid e he := by
    rcases List.mem_append.1 hid with hfirst | hlater
    · exact (h₁.named id hfirst e he).mono h₂.ids
    · exact h₂.named id hlater e (by rwa [h₁.shape.effectsAt])
  still hnamed := by
    have hfirst := h₁.still fun id hid => hnamed id (List.mem_append_left walk' hid)
    refine (h₂.still fun id hid e he => ?_).trans hfirst
    rw [hfirst]
    rw [h₁.shape.effectsAt] at he
    exact hnamed id (List.mem_append_right walk hid) e he

/-- A manager has been given new data, and effects have come to its widget. -/
theorem of_takes (hs : s.Manned) (hm : s.manager? mid = some m)
    (hshape : SameShape True (s.setData mid data) s')
    (htakes : ∀ ⦃k w look⦄,
      (s.setData mid data).Managed m.widget mid { m with data := data } k w look →
      ∃ w', Managed.Takes (s.setData mid data) m.widget k w look
        (s.effectsAt alive data m.widget) s' w') : Renews alive data [m.widget] s s' := by
  obtain ⟨k, w, look, h⟩ := hs.managed hm
  obtain ⟨w', h'⟩ := htakes (h.setData data)
  have htouches := h'.changes.touches
  refine ⟨?_, htouches.ids, htouches.tags, (sameShape_setData mid data s).trans hshape, ?_, ?_, ?_,
    ?_, fun hnamed => h'.ids (hnamed m.widget (List.mem_singleton_self _))⟩
  · exact (hs.setData mid data).of_changes (h.setData data) h'.changes h'.shows
  · intro id mid₀ m₀ k₀ w₀ look₀ h₀ hid
    obtain rfl := List.mem_singleton.1 hid
    obtain ⟨rfl, rfl⟩ := hs.eq_of_widget_eq h₀ hm rfl
    obtain ⟨w₁, h₁⟩ := htakes (h₀.setData data)
    exact ⟨w₁, (h₀.setData data).changes h₁.changes h₁.shows⟩
  · intro id hid
    by_cases heq : id = m.widget
    · subst heq
      rw [h'.changes.widget, h'.idle (hid (List.mem_singleton_self _)), h.widget]
    · exact htouches.others id heq
  · intro mid' m' hm' hid
    have hne : mid' ≠ mid := by
      rintro rfl
      rw [hm] at hm'
      cases hm'
      exact hid (List.mem_singleton_self _)
    rw [htouches.manager?, manager?_setData_of_ne hne, hm']
  · intro id hid
    obtain rfl := List.mem_singleton.1 hid
    exact h'.named

end Renews

/-! ## Tours -/

/-- A walk goes from each of some widgets to its children, if it has a manager and lives, and then
to the next. It passes over a widget without manager and all that is below that. -/
inductive Tours (s : Session) (alive : WidgetId → Bool) : List WidgetId → List WidgetId → Prop
  | nil : Tours s alive [] []
  | bare {id : WidgetId} {rest walk : List WidgetId} (bare : s.managerOf? id = none)
    (after : Tours s alive rest walk) : Tours s alive (id :: rest) walk
  | living {id : WidgetId} {rest below walk : List WidgetId}
    (managed : (s.managerOf? id).isSome = true) (lives : alive id = true)
    (children : Tours s alive (s.childrenOf id) below) (after : Tours s alive rest walk) :
    Tours s alive (id :: rest) (id :: (below ++ walk))
  | gone {id : WidgetId} {rest walk : List WidgetId}
    (managed : (s.managerOf? id).isSome = true) (gone : alive id = false)
    (after : Tours s alive rest walk) : Tours s alive (id :: rest) (id :: walk)

namespace Tours

/-- A walk depends on the children of widgets and on which of them have managers. -/
theorem of_sameShape {updates : Prop} (h : s.Tours alive ids walk)
    (hshape : SameShape updates s' s) : s'.Tours alive ids walk := by
  have hmanaged : ∀ id, (s'.managerOf? id).isSome = (s.managerOf? id).isSome := fun id => by
    have hmanager := congrArg Option.isSome (hshape.managerOf? id)
    rwa [Option.isSome_map, Option.isSome_map, eq_comm] at hmanager
  induction h with
  | nil => exact .nil
  | @bare id _ _ hbare _ ihafter =>
    refine .bare ?_ ihafter
    rwa [← Option.isNone_iff_eq_none, ← Option.not_isSome, hmanaged, Option.not_isSome,
      Option.isNone_iff_eq_none]
  | living hid hlives _ _ ihchildren ihafter =>
    rw [hshape.childrenOf] at ihchildren
    exact .living (hmanaged _ ▸ hid) hlives ihchildren ihafter
  | gone hid hgone _ ihafter => exact .gone (hmanaged _ ▸ hid) hgone ihafter

/-- Two tours make one. -/
theorem append (h : Tours s alive ids walk) (h' : Tours s alive ids' walk') :
    Tours s alive (ids ++ ids') (walk ++ walk') := by
  induction h with
  | nil => exact h'
  | bare hbare _ ihafter => exact .bare hbare ihafter
  | living hid hlives hchildren _ _ ihafter =>
    rw [List.cons_append, List.cons_append, List.append_assoc]
    exact .living hid hlives hchildren ihafter
  | gone hid hgone _ ihafter => exact .gone hid hgone ihafter

end Tours

/-- What a stretch of an update gives and leaves: a walk has renewed what it came by, and if it has
come to an end it is as required, and the answer counts the effects. -/
def Renewed (alive : WidgetId → Bool) (data : Fields) (required : List WidgetId → Prop)
    (s : Session) (r : Except InflateError Nat × Session) : Prop :=
  ∃ walk, s.Renews alive data walk r.2 ∧
    ∀ n, r.1 = .ok n → required walk ∧ n = s.effectCount alive data walk

/-- The effects on two walks are those on both. -/
theorem effectCount_append (s : Session) (alive : WidgetId → Bool) (data : Fields)
    (walk walk' : List WidgetId) :
    s.effectCount alive data (walk ++ walk') =
      s.effectCount alive data walk + s.effectCount alive data walk' := by
  rw [effectCount, List.map_append, List.sum_append, ← effectCount, ← effectCount]

namespace Renewed

variable {P Q : List WidgetId → Prop}

/-- What is renewed on a walk is renewed on one of which something weaker holds. -/
theorem imp {r : Except InflateError Nat × Session} (h : s.Renewed alive data P r)
    (himp : ∀ walk, P walk → Q walk) : s.Renewed alive data Q r := by
  obtain ⟨walk, hrenews, hok⟩ := h
  exact ⟨walk, hrenews, fun n hn => ⟨himp walk (hok n hn).1, (hok n hn).2⟩⟩

/-- The walks of two stretches make one, and the answers are added up. -/
theorem add (hs : s.Manned) {x y : Engine Nat} {s₀ : Session}
    (hx : s.Renewed alive data P (x s₀))
    (hy : ∀ s', SameShape True s s' → s'.Manned → s'.Renewed alive data Q (y s')) :
    s.Renewed alive data (fun walk => ∃ first later, walk = first ++ later ∧ P first ∧ Q later)
      ((do
        let first ← x
        let later ← y
        return first + later : Engine Nat) s₀) := by
  obtain ⟨walk, hrenews, hok⟩ := hx
  rcases hrun : x s₀ with ⟨e | n, s₁⟩
  all_goals rw [hrun] at hrenews hok
  · rw [Fallible.bind_run_error hrun]
    exact ⟨walk, hrenews, nofun⟩
  · obtain ⟨hwalk, rfl⟩ := hok n rfl
    obtain ⟨walk', hrenews', hok'⟩ := hy s₁ hrenews.shape hrenews.manned
    have hboth := hrenews.trans hs hrenews'
    rw [Fallible.bind_run_ok hrun]
    rcases hrun' : y s₁ with ⟨e | n', s₂⟩
    all_goals rw [hrun'] at hboth hok'
    · rw [Fallible.bind_run_error hrun']
      exact ⟨walk ++ walk', hboth, nofun⟩
    · obtain ⟨hwalk', rfl⟩ := hok' n' rfl
      rw [Fallible.bind_run_ok hrun', Fallible.pure_run]
      refine ⟨walk ++ walk', hboth, fun n hn => ⟨⟨walk, walk', rfl, hwalk, hwalk'⟩, ?_⟩⟩
      cases hn
      rw [effectCount_append, hrenews.shape.effectCount]

/-- A widget without manager is left as it is, and so is all below it. -/
theorem of_unmanaged (hs : s.Manned) (h : (s.widget? id).bind (·.manager) = none) :
    s.Renewed alive data (s.Tours alive [id]) (.ok 0, s) := by
  have hmanager : s.managerOf? id = none := by
    rw [managerOf?, Option.bind_eq_bind, Option.bind_eq_bind, ← Option.bind_assoc, h]
    rfl
  refine ⟨[], .refl hs alive data, fun n hn => ⟨.bare hmanager .nil, ?_⟩⟩
  cases hn
  rfl

end Renewed

end Session

namespace Context

open Session Engine

variable (context : Context) {alive : WidgetId → Bool} {data : Fields} {s : Session}
  {mid : ManagerId} {m : Manager}

/-- A manager is given new data, and the bound attributes of its layout take effect. -/
theorem applyBound_renews (hs : s.Manned) (hm : s.manager? mid = some m)
    (hlives : alive m.widget = true) :
    ∃ s', context.applyBoundBy context.host m.parser m.widget m.layout.attributes
        (s.setData mid data) = (.ok (s.effectsAt alive data m.widget).length, s') ∧
      s.Renews alive data [m.widget] s' := by
  obtain ⟨n, s', hrun, hshape⟩ :=
    context.applyBound_shape True m.parser m.widget m.layout.attributes (s.setData mid data)
  have htakes : ∀ ⦃k w look⦄,
      (s.setData mid data).Managed m.widget mid { m with data := data } k w look →
      n = (s.effectsAt alive data m.widget).length ∧
        ∃ w', Managed.Takes (s.setData mid data) m.widget k w look
          (s.effectsAt alive data m.widget) s' w' := by
    intro k w look h
    have heffects : s.effectsAt alive data m.widget = m.effectsIn data := by
      rw [← (sameShape_setData mid data s).effectsAt, h.effectsAt, if_pos hlives,
        Manager.effectsIn_data]
    obtain ⟨s₁, w', hrun', h'⟩ := h.applyBound_effects context m.layout.attributes
    rw [hrun] at hrun'
    obtain ⟨hn, rfl⟩ := Prod.mk.inj hrun'
    rw [heffects]
    exact ⟨Except.ok.inj hn, w', h'⟩
  obtain ⟨k, w, look, h⟩ := hs.managed hm
  obtain ⟨rfl, -⟩ := htakes (h.setData data)
  exact ⟨s', hrun, .of_takes hs hm hshape fun _ _ _ h => (htakes h).2⟩

/-- Managers are updated one after the other. -/
theorem sumUpdates_renewed {update : ManagerId → Engine Nat}
    (hupdate : ∀ ⦃s : Session⦄ ⦃mid m⦄, s.Manned → s.manager? mid = some m →
      s.Renewed alive data (s.Tours alive [m.widget]) (update mid s))
    (children : List WidgetId) (hs : s.Manned) :
    s.Renewed alive data (s.Tours alive children) (sumUpdates update children s) := by
  induction children generalizing s with
  | nil =>
    refine ⟨[], .refl hs alive data, fun n hn => ?_⟩
    cases hn
    exact ⟨.nil, rfl⟩
  | cons child rest ih =>
    have hrest : ∀ first : Engine Nat, s.Renewed alive data (s.Tours alive [child]) (first s) →
        s.Renewed alive data (s.Tours alive (child :: rest))
          ((do
            let accepted ← first
            let more ← sumUpdates update rest
            return accepted + more : Engine Nat) s) := by
      intro first hfirst
      refine (Renewed.add hs hfirst fun s' hshape hs' => (ih hs').imp fun walk htours =>
        htours.of_sameShape hshape).imp ?_
      rintro _ ⟨before, after, rfl, hbefore, hafter⟩
      exact hbefore.append hafter
    rw [sumUpdates, Fallible.bind_run_ok (Engine.look_run _ s)]
    cases hmid : (s.widget? child).bind (·.manager) with
    | none => exact hrest (pure 0) (.of_unmanaged hs hmid)
    | some mid =>
      obtain ⟨w, hw, hmanager⟩ := Option.bind_eq_some_iff.1 hmid
      obtain ⟨m, hm, rfl⟩ := hs.owned hw hmanager
      exact hrest (update mid) (hupdate hs hm)

/-- An update of a manager walks from its widget. -/
theorem updateWithin_renewed (fuel : Nat) :
    ∀ ⦃s : Session⦄ ⦃mid m⦄, s.Manned → s.manager? mid = some m →
      s.Renewed alive data (s.Tours alive [m.widget])
        (context.updateWithinBy context.host alive data fuel mid s) := by
  induction fuel with
  | zero =>
    intro s mid m hs hm
    refine ⟨[], .refl hs alive data, fun n hn => ?_⟩
    cases hn
  | succ fuel ih =>
    intro s mid m hs hm
    rw [updateWithinBy, Fallible.bind_run_ok (Engine.change_run _ s),
      Fallible.bind_run_ok (Engine.look_run _ _), manager?_setData_self hm]
    dsimp only
    -- A widget that is gone is visited, but nothing is applied to it and nobody below it is told.
    cases hlives : alive m.widget with
    | true =>
      obtain ⟨s₁, hrun, hown⟩ := context.applyBound_renews hs hm hlives
      have hnode : s.Renewed alive data (· = [m.widget])
          ((pure (s.effectsAt alive data m.widget).length : Engine Nat) s₁) := by
        refine ⟨[m.widget], hown, fun n hn => ⟨rfl, ?_⟩⟩
        cases hn
        simp [effectCount]
      have hboth := Renewed.add hs hnode fun s' hshape hs' =>
        (sumUpdates_renewed ih (s₁.childrenOf m.widget) hs').imp fun walk htours =>
          htours.of_sameShape hshape
      rw [if_pos rfl, Fallible.bind_run_ok hrun, Fallible.bind_run_ok (Engine.look_run _ s₁)]
      rw [Fallible.bind_run_ok (Fallible.pure_run _ s₁)] at hboth
      refine hboth.imp ?_
      rintro _ ⟨_, below, rfl, rfl, hbelow⟩
      rw [hown.shape.childrenOf] at hbelow
      have htours := Tours.living (hs.isSome_managerOf? hm) hlives hbelow .nil
      rwa [List.append_nil] at htours
    | false =>
      have heffects : s.effectsAt alive data m.widget = [] := by
        obtain ⟨k, w, look, h⟩ := hs.managed hm
        rw [h.effectsAt, hlives, if_neg Bool.false_ne_true]
      rw [if_neg Bool.false_ne_true, Fallible.bind_run_ok (Engine.change_run _ _),
        Fallible.pure_run]
      refine ⟨[m.widget], .of_takes hs hm ?_ ?_, ?_⟩
      · exact .of_eq rfl rfl rfl rfl rfl
      · intro k w look h
        rw [heffects]
        exact ⟨w, (Changes.refl h.widget).withLog _, h.shows, rfl, List.forall_mem_nil _,
          fun _ => rfl, fun _ => rfl⟩
      · intro n hn
        cases hn
        exact ⟨.gone (hs.isSome_managerOf? hm) hlives .nil, by simp [effectCount, heffects]⟩

/-- So does an update as a whole. -/
theorem update_renewed (hs : s.Manned) (hm : s.manager? mid = some m) (alive : WidgetId → Bool)
    (data : Fields) :
    s.Renewed alive data (s.Tours alive [m.widget]) (context.update alive mid data s) := by
  rw [update, updateBy, Fallible.bind_run_ok (Engine.look_run _ s)]
  exact context.updateWithin_renewed _ hs hm

end Context

end LayoutEngine
