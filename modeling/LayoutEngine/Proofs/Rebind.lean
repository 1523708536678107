import LayoutEngine.Proofs.Renewal

/-!
# Updating sound sessions

An update of any manager of a sound session applies bound attributes of some widgets again and does
nothing else: no widget is made, moved or declared anew (`Session.Rebinds`). The walk comes by every
widget below one that lives (`Context.update_rebinds`), and in an orderly session it comes to an end
(`Context.update_returns`).
-/

namespace LayoutEngine

namespace Session

variable {s s' : Session} {id : WidgetId} {mid : ManagerId} {m : Manager} {k : Kind}
  {w : Widget} {look : Look}

/-! ## What a stretch of an update leaves -/

/-- A session comes from another one by applying bound attributes again. Nothing of the trees and
nothing declared has changed. A widget with a compiled layout has had its bound attributes applied
in the data or is as it was, and is not as it was if the walk has surely reached it. -/
structure Rebinds (data : Fields) (reached : WidgetId → Prop) (s s' : Session) : Prop where
  sound : s'.Sound
  ids : s.ids ≤ s'.ids
  tags : s'.tags = s.tags
  widgets : s'.widgets.length = s.widgets.length
  managers : s'.managers.length = s.managers.length
  manager : ∀ id, (s'.widget? id).bind (·.manager) = (s.widget? id).bind (·.manager)
  childrenOf : ∀ id, s'.childrenOf id = s.childrenOf id
  rebound : ∀ ⦃id mid m k w look⦄ ⦃source : LayoutSource⦄, s.Managed id mid m k w look →
    source.compile s.ids = (.ok m.layout, s.ids) → ∃ data' w' look',
      s'.Managed id mid { m with data := data' } k w' look' ∧
      (look' = look ∨ look' = look.settle k data m.index (Look.bound source.declared)) ∧
      (reached id → look' = look.settle k data m.index (Look.bound source.declared))

namespace Rebinds

variable {data : Fields} {T T' : WidgetId → Prop}

/-- A session is bound to data already where no widget is to be. -/
theorem refl (hs : s.Sound) (data : Fields) : Rebinds data noWidget s s :=
  ⟨hs, le_refl s.ids, rfl, rfl, rfl, fun _ => rfl, fun _ => rfl,
    fun _ _ m _ w look _ h _ => ⟨m.data, w, look, h, .inl rfl, False.elim⟩⟩

/-- More widgets may be bound to the data. -/
theorem mono (h : Rebinds data T s s') (hT : ∀ id, T' id → T id) : Rebinds data T' s s' :=
  { h with
    rebound := fun id mid m k w look source hm hcompiled => by
      obtain ⟨data', w', look', hm', hlook, hreached⟩ := h.rebound hm hcompiled
      exact ⟨data', w', look', hm', hlook, fun hid => hreached (hT id hid)⟩ }

/-- A session stays orderly. -/
theorem orderly (h : Rebinds data T s s') (ho : s.Orderly) : s'.Orderly := by
  refine ⟨?_, ?_, ?_⟩
  · rw [h.managers, h.widgets, ho.length]
  · intro other w mid hw hmid
    have hmanager := h.manager other
    rw [hw, Option.bind_some, hmid] at hmanager
    obtain ⟨v, hv, hvmid⟩ := Option.bind_eq_some_iff.1 hmanager.symm
    exact ho.number hv hvmid
  · intro other w child hw hchild
    have hchildren := h.childrenOf other
    simp only [Session.childrenOf, hw, Option.map_some, Option.getD_some] at hchildren
    cases hv : s.widget? other with
    | none =>
      rw [hv] at hchildren
      rw [hchildren] at hchild
      cases hchild
    | some v =>
      rw [hv] at hchildren
      rw [hchildren] at hchild
      exact ho.newer hv hchild

end Rebinds

/-- A walk leaves a session sound. -/
theorem Renews.sound {alive : WidgetId → Bool} {data : Fields} {walk : List WidgetId}
    (hs : s.Sound) (h : Renews alive data walk s s') : s'.Sound := by
  refine ⟨h.manned, fun {id w'} hw' hnone => ?_⟩
  obtain ⟨w, hw, hlinks⟩ := h.shape.symm.widget? hw'
  obtain ⟨hmanager, -, hchildren⟩ : w.manager = w'.manager ∧ w.view.parent = w'.view.parent ∧
      w.children = w'.children := by
    simpa [Widget.links] using hlinks
  rw [← hchildren]
  exact hs.childless hw (hmanager.trans hnone)

/-- A widget with a compiled layout that a walk has renewed has had its bound attributes applied. -/
theorem Renews.rebinds {alive : WidgetId → Bool} {data : Fields} {walk : List WidgetId}
    (hs : s.Sound) (h : Renews alive data walk s s') :
    Rebinds data (fun id => id ∈ walk ∧ alive id = true) s s' where
  sound := h.sound hs
  ids := h.ids
  tags := h.tags
  widgets := h.shape.length
  managers := by
    have hmap := congrArg List.length h.shape.managers
    rwa [List.length_map, List.length_map] at hmap
  manager := h.shape.manager
  childrenOf := h.shape.childrenOf
  rebound id mid m k w look source hm hcompiled := by
    obtain ⟨below, hdescribes⟩ := LayoutSource.describes_of_compile hcompiled
    have heffects : look.setAll (m.effectsIn data) =
        look.settle k data m.index (Look.bound source.declared) := by
      rw [Manager.effectsIn, Handler.boundEffects_eq hm.serves hdescribes.attributes,
        ← Look.settle_eq_setAll, Look.bound_append_asChildren]
    by_cases hid : id ∈ walk
    · obtain ⟨w', hm'⟩ := h.given hm hid
      rw [hm.effectsAt] at hm'
      cases hlives : alive id with
      | true =>
        rw [hlives, if_pos rfl, heffects] at hm'
        exact ⟨data, w', _, hm', .inr rfl, fun _ => rfl⟩
      | false =>
        rw [hlives, if_neg Bool.false_ne_true] at hm'
        exact ⟨data, w', _, hm', .inl rfl, fun hreached =>
          absurd hreached.2 Bool.false_ne_true⟩
    · exact ⟨m.data, w, look, h.managed hs.toManned hm hid, .inl rfl, fun hreached =>
        absurd hreached.1 hid⟩

/-- A walk from a widget that goes from living widgets with managers to their children gets to one
of these. -/
inductive Reaches (s : Session) (alive : WidgetId → Bool) (id : WidgetId) : WidgetId → Prop
  | here (living : alive id = true) (managed : (s.managerOf? id).isSome = true) :
    Reaches s alive id id
  | down {holder child : WidgetId} (living : alive holder = true)
    (managed : (s.managerOf? holder).isSome = true) (mem : child ∈ s.childrenOf holder)
    (reaches : Reaches s alive id child) : Reaches s alive id holder

namespace Reaches

variable {alive : WidgetId → Bool} {start : WidgetId}

/-- A widget from which a walk gets anywhere lives and has a manager. -/
theorem start_living (h : s.Reaches alive id start) :
    alive start = true ∧ (s.managerOf? start).isSome = true := by
  cases h with
  | here hlives hmanaged => exact ⟨hlives, hmanaged⟩
  | down hlives hmanaged => exact ⟨hlives, hmanaged⟩

/-- A widget to which a walk gets lives. -/
theorem lives (h : s.Reaches alive id start) : alive id = true := by
  induction h with
  | here h => exact h
  | down _ _ _ _ ih => exact ih

/-- A walk that has come to an end has come by every widget to which it gets. -/
theorem mem_walk {ids walk : List WidgetId} (h : s.Reaches alive id start)
    (htours : s.Tours alive ids walk) (hstart : start ∈ ids) : id ∈ walk := by
  induction htours generalizing start with
  | nil => cases hstart
  | bare hbare _ ihafter =>
    rcases List.mem_cons.1 hstart with rfl | hrest
    · have hmanaged := h.start_living.2
      rw [hbare] at hmanaged
      cases hmanaged
    · exact ihafter h hrest
  | living _ _ _ _ ihchildren ihafter =>
    rcases List.mem_cons.1 hstart with rfl | hrest
    · cases h with
      | here => exact List.mem_cons_self
      | down _ _ hmem hreaches =>
        exact List.mem_cons_of_mem _ (List.mem_append_left _ (ihchildren hreaches hmem))
    · exact List.mem_cons_of_mem _ (List.mem_append_right _ (ihafter h hrest))
  | gone _ hgone _ ihafter =>
    rcases List.mem_cons.1 hstart with rfl | hrest
    · rw [h.start_living.1] at hgone
      cases hgone
    · exact List.mem_cons_of_mem _ (ihafter h hrest)

/-- Where only widgets with managers have children, a walk from a widget that lives gets to every
widget below it that has a manager. -/
theorem of_below {held : List WidgetId} (hs : s.Sound) (h : s.Below id start)
    (hlives : start ∈ s.living held) (hid : (s.managerOf? id).isSome = true) :
    s.Reaches (s.living held).contains id start := by
  induction h using Relation.ReflTransGen.head_induction_on with
  | refl => exact .here (List.contains_iff_mem.2 hlives) hid
  | @head holder child hmem hrest ih =>
    obtain ⟨mid, m, k, w, look, hholder⟩ := hs.exists_managed_of_child hmem
    have hexists : (s.widget? child).isSome = true := by
      rcases hrest.cases_head with rfl | ⟨below, hbelow, -⟩
      · obtain ⟨m, hm⟩ := Option.isSome_iff_exists.1 hid
        obtain ⟨w, mid, hw, -⟩ := managerOf?_eq_some_iff.1 hm
        exact Option.isSome_of_eq_some hw
      · obtain ⟨w, hw⟩ := exists_widget_of_child hbelow
        exact Option.isSome_of_eq_some hw
    exact .down (List.contains_iff_mem.2 hlives) (Option.isSome_of_eq_some hholder.managerOf?) hmem
      (ih (mem_living_of_child hlives hmem hexists))

end Reaches

/-- In an orderly session walks go to ever newer widgets. -/
theorem Orderly.acyclic (ho : s.Orderly) : s.Acyclic := by
  refine acyclic_of_lt (fun id => OrderDual.toDual id.number) fun id child hchild => ?_
  obtain ⟨w, hw⟩ := exists_widget_of_child hchild
  rw [childrenOf, hw] at hchild
  exact ho.newer hw hchild

end Session

namespace Context

open Session

variable (context : Context) (alive : WidgetId → Bool) {data : Fields} {s : Session}

variable {alive}

/-- An update applies bound attributes again, and reaches the widgets below one that lives if it
comes to an end. -/
theorem update_rebinds (hs : s.Sound) (mid : ManagerId) :
    s.Rebinds data
      (fun id => (∃ n, (context.update alive mid data s).1 = .ok n) ∧
        ∃ m, s.manager? mid = some m ∧ s.Reaches alive id m.widget)
      (context.update alive mid data s).2 := by
  cases hm : s.manager? mid with
  | none =>
    have hrun : context.update alive mid data s = (.ok 0, s) := by
      rw [update, updateBy, Fallible.bind_run_ok (Engine.look_run _ s), updateWithinBy,
        Fallible.bind_run_ok (Engine.change_run _ s), Fallible.bind_run_ok (Engine.look_run _ _),
        setData_of_none hm, hm]
      rfl
    rw [hrun]
    refine (Rebinds.refl hs data).mono ?_
    rintro id ⟨-, m, hm, -⟩
    cases hm
  | some m =>
    obtain ⟨walk, hrenews, hok⟩ := context.update_renewed hs.toManned hm alive data
    refine (hrenews.rebinds hs).mono ?_
    rintro id ⟨⟨n, hn⟩, m', hm', hreaches⟩
    cases hm'
    exact ⟨hreaches.mem_walk (hok n hn).1 (List.mem_singleton_self _), hreaches.lives⟩

/-- A manager that has outlived its widget changes no widget. -/
theorem update_of_outlived {mid : ManagerId} {m : Manager} (hm : s.manager? mid = some m)
    (h : ¬alive m.widget = true) :
    context.update alive mid data s =
      (.ok 0, (s.setData mid data).note (.managerOutlived m.widget)) := by
  rw [update, updateBy, Fallible.bind_run_ok (Engine.look_run _ s), updateWithinBy,
    Fallible.bind_run_ok (Engine.change_run _ s), Fallible.bind_run_ok (Engine.look_run _ _),
    manager?_setData_self hm]
  dsimp only
  rw [if_neg h]
  rfl

/-- After an update of a widget above it, a widget with a compiled layout has each property as the
last accepted one of its bound attributes says in the new data, and as it was if there is none or
the updated widget has been let go. Its children are the same. -/
theorem setting_of_update (hs : s.Sound) {id : WidgetId} {mid : ManagerId} {m : Manager} {k : Kind}
    {w : Widget} {look : Look} (h : s.Managed id mid m k w look) {source : LayoutSource}
    (hcompiled : source.compile s.ids = (.ok m.layout, s.ids)) {top : WidgetId}
    (hbelow : s.Below id top) {topmid : ManagerId}
    (htop : (s.widget? top).bind (·.manager) = some topmid) {held : List WidgetId} {n : Nat}
    {s' : Session}
    (hupdate : context.update (s.living held).contains topmid data s = (.ok n, s')) :
    ∃ w', s'.widget? id = some w' ∧ w'.children = w.children ∧
      ∀ p, k.Has p → p.setting? s'.ids w' =
        (if top ∈ s.living held then k.lastSetTo? data m.index p (Look.bound source.declared)
        else none).or (p.setting? s.ids w) := by
  have hrebinds : s.Rebinds data _ (context.update (s.living held).contains topmid data s).2 :=
    context.update_rebinds hs topmid
  rw [hupdate] at hrebinds
  obtain ⟨data', w', look', h', -, hreached⟩ := hrebinds.rebound h hcompiled
  obtain ⟨v, hv, hmanager⟩ := Option.bind_eq_some_iff.1 htop
  obtain ⟨topm, topk, toplook, htopm⟩ := hs.exists_managed hv hmanager
  have hwidget : topm.widget = top := hs.widget_eq htopm
  refine ⟨w', h'.widget, ?_, fun p hp => ?_⟩
  · have hsame := hrebinds.childrenOf id
    rwa [Session.childrenOf, Session.childrenOf, h.widget, h'.widget] at hsame
  · by_cases hlives : top ∈ s.living held
    · have hreaches := Session.Reaches.of_below hs hbelow hlives
        (Option.isSome_of_eq_some h.managerOf?)
      have hsettled := hreached ⟨⟨n, rfl⟩, topm, htopm.managed, hwidget ▸ hreaches⟩
      rw [if_pos hlives, h.shows.settings p hp, h'.shows.settings p hp, hsettled,
        Look.settings_settle]
      cases k.lastSetTo? data m.index p (Look.bound source.declared) <;> rfl
    · have houtlived : ¬(s.living held).contains topm.widget = true := by
        rw [hwidget]
        simpa using hlives
      rw [context.update_of_outlived htopm.managed houtlived] at hupdate
      cases hupdate
      obtain rfl : w = w' := Option.some.inj (h.widget.symm.trans h'.widget)
      rw [if_neg hlives]
      rfl

/-! ## Updates come to an end -/

/-- In an orderly session every update comes to an end. -/
theorem update_returns (hs : s.Sound) (ho : s.Orderly) (mid : ManagerId) :
    ∃ n, (context.update alive mid data s).1 = .ok n :=
  update_returns_of_acyclic hs.owned ho.acyclic mid

end Context

end LayoutEngine
