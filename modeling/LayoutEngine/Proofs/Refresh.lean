import LayoutEngine.Proofs.Alike
import LayoutEngine.Proofs.Grading
import LayoutEngine.Proofs.Living
import LayoutEngine.Proofs.Tidy

/-!
# What updates change

An update from a widget that lives gives its manager and those below it new data, has their bound
attributes take effect, and does nothing else, whatever has been asked of the engine before
(`Context.update_refreshes`). The answer counts the bound attributes that are accepted on the way. A
second update with the same data has the same answer and changes nothing at all
(`Context.update_again`).
-/

namespace LayoutEngine

namespace Session

variable {alive : WidgetId → Bool} {data : Fields} {walk walk' ids : List WidgetId}
  {s s' s₁ s₂ : Session} {id top : WidgetId} {mid : ManagerId} {m : Manager} {k : Kind}
  {w w' : Widget} {look : Look}

/-! ## Where an update walks -/

/-- There is one walk from some widgets that comes to an end. -/
theorem Tours.unique (h : s.Tours alive ids walk) (h' : s.Tours alive ids walk') :
    walk = walk' := by
  induction h generalizing walk' with
  | nil =>
    cases h'
    rfl
  | bare hbare _ ihafter =>
    cases h' with
    | bare _ hafter => exact ihafter hafter
    | living hmanaged => simp [hbare] at hmanaged
    | gone hmanaged => simp [hbare] at hmanaged
  | living hmanaged hlives _ _ ihchildren ihafter =>
    cases h' with
    | bare hbare => simp [hbare] at hmanaged
    | living _ _ hchildren hafter => rw [ihchildren hchildren, ihafter hafter]
    | gone _ hgone => simp [hlives] at hgone
  | gone hmanaged hgone _ ihafter =>
    cases h' with
    | bare hbare => simp [hbare] at hmanaged
    | living _ hlives => simp [hgone] at hlives
    | gone _ _ hafter => rw [ihafter hafter]

/-- A walk comes by widgets in preorder. -/
theorem Tours.sublist_preorderAll (h : s.Tours alive ids walk) {fuel depth : Nat}
    (hends : ∀ id ∈ ids, (s.preorderWithin fuel depth id).isSome = true) :
    walk.Sublist ((s.preorderAll fuel depth ids).map Prod.snd) := by
  induction h generalizing fuel depth with
  | nil => exact List.nil_sublist _
  | bare _ _ ihafter =>
    obtain ⟨-, hrest⟩ := List.forall_mem_cons.1 hends
    rw [preorderAll_cons, List.map_append]
    exact (ihafter hrest).trans (List.sublist_append_right _ _)
  | living _ _ _ _ ihchildren ihafter =>
    obtain ⟨hid, hrest⟩ := List.forall_mem_cons.1 hends
    obtain ⟨first, hfirst⟩ := Option.isSome_iff_exists.1 hid
    obtain ⟨less, rfl, hchildren⟩ := isSome_preorderWithin_iff.1 hid
    obtain ⟨rfl, -⟩ := preorderWithin_eq hfirst
    rw [preorderAll_cons, hfirst, Option.getD_some, List.map_append, List.map_cons]
    exact ((ihchildren hchildren).append (ihafter hrest)).cons_cons _
  | gone _ _ _ ihafter =>
    obtain ⟨hid, hrest⟩ := List.forall_mem_cons.1 hends
    obtain ⟨first, hfirst⟩ := Option.isSome_iff_exists.1 hid
    obtain ⟨less, rfl, -⟩ := isSome_preorderWithin_iff.1 hid
    obtain ⟨rfl, -⟩ := preorderWithin_eq hfirst
    rw [preorderAll_cons, hfirst, Option.getD_some, List.map_append, List.map_cons]
    exact ((ihafter hrest).trans (List.sublist_append_right _ _)).cons_cons _

/-- A widget is reached from another one through children that have managers. -/
def Reached (s : Session) (id top : WidgetId) : Prop :=
  Relation.ReflTransGen
    (fun holder child => child ∈ s.childrenOf holder ∧ (s.managerOf? child).isSome = true) top id

/-- What is reached from a widget is below it. -/
theorem Reached.below (h : s.Reached id top) : s.Below id top :=
  Relation.ReflTransGen.mono (fun _ _ hchild => And.left hchild) _ _ h

/-- Where all that is reached lives, an update gets to all of it. -/
theorem Reached.reaches (h : s.Reached id top) (htop : (s.managerOf? top).isSome = true)
    (hlives : ∀ other, s.Reached other top → alive other = true) : s.Reaches alive id top := by
  induction h using Relation.ReflTransGen.head_induction_on with
  | refl => exact .here (hlives _ .refl) htop
  | head hchild hrest ih =>
    exact .down (hlives _ .refl) htop hchild.1
      (ih hchild.2 fun other hother => hlives other (hother.head hchild))

/-- A walk comes by no other widgets than those that are reached from where it starts. -/
theorem Tours.reached_of_mem (h : s.Tours alive ids walk) (hid : id ∈ walk) :
    ∃ start ∈ ids, (s.managerOf? start).isSome = true ∧ s.Reached id start := by
  induction h with
  | nil => cases hid
  | bare _ _ ihafter =>
    obtain ⟨start, hstart, hreached⟩ := ihafter hid
    exact ⟨start, List.mem_cons_of_mem _ hstart, hreached⟩
  | living hmanaged _ _ _ ihchildren ihafter =>
    rcases List.mem_cons.1 hid with rfl | hid
    · exact ⟨_, List.mem_cons_self, hmanaged, .refl⟩
    · rcases List.mem_append.1 hid with hid | hid
      · obtain ⟨child, hchild, hchildmanaged, hreached⟩ := ihchildren hid
        exact ⟨_, List.mem_cons_self, hmanaged, hreached.head ⟨hchild, hchildmanaged⟩⟩
      · obtain ⟨start, hstart, hreached⟩ := ihafter hid
        exact ⟨start, List.mem_cons_of_mem _ hstart, hreached⟩
  | gone hmanaged _ _ ihafter =>
    rcases List.mem_cons.1 hid with rfl | hid
    · exact ⟨_, List.mem_cons_self, hmanaged, .refl⟩
    · obtain ⟨start, hstart, hreached⟩ := ihafter hid
      exact ⟨start, List.mem_cons_of_mem _ hstart, hreached⟩

/-- What lives depends on the shape alone. -/
theorem SameShape.living {updates : Prop} (h : SameShape updates s s') (held : List WidgetId) :
    s'.living held = s.living held := by
  have hletGo : ∀ (fuel : Nat) (ids : List WidgetId),
      s'.letGo held fuel ids = s.letGo held fuel ids := by
    intro fuel
    induction fuel with
    | zero => exact fun _ => rfl
    | succ fuel ih =>
      intro ids
      simp only [letGo, stillHeld, h.childrenOf, ih]
      rfl
  rw [Session.living, Session.living, h.length, hletGo]

/-! ## What may change -/

end Session

/-- A widget is the same but for some properties. It is of the same kind and hangs together with
others in the same way. -/
structure Widget.SameBut (t u : IdTable) (may : Property → Prop) (w w' : Widget) : Prop where
  kind : ∃ k : Kind, k.IsItem w.item ∧ k.IsItem w'.item
  settings : ∀ p, ¬may p → p.setting? u w' = p.setting? t w
  params : (∀ p, may p → p.isParam = false) → w'.view.params.isSome = w.view.params.isSome
  focusable : w'.view.focusable = w.view.focusable
  links : w'.links = w.links

namespace Session

variable {alive : WidgetId → Bool} {data : Fields} {walk walk' ids : List WidgetId}
  {s s' s₁ s₂ : Session} {id top : WidgetId} {mid : ManagerId} {m : Manager} {k : Kind}
  {w w' : Widget} {look : Look}

/-- A walk changes properties alone that attributes of a widget's own layout are bound to. -/
theorem Renews.sameBut (h : Renews alive data walk s s') (hs : s.Manned)
    (hm : s.Managed id mid m k w look) (hw' : s'.widget? id = some w') :
    w.SameBut s.ids s'.ids m.Binds w' := by
  obtain ⟨v, hv, hlinks⟩ := h.shape.widget? hm.widget
  rw [hw'] at hv
  cases hv
  obtain ⟨look', hshows, hsettings, hparams⟩ : ∃ look', w'.Shows s'.ids k look' ∧
      (∀ p, ¬m.Binds p → look'.settings p = look.settings p) ∧
      ((∀ p, m.Binds p → p.isParam = false) → look'.hasParams = look.hasParams) := by
    by_cases hid : id ∈ walk
    · obtain ⟨w₁, hm₁⟩ := h.given hm hid
      obtain rfl : w₁ = w' := Option.some.inj (hm₁.widget.symm.trans hw')
      have hbinds : ∀ e ∈ s.effectsAt alive data id, m.Binds e.1 := by
        intro e he
        rw [hm.effectsAt] at he
        split at he
        · exact Manager.binds_of_mem_effectsIn he
        · cases he
      refine ⟨_, hm₁.shows, fun p hp => ?_, fun hnone => ?_⟩
      · have hunset := Look.lastOf?_of_forall_ne (p := p) fun e he heq => hp (heq ▸ hbinds e he)
        rw [Look.settings_setAll, hunset, Option.getD_none]
      · have hany : (s.effectsAt alive data id).any (·.1.isParam) = false :=
          List.any_eq_false.2 fun e he => by simp [hnone e.1 (hbinds e he)]
        rw [Look.hasParams_setAll, hany, Bool.or_false]
    · have hm' := h.managed hs hm hid
      obtain rfl : w = w' := Option.some.inj (hm'.widget.symm.trans hw')
      exact ⟨look, hm'.shows, fun _ _ => rfl, fun _ => rfl⟩
  refine ⟨⟨k, hm.shows.item, hshows.item⟩, fun p hp => ?_, fun hnone => ?_, ?_, hlinks⟩
  · by_cases hhas : k.Has p
    · rw [hshows.settings p hhas, hm.shows.settings p hhas, hsettings p hp]
    · rw [Property.setting?_of_not_has hshows.item hhas,
        Property.setting?_of_not_has hm.shows.item hhas]
  · rw [hshows.params, hm.shows.params, hparams hnone]
  · rw [hshows.focusable, hm.shows.focusable]

/-- How many bound attributes of a widget's layout are accepted in data. A widget without manager
has none. -/
def acceptedAt (s : Session) (data : Fields) (id : WidgetId) : Nat :=
  ((s.managerOf? id).map (·.acceptedIn data)).getD 0

/-- At a widget that lives there are as many effects as attributes are accepted. -/
theorem length_effectsAt (hlives : alive id = true) :
    (s.effectsAt alive data id).length = s.acceptedAt data id := by
  rw [effectsAt, acceptedAt]
  cases s.managerOf? id with
  | none => rfl
  | some m => simp [hlives, Manager.length_effectsIn]

/-- Of the effects that a walk has had on a widget the last one on a property counts. -/
theorem Renews.setting (h : Renews alive data walk s s') (hs : s.Manned) (hid : id ∈ walk)
    (hlives : alive id = true) (hm : s.Managed id mid m k w look)
    (hw' : s'.widget? id = some w') (p : Property) :
    p.setting? s'.ids w' = (Look.lastOf? p (m.effectsIn data)).or (p.setting? s.ids w) := by
  obtain ⟨w₁, hm₁⟩ := h.given hm hid
  rw [hm.effectsAt, if_pos hlives] at hm₁
  obtain rfl : w₁ = w' := Option.some.inj (hm₁.widget.symm.trans hw')
  by_cases hhas : k.Has p
  · rw [hm₁.shows.settings p hhas, hm.shows.settings p hhas, Look.settings_setAll]
    cases Look.lastOf? p (m.effectsIn data) <;> rfl
  · have hunbound : ¬m.Binds p := by
      rintro ⟨a, -, -, hroute⟩
      exact hhas (hm.serves.has hroute)
    have hunset : Look.lastOf? p (m.effectsIn data) = none :=
      Look.lastOf?_of_forall_ne fun e he heq => hunbound (heq ▸ Manager.binds_of_mem_effectsIn he)
    rw [(h.sameBut hs hm hw').settings p hunbound, hunset, Option.none_or]

/-- The managers of the widgets that are reached from a widget have been given data, and their bound
attributes have been handled in the data. Nothing else has changed. -/
structure Refreshes (context : Context) (data : Fields) (top : WidgetId) (s s' : Session) :
    Prop where
  ids : s.ids ≤ s'.ids
  tags : s'.tags = s.tags
  shape : SameShape True s s'
  given : ∀ ⦃mid m⦄, s.manager? mid = some m → s.Reached m.widget top →
    s'.manager? mid = some { m with data := data }
  manager? : ∀ ⦃mid m⦄, s.manager? mid = some m → ¬s.Reached m.widget top →
    s'.manager? mid = some m
  widget? : ∀ ⦃id⦄, ¬s.Reached id top → s'.widget? id = s.widget? id
  changed : ∀ ⦃id m w w'⦄, s.managerOf? id = some m → s.widget? id = some w →
    s'.widget? id = some w' → w.SameBut s.ids s'.ids m.Binds w'
  rebound : ∀ ⦃id m w w'⦄, s.managerOf? id = some m → s.widget? id = some w →
    s'.widget? id = some w' → s.Reached id top → ∀ p,
      p.setting? s'.ids w' = (Look.lastOf? p (m.effectsIn data)).or (p.setting? s.ids w)
  handled : ∀ ⦃id m⦄, s.managerOf? id = some m → s.Reached id top →
    ∀ a ∈ m.layout.attributes, a.value.isBinding = true → ∀ unknown,
      (a.value.apply context unknown m.parser id a.id s').1 = .ok (m.accepts data a)

/-- A walk through all that is reached from a widget, where all of it lives. -/
theorem Renews.refreshes (context : Context) (h : Renews alive data walk s s') (hs : s.Manned)
    (hlives : ∀ id ∈ walk, alive id = true) (hwalk : ∀ id, id ∈ walk ↔ s.Reached id top) :
    Refreshes context data top s s' where
  ids := h.ids
  tags := h.tags
  shape := h.shape
  given mid m hm hreached := by
    obtain ⟨k, w, look, hmanaged⟩ := hs.managed hm
    obtain ⟨w', h'⟩ := h.given hmanaged ((hwalk m.widget).2 hreached)
    exact h'.managed
  manager? mid m hm hreached := h.manager? hm fun hmem => hreached ((hwalk m.widget).1 hmem)
  widget? id hid := h.widget? fun hmem => absurd ((hwalk id).1 hmem) hid
  changed id m w w' hm hw hw' := by
    obtain ⟨mid, k, v, look, hmanaged⟩ := hs.exists_managed_of_managerOf? hm
    obtain rfl : v = w := Option.some.inj (hmanaged.widget.symm.trans hw)
    exact h.sameBut hs hmanaged hw'
  rebound id m w w' hm hw hw' hreached := by
    obtain ⟨mid, k, v, look, hmanaged⟩ := hs.exists_managed_of_managerOf? hm
    obtain rfl : v = w := Option.some.inj (hmanaged.widget.symm.trans hw)
    have hid := (hwalk id).2 hreached
    exact h.setting hs hid (hlives id hid) hmanaged hw'
  handled id m hm hreached a _ hbinding unknown := by
    obtain ⟨mid, k, w, look, hmanaged⟩ := hs.exists_managed_of_managerOf? hm
    obtain ⟨w', h'⟩ := h.given hmanaged ((hwalk id).2 hreached)
    obtain ⟨s'', w'', hrun, -⟩ := h'.apply_binding context a.id hbinding
    rw [Value.apply_of_isBinding context unknown m.parser id a.id hbinding, hrun]
    rfl

/-- A tidy session stays so while managers are renewed. -/
theorem Tidy.renews (hs : s.Tidy) (h : Renews alive data walk s s') : s'.Tidy :=
  ⟨h.manned, h.shape.expands.single hs.single, h.shape.expands.acyclic hs.acyclic⟩

/-- In a tidy session an update comes to the end of its walk. -/
theorem Tidy.update_renews (hs : s.Tidy) (context : Context) (hm : s.manager? mid = some m)
    (alive : WidgetId → Bool) (data : Fields) :
    ∃ walk s', s.Tours alive [m.widget] walk ∧
      context.update alive mid data s = (.ok (s.effectCount alive data walk), s') ∧
      Renews alive data walk s s' := by
  obtain ⟨walk, hrenews, hok⟩ := context.update_renewed hs.manned hm alive data
  obtain ⟨n, hn⟩ : ∃ n, (context.update alive mid data s).1 = .ok n :=
    Context.update_returns_of_acyclic hs.manned.owned hs.acyclic mid
  obtain ⟨htours, rfl⟩ := hok n hn
  exact ⟨walk, _, htours, Prod.ext hn rfl, hrenews⟩

/-- The walk of an update from a widget that lives goes through all that is reached from there, once
each. -/
theorem Tidy.walk_of_tours (hs : s.Tidy) (hm : s.manager? mid = some m) {held : List WidgetId}
    (hlives : m.widget ∈ s.living held)
    (htours : s.Tours (s.living held).contains [m.widget] walk) :
    walk.Nodup ∧ ∀ id, id ∈ walk ↔ s.Reached id m.widget := by
  refine ⟨?_, fun id => ⟨fun hid => ?_, fun hreached => ?_⟩⟩
  · have hends := hs.acyclic.isSome_preorder? m.widget
    obtain ⟨tree, htree⟩ := Option.isSome_iff_exists.1 hends
    have hsublist := htours.sublist_preorderAll (List.forall_mem_singleton.2 hends)
    rw [preorderAll_cons, ← preorder?, htree, Option.getD_some, preorderAll, List.flatMap_nil,
      List.append_nil] at hsublist
    exact (hs.single.nodup_preorderWithin hs.acyclic htree).sublist hsublist
  · obtain ⟨start, hstart, -, hreached⟩ := htours.reached_of_mem hid
    exact List.mem_singleton.1 hstart ▸ hreached
  · have halive : ∀ other, s.Reached other m.widget → (s.living held).contains other = true :=
      fun other hother => List.contains_iff_mem.2 (hs.living_of_below hlives hother.below)
    have hreaches := hreached.reaches (hs.manned.isSome_managerOf? hm) halive
    exact hreaches.mem_walk htours (List.mem_singleton_self _)

/-- An update from a widget of a tidy session that lives. -/
theorem Tidy.refreshes_of_update (hs : s.Tidy) (context : Context)
    (hmid : (s.widget? top).bind (·.manager) = some mid) {held : List WidgetId}
    (hlives : top ∈ s.living held) (data : Fields) :
    ∃ (walk : List WidgetId) (s' : Session),
      walk.Nodup ∧ (∀ id, id ∈ walk ↔ s.Reached id top) ∧
      context.update (s.living held).contains mid data s =
        (.ok (walk.map (s.acceptedAt data)).sum, s') ∧
      Refreshes context data top s s' := by
  obtain ⟨w, hw, hmanager⟩ := Option.bind_eq_some_iff.1 hmid
  obtain ⟨m, hm, rfl⟩ := hs.manned.owned hw hmanager
  obtain ⟨walk, s', htours, hrun, hrenews⟩ :=
    hs.update_renews context hm (s.living held).contains data
  obtain ⟨hnodup, hmem⟩ := hs.walk_of_tours hm hlives htours
  have hlivesAll : ∀ id ∈ walk, (s.living held).contains id = true := fun id hid =>
    List.contains_iff_mem.2 (hs.living_of_below hlives ((hmem id).1 hid).below)
  refine ⟨walk, s', hnodup, hmem, ?_, hrenews.refreshes context hs.manned hlivesAll hmem⟩
  rw [hrun, effectCount]
  congr 3
  exact List.map_congr_left fun id hid => length_effectsAt (hlivesAll id hid)

end Session

namespace Context

open Session

/-- Where the parsers are the engine's own, perhaps under further names, and a host gives out a new
widget for every layout of an unknown type, after whatever requests: an update of the manager of a
widget that lives goes through all that is reached from the widget through children with managers,
once each. These get the data and have their bound attributes handled, and nothing else changes. The
answer counts the bound attributes that are accepted. -/
theorem update_refreshes {context : Context} {aliases : List (String × String)} {t ids : IdTable}
    (hregistry : context.registry = Setup.registerAliases aliases (Registry.withBuiltins t).1)
    (hids : (Registry.withBuiltins t).2 ≤ ids) {unknown : UnknownType}
    (hfresh : unknown.Fresh context.registry) {requests : List Request} {s : Session}
    (hs : s = context.serveAllBy (.own unknown) requests (.ofIds ids))
    {top : WidgetId} {mid : ManagerId} (hmid : (s.widget? top).bind (·.manager) = some mid)
    {held : List WidgetId} (hlives : top ∈ s.living held) (data : Fields) :
    ∃ (walk : List WidgetId) (s' : Session),
      walk.Nodup ∧ (∀ id, id ∈ walk ↔ s.Reached id top) ∧
      context.updateBy (.own unknown) (s.living held).contains mid data s =
        (.ok (walk.map (s.acceptedAt data)).sum, s') ∧
      s.Refreshes context data top s' := by
  have htidy : s.Tidy := hs ▸ tidy hregistry hids hfresh requests
  rw [context.updateBy_own]
  exact htidy.refreshes_of_update context hmid hlives data

/-- A host that answers with a container of its own making, which has no manager and holds a widget
that has become of a layout. -/
def boxing (context : Context) (label : Layout) : UnknownType := fun _ data index => do
  let box ← Engine.act (·.create (.relativeLayout .initial))
  let text ← label.inflate context (fun l _ _ => throw (.unresolvedType l.viewType)) data (some box)
    index
  Engine.change (·.setChildren box [text])
  return box

/-- The container is a new one each time. -/
theorem boxing_fresh {context : Context} (hnew : context.registry.MakesNew) (label : Layout) :
    (boxing context label).Fresh context.registry := by
  constructor
  · intro l data index s _
    have hthrow : UnknownType.Spares context.registry
        fun l _ _ => throw (.unresolvedType l.viewType) := fun _ _ _ _ _ => .throw _
    have hmade : Engine.Leads Expands (Engine.act (·.create (.relativeLayout .initial))) s
        fun box s₁ => s.Spare s₁ [box] := .act (expands_create _ s) (Spare.of_create _ s)
    refine hmade.bind fun box s₁ _ hbox => ?_
    have hthere := hbox.present box (List.mem_singleton_self box)
    refine (label.inflate_spares hnew hthrow data (some box) index s₁).bind_from
      fun text s₂ hexpands htext => ?_
    have hset := htext.setChildren hexpands hthere
    rw [Fallible.bind_run_ok (Engine.change_run _ s₂), Fallible.pure_run]
    refine ⟨hset, fun box' hbox' => ?_⟩
    cases hbox'
    exact hbox.before hset
  · intro l _ data index s hprovides
    have hcarries := context.carries_staysManned.toCarries
    have hthrow : UnknownType.Carries context.registry
        (fun s => context.registry.Provides s.ids) StaysManned
        fun l _ _ => throw (.unresolvedType l.viewType) := fun _ _ _ _ _ _ => .throw _
    have hmade : Engine.Leads StaysManned (Engine.act (·.create (.relativeLayout .initial))) s
        fun _ _ => True := .act (hcarries.create _ s) trivial
    refine hmade.bind fun box s₁ hmade _ => ?_
    refine (Layout.inflate_carries hcarries hthrow data (some box) index label
      (hcarries.still hmade hprovides)).bind fun text s₂ _ _ => ?_
    exact .change_bind (hcarries.children trivial [text] s₂) (.pure trivial)

/-- A container with a text whose title is bound twice and whose place is bound, and with a layout
of an unknown type. -/
def boxedPanel : LayoutSource :=
  ⟨"relative-layout", [⟨"padding", .string "@{gap}"⟩],
    [⟨"text", [⟨"text", .string "@{title}"⟩, ⟨"layout_below", .string "@{anchor}"⟩,
      ⟨"layout_alignParentTop", .string "@{top}"⟩, ⟨"text", .string "@{subtitle}"⟩], []⟩,
      ⟨"chart", [], []⟩]⟩

/-- What the host has in its container. -/
def boxedLabel : LayoutSource := ⟨"text", [⟨"text", .string "@{title}"⟩], []⟩

/-- What the container is updated with. Its padding does not accept the gap. -/
def panelData : Fields :=
  [("gap", .string "wide"), ("title", .string "Bye"), ("anchor", .string "@id/heading"),
    ("top", .bool true)]

/-- These parsers are the engine's own without further names. -/
theorem own_registry :
    own.registry = Setup.registerAliases [] (Registry.withBuiltins .empty).1 := rfl

/-- The text of the container gets the data, too. The one in the host's container, which has no
manager, is not reached. -/
theorem update_refreshes_boxedPanel :
    ∃ label l t t' s s', ∃ walk : List WidgetId, boxedLabel.compile ownIds = (.ok label, t) ∧
      boxedPanel.compile t = (.ok l, t') ∧
      s = own.serveAllBy (.own (boxing own label)) [.act (.inflate l [] none 3)]
        (.ofIds t') ∧
      own.updateBy (.own (boxing own label)) (s.living [⟨1⟩]).contains ⟨0⟩ panelData s =
        (.ok 4, s') ∧
      walk.Nodup ∧ (∀ id, id ∈ walk ↔ s.Reached id ⟨1⟩) ∧ s.Refreshes own panelData ⟨1⟩ s' ∧
      s.childrenOf ⟨1⟩ = [⟨2⟩, ⟨3⟩] ∧ s.childrenOf ⟨3⟩ = [⟨4⟩] ∧
      (s.managerOf? ⟨4⟩).isSome = true ∧ ¬s.Reached ⟨4⟩ ⟨1⟩ := by
  have hrun : Fallible.gives boxedLabel.compile ownIds (fun label t =>
      Fallible.gives boxedPanel.compile t fun l t' =>
        let host : Host := .own (boxing own label)
        let s := own.serveAllBy host [.act (.inflate l [] none 3)] (.ofIds t')
        Fallible.gives (own.updateBy host (s.living [⟨1⟩]).contains ⟨0⟩ panelData) s fun n s' =>
          decide (n = 4 ∧ (s.widget? ⟨1⟩).bind (·.manager) = some ⟨0⟩ ∧
            (⟨1⟩ : WidgetId) ∈ s.living [⟨1⟩] ∧ s.childrenOf ⟨1⟩ = [⟨2⟩, ⟨3⟩] ∧
            s.childrenOf ⟨3⟩ = [⟨4⟩] ∧ (s.managerOf? ⟨4⟩).isSome = true ∧
            (s.manager? ⟨2⟩).map (·.widget) = some ⟨4⟩ ∧
            (s'.manager? ⟨2⟩).map (·.data.length) = some 0)) = true := by
    decide +kernel
  obtain ⟨label, t, hlabel, hrun⟩ := Fallible.exists_of_gives hrun
  obtain ⟨l, t', hcompile, hrun⟩ := Fallible.exists_of_gives hrun
  obtain ⟨n, s', hupdate, hrun⟩ := Fallible.exists_of_gives hrun
  obtain ⟨rfl, hmid, hlives, hchildren, hboxed, hmanaged, hlabelled, hdata⟩ :=
    of_decide_eq_true hrun
  have hids : ownIds ≤ t' := (LayoutSource.stable_compile boxedLabel hlabel).1.trans
    (LayoutSource.stable_compile boxedPanel hcompile).1
  have hnew : own.registry.MakesNew := Registry.makesNew_registerAliases [] .empty
  obtain ⟨walk, s'', hnodup, hmem, hagain, hrefreshes⟩ :=
    update_refreshes own_registry hids (boxing_fresh hnew label) rfl hmid hlives panelData
  obtain rfl : s' = s'' := congrArg Prod.snd (hupdate.symm.trans hagain)
  refine ⟨label, l, t, t', _, s', walk, hlabel, hcompile, rfl, hupdate, hnodup, hmem, hrefreshes,
    hchildren, hboxed, hmanaged, fun hreached => ?_⟩
  obtain ⟨m, hm, hwidget⟩ := Option.map_eq_some_iff.1 hlabelled
  rw [← hwidget] at hreached
  rw [hrefreshes.given hm hreached] at hdata
  cases hdata

end Context

/-! ## Updating again -/

/-- Layout parameters are the same, rules compared rule by rule. -/
structure LayoutParams.Same (p q : LayoutParams) : Prop where
  width : q.width = p.width
  height : q.height = p.height
  rules : ∀ r, Entries.get? r q.rules = Entries.get? r p.rules

/-- Widgets are the same, rules compared rule by rule. -/
structure Widget.Same (w w' : Widget) : Prop where
  params : Option.Rel LayoutParams.Same w.view.params w'.view.params
  others : w' = { w with view := { w.view with params := w'.view.params } }

/-- Numbers of the same view are the same in one table. -/
theorem SameView.eq {t : IdTable} {a b : Int} (h : SameView t t a b) : a = b := by
  obtain ⟨name, ha, hb⟩ := h
  rw [IdTable.viewNameOf?_eq_some_iff] at ha hb
  exact Option.some.inj (ha.symm.trans hb)

/-- Anchors that are alike in one table are the same. -/
theorem RuleAnchor.Alike.eq {t : IdTable} {a b : RuleAnchor} (h : a.Alike t t b) : a = b := by
  cases h with
  | parent => rfl
  | sibling same => rw [same.eq]

/-- Layout params that are alike in one table are the same but for the order of rules. -/
theorem LayoutParams.Alike.same {t : IdTable} {p q : LayoutParams} (h : p.Alike t t q) :
    p.Same q :=
  ⟨h.width.symm, h.height.symm, fun r => (eq_of_rel (fun _ _ => RuleAnchor.Alike.eq)
    (h.rules r)).symm⟩

namespace Widget

/-- A widget is the same as itself. -/
theorem Same.refl (w : Widget) : w.Same w := by
  refine ⟨?_, rfl⟩
  cases w.view.params with
  | none => exact .none
  | some p => exact .some ⟨rfl, rfl, fun _ => rfl⟩

/-- Widgets that hang together with others in the same way and show the same look are the same. -/
theorem Shows.same {t : IdTable} {w w' : Widget} {k : Kind} {look : Look} (h : w.Shows t k look)
    (h' : w'.Shows t k look) (hlinks : w'.links = w.links) : w.Same w' := by
  have hitem := h.item_eq h'
  have hview := h.view_alike h'
  have hid : w.view.id = w'.view.id := eq_of_rel (fun _ _ => SameView.eq) hview.id
  refine ⟨rel_imp (fun _ _ => LayoutParams.Alike.same) hview.params, ?_⟩
  obtain ⟨hmanager, hparent, hchildren⟩ : w'.manager = w.manager ∧
      w'.view.parent = w.view.parent ∧ w'.children = w.children := by
    simpa [links] using hlinks
  obtain ⟨item, view, manager, children⟩ := w
  obtain ⟨item', view', manager', children'⟩ := w'
  obtain ⟨-, -, hvisibility, hpadding, hbackground, henabled, halpha, hfocusable⟩ := hview
  cases view
  cases view'
  simp_all

end Widget

namespace Session

variable {alive : WidgetId → Bool} {data : Fields} {walk : List WidgetId} {s s₁ s₂ : Session}
  {id : WidgetId} {mid : ManagerId}

/-- Two sessions have the same state, rules of layout parameters compared one by one. What has been
told may differ. -/
structure SameState (s s' : Session) : Prop where
  ids : s'.ids = s.ids
  tags : s'.tags = s.tags
  managers : s'.managers = s.managers
  kept : s'.kept = s.kept
  length : s'.widgets.length = s.widgets.length
  widget? : ∀ ⦃id w⦄, s.widget? id = some w → ∃ w', s'.widget? id = some w' ∧ w.Same w'

namespace Renews

variable (hs : s.Manned) (h₁ : Renews alive data walk s s₁) (h₂ : Renews alive data walk s₁ s₂)
include hs h₁ h₂

/-- The second update leaves each manager as the first one did. -/
theorem manager?_again (mid : ManagerId) : s₂.manager? mid = s₁.manager? mid := by
  cases hm₁ : s₁.manager? mid with
  | none =>
    have hnone := h₂.shape.manager?_bare mid
    rw [hm₁] at hnone
    exact Option.map_eq_none_iff.1 hnone
  | some m₁ =>
    by_cases hid : m₁.widget ∈ walk
    · obtain ⟨data', hm⟩ := h₁.shape.symm.manager? hm₁
      obtain ⟨k, w, look, hmanaged⟩ := hs.managed hm
      obtain ⟨w₁, hmanaged₁⟩ := h₁.given hmanaged hid
      obtain ⟨w₂, hmanaged₂⟩ := h₂.given hmanaged₁ hid
      rw [hmanaged₂.managed, ← hm₁, hmanaged₁.managed]
    · exact h₂.manager? hm₁ hid

/-- The second update leaves each widget as the first one did. -/
theorem widget?_again (hids : s₂.ids = s₁.ids) {w₁ : Widget} (hw₁ : s₁.widget? id = some w₁) :
    ∃ w₂, s₂.widget? id = some w₂ ∧ w₁.Same w₂ := by
  by_cases hidle : id ∈ walk → s₁.effectsAt alive data id = []
  · exact ⟨w₁, (h₂.widget? hidle).trans hw₁, .refl w₁⟩
  · rw [Classical.not_imp, h₁.shape.effectsAt] at hidle
    obtain ⟨hid, heffects⟩ := hidle
    cases hm : s.managerOf? id with
    | none =>
      rw [effectsAt, hm] at heffects
      exact absurd rfl heffects
    | some m =>
      obtain ⟨mid, k, w, look, hmanaged⟩ := hs.exists_managed_of_managerOf? hm
      obtain ⟨v₁, hmanaged₁⟩ := h₁.given hmanaged hid
      obtain ⟨w₂, hmanaged₂⟩ := h₂.given hmanaged₁ hid
      obtain rfl : v₁ = w₁ := Option.some.inj (hmanaged₁.widget.symm.trans hw₁)
      have hshows := hmanaged₂.shows
      rw [h₁.shape.effectsAt, Look.setAll_setAll, hids] at hshows
      obtain ⟨v₂, hv₂, hlinks⟩ := h₂.shape.widget? hw₁
      obtain rfl : w₂ = v₂ := Option.some.inj (hmanaged₂.widget.symm.trans hv₂)
      exact ⟨w₂, hv₂, hmanaged₁.shows.same hshows hlinks⟩

/-- The same walk once more changes nothing. -/
theorem sameState : SameState s₁ s₂ := by
  have hids : s₂.ids = s₁.ids := by
    refine h₂.still fun id hid e he => ?_
    rw [h₁.shape.effectsAt] at he
    exact h₁.named id hid e he
  exact ⟨hids, h₂.tags, List.ext_getElem? fun n => h₁.manager?_again hs h₂ ⟨n⟩, h₂.shape.kept,
    h₂.shape.length, fun id w₁ hw₁ => h₁.widget?_again hs h₂ hids hw₁⟩

end Renews

end Session

namespace Context

open Session

/-- Where the parsers are the engine's own, perhaps under further names, and a host gives out no
widget that was there before, after whatever requests: an update comes to an end, and the same
update once more has the same answer and changes nothing. -/
theorem update_again {context : Context} {aliases : List (String × String)} {t ids : IdTable}
    (hregistry : context.registry = Setup.registerAliases aliases (Registry.withBuiltins t).1)
    (hids : (Registry.withBuiltins t).2 ≤ ids)
    (hfresh : ∀ answer, context.fallback = some answer → ∀ viewType id,
      answer viewType ≠ .widget id)
    {requests : List Request} {s : Session} (hs : s = context.serveAll requests (.ofIds ids))
    {top : WidgetId} {mid : ManagerId} (hmid : (s.widget? top).bind (·.manager) = some mid)
    (held : List WidgetId) (data : Fields) :
    ∃ n s₁ s₂, context.update (s.living held).contains mid data s = (.ok n, s₁) ∧
      context.update (s₁.living held).contains mid data s₁ = (.ok n, s₂) ∧ s₁.SameState s₂ := by
  have htidy : s.Tidy := hs ▸ tidy_serveAll hregistry hids hfresh requests
  obtain ⟨w, hw, hmanager⟩ := Option.bind_eq_some_iff.1 hmid
  obtain ⟨m, hm, rfl⟩ := htidy.manned.owned hw hmanager
  obtain ⟨walk, s₁, htours, hrun, hrenews⟩ :=
    htidy.update_renews context hm (s.living held).contains data
  obtain ⟨data', hm₁⟩ := hrenews.shape.manager? hm
  obtain ⟨walk', s₂, htours', hrun', hrenews'⟩ :=
    (htidy.renews hrenews).update_renews context hm₁ (s.living held).contains data
  obtain rfl := htours.unique (htours'.of_sameShape hrenews.shape)
  rw [hrenews.shape.effectCount] at hrun'
  refine ⟨_, s₁, s₂, hrun, ?_, hrenews.sameState htidy.manned hrenews'⟩
  rw [hrenews.shape.living, hrun']

/-- A container with a text whose title is bound twice and whose place is bound. -/
def boundPanel : LayoutSource :=
  ⟨"relative-layout", [⟨"padding", .string "@{gap}"⟩],
    [⟨"text", [⟨"text", .string "@{title}"⟩, ⟨"layout_below", .string "@{anchor}"⟩,
      ⟨"layout_alignParentTop", .string "@{top}"⟩, ⟨"text", .string "@{subtitle}"⟩], []⟩]⟩

/-- This host gives out no widget that was there before. -/
theorem own_fresh : ∀ answer, own.fallback = some answer → ∀ viewType id,
    answer viewType ≠ .widget id := by
  have hno : own.fallback = none := rfl
  intro answer hanswer
  rw [hno] at hanswer
  cases hanswer

/-- The container is inflated without data. -/
theorem exists_inflated_boundPanel :
    ∃ l t' s, boundPanel.compile ownIds = (.ok l, t') ∧
      s = own.serveAll [.act (.inflate l [] none 3)] (.ofIds t') ∧
      (s.widget? ⟨1⟩).bind (·.manager) = some ⟨0⟩ ∧ ⟨1⟩ ∈ s.living [⟨1⟩] ∧
      ∃ s', own.update (s.living [⟨1⟩]).contains ⟨0⟩ panelData s = (.ok 4, s') := by
  have hrun : Fallible.gives boundPanel.compile ownIds (fun l t' =>
      Fallible.gives (own.update ((own.serveAll [.act (.inflate l [] none 3)] (.ofIds t')).living
          [⟨1⟩]).contains ⟨0⟩ panelData)
        (own.serveAll [.act (.inflate l [] none 3)] (.ofIds t')) fun n _ =>
          decide (n = 4 ∧
            ((own.serveAll [.act (.inflate l [] none 3)] (.ofIds t')).widget? ⟨1⟩).bind
              (·.manager) = some ⟨0⟩ ∧
            ⟨1⟩ ∈ (own.serveAll [.act (.inflate l [] none 3)] (.ofIds t')).living [⟨1⟩])) =
        true := by
    decide +kernel
  obtain ⟨l, t', hcompile, hrun⟩ := Fallible.exists_of_gives hrun
  obtain ⟨n, s', hupdate, hrun⟩ := Fallible.exists_of_gives hrun
  obtain ⟨rfl, hmid, hlives⟩ := of_decide_eq_true hrun
  exact ⟨l, t', _, hcompile, rfl, hmid, hlives, s', hupdate⟩

/-- The second update of the container has the answer of the first. -/
theorem update_again_boundPanel :
    ∃ l t' s s₁ s₂, boundPanel.compile ownIds = (.ok l, t') ∧
      s = own.serveAll [.act (.inflate l [] none 3)] (.ofIds t') ∧
      own.update (s.living [⟨1⟩]).contains ⟨0⟩ panelData s = (.ok 4, s₁) ∧
      own.update (s₁.living [⟨1⟩]).contains ⟨0⟩ panelData s₁ = (.ok 4, s₂) ∧ s₁.SameState s₂ := by
  obtain ⟨l, t', s, hcompile, hs, hmid, -, s', hupdate⟩ := exists_inflated_boundPanel
  have hids : ownIds ≤ t' := (LayoutSource.stable_compile boundPanel hcompile).1
  obtain ⟨n, s₁, s₂, hrun, hagain, hsame⟩ :=
    update_again own_registry hids own_fresh hs hmid [⟨1⟩] panelData
  obtain rfl : 4 = n := Except.ok.inj (congrArg Prod.fst (hupdate.symm.trans hrun))
  exact ⟨l, t', s, s₁, s₂, hcompile, hs, hrun, hagain, hsame⟩

end Context

end LayoutEngine
