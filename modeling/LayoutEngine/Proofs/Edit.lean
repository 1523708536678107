import LayoutEngine.Proofs.Rebind
import LayoutEngine.Proofs.TagTable
import LayoutEngine.Session.Edit

/-!
# Edits and later updates

An edit that is accepted sets one property, or takes children away, and leaves one descriptor of
its name (`Context.edited`). Every act of a session keeps an invariant
(`Context.Invariant.perform`), and one that is no accepted edit of an attribute retains what became
of it, except that an update applies the attributes again that the widget's layout has bound
(`Context.Invariant.retains`). So an edit of such an attribute lasts until the next update, and one
of any other attribute stays (`Context.update_after_edit`).
-/

namespace LayoutEngine

/-! ## Declared attributes -/

namespace Descriptor

@[simp] theorem name_ofJson (name : String) (json : Json) : (ofJson name json).name = name := by
  cases json <;> rfl

end Descriptor

namespace Session

variable {s s' : Session} {id : WidgetId} {mid : ManagerId} {m : Manager} {k : Kind}
  {w : Widget} {look : Look}

/-- An edit is recorded in the place of the descriptor with its name. -/
theorem attributesOf_recordEdit_self (id : WidgetId) (name : String) (json : Json) (s : Session) :
    (s.recordEdit id name json).attributesOf id =
      (Descriptor.ofJson name json).upsert (s.attributesOf id) := by
  simp [attributesOf, recordEdit, note, TagTable.get?, TagTable.upsert]

/-- An edit of one widget is not recorded for another. -/
theorem get?_tags_recordEdit_of_ne {other : WidgetId} (h : other ≠ id) (name : String)
    (json : Json) (s : Session) :
    (s.recordEdit id name json).tags.get? other = s.tags.get? other :=
  Entries.get?_put_of_ne h _ _

end Session

/-! ## Edits -/

namespace Context

variable (context : Context)

/-- What an edit comes to, whatever parsers do. -/
theorem editBy_eq (host : Host) (id : WidgetId) (name : String) (json : Json) (s : Session) :
    context.editBy host id name json s =
      match s.managerOf? id with
      | none => (.error (.noManager id), s)
      | some m =>
        if Text.trimmed name = "" then
          (.error (.layout (.emptyAttributeName m.layout.viewType)), s)
        else
          match (Value.ofJson json).applyBy context host m.parser id
            (s.intern (Text.trimmed name)).1 (s.intern (Text.trimmed name)).2 with
          | (.ok accepted, s') =>
            if accepted then (.ok (), s'.recordEdit id (Text.trimmed name) json)
            else (.error (.rejected (Text.trimmed name) m.layout.viewType), s')
          | (.error e, s') => (.error (.inflate e), s') := by
  have hget : (get : ExceptT EditError (StateM Session) Session) s = (.ok s, s) := rfl
  unfold editBy
  rw [Fallible.bind_run_ok hget]
  cases s.managerOf? id with
  | none => rfl
  | some m =>
    dsimp only
    by_cases hname : Text.trimmed name = ""
    · rw [if_pos hname, if_pos hname]
      rfl
    · have hintern : (modifyGet (·.intern (Text.trimmed name)) :
          ExceptT EditError (StateM Session) Int) s =
          (.ok (s.intern (Text.trimmed name)).1, (s.intern (Text.trimmed name)).2) := rfl
      rw [if_neg hname, if_neg hname, Fallible.bind_run_ok hintern, Fallible.bind_run,
        Fallible.adapt_run]
      rcases (Value.ofJson json).applyBy context host m.parser id
        (s.intern (Text.trimmed name)).1 (s.intern (Text.trimmed name)).2 with ⟨e | accepted, s'⟩
      · rfl
      · cases accepted <;> rfl

/-- Whatever an edit does, it does by having the value handled under the number that the name gets,
and by recording it if it is accepted. A relation that these keep is kept by the edit, whether or
not it fails. -/
theorem editBy_keeps {R : Session → Session → Prop} [IsPreorder Session R] {host : Host}
    (id : WidgetId) (name : String) (json : Json) {s : Session}
    (hhandled : ∀ m, s.managerOf? id = some m →
      R s ((Value.ofJson json).applyBy context host m.parser id (s.intern (Text.trimmed name)).1
        (s.intern (Text.trimmed name)).2).2)
    (hrecorded : ∀ m s', s.managerOf? id = some m → R s s' →
      R s' (s'.recordEdit id (Text.trimmed name) json)) :
    R s (context.editBy host id name json s).2 := by
  rw [editBy_eq]
  cases hm : s.managerOf? id with
  | none => exact refl_of R s
  | some m =>
    dsimp only
    split
    · exact refl_of R s
    · have hboth := hhandled m hm
      rcases hrun : (Value.ofJson json).applyBy context host m.parser id
        (s.intern (Text.trimmed name)).1 (s.intern (Text.trimmed name)).2 with ⟨e | accepted, s'⟩
      all_goals rw [hrun] at hboth
      · exact hboth
      · dsimp only
        split
        · exact trans_of R hboth (hrecorded m s' hm hboth)
        · exact hboth

/-- What an edit comes to. -/
theorem edit_eq (id : WidgetId) (name : String) (json : Json) (s : Session) :
    context.edit id name json s =
      match s.managerOf? id with
      | none => (.error (.noManager id), s)
      | some m =>
        if Text.trimmed name = "" then
          (.error (.layout (.emptyAttributeName m.layout.viewType)), s)
        else
          match context.apply m.parser id (s.intern (Text.trimmed name)).1 (.ofJson json)
            (s.intern (Text.trimmed name)).2 with
          | (.ok accepted, s') =>
            if accepted then (.ok (), s'.recordEdit id (Text.trimmed name) json)
            else (.error (.rejected (Text.trimmed name) m.layout.viewType), s')
          | (.error e, s') => (.error (.inflate e), s') :=
  context.editBy_eq context.host id name json s

end Context

namespace Session

variable {s s' : Session} {id : WidgetId} {mid : ManagerId} {m : Manager} {k : Kind}
  {w : Widget} {look : Look}

/-- A name gets a number. -/
theorem Managed.changes_intern (h : s.Managed id mid m k w look) (name : String) :
    Changes id s w (s.intern name).2 w :=
  ⟨⟨IdTable.le_intern name s.ids, fun _ _ => rfl, rfl, rfl, rfl⟩, h.widget, rfl, rfl⟩

/-- An edit is accepted as its name and value tell, and changes the look accordingly. -/
theorem Managed.edit_run (context : Context) (h : s.Managed id mid m k w look) {name : String}
    (hname : Text.trimmed name ≠ "") (json : Json) :
    ∃ s' w', context.edit id name json s =
        (if k.accepts m.data m.index (Text.trimmed name, .ofJson json) then
          (.ok (), s'.recordEdit id (Text.trimmed name) json)
        else (.error (.rejected (Text.trimmed name) m.layout.viewType), s')) ∧
      Changes id s w s' w' ∧
      w'.Shows s'.ids k (look.apply k m.data m.index (Text.trimmed name, .ofJson json)) ∧
      w'.children = if k.clears (Text.trimmed name, .ofJson json) then [] else w.children := by
  have hintern := h.changes_intern (Text.trimmed name)
  have hm := h.changes hintern (h.shows.mono hintern.touches.ids)
  obtain ⟨s', w', hrun, hc, hshows, hchildren, -⟩ := hm.apply_run context
    (context.unknown context.layouts.size) (IdTable.get?_intern (Text.trimmed name) s.ids)
    (Value.isPlain_ofJson json)
  have happly : context.apply m.parser id (s.intern (Text.trimmed name)).1 (.ofJson json)
      (s.intern (Text.trimmed name)).2 =
        (.ok (k.accepts m.data m.index (Text.trimmed name, .ofJson json)), s') := hrun
  refine ⟨s', w', ?_, hintern.trans hc, hshows, hchildren⟩
  rw [Context.edit_eq, h.managerOf?]
  dsimp only
  rw [if_neg hname, happly]

/-- A widget is as it was when an edit has been recorded. -/
theorem Managed.recordEdit (h : s.Managed id mid m k w look) (id' : WidgetId) (name : String)
    (json : Json) : (s.recordEdit id' name json).Managed id mid m k w look :=
  ⟨h.widget, h.manager, h.managed, h.serves, h.shows⟩

/-- What an edit has recorded concerns one widget. -/
theorem Evolves.of_recordEdit (hs : s.Sound) (alone : Prop) (id : WidgetId) (name : String)
    (json : Json) : s.Evolves alone (· = id) (s.recordEdit id name json) :=
  .of_eq hs (le_refl s.ids) rfl rfl fun _ _ hne _ => get?_tags_recordEdit_of_ne hne name json s

end Session

namespace Context

variable {s : Session}

/-- An edit changes one widget alone. -/
theorem edit_evolves (context : Context) (hs : s.Sound) (alone : Prop) (id : WidgetId)
    (name : String) (json : Json) :
    s.Evolves alone (· = id) (context.edit id name json s).2 := by
  cases hmanager : s.managerOf? id with
  | none =>
    rw [edit_eq, hmanager]
    exact .refl hs alone _
  | some m =>
    obtain ⟨mid, k, w, look, h⟩ := hs.exists_managed_of_managerOf? hmanager
    by_cases hname : Text.trimmed name = ""
    · rw [edit_eq, hmanager]
      dsimp only
      rw [if_pos hname]
      exact .refl hs alone _
    · obtain ⟨s', w', hrun, hc, hshows, hchildren⟩ := h.edit_run context hname json
      have hevolves : s.Evolves alone (· = id) s' :=
        .of_changes hs h hc hshows fun _ ho child hchild => by
          rw [hchildren] at hchild
          split at hchild
          · cases hchild
          · exact ho.newer h.widget hchild
      rw [hrun]
      split
      · exact hevolves.trans (.of_recordEdit hevolves.sound alone id _ json)
      · exact hevolves

end Context

/-! ## Acts -/

namespace Session

/-- There are no managers at first. -/
theorem manned_ofIds (t : IdTable) : (ofIds t).Manned := by
  refine ⟨?_, ?_⟩
  · intro mid m hm
    cases hm
  · intro id w mid hw
    rw [widget?_ofIds] at hw
    cases hw

/-- A session without widgets is sound. -/
theorem sound_ofIds (t : IdTable) : (ofIds t).Sound := by
  refine ⟨manned_ofIds t, ?_⟩
  intro id w hw
  rw [widget?_ofIds] at hw
  cases hw

/-- A session without widgets is in order. -/
theorem orderly_ofIds (t : IdTable) : (ofIds t).Orderly := by
  refine ⟨rfl, ?_, ?_⟩
  · intro id w mid hw
    rw [widget?_ofIds] at hw
    cases hw
  · intro id w child hw
    rw [widget?_ofIds] at hw
    cases hw

end Session

/-- What may happen in a session: a name gets a number, as when a layout is compiled; a layout is
inflated; a widget is edited; a manager is updated while some widgets are held. -/
inductive Act where
  | name (name : String)
  | inflate (l : Layout) (data : Fields) (parent : Option WidgetId) (index : Int)
  | edit (id : WidgetId) (name : String) (json : Json)
  | update (held : List WidgetId) (manager : ManagerId) (data : Fields)

namespace Context

/-- The session after an act with a host, whether or not it has failed. -/
def performBy (context : Context) (host : Host) (s : Session) : Act → Session
  | .name name => (s.intern name).2
  | .inflate l data parent index => (l.inflateBy context host data parent index s).2
  | .edit id name json => (context.editBy host id name json s).2
  | .update held manager data => (context.updateBy host (s.living held).contains manager data s).2

/-- The session after an act, whether or not it has failed. -/
def perform (context : Context) (s : Session) (act : Act) : Session :=
  context.performBy context.host s act

/-- The action of inflating a layout. -/
theorem perform_inflate (context : Context) (l : Layout) (data : Fields)
    (parent : Option WidgetId) (index : Int) (s : Session) :
    context.perform s (.inflate l data parent index) =
      (context.inflate l data parent index s).2 := rfl

/-- The action of an edit. -/
theorem perform_edit (context : Context) (id : WidgetId) (name : String) (json : Json)
    (s : Session) : context.perform s (.edit id name json) = (context.edit id name json s).2 := rfl

/-- A session that acts have made in a context that has the engine's own parsers. -/
inductive Made (context : Context) : Session → Prop
  | start {ids : IdTable} (own : context.registry.IsOwn ids) : Made context (.ofIds ids)
  | act {s : Session} (act : Act) (made : Made context s) : Made context (context.perform s act)

/-- What every session has that acts have made. -/
structure Invariant (context : Context) (s : Session) : Prop where
  sound : s.Sound
  own : context.registry.IsOwn s.ids
  orderly : context.fallback = none → s.Orderly

namespace Invariant

variable {context : Context} {s s' : Session}

/-- Whatever makes a session evolve keeps the invariant. -/
theorem evolves {T : WidgetId → Prop} (h : context.Invariant s)
    (he : s.Evolves (context.fallback = none) T s') : context.Invariant s' :=
  ⟨he.sound, h.own.mono he.frame.ids, fun hno => he.orderly hno (h.orderly hno)⟩

/-- Whatever rebinds widgets to data keeps the invariant. -/
theorem rebinds {data : Fields} {T : WidgetId → Prop} (h : context.Invariant s)
    (hr : s.Rebinds data T s') : context.Invariant s' :=
  ⟨hr.sound, h.own.mono hr.ids, fun hno => hr.orderly (h.orderly hno)⟩

/-- Every act keeps the invariant. -/
theorem perform (h : context.Invariant s) (act : Act) :
    context.Invariant (context.perform s act) := by
  cases act with
  | name name =>
    have hname : s.Evolves (context.fallback = none) noWidget (s.intern name).2 :=
      .of_eq h.sound (IdTable.le_intern name s.ids) rfl rfl fun _ _ _ _ => rfl
    exact h.evolves hname
  | inflate l data parent index =>
    exact h.evolves (context.inflate_inflated h.own.offers h.sound l data parent index).evolves
  | edit id name json => exact h.evolves (context.edit_evolves h.sound _ id name json)
  | update held manager data => exact h.rebinds (context.update_rebinds h.sound manager)

end Invariant

/-- The invariant holds of every session that actions have made. -/
theorem Made.invariant {context : Context} {s : Session} (h : context.Made s) :
    context.Invariant s := by
  induction h with
  | start own =>
    exact ⟨Session.sound_ofIds _, own, fun _ => Session.orderly_ofIds _⟩
  | act a _ ih => exact ih.perform a

end Context

/-! ## What later acts leave of an edit -/

namespace Session

/-- What has become of a widget while an attribute has not been edited: whatever its data, the
attribute is as it was unless the widget's layout has it bound; what was declared of it still is;
and no children have come. -/
structure Retains (id : WidgetId) (name : String) (s s' : Session) : Prop where
  ids : s.ids ≤ s'.ids
  retained : ∀ ⦃mid m k w look⦄ ⦃source : LayoutSource⦄, s.Managed id mid m k w look →
    source.compile s.ids = (.ok m.layout, s.ids) → ∃ data' w' look',
      s'.Managed id mid { m with data := data' } k w' look' ∧
      (w.children = [] → w'.children = []) ∧
      (∀ p : Property, p.name = name → (∀ named ∈ Look.bound source.declared, named.1 ≠ name) →
        look'.settings p = look.settings p) ∧
      (s'.attributesOf id).filter (·.name = name) = (s.attributesOf id).filter (·.name = name)

namespace Retains

variable {s s' s'' : Session} {id : WidgetId} {name : String}

/-- A session retains what it has. -/
theorem refl (id : WidgetId) (name : String) (s : Session) : Retains id name s s :=
  ⟨le_refl s.ids, fun _ m _ w look _ h _ =>
    ⟨m.data, w, look, h, fun hw => hw, fun _ _ _ => rfl, rfl⟩⟩

/-- What is retained twice is retained. -/
theorem trans (h₁ : Retains id name s s') (h₂ : Retains id name s' s'') :
    Retains id name s s'' where
  ids := h₁.ids.trans h₂.ids
  retained mid m k w look source hm hcompiled := by
    obtain ⟨data₁, w₁, look₁, hm₁, hchildren₁, hlook₁, htags₁⟩ := h₁.retained hm hcompiled
    obtain ⟨data₂, w₂, look₂, hm₂, hchildren₂, hlook₂, htags₂⟩ :=
      h₂.retained hm₁ (LayoutSource.compile_of_le hcompiled h₁.ids)
    exact ⟨data₂, w₂, look₂, hm₂, fun hw => hchildren₂ (hchildren₁ hw),
      fun p hp hfree => (hlook₂ p hp hfree).trans (hlook₁ p hp hfree), htags₂.trans htags₁⟩

/-- What concerns other widgets alone is of no matter. -/
theorem of_frame {T : WidgetId → Prop} (h : Frame T noWidget s s') (hT : ¬T id) :
    Retains id name s s' :=
  ⟨h.ids, fun _ m _ w look _ hm _ =>
    ⟨m.data, w, look, hm.frame h hT fun hno => hno, fun hw => hw, fun _ _ _ => rfl, by
      rw [attributesOf, attributesOf, h.tags id w hT hm.widget]⟩⟩

/-- An update applies bound attributes alone. -/
theorem of_rebinds {data : Fields} {T : WidgetId → Prop} (h : s.Rebinds data T s') :
    Retains id name s s' := by
  refine ⟨h.ids, ?_⟩
  intro mid m k w look source hm hcompiled
  obtain ⟨data', w', look', hm', hlook, -⟩ := h.rebound hm hcompiled
  refine ⟨data', w', look', hm', ?_, ?_, ?_⟩
  · intro hw
    have hchildren := h.childrenOf id
    rw [childrenOf, childrenOf, hm.widget, hm'.widget] at hchildren
    exact hchildren.trans hw
  · intro p hp hfree
    rcases hlook with rfl | rfl
    · rfl
    · have hnone : k.lastSetTo? data m.index p (Look.bound source.declared) = none :=
        Look.lastSetTo?_of_forall_ne fun named hnamed => hp ▸ (hfree named hnamed).symm
      rw [Look.settings_settle, hnone]
      rfl
  · rw [attributesOf, attributesOf, h.tags]

/-- An edit of another attribute, or one that is rejected, is of no matter. -/
theorem of_edit (context : Context) (hs : s.Sound) {name' : String} {json : Json}
    (h : Text.trimmed name' = name → (context.edit id name' json s).1 ≠ .ok ()) :
    Retains id name s (context.edit id name' json s).2 := by
  refine ⟨(context.edit_evolves hs True id name' json).frame.ids, ?_⟩
  intro mid m k w look source hm hcompiled
  by_cases hname : Text.trimmed name' = ""
  · have hrun : (context.edit id name' json s).2 = s := by
      rw [Context.edit_eq, hm.managerOf?]
      dsimp only
      rw [if_pos hname]
    rw [hrun]
    exact (refl id name s).retained hm hcompiled
  · obtain ⟨s', w', hrun, hc, hshows, hchildren⟩ := hm.edit_run context hname json
    have hm' := hm.changes hc hshows
    have htags : s'.attributesOf id = s.attributesOf id := by
      rw [attributesOf, attributesOf, hc.touches.tags]
    have hempty : w.children = [] → w'.children = [] := fun hw => by
      rw [hchildren, hw, ite_self]
    rw [hrun] at h ⊢
    split
    · next haccepts =>
      rw [if_pos haccepts] at h
      have hne : Text.trimmed name' ≠ name := fun heq => h heq rfl
      refine ⟨m.data, w', _, hm'.recordEdit id _ json, hempty, ?_, ?_⟩
      · intro p hp _
        rw [Look.settings_apply, Kind.setTo?_of_name_ne]
        · rfl
        · rw [hp]
          exact Ne.symm hne
      · rw [attributesOf_recordEdit_self, htags,
          Descriptor.filter_upsert_of_ne (by rwa [Descriptor.name_ofJson])]
    · next hrejects =>
      rw [Look.apply_of_rejected look (by simpa using hrejects)] at hm'
      exact ⟨m.data, w', look, hm', hempty, fun _ _ _ => rfl, by rw [htags]⟩

end Retains

end Session

/-- An act is an edit of an attribute of a widget, and is accepted. -/
def Act.Edits (context : Context) (s : Session) (id : WidgetId) (name : String) : Act → Prop
  | .edit id' name' json =>
    id' = id ∧ Text.trimmed name' = name ∧ (context.edit id' name' json s).1 = .ok ()
  | _ => False

namespace Context

/-- Acts have followed one another, none of which has edited an attribute of a widget. -/
inductive RunsWithoutEdit (context : Context) (id : WidgetId) (name : String) :
    Session → Session → Prop
  | refl (s : Session) : RunsWithoutEdit context id name s s
  | act {s s' : Session} (act : Act) (other : ¬act.Edits context s id name)
    (rest : RunsWithoutEdit context id name (context.perform s act) s') :
    RunsWithoutEdit context id name s s'

variable {context : Context} {s s' : Session} {id : WidgetId} {name : String}

/-- An act that does not edit an attribute retains it. -/
theorem Invariant.retains (h : context.Invariant s) {act : Act}
    (hother : ¬act.Edits context s id name) : s.Retains id name (context.perform s act) := by
  cases act with
  | name name' =>
    have hname : s.Evolves True noWidget (s.intern name').2 :=
      .of_eq h.sound (IdTable.le_intern name' s.ids) rfl rfl fun _ _ _ _ => rfl
    exact .of_frame hname.frame fun hno => hno
  | inflate l data parent index =>
    have hmade := context.inflate_inflated h.own.offers h.sound l data parent index
    exact .of_frame hmade.evolves.frame fun hno => hno
  | edit id' name' json =>
    by_cases heq : id' = id
    · subst heq
      exact .of_edit context h.sound fun hname hok => hother ⟨rfl, hname, hok⟩
    · exact .of_frame (context.edit_evolves h.sound True id' name' json).frame (Ne.symm heq)
  | update held manager data => exact .of_rebinds (context.update_rebinds h.sound manager)

/-- Acts that do not edit an attribute retain it. -/
theorem RunsWithoutEdit.retains (hrun : context.RunsWithoutEdit id name s s')
    (h : context.Invariant s) : context.Invariant s' ∧ s.Retains id name s' := by
  induction hrun with
  | refl s => exact ⟨h, .refl id name s⟩
  | act a hother _ ih =>
    obtain ⟨hinvariant, hretains⟩ := ih (h.perform a)
    exact ⟨hinvariant, (h.retains hother).trans hretains⟩

/-- What an accepted edit leaves: the attribute is as the value says, and the only descriptor of its
name is that of the edit. -/
theorem edited (h : context.Invariant s) {m : Manager} (hm : s.managerOf? id = some m)
    {name : String} {json : Json} (hedit : context.edit id name json s = (.ok (), s')) :
    ∃ mid k w look, s'.Managed id mid m k w look ∧ s.ids ≤ s'.ids ∧
      (∀ p, k.route (Text.trimmed name) = .property p →
        p.settingOf? ((Value.ofJson json).resolve m.data m.index) = some (look.settings p)) ∧
      (k.route (Text.trimmed name) = .children →
        Value.ofJson json = .array [] ∧ w.children = []) ∧
      (s'.attributesOf id).filter (·.name = Text.trimmed name) =
        [.ofJson (Text.trimmed name) json] := by
  obtain ⟨mid, k, w, look, h⟩ := h.sound.exists_managed_of_managerOf? hm
  have hname : Text.trimmed name ≠ "" := by
    intro hblank
    rw [edit_eq, hm] at hedit
    dsimp only at hedit
    rw [if_pos hblank] at hedit
    cases hedit
  obtain ⟨s₁, w₁, hrun, hc, hshows, hchildren⟩ := h.edit_run context hname json
  rw [hedit] at hrun
  split at hrun
  · next haccepts =>
    cases hrun
    refine ⟨mid, k, w₁, _, (h.changes hc hshows).recordEdit id _ json, hc.touches.ids,
      fun p hp => Look.settingOf?_of_accepts look hp haccepts, fun hroute => ?_, ?_⟩
    · obtain ⟨hvalue, hclears⟩ := Kind.clears_of_accepts hroute haccepts
      exact ⟨hvalue, by rw [hchildren, if_pos hclears]⟩
    · rw [Session.attributesOf_recordEdit_self]
      have hfilter := (Descriptor.ofJson (Text.trimmed name) json).filter_upsert_self
        (s₁.attributesOf id)
      rwa [Descriptor.name_ofJson] at hfilter
  · cases hrun

/-- In a session that acts have made, an attribute of a widget with a compiled layout is edited, and
whatever acts follow, none edits that attribute again until the manager of the widget, or of one
above it, is updated. The update sets the property as the last accepted one of the attributes says
that the layout has bound, in the new data; if there is none, or the updated widget has been let go,
it leaves the property as it was. So if the layout has bound no attribute of the name, the property
is as the edit has set it, in the data of that time. Children that the edit has taken away do not
come back, and the descriptor is that of the edit. Without a host the update comes to an end. -/
theorem update_after_edit {s₀ s₁ s₂ : Session} (hmade : context.Made s₀) {m : Manager}
    (hm : s₀.managerOf? id = some m) {k : Kind} (hk : Kind.ofType? m.parser.typeName = some k)
    {source : LayoutSource} (hcompiled : source.compile s₀.ids = (.ok m.layout, s₀.ids))
    {name : String} {json : Json} (hedit : context.edit id name json s₀ = (.ok (), s₁))
    (hrun : context.RunsWithoutEdit id (Text.trimmed name) s₁ s₂) {top : WidgetId}
    (hbelow : s₂.Below id top) {mid : ManagerId}
    (hmid : (s₂.widget? top).bind (·.manager) = some mid) (held : List WidgetId) (data : Fields) :
    (context.fallback = none → ∃ n s₃,
      context.update (s₂.living held).contains mid data s₂ = (.ok n, s₃)) ∧
    ∀ n s₃, context.update (s₂.living held).contains mid data s₂ = (.ok n, s₃) →
      ∃ w₂ w₃, s₂.widget? id = some w₂ ∧ s₃.widget? id = some w₃ ∧
        (∀ p, k.route (Text.trimmed name) = .property p →
          (p.setting? s₃.ids w₃ =
            (if top ∈ s₂.living held then
              k.lastSetTo? data m.index p (Look.bound source.declared)
            else none).or (p.setting? s₂.ids w₂)) ∧
          ((∀ named ∈ Look.bound source.declared, named.1 ≠ Text.trimmed name) →
            p.setting? s₃.ids w₃ = p.settingOf? ((Value.ofJson json).resolve m.data m.index) ∧
              (p.setting? s₃.ids w₃).isSome = true)) ∧
        (k.route (Text.trimmed name) = .children →
          Value.ofJson json = .array [] ∧ w₃.children = []) ∧
        (s₃.attributesOf id).filter (·.name = Text.trimmed name) =
          [.ofJson (Text.trimmed name) json] := by
  -- What the edit has set is first carried through the run, and then through the update.
  obtain ⟨mid₁, k', w₁, look₁, hm₁, hids, hsetting, hchildren, htags⟩ :=
    edited hmade.invariant hm hedit
  obtain rfl : k = k' := Option.some.inj
    (hk.symm.trans (Kind.ofType?_eq_some_iff.2 hm₁.serves.typeName.symm))
  have hinvariant₁ : context.Invariant s₁ := by
    have hact := hmade.invariant.perform (.edit id name json)
    rwa [perform_edit, hedit] at hact
  obtain ⟨hinvariant₂, hretains⟩ := hrun.retains hinvariant₁
  obtain ⟨data₂, w₂, look₂, hm₂, hempty, hlook₂, htags₂⟩ :=
    hretains.retained hm₁ (LayoutSource.compile_of_le hcompiled hids)
  refine ⟨?_, ?_⟩
  · intro hno
    obtain ⟨n, hn⟩ := context.update_returns hinvariant₂.sound (hinvariant₂.orderly hno) mid
    exact ⟨n, _, Prod.ext hn rfl⟩
  intro n s₃ hupdate
  have hrebinds : s₂.Rebinds data _ (context.update (s₂.living held).contains mid data s₂).2 :=
    context.update_rebinds hinvariant₂.sound mid
  rw [hupdate] at hrebinds
  obtain ⟨data₃, w₃, look₃, hm₃, -, hreached⟩ := hrebinds.rebound hm₂
    (LayoutSource.compile_of_le hcompiled (hids.trans hretains.ids))
  have hupdated : ∀ p, k.Has p → p.setting? s₃.ids w₃ =
      (if top ∈ s₂.living held then k.lastSetTo? data m.index p (Look.bound source.declared)
      else none).or (p.setting? s₂.ids w₂) := by
    intro p hp
    obtain ⟨v, hv, hmanager⟩ := Option.bind_eq_some_iff.1 hmid
    obtain ⟨m', k', look', htop⟩ := hinvariant₂.sound.exists_managed hv hmanager
    -- An update from a widget that is gone reaches nobody, so the edit is what is left.
    by_cases hlives : top ∈ s₂.living held
    · have hreaches := Session.Reaches.of_below hinvariant₂.sound hbelow hlives
        (Option.isSome_of_eq_some hm₂.managerOf?)
      have hsettled := hreached ⟨⟨n, rfl⟩, m', htop.managed, by
        rwa [hinvariant₂.sound.widget_eq htop]⟩
      rw [if_pos hlives, hm₂.shows.settings p hp, hm₃.shows.settings p hp, hsettled,
        Look.settings_settle]
      cases k.lastSetTo? data m.index p (Look.bound source.declared) <;> rfl
    · rw [context.update_of_outlived htop.managed (by
        rw [hinvariant₂.sound.widget_eq htop]
        simpa using hlives)] at hupdate
      cases hupdate
      obtain rfl : w₂ = w₃ := Option.some.inj (hm₂.widget.symm.trans hm₃.widget)
      rw [if_neg hlives]
      rfl
  refine ⟨w₂, w₃, hm₂.widget, hm₃.widget, ?_, ?_, ?_⟩
  · intro p hp
    obtain ⟨hname, hhas⟩ := Kind.route_eq_property hp
    refine ⟨hupdated p hhas, ?_⟩
    intro hfree
    have hnone : k.lastSetTo? data m.index p (Look.bound source.declared) = none :=
      Look.lastSetTo?_of_forall_ne fun named hnamed => hname ▸ (hfree named hnamed).symm
    rw [hupdated p hhas, hnone, ite_self, Option.none_or, hm₂.shows.settings p hhas,
      hlook₂ p hname hfree, hsetting p hp]
    exact ⟨rfl, rfl⟩
  · intro hroute
    obtain ⟨hvalue, hnone⟩ := hchildren hroute
    have hsame := hrebinds.childrenOf id
    rw [Session.childrenOf, Session.childrenOf, hm₂.widget, hm₃.widget] at hsame
    exact ⟨hvalue, hsame.trans (hempty hnone)⟩
  · rw [Session.attributesOf, hrebinds.tags, ← Session.attributesOf, htags₂, htags]

/-- What the form shows at first. -/
def formData : Fields := [("title", .string "Hi"), ("color", .string "red")]

/-- What the form is updated with. -/
def laterData : Fields := [("title", .string "Bye"), ("color", .string "blue")]

/-- The color of the form's title is edited, then its text, and then the form is updated. -/
theorem exists_edited_titledForm :
    ∃ l t' s₁ s₂ s₃ s₄ w,
      titledForm.compile ownIds = (.ok l, t') ∧
      own.inflate l formData none 3 (.ofIds t') = (.ok ⟨1⟩, s₁) ∧
      own.edit ⟨2⟩ " textColor " (.string "@{color}") s₁ = (.ok (), s₂) ∧
      own.edit ⟨2⟩ "text" (.string "Final") s₂ = (.ok (), s₃) ∧
      own.update (s₃.living [⟨1⟩]).contains ⟨0⟩ laterData s₃ = (.ok 1, s₄) ∧
      ((s₃.widget? ⟨1⟩).bind (·.manager) = some ⟨0⟩ ∧ ⟨2⟩ ∈ s₃.childrenOf ⟨1⟩) ∧
      s₄.widget? ⟨2⟩ = some w ∧ (Property.text .text).setting? s₄.ids w = some (.string "Bye") ∧
      (Property.text .color).setting? s₄.ids w = some (.optional (some "red")) ∧
      s₄.attributesOf ⟨2⟩ = [⟨"text", "Final"⟩, ⟨"textColor", "@{color}"⟩] := by
  have hrun : Fallible.gives titledForm.compile ownIds (fun l t' =>
      Fallible.gives (own.inflate l formData none 3) (.ofIds t') fun root s₁ =>
        Fallible.gives (own.edit ⟨2⟩ " textColor " (.string "@{color}")) s₁ fun _ s₂ =>
          Fallible.gives (own.edit ⟨2⟩ "text" (.string "Final")) s₂ fun _ s₃ =>
            Fallible.gives (own.update (s₃.living [⟨1⟩]).contains ⟨0⟩ laterData) s₃ fun n s₄ =>
              (s₄.widget? ⟨2⟩).any fun w =>
                decide (root = ⟨1⟩ ∧ n = 1 ∧
                  ((s₃.widget? ⟨1⟩).bind (·.manager) = some ⟨0⟩ ∧ ⟨2⟩ ∈ s₃.childrenOf ⟨1⟩) ∧
                  (Property.text .text).setting? s₄.ids w = some (.string "Bye") ∧
                  (Property.text .color).setting? s₄.ids w = some (.optional (some "red")) ∧
                  s₄.attributesOf ⟨2⟩ = [⟨"text", "Final"⟩, ⟨"textColor", "@{color}"⟩])) =
        true := by
    decide +kernel
  obtain ⟨l, t', hcompile, hrun⟩ := Fallible.exists_of_gives hrun
  obtain ⟨root, s₁, hinflate, hrun⟩ := Fallible.exists_of_gives hrun
  obtain ⟨⟨⟩, s₂, hcolor, hrun⟩ := Fallible.exists_of_gives hrun
  obtain ⟨⟨⟩, s₃, htext, hrun⟩ := Fallible.exists_of_gives hrun
  obtain ⟨n, s₄, hupdate, hrun⟩ := Fallible.exists_of_gives hrun
  obtain ⟨w, hw, hrun⟩ := (Option.any_eq_true _ _).1 hrun
  obtain ⟨rfl, rfl, hplace, htitle, hcolored, htags⟩ := of_decide_eq_true hrun
  exact ⟨l, t', s₁, s₂, s₃, s₄, w, hcompile, hinflate, hcolor, htext, hupdate, hplace, hw, htitle,
    hcolored, htags⟩

/-- The color stays as its edit has set it, in the data of that time, though the text has been
edited and the form has been updated. -/
theorem update_after_edit_titledForm :
    ∃ l t' s₁ s₂ s₃ s₄ w,
      titledForm.compile ownIds = (.ok l, t') ∧
      own.inflate l formData none 3 (.ofIds t') = (.ok ⟨1⟩, s₁) ∧
      own.edit ⟨2⟩ " textColor " (.string "@{color}") s₁ = (.ok (), s₂) ∧
      own.edit ⟨2⟩ "text" (.string "Final") s₂ = (.ok (), s₃) ∧
      own.update (s₃.living [⟨1⟩]).contains ⟨0⟩ laterData s₃ = (.ok 1, s₄) ∧
      s₄.widget? ⟨2⟩ = some w ∧
      (Property.text .color).setting? s₄.ids w =
        (Property.text .color).settingOf? ((Value.ofJson (.string "@{color}")).resolve formData 3) ∧
      (s₄.attributesOf ⟨2⟩).filter (·.name = "textColor") = [⟨"textColor", "@{color}"⟩] := by
  obtain ⟨l, t', s₁, s₂, s₃, s₄, w, hcompile, hinflate, hcolor, htext, hupdate,
    ⟨hmid, hchild⟩, hw, -⟩ := exists_edited_titledForm
  have hle : ownIds ≤ t' := (LayoutSource.stable_compile titledForm hcompile).1
  have hcontext : own.HasOwnParsers (Session.ofIds t').ids := own_hasOwnParsers hle
  have hmade : own.Made s₁ := by
    have hact : own.Made (own.perform (.ofIds t') (.inflate l formData none 3)) :=
      .act _ (.start hcontext.registry)
    rwa [perform_inflate, hinflate] at hact
  obtain ⟨-, -, hbuilt⟩ := built_of_inflate hcontext
    (LayoutSource.compile_of_le hcompile (le_refl t')) hinflate
  obtain ⟨k, mid, child, parser, w₁, hstands⟩ := hbuilt.stands
    ⟨⟨"text", [⟨"text", .string "@{title}"⟩], [⟨"view", [], []⟩]⟩, some ⟨1⟩, ⟨2⟩⟩
    (List.mem_cons_of_mem _ List.mem_cons_self)
  obtain rfl : Kind.text = k := Option.some.inj hstands.type
  have hacts : own.RunsWithoutEdit ⟨2⟩ (Text.trimmed " textColor ") s₂ s₃ := by
    have hother : ¬Act.Edits own s₂ ⟨2⟩ (Text.trimmed " textColor ")
        (.edit ⟨2⟩ "text" (.string "Final")) := by
      rintro ⟨-, hname, -⟩
      exact absurd hname (by decide +kernel)
    have hact := RunsWithoutEdit.act _ hother (.refl _)
    rwa [perform_edit, htext] at hact
  obtain ⟨-, hafter⟩ := update_after_edit hmade hstands.managed.managerOf?
    (Kind.ofType?_eq_some_iff.2 hstands.managed.serves.typeName.symm) hstands.compiled hcolor hacts
    (Relation.ReflTransGen.single hchild) hmid [⟨1⟩] laterData
  obtain ⟨_, w₄, -, hw₄, hsetting, -, htags⟩ := hafter _ _ hupdate
  obtain rfl : w = w₄ := Option.some.inj (hw.symm.trans hw₄)
  have hset := ((hsetting (.text .color) (by decide +kernel)).2 (by decide +kernel)).1
  exact ⟨l, t', s₁, s₂, s₃, s₄, w, hcompile, hinflate, hcolor, htext, hupdate, hw, hset, htags⟩

/-- Neither of the edits is what the form shows after the update, though both are declared: the
text is again what the layout binds, not what the edit has set, and the color is not what its edit
says in the new data. -/
theorem edits_reverted_titledForm :
    ∃ l t' s₁ s₂ s₃ s₄ w,
      titledForm.compile ownIds = (.ok l, t') ∧
      own.inflate l formData none 3 (.ofIds t') = (.ok ⟨1⟩, s₁) ∧
      own.edit ⟨2⟩ " textColor " (.string "@{color}") s₁ = (.ok (), s₂) ∧
      own.edit ⟨2⟩ "text" (.string "Final") s₂ = (.ok (), s₃) ∧
      own.update (s₃.living [⟨1⟩]).contains ⟨0⟩ laterData s₃ = (.ok 1, s₄) ∧
      s₄.widget? ⟨2⟩ = some w ∧
      s₄.attributesOf ⟨2⟩ = [⟨"text", "Final"⟩, ⟨"textColor", "@{color}"⟩] ∧
      (Property.text .text).settingOf? ((Value.ofJson (.string "Final")).resolve laterData 3) =
        some (.string "Final") ∧
      (Property.text .text).setting? s₄.ids w = some (.string "Bye") ∧
      (Property.text .color).settingOf? ((Value.ofJson (.string "@{color}")).resolve laterData 3) =
        some (.optional (some "blue")) ∧
      (Property.text .color).setting? s₄.ids w = some (.optional (some "red")) := by
  obtain ⟨l, t', s₁, s₂, s₃, s₄, w, hcompile, hinflate, hcolor, htext, hupdate, -, hw, htitle,
    hcolored, htags⟩ := exists_edited_titledForm
  exact ⟨l, t', s₁, s₂, s₃, s₄, w, hcompile, hinflate, hcolor, htext, hupdate, hw, htags,
    by decide +kernel, htitle, by decide +kernel, hcolored⟩

end Context

end LayoutEngine
