import LayoutEngine.Proofs.Apply

/-!
# The shape of a session

How widgets hang together, whatever they look like: which manager each has, its parent and its
children, what the managers were made from, which widgets parsers keep, and what parsers were asked
and observers told while managers were made (`Session.SameShape`). Setting properties, recording and
telling leave the shape alone. So does an update of a manager as a whole (`Context.update_shape`):
it gives managers new data and sets properties.
-/

namespace LayoutEngine

/-- What ties a widget to others: its manager, its parent and its children. -/
def Widget.links (w : Widget) : Option ManagerId × Option WidgetId × List WidgetId :=
  (w.manager, w.view.parent, w.children)

/-- A manager without its data. -/
def Manager.bare (m : Manager) : Manager := { m with data := [] }

/-- The call tells of a widget that is given its manager. -/
def HostCall.isAttachment : HostCall → Bool
  | .created .. | .manager .. => true
  | _ => false

/-- What observers are told when a widget is given the manager. -/
def Manager.attachment (m : Manager) : List HostCall :=
  if m.parser.isObserved then
    [.created m.parser.typeName m.parent m.index, .manager m.parser.typeName]
  else []

namespace Manager

/-- Managers that are alike but for their data. -/
theorem bare_eq_iff {m m' : Manager} : m'.bare = m.bare ↔ ∃ data, m' = { m with data := data } := by
  constructor
  · intro h
    refine ⟨m'.data, ?_⟩
    obtain ⟨widget, l, parser, parent, index, data⟩ := m
    obtain ⟨widget', l', parser', parent', index', data'⟩ := m'
    simp_all [bare]
  · rintro ⟨data, rfl⟩
    rfl

/-- Observers are not told about data. -/
theorem attachment_of_bare {m m' : Manager} (h : m'.bare = m.bare) :
    m'.attachment = m.attachment := by
  obtain ⟨data, rfl⟩ := bare_eq_iff.1 h
  rfl

end Manager

/-- No common attribute moves a view to another parent. -/
theorem CommonAttribute.parent_of_applied? {a : CommonAttribute} {value : Value}
    {view view' : ViewState} {ids ids' : IdTable}
    (h : a.applied? value view ids = some (view', ids')) : view'.parent = view.parent := by
  cases a with
  | rule r =>
    simp only [applied?, applyRule?] at h
    split at h
    all_goals
      obtain ⟨x, -, hx⟩ := Option.map_eq_some_iff.1 h
      cases hx
      rfl
  | _ =>
    obtain ⟨x, -, hx⟩ := Option.map_eq_some_iff.1 h
    cases hx
    rfl

/-- Changing an item where nothing can be told of it. -/
theorem map_modify_of_eq {α β : Type} {l : List α} {n : Nat} {f : α → β} {change : α → α}
    (h : ∀ x, l[n]? = some x → f (change x) = f x) : (l.modify n change).map f = l.map f := by
  refine List.ext_getElem? fun i => ?_
  rw [List.getElem?_map, List.getElem?_map, List.getElem?_modify]
  by_cases hi : n = i
  · subst hi
    cases hx : l[n]? with
    | none => simp
    | some x => simp [h x hx]
  · simp [hi]

namespace Session

variable {updates updates' : Prop} {s s' s'' : Session} {id : WidgetId} {mid : ManagerId}
  {m : Manager}

/-- Two sessions have the same widgets and managers, and the widgets hang together in the same way.
Only updates give managers other data. -/
structure SameShape (updates : Prop) (s s' : Session) : Prop where
  widgets : s'.widgets.map Widget.links = s.widgets.map Widget.links
  managers : s'.managers.map Manager.bare = s.managers.map Manager.bare
  kept : s'.kept = s.kept
  calls : s'.calls.filter HostCall.isAttachment = s.calls.filter HostCall.isAttachment
  attaching : s'.attaching = s.attaching
  data : ¬updates → s'.managers = s.managers

namespace SameShape

/-- A session has its own shape. -/
theorem refl (updates : Prop) (s : Session) : SameShape updates s s :=
  ⟨rfl, rfl, rfl, rfl, rfl, fun _ => rfl⟩

/-- If one session has the shape of another, the other has that of the one. -/
theorem symm (h : SameShape updates s s') : SameShape updates s' s :=
  ⟨h.widgets.symm, h.managers.symm, h.kept.symm, h.calls.symm, h.attaching.symm,
    fun hno => (h.data hno).symm⟩

/-- Shapes are the same one after the other. -/
theorem trans (h₁ : SameShape updates s s') (h₂ : SameShape updates s' s'') :
    SameShape updates s s'' :=
  ⟨h₂.widgets.trans h₁.widgets, h₂.managers.trans h₁.managers, h₂.kept.trans h₁.kept,
    h₂.calls.trans h₁.calls, h₂.attaching.trans h₁.attaching,
    fun hno => (h₂.data hno).trans (h₁.data hno)⟩

/-- Where no updates are allowed, the shape is the same if they are. -/
theorem mono (h : SameShape updates s s') (hle : updates → updates') :
    SameShape updates' s s' :=
  { h with data := fun hno => h.data fun hu => hno (hle hu) }

instance : IsPreorder Session (SameShape updates) where
  refl := refl updates
  trans _ _ _ := trans

/-- Names, declared attributes and what is told of other things are no part of the shape. -/
theorem of_eq (hwidgets : s'.widgets = s.widgets) (hmanagers : s'.managers = s.managers)
    (hkept : s'.kept = s.kept)
    (hcalls : s'.calls.filter HostCall.isAttachment = s.calls.filter HostCall.isAttachment)
    (hattaching : s'.attaching = s.attaching) : SameShape updates s s' :=
  ⟨by rw [hwidgets], by rw [hmanagers], hkept, hcalls, hattaching, fun _ => hmanagers⟩

/-- A change of a widget that leaves its links alone. -/
theorem of_changeWidget (id : WidgetId) {change : Widget → Widget}
    (h : ∀ w, s.widget? id = some w → (change w).links = w.links) :
    SameShape updates s (s.changeWidget id change) := by
  obtain ⟨n⟩ := id
  cases n with
  | zero => exact refl updates s
  | succ n => exact ⟨map_modify_of_eq h, rfl, rfl, rfl, rfl, fun _ => rfl⟩

/-! ### What a shape tells -/

variable (h : SameShape updates s s')
include h

/-- There are as many widgets. -/
theorem length : s'.widgets.length = s.widgets.length := by
  simpa using congrArg List.length h.widgets

/-- The widgets have the same managers, parents and children. -/
theorem links (id : WidgetId) :
    (s'.widget? id).map Widget.links = (s.widget? id).map Widget.links := by
  obtain ⟨_ | n⟩ := id
  · rfl
  · rw [widget?, widget?, ← List.getElem?_map, h.widgets, List.getElem?_map]

/-- A widget is still there, with the same manager, parent and children. -/
theorem widget? {w : Widget} (hw : s.widget? id = some w) :
    ∃ w', s'.widget? id = some w' ∧ w'.links = w.links := by
  have hlinks := h.links id
  rw [hw] at hlinks
  exact Option.map_eq_some_iff.1 hlinks

/-- A widget has the same manager. -/
theorem manager (id : WidgetId) :
    (s'.widget? id).bind (·.manager) = (s.widget? id).bind (·.manager) := by
  have hlinks := congrArg (Option.bind · Prod.fst) (h.links id)
  rw [Option.bind_map, Option.bind_map] at hlinks
  exact hlinks

/-- A widget has the same children. -/
theorem childrenOf (id : WidgetId) : s'.childrenOf id = s.childrenOf id := by
  have hlinks := congrArg (Option.map fun links => links.2.2) (h.links id)
  rw [Option.map_map, Option.map_map] at hlinks
  exact congrArg (fun children : Option (List WidgetId) => children.getD []) hlinks

/-- Managers are alike but for their data. -/
theorem manager?_bare (mid : ManagerId) :
    (s'.manager? mid).map Manager.bare = (s.manager? mid).map Manager.bare := by
  rw [manager?, manager?, ← List.getElem?_map, h.managers, List.getElem?_map]

/-- A manager is still there but for its data. -/
theorem manager? (hm : s.manager? mid = some m) :
    ∃ data, s'.manager? mid = some { m with data := data } := by
  have hbare := h.manager?_bare mid
  rw [hm] at hbare
  obtain ⟨m', hm', hmm'⟩ := Option.map_eq_some_iff.1 hbare
  obtain ⟨data, rfl⟩ := Manager.bare_eq_iff.1 hmm'
  exact ⟨data, hm'⟩

end SameShape

/-! ## Steps that keep the shape -/

/-- Setting a property leaves the shape. -/
theorem sameShape_applyProperty (updates : Prop) (id : WidgetId) (p : Property) (value : Value)
    (s : Session) : SameShape updates s (s.applyProperty id p value).2 := by
  have hitem : ∀ (applied? : Item → Option Item) (s : Session),
      SameShape updates s (s.applyItem id applied?).2 := by
    intro applied? s
    unfold applyItem
    split
    · exact .refl updates s
    · exact .of_changeWidget id fun _ _ => rfl
  cases p with
  | common a =>
    simp only [applyProperty, applyCommon]
    cases hw : s.widget? id with
    | none => exact .refl updates s
    | some w =>
      dsimp only
      split
      · exact .refl updates s
      · next view ids happlied =>
        have hview : SameShape updates s (s.changeView id fun _ => view) := by
          refine .of_changeWidget id fun w' hw' => ?_
          obtain rfl : w = w' := Option.some.inj (hw.symm.trans hw')
          rw [Widget.links, Widget.links, CommonAttribute.parent_of_applied? happlied]
        exact hview.trans (.of_eq rfl rfl rfl rfl rfl)
  | text a =>
    have hnote : SameShape updates s (s.noteNotText id a) := by
      unfold noteNotText
      split <;> exact .of_eq rfl rfl rfl rfl rfl
    exact hnote.trans (hitem _ _)
  | editText a => exact hitem _ s
  | gravity => exact hitem _ s

/-- Setting data leaves the shape, as far as updates are allowed. -/
theorem sameShape_setData (mid : ManagerId) (data : Fields) (s : Session) :
    SameShape True s (s.setData mid data) :=
  ⟨rfl, map_modify_of_eq fun _ _ => rfl, rfl, rfl, rfl, fun hno => absurd trivial hno⟩

/-- Telling anything but of managers leaves the shape. -/
theorem sameShape_tell (updates : Prop) {call : HostCall} (h : call.isAttachment = false)
    (s : Session) : SameShape updates s (s.tell call) :=
  .of_eq rfl rfl rfl
    (by rw [tell, List.filter_append, List.filter_cons_of_neg (by simp [h])]; simp) rfl

/-- Telling that an attribute was handled leaves the shape. -/
theorem sameShape_reportHandled (updates : Prop) (parser : ViewParser) (a : Int) (value : Value)
    (result : Option Bool) (s : Session) :
    SameShape updates s (parser.reportHandled a value result s) := by
  unfold ViewParser.reportHandled
  induction parser.observers generalizing s with
  | nil => exact .refl updates s
  | cons name rest ih => exact (sameShape_tell updates rfl s).trans (ih _)

end Session

/-! ## Updates -/

namespace Context

open Session Engine

variable (context : Context) (updates : Prop)

/-- A bound attribute sets at most a property, whatever parser it comes through, and does not
fail. -/
theorem apply_binding_shape (parser : ViewParser) (id : WidgetId) (a : Int) {value : Value}
    (hbinding : value.isBinding = true) (s : Session) :
    ∃ accepted s', context.apply parser id a value s = (.ok accepted, s') ∧
      SameShape updates s s' := by
  have hobserve : ∀ {handle : Engine Bool} {accepted s₁}, handle s = (.ok accepted, s₁) →
      SameShape updates s s₁ → ∃ accepted s',
        parser.observe a value handle s = (.ok accepted, s') ∧ SameShape updates s s' := by
    intro handle accepted s₁ hrun h
    refine ⟨accepted, parser.reportHandled a value (some accepted) s₁, ?_,
      h.trans (sameShape_reportHandled updates parser a value (some accepted) s₁)⟩
    simp only [ViewParser.observe, ExceptT.mk, hrun]
  unfold Context.apply
  cases hroute : parser.handler.route a with
  | property p =>
    rw [Value.apply_of_property hroute]
    exact hobserve (act_run _ s) (sameShape_applyProperty updates id p value s)
  | children =>
    have harray : ∀ items, value ≠ .array items := by
      rintro items rfl
      cases hbinding
    rw [Value.apply_of_not_array hroute harray]
    exact hobserve (Fallible.pure_run _ s) (.refl updates s)
  | presence =>
    rw [Value.apply_of_presence hroute]
    exact hobserve (Fallible.pure_run _ s) (.refl updates s)
  | unknown =>
    rw [Value.apply_of_unknown hroute]
    exact hobserve (Fallible.pure_run _ s) (.refl updates s)

/-- Applying bound attributes sets properties alone, and does not fail. -/
theorem applyBound_shape (parser : ViewParser) (id : WidgetId) (attributes : List Attribute)
    (s : Session) :
    ∃ n s', context.applyBoundBy context.host parser id attributes s = (.ok n, s') ∧
      SameShape updates s s' := by
  induction attributes generalizing s with
  | nil => exact ⟨0, s, rfl, .refl updates s⟩
  | cons first rest ih =>
    obtain ⟨a, value⟩ := first
    rw [applyBound_of_cons]
    by_cases hbinding : value.isBinding = true
    · obtain ⟨accepted, s₁, hrun, h₁⟩ :=
        context.apply_binding_shape updates parser id a hbinding s
      obtain ⟨n, s₂, hrest, h₂⟩ := ih s₁
      refine ⟨(if accepted then 1 else 0) + n, s₂, ?_, h₁.trans h₂⟩
      rw [if_pos hbinding, Fallible.bind_run_ok hrun]
      dsimp only
      rw [Fallible.bind_run_ok hrest, Fallible.pure_run]
    · obtain ⟨n, s₂, hrest, h₂⟩ := ih s
      refine ⟨(if false then 1 else 0) + n, s₂, ?_, h₂⟩
      rw [if_neg hbinding, Fallible.bind_run_ok (Fallible.pure_run false s)]
      dsimp only
      rw [Fallible.bind_run_ok hrest, Fallible.pure_run]

/-- Updates of children one after the other keep a relation that each of them keeps, in sessions of
which something holds. If the counts of all of them are such, so is the count of them together. -/
theorem sumUpdates_leads (R : Session → Session → Prop) [IsPreorder Session R]
    (holds : Session → Prop) {among : WidgetId → Prop} {counts : Nat → Prop}
    {update : ManagerId → Engine Nat} (hstill : ∀ {s s' : Session}, R s s' → holds s → holds s')
    (hzero : counts 0) (hadd : ∀ {m n}, counts m → counts n → counts (m + n))
    (hupdate : ∀ s, holds s → ∀ id, among id → ∀ mid,
      (s.widget? id).bind (·.manager) = some mid → Leads R (update mid) s fun n _ => counts n)
    {children : List WidgetId} (hchildren : ∀ child ∈ children, among child) {s : Session}
    (hs : holds s) : Leads R (sumUpdates update children) s fun n _ => counts n := by
  induction children generalizing s with
  | nil => exact .pure hzero
  | cons child rest ih =>
    obtain ⟨hchild, hothers⟩ := List.forall_mem_cons.1 hchildren
    have hrest : ∀ {m} s', counts m → holds s' → Leads R (do
        let n ← sumUpdates update rest
        return m + n : Engine Nat) s' fun n _ => counts n := fun _ hm hs' =>
      (ih hothers hs').bind fun _ _ _ hn => .pure (hadd hm hn)
    rw [sumUpdates]
    refine .look_bind ?_
    cases hmid : (s.widget? child).bind (·.manager) with
    | none => exact hrest s hzero hs
    | some mid =>
      exact (hupdate s hs child hchild mid hmid).bind fun _ s' h hm => hrest s' hm (hstill h hs)

/-- An update of a manager and those below it leaves the shape. -/
theorem updateWithin_shape (alive : WidgetId → Bool) (data : Fields) (fuel : Nat)
    (mid : ManagerId) (s : Session) :
    Leads (SameShape True) (context.updateWithinBy context.host alive data fuel mid) s
      fun _ _ => True := by
  induction fuel generalizing mid s with
  | zero => exact .throw .endless
  | succ fuel ih =>
    rw [updateWithinBy]
    refine .change_bind (sameShape_setData mid data s) (.look_bind ?_)
    cases (s.setData mid data).manager? mid with
    | none => exact .pure trivial
    | some m =>
      dsimp only
      split
      · obtain ⟨n, s₁, hrun, hown⟩ :=
          context.applyBound_shape True m.parser m.widget m.layout.attributes (s.setData mid data)
        refine .of_run (Fallible.bind_run_ok hrun) hown (.look_bind ?_)
        have hbelow : Leads (SameShape True)
            (sumUpdates (context.updateWithinBy context.host alive data fuel)
              (s₁.childrenOf m.widget)) s₁ fun _ _ => True :=
          sumUpdates_leads _ (fun _ => True) (fun _ _ => trivial) trivial (fun _ _ => trivial)
            (fun s _ _ _ mid _ => ih mid s) (fun _ _ => trivial) trivial
        exact hbelow.bind fun _ _ _ _ => .pure trivial
      · exact .change_bind (.of_eq rfl rfl rfl rfl rfl) (.pure trivial)

/-- An update changes no widget's links and makes nothing, whether or not it comes to an end. -/
theorem update_shape (alive : WidgetId → Bool) (mid : ManagerId) (data : Fields) (s : Session) :
    SameShape True s (context.update alive mid data s).2 := by
  rw [update, updateBy, Fallible.bind_run_ok (look_run _ s)]
  exact (context.updateWithin_shape alive data _ mid s).along

/-- Bound values bring no layouts. So what is done about unknown types does not matter to an
update. -/
theorem updateBy_own (unknown : UnknownType) (alive : WidgetId → Bool) (mid : ManagerId)
    (data : Fields) :
    context.updateBy (.own unknown) alive mid data =
      context.update alive mid data := by
  have hwithin : ∀ depth mid,
      context.updateWithinBy (.own unknown) alive data depth mid =
        context.updateWithinBy context.host alive data depth mid := by
    intro depth
    induction depth with
    | zero => exact fun _ => rfl
    | succ depth ih =>
      intro mid
      simp only [updateWithinBy, applyBoundBy_own, funext ih]
  simp only [update, updateBy, hwithin]

end Context
end LayoutEngine
