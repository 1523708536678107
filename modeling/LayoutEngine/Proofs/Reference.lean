import LayoutEngine.Proofs.Serving
import LayoutEngine.Proofs.Trim

/-!
# References to views

A view is referred to by name: its attribute `id` gives it the name, and rules place other views
beside it by that name, which may be written in several ways (`referencedName_of_mem_spellings`).
What a widget takes from either is the number of the name's key (`Context.Accepts.exists_target`).
Names are numbered once and for all, so that a rule and a view meet exactly if they name the same
view, whichever came first and whatever has been numbered in between
(`Context.reference_meets_target`).
-/

namespace LayoutEngine

open Session

/-! ## Spellings -/

/-- The ways to write a reference to the view with a name. -/
def spellings (name : String) : List String := ["@+id/" ++ name, "@id/" ++ name, name]

/-- A name of which a reference leaves nothing out. -/
structure IsViewName (name : String) : Prop where
  trim : Text.trim name.toList = name.toList
  ne_empty : name ≠ ""
  unmarked : ∀ mark ∈ ["@+id/", "@id/"], ¬mark.toList <+: name.toList

section

variable {name text : String}

/-- A mark in front is kept when white space is dropped. -/
theorem IsViewName.trim_append (h : IsViewName name) (mark : List Char) :
    Text.trim ('@' :: mark ++ name.toList) = '@' :: mark ++ name.toList := by
  have hne : name.toList ≠ [] := mt String.toList_eq_nil_iff.1 h.ne_empty
  refine Text.trim_eq_self_iff.2 ⟨fun c hc => ?_, fun c hc => ?_⟩
  · cases hc
    decide
  · rw [List.getLast?_append_of_ne_nil _ hne] at hc
    exact (Text.trim_eq_self_iff.1 h.trim).2 c hc

/-- However it is spelled, the name that is referred to is the same. -/
theorem referencedName_of_mem_spellings (h : IsViewName name) (htext : text ∈ spellings name) :
    referencedName text = name := by
  simp only [spellings, List.mem_cons, List.not_mem_nil, or_false] at htext
  unfold referencedName
  rcases htext with rfl | rfl | rfl
  · have htrim : Text.trim ("@+id/" ++ name).toList = ['@', '+', 'i', 'd', '/'] ++ name.toList := by
      rw [String.toList_append]
      exact h.trim_append ['+', 'i', 'd', '/']
    dsimp only
    rw [htrim, Text.after?_append]
    exact String.ofList_toList
  · have htrim : Text.trim ("@id/" ++ name).toList = ['@', 'i', 'd', '/'] ++ name.toList := by
      rw [String.toList_append]
      exact h.trim_append ['i', 'd', '/']
    have hother : Text.after? ['@', '+', 'i', 'd', '/'] (['@', 'i', 'd', '/'] ++ name.toList) =
        none := rfl
    dsimp only
    rw [htrim, hother, Option.orElse_none, Text.after?_append]
    exact String.ofList_toList
  · have hunmarked : ∀ mark ∈ ["@+id/", "@id/"], Text.after? mark.toList text.toList = none := by
      intro mark hmark
      refine Option.eq_none_iff_forall_ne_some.2 fun rest hrest => h.unmarked mark hmark ?_
      exact ⟨rest, (Text.after?_eq_some_iff.1 hrest).symm⟩
    have hplus : Text.after? ['@', '+', 'i', 'd', '/'] text.toList = none :=
      hunmarked "@+id/" (by decide)
    have hplain : Text.after? ['@', 'i', 'd', '/'] text.toList = none :=
      hunmarked "@id/" (by decide)
    dsimp only
    rw [h.trim, hplus, hplain]
    exact String.ofList_toList

end

/-! ## What attributes refer to -/

namespace CommonAttribute

/-- The attribute refers to a view by name: to the one that it names, or to a sibling. -/
def IsReference : CommonAttribute → Prop
  | .id => True
  | .rule r => r.isSibling = true
  | _ => False

/-- The number of the view that an attribute of a view refers to, if it refers to one. -/
def target? (view : ViewState) : CommonAttribute → Option Int
  | .id => view.id
  | .rule r =>
    match Entries.get? r view.placing.rules with
    | some (.sibling anchor) => some anchor
    | _ => none
  | _ => none

/-- An attribute that takes a text refers to the view which the text names. -/
theorem exists_target_of_applied? {a : CommonAttribute} (ha : a.IsReference) {text : String}
    {view view' : ViewState} {ids ids' : IdTable}
    (h : a.applied? (.string text) view ids = some (view', ids')) :
    ∃ target, a.target? view' = some target ∧
      ids'.viewNameOf? target = some (referencedName text) := by
  have hname : ∀ {own t}, viewReference? (.string text) ids = some (own, t) →
      t.viewNameOf? own = some (referencedName text) := by
    intro own t hown
    rw [viewReference?_eq] at hown
    obtain ⟨name, hreference, hintern⟩ := Option.map_eq_some_iff.1 hown
    have hnamed := IdTable.viewNameOf?_internView name ids
    rw [hintern] at hnamed
    simp only [reference?, Value.string?, Option.bind_some] at hreference
    split at hreference <;> cases hreference
    exact hnamed
  cases a with
  | id =>
    obtain ⟨⟨own, t⟩, hown, hview⟩ := Option.map_eq_some_iff.1 h
    cases hview
    exact ⟨own, rfl, hname hown⟩
  | rule r =>
    have hr : r.isSibling = true := ha
    simp only [applied?, applyRule?, if_pos hr] at h
    obtain ⟨⟨anchor, t⟩, hanchor, hview⟩ := Option.map_eq_some_iff.1 h
    cases hview
    exact ⟨anchor, by simp [target?, ViewState.placing, ViewState.changeParams], hname hanchor⟩
  | _ => cases ha

end CommonAttribute

namespace Session

variable {s s' : Session} {id : WidgetId} {a : CommonAttribute} {value : Value} {text : String}

/-- The number of the view that an attribute of a widget refers to, if it refers to one. -/
def target? (s : Session) (id : WidgetId) (a : CommonAttribute) : Option Int :=
  (s.widget? id).bind fun w => a.target? w.view

/-- A reference that is accepted meets a view of the name that it refers to. -/
theorem exists_target_of_applyCommon (ha : a.IsReference)
    (h : s.applyCommon id a value = (true, s')) (hvalue : s.resolve id value = .string text) :
    ∃ target, s'.target? id a = some target ∧
      s'.ids.viewNameOf? target = some (referencedName text) := by
  unfold applyCommon at h
  rw [hvalue] at h
  split at h
  · cases h
  · next w hw =>
    split at h
    · cases h
    · next view ids happlied =>
      cases h
      obtain ⟨target, htarget, hname⟩ := CommonAttribute.exists_target_of_applied? ha happlied
      refine ⟨target, ?_, hname⟩
      have hview : (s.changeView id fun _ => view).widget? id = some { w with view := view } := by
        rw [changeView, widget?_changeWidget_self, hw]
        rfl
      have hself : ({ s.changeView id fun _ => view with ids := ids } : Session).widget? id =
          some { w with view := view } := (widget?_congr rfl id).trans hview
      rw [target?, hself]
      exact htarget

end Session

/-! ## Taking a reference -/

/-- A parser handles attributes as one of the engine's own does: it is one of these, or a host's
that hands its attributes on to one. -/
def ViewParser.HandlesLikeOwn (parser : ViewParser) (t : IdTable) : Prop :=
  ∃ (own : ViewParser) (k : Kind), own.Serves k t ∧ parser.handler = own.handler

/-- A widget takes a text for an attribute, under the attribute's number and as a parser handles it.
The text may come from the widget's data. -/
structure Context.Accepts (context : Context) (parser : ViewParser) (id : WidgetId)
    (a : CommonAttribute) (text : String) (s s' : Session) : Prop where
  handles : parser.HandlesLikeOwn s.ids
  applied : ∃ number value, s.ids.get? a.name = some number ∧ s.resolve id value = .string text ∧
    context.apply parser id number value s = (.ok true, s')

namespace Context

variable {context context' : Context} {parser parser' : ViewParser} {id id' : WidgetId}
  {a : CommonAttribute} {r : RelativeRule} {text text' : String} {s₁ s₁' s₂ s₂' s s' : Session}

/-- What a widget takes for a reference is the view that is named. -/
theorem Accepts.exists_target (h : context.Accepts parser id a text s s') (ha : a.IsReference) :
    ∃ target, s'.target? id a = some target ∧
      s'.ids.viewNameOf? target = some (referencedName text) := by
  obtain ⟨⟨own, k, hserves, hhandler⟩, number, value, hnumber, hvalue, hrun⟩ := h
  have hroute : parser.handler.route number = .property (.common a) := by
    rw [hhandler, hserves.route (le_refl s.ids) hnumber, k.route_common a]
  rw [apply, Value.apply_of_property hroute] at hrun
  obtain ⟨calls, hobserve⟩ := ViewParser.observe_run
    (Engine.act_run (·.applyProperty id (.common a) value) s) parser number value
  obtain ⟨haccepted, hs'⟩ := Prod.mk.inj (hobserve.symm.trans hrun)
  have happly : s.applyCommon id a value = (true, (s.applyCommon id a value).2) :=
    Prod.ext (Except.ok.inj haccepted) rfl
  obtain ⟨target, htarget, hname⟩ := exists_target_of_applyCommon ha happly hvalue
  subst hs'
  exact ⟨target, htarget, hname⟩

/-- Accepting a reference only adds names. -/
theorem Accepts.le (h : context.Accepts parser id a text s s') : s.ids ≤ s'.ids := by
  obtain ⟨-, number, value, -, -, hrun⟩ := h
  have hle : s.ids ≤ (context.apply parser id number value s).2.ids :=
    context.le_serveAll [.handle parser id number value] s
  rwa [hrun] at hle

/-- References to views meet. A widget takes a text as its `id`, and a widget, perhaps the same one,
takes a text for a rule beside a sibling, in either order. Take any session that has all names which
there are after the one and the other, as those that come of them by requests have
(`Context.le_serveAll`), and let the first widget have been given no other `id` by then, and the
second one no other sibling for the rule. The rule's anchor is the number of the first view exactly
if the texts name the same view; both are read back as the names of the texts, and are not the
numbers of the attributes that are called so. A plain name may be written in three ways, which stand
for the same view in every session. -/
theorem reference_meets_target (hid : context.Accepts parser id .id text s₁ s₁')
    (hsibling : r.isSibling = true) (hrule : context'.Accepts parser' id' (.rule r) text' s₂ s₂')
    (hids : s₁'.ids ≤ s.ids) (hids' : s₂'.ids ≤ s.ids)
    (hlast : s.target? id .id = s₁'.target? id .id)
    (hlast' : s.target? id' (.rule r) = s₂'.target? id' (.rule r)) :
    (∃ own anchor, s.target? id .id = some own ∧ s.target? id' (.rule r) = some anchor ∧
      (anchor = own ↔ referencedName text' = referencedName text) ∧
      s.ids.viewNameOf? own = some (referencedName text) ∧
      s.ids.viewNameOf? anchor = some (referencedName text') ∧
      s.ids.get? (referencedName text) ≠ some own ∧
      s.ids.get? (referencedName text') ≠ some anchor) ∧
    ∀ name, IsViewName name → ∀ spelling ∈ spellings name, referencedName spelling = name ∧
      ∀ ids, CommonAttribute.viewReference? (.string spelling) ids =
        some (ids.internView name) := by
  obtain ⟨own, hown, hname⟩ := hid.exists_target trivial
  obtain ⟨anchor, hanchor, hname'⟩ := hrule.exists_target hsibling
  replace hname := IdTable.viewNameOf?_mono hids hname
  replace hname' := IdTable.viewNameOf?_mono hids' hname'
  refine ⟨⟨own, anchor, hlast.trans hown, hlast'.trans hanchor,
    IdTable.eq_iff_of_viewNameOf? hname hname', hname, hname',
    IdTable.get?_ne_of_viewNameOf? hname, IdTable.get?_ne_of_viewNameOf? hname'⟩, ?_⟩
  intro name hplain spelling hspelling
  have hreferenced := referencedName_of_mem_spellings hplain hspelling
  refine ⟨hreferenced, fun ids => ?_⟩
  simp only [CommonAttribute.viewReference?, Value.string?, Option.bind_some, hreferenced,
    if_neg hplain.ne_empty]

/-- The parser of views, made before all others. -/
def firstViews : ViewParser := (ViewParser.ofKind .view .empty).1

/-- Two views, and no other widgets. -/
def twoViews : Session :=
  own.serveAll [.create .view, .create .view] (.ofIds (ViewParser.ofKind .view .empty).2)

/-- A rule names a view that is yet to come, and an attribute of that name comes before it. -/
theorem reference_meets_target_twoViews :
    ∃ s s' s'' n,
      own.Accepts firstViews ⟨2⟩ (.rule .below) "@id/title" twoViews s ∧
      own.serveAll [.act (.name "title")] s = s' ∧
      own.Accepts firstViews ⟨1⟩ .id " @+id/title " s' s'' ∧
      s''.target? ⟨1⟩ .id = some n ∧ s''.target? ⟨2⟩ (.rule .below) = some n ∧
      s''.ids.viewNameOf? n = some "title" ∧ s''.ids.get? "title" ≠ some n := by
  have hserves : firstViews.Serves .view (ViewParser.ofKind .view .empty).2 :=
    (ViewParser.serves_ofKind .view .empty).2
  have hrun : Fallible.gives (own.apply firstViews ⟨2⟩ 9 (.string "@id/title")) twoViews
      (fun accepted s => Fallible.gives (own.apply firstViews ⟨1⟩ 1 (.string " @+id/title "))
        (own.serveAll [.act (.name "title")] s) fun accepted' s'' =>
          decide (accepted = true ∧ accepted' = true ∧
            s''.target? ⟨2⟩ (.rule .below) = s.target? ⟨2⟩ (.rule .below))) = true := by
    decide +kernel
  obtain ⟨accepted, s, hbelow, hrun⟩ := Fallible.exists_of_gives hrun
  obtain ⟨accepted', s'', hid, hrun⟩ := Fallible.exists_of_gives hrun
  obtain ⟨rfl, rfl, hlast⟩ := of_decide_eq_true hrun
  -- What comes before has all names that the parser was made with.
  have hstart : (ViewParser.ofKind .view .empty).2 ≤ twoViews.ids :=
    own.le_serveAll [.create .view, .create .view] (.ofIds (ViewParser.ofKind .view .empty).2)
  have hrule : own.Accepts firstViews ⟨2⟩ (.rule .below) "@id/title" twoViews s :=
    ⟨⟨_, .view, hserves.mono hstart, rfl⟩, 9, _, by decide +kernel, rfl, hbelow⟩
  have hle : twoViews.ids ≤ (own.serveAll [.act (.name "title")] s).ids :=
    hrule.le.trans (own.le_serveAll _ s)
  have hnumber : twoViews.ids.get? "id" = some 1 := by decide +kernel
  have hown : own.Accepts firstViews ⟨1⟩ .id " @+id/title "
      (own.serveAll [.act (.name "title")] s) s'' := by
    refine ⟨⟨_, .view, hserves.mono (hstart.trans hle), rfl⟩, 1, _, IdTable.get?_mono hle hnumber,
      ?_, hid⟩
    unfold Session.resolve
    split <;> rfl
  have hsame : referencedName "@id/title" = referencedName " @+id/title " := by decide +kernel
  have hname : referencedName " @+id/title " = "title" := by decide +kernel
  obtain ⟨⟨n, anchor, hn, hanchor, hmeet, hview, -, hne, -⟩, -⟩ :=
    reference_meets_target hown rfl hrule (le_refl s''.ids)
      ((own.le_serveAll _ s).trans hown.le) rfl hlast
  rw [hname] at hview hne
  exact ⟨s, _, s'', n, hrule, rfl, hown, hn, hmeet.2 hsame ▸ hanchor, hview, hne⟩

end Context

end LayoutEngine
