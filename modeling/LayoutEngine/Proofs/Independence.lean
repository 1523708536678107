import LayoutEngine.Proofs.Alike
import LayoutEngine.Proofs.Holding

/-!
# Attributes are independent

Attributes are given to a widget by name, one after the other (`Context.applyEach`), children apart.
Whether one is accepted does not depend on those before it, and of those that set a property the
last accepted one counts, which is one of the property's own name; so what comes to the widget
depends on the attributes of each name only, not on how those of different names are mixed
(`Context.applyEach_independent`). Names that are met get numbers as they come. So sessions are
compared up to the numbers of names that had none (`Session.Agrees`), and rules one by one.
-/

namespace LayoutEngine

open Session

/-! ## One attribute after the other -/

/-- Gives attributes to a widget one after the other, each under the number of its name, as a parser
handles them; which of them are accepted. -/
def Context.applyEach (context : Context) (parser : ViewParser) (id : WidgetId) :
    List (String × Value) → Engine (List Bool)
  | [] => return []
  | (name, value) :: rest => do
    let a ← Engine.act (·.intern name)
    let accepted ← context.apply parser id a value
    let more ← context.applyEach parser id rest
    return accepted :: more

namespace Session

/-- What an attribute sets and what to, if a parser that serves a kind accepts it for a widget. The
widget need not be of the kind. -/
def effect? (s : Session) (k : Kind) (id : WidgetId) (named : String × Value) :
    Option (Property × Setting) :=
  (k.effect? named.1 (s.resolve id named.2)).filter fun e => (s.widget? id).any (·.item.has e.1)

variable {s s' s'' : Session} {id : WidgetId} {w w' w'' : Widget} {k : Kind} {p : Property}
  {x : Setting} {numbered numbered' : List String} {effects effects' : List (Property × Setting)}

/-- An attribute sets a property if the parser routes it there, the value is a setting of that, and
the widget has it. -/
theorem effect?_eq_some_iff (hw : s.widget? id = some w) {named : String × Value} :
    s.effect? k id named = some (p, x) ↔
      (k.route named.1 = .property p ∧ p.settingOf? (s.resolve id named.2) = some x) ∧
        w.item.has p = true := by
  rw [effect?, Option.filter_eq_some_iff, Kind.effect?_eq_some_iff, hw]
  rfl

/-- An attribute sets the property of its name. -/
theorem name_of_effect? {named : String × Value} (h : s.effect? k id named = some (p, x)) :
    p.name = named.1 :=
  (Kind.route_eq_property (Kind.effect?_eq_some_iff.1 (Option.filter_eq_some_iff.1 h).1).1).1

/-- What an attribute sets does not depend on what other attributes have set. -/
theorem Applied.effect?_eq (h : Applied id numbered effects s w s' w')
    (hw : s.widget? id = some w) (k : Kind) : s'.effect? k id = s.effect? k id := by
  funext named
  rw [effect?, effect?, h.changes.resolve hw, h.changes.widget, hw]
  congr
  funext e
  exact Item.has_congr h.shell e.1

/-- Of the effects on a property those of attributes of its name count. -/
theorem lastOf?_effects (s : Session) (k : Kind) (id : WidgetId) (p : Property)
    (attributes : List (String × Value)) :
    Look.lastOf? p (attributes.filterMap (s.effect? k id)) =
      Look.lastOf? p ((attributes.filter (·.1 = p.name)).filterMap (s.effect? k id)) := by
  simp only [Look.lastOf?, List.filterMap_filterMap, List.filterMap_filter]
  congr 2
  funext named
  by_cases hname : named.1 = p.name
  · simp [hname]
  · cases heffect : s.effect? k id named with
    | none => simp
    | some e =>
      have hne : e.1 ≠ p := by
        rintro rfl
        exact hname (name_of_effect? heffect).symm
      simp [hname, hne]

end Session

namespace Context

variable (context : Context) {parser : ViewParser} {k : Kind} {s : Session} {id : WidgetId}
  {w : Widget}

/-- An attribute other than children has at most one effect, and nothing else comes of it. -/
theorem apply_effect (hserves : parser.Serves k s.ids) (hw : s.widget? id = some w)
    (hrules : w.view.RulesDistinct) {name : String} (hname : name ≠ Layout.childrenName) {a : Int}
    (ha : s.ids.get? name = some a) (value : Value) :
    ∃ s' w', context.apply parser id a value s =
        (.ok (s.effect? k id (name, value)).isSome, s') ∧
      Applied id [] (s.effect? k id (name, value)).toList s w s' w' := by
  have hroute := hserves.route (le_refl s.ids) ha
  have hobserve := ViewParser.observe_of_nil hserves.observers a value
  unfold apply
  cases hkind : k.route name with
  | property p =>
    rw [hkind] at hroute
    rw [Value.apply_of_property hroute, hobserve, Engine.act_run]
    cases heffect : s.effect? k id (name, value) with
    | none =>
      have hineffective : w.item.has p = true → p.settingOf? (s.resolve id value) = none := by
        intro hp
        by_contra hne
        obtain ⟨x, hx⟩ := Option.ne_none_iff_exists'.1 hne
        rw [(effect?_eq_some_iff hw).2 ⟨⟨hkind, hx⟩, hp⟩] at heffect
        cases heffect
      obtain ⟨log, hrun⟩ := applyProperty_of_ineffective hw hineffective
      rw [hrun]
      exact ⟨_, w, rfl, .nil hw hrules log⟩
    | some e =>
      obtain ⟨⟨hproperty, hx⟩, hp⟩ := (effect?_eq_some_iff hw).1 heffect
      obtain rfl : p = e.1 := Route.property.inj (hkind.symm.trans hproperty)
      obtain ⟨s', w', hrun, happlied⟩ := applyProperty_of_effective hw hrules hp hx
      rw [hrun]
      exact ⟨s', w', rfl, happlied⟩
  | children => exact absurd (Kind.route_eq_children_iff.1 hkind).2 hname
  | presence => exact absurd hkind (k.route_ne_presence name)
  | unknown =>
    have heffect : s.effect? k id (name, value) = none := by
      simp only [effect?, Kind.effect?, hkind, Option.filter_none]
    rw [hkind] at hroute
    rw [Value.apply_of_unknown hroute, hobserve, heffect]
    exact ⟨s, w, rfl, .nil hw hrules s.log⟩

/-- Attributes have their effects one after the other; which are accepted, and what they set, the
session at the start tells. -/
theorem applyEach_run (hserves : parser.Serves k s.ids) (hw : s.widget? id = some w)
    (hrules : w.view.RulesDistinct) {attributes : List (String × Value)}
    (hnames : ∀ named ∈ attributes, named.1 ≠ Layout.childrenName) :
    ∃ s' w', context.applyEach parser id attributes s =
        (.ok (attributes.map fun named => (s.effect? k id named).isSome), s') ∧
      Applied id (attributes.map Prod.fst) (attributes.filterMap (s.effect? k id)) s w s' w' := by
  induction attributes generalizing s w with
  | nil => exact ⟨s, w, rfl, .nil hw hrules s.log⟩
  | cons first rest ih =>
    obtain ⟨name, value⟩ := first
    obtain ⟨hname, hrest⟩ := List.forall_mem_cons.1 hnames
    have hintern := Applied.intern hw hrules name
    obtain ⟨s₁, w₁, hrun, happlied⟩ := context.apply_effect (a := (s.intern name).1)
      (hserves.mono hintern.changes.touches.ids) hintern.changes.widget hrules hname
      (IdTable.get?_intern name s.ids) value
    rw [hintern.effect?_eq hw] at hrun happlied
    have hfirst := hintern.append happlied
    obtain ⟨s₂, w₂, hrun', happlied'⟩ := ih (hserves.mono hfirst.changes.touches.ids)
      hfirst.changes.widget hfirst.rules hrest
    rw [hfirst.effect?_eq hw] at hrun' happlied'
    refine ⟨s₂, w₂, ?_, ?_⟩
    · rw [applyEach, Fallible.bind_run_ok (Engine.act_run _ s)]
      rw [Fallible.bind_run_ok hrun, Fallible.bind_run_ok hrun']
      rfl
    · have hall := hfirst.append happlied'
      cases heffect : s.effect? k id (name, value) <;>
        simpa [List.filterMap_cons, heffect] using hall

end Context

/-! ## The same state -/

/-- Two numbers stand for the view of one name, each in its own table, or are one number that stood
for no view before. -/
def KeepsView (r t u : IdTable) (a b : Int) : Prop :=
  SameView t u a b ∨ r.viewNameOf? a = none ∧ a = b

/-- Two anchors are the same, siblings compared by name. -/
inductive RuleAnchor.Agrees (r t u : IdTable) : RuleAnchor → RuleAnchor → Prop
  | parent : Agrees r t u .parent .parent
  | sibling {a b : Int} (same : KeepsView r t u a b) : Agrees r t u (.sibling a) (.sibling b)

/-- Layout parameters are the same, rules compared rule by rule. -/
structure LayoutParams.Agrees (r t u : IdTable) (p q : LayoutParams) : Prop where
  width : p.width = q.width
  height : p.height = q.height
  rules : ∀ rule,
    Option.Rel (RuleAnchor.Agrees r t u) (Entries.get? rule p.rules) (Entries.get? rule q.rules)

/-- Views are the same, their own numbers compared by name. -/
structure ViewState.Agrees (r t u : IdTable) (v v' : ViewState) : Prop where
  id : Option.Rel (KeepsView r t u) v.id v'.id
  parent : v.parent = v'.parent
  params : Option.Rel (LayoutParams.Agrees r t u) v.params v'.params
  visibility : v.visibility = v'.visibility
  padding : v.padding = v'.padding
  background : v.background = v'.background
  enabled : v.enabled = v'.enabled
  alpha : v.alpha = v'.alpha
  focusable : v.focusable = v'.focusable

/-- Widgets are the same, views compared by name. -/
structure Widget.Agrees (r t u : IdTable) (w w' : Widget) : Prop where
  item : w.item = w'.item
  view : w.view.Agrees r t u w'.view
  manager : w.manager = w'.manager
  children : w.children = w'.children

/-- Two sessions are the same but for one widget, and in that one up to the numbers that further
names than those of a table have been given. What has been told may differ. -/
structure Session.Agrees (id : WidgetId) (r : IdTable) (s s' : Session) : Prop where
  names : ∀ name, name ∈ s'.ids.names ↔ name ∈ s.ids.names
  widget : ∃ w w', s.widget? id = some w ∧ s'.widget? id = some w' ∧ w.Agrees r s.ids s'.ids w'
  others : ∀ other ≠ id, s'.widget? other = s.widget? other
  length : s'.widgets.length = s.widgets.length
  managers : s'.managers = s.managers
  tags : s'.tags = s.tags
  kept : s'.kept = s.kept

section

variable {r t u : IdTable}

/-- A view that is referred to in the same way both times is kept. -/
theorem KeepsView.refl (ht : r ≤ t) (hu : r ≤ u) (a : Int) : KeepsView r t u a a := by
  cases ha : r.viewNameOf? a with
  | none => exact .inr ⟨ha, rfl⟩
  | some name =>
    exact .inl ⟨name, IdTable.viewNameOf?_mono ht ha, IdTable.viewNameOf?_mono hu ha⟩

/-- An anchor agrees with itself. -/
theorem RuleAnchor.Agrees.refl (ht : r ≤ t) (hu : r ≤ u) (a : RuleAnchor) : a.Agrees r t u a := by
  cases a with
  | parent => exact .parent
  | sibling a => exact .sibling (.refl ht hu a)

/-- Anchors at views of the same name agree. -/
theorem RuleAnchor.Alike.agrees {a b : RuleAnchor} (h : a.Alike t u b) : a.Agrees r t u b := by
  cases h with
  | parent => exact .parent
  | sibling same => exact .sibling (.inl same)

end

namespace Session.Applied

variable {s s' s'' : Session} {id : WidgetId} {w w' w'' : Widget} {numbered numbered' : List String}
  {effects effects' : List (Property × Setting)}

/-- Where the last effects on each property are the same, a property is set to the same, or it is
held as it was. -/
theorem settled_or_held (h : Applied id numbered effects s w s' w')
    (h' : Applied id numbered' effects' s w s'' w'')
    (hlast : ∀ p, Look.lastOf? p effects' = Look.lastOf? p effects) (p : Property) :
    (∃ x, p.setting? s'.ids w' = some x ∧ p.setting? s''.ids w'' = some x) ∨
      p.held? w' = p.held? w ∧ p.held? w'' = p.held? w := by
  cases hp : Look.lastOf? p effects with
  | none => exact .inr ⟨h.held p hp, h'.held p ((hlast p).trans hp)⟩
  | some x => exact .inl ⟨x, h.settled p x hp, h'.settled p x ((hlast p).trans hp)⟩

/-- Where the last effects on each property are the same, the views agree. -/
theorem view_agrees (h : Applied id numbered effects s w s' w')
    (h' : Applied id numbered' effects' s w s'' w'')
    (hlast : ∀ p, Look.lastOf? p effects' = Look.lastOf? p effects)
    (hparams : w'.view.params.isSome = w''.view.params.isSome) :
    w'.view.Agrees s.ids s'.ids s''.ids w''.view := by
  have hle := h.changes.touches.ids
  have hle' := h'.changes.touches.ids
  have hsame : ∀ a : CommonAttribute, (∀ t view, a.setting? t view = some (a.held view)) →
      a.held w'.view = a.held w''.view := by
    intro a hplain
    rcases h.settled_or_held h' hlast (.common a) with ⟨x, hx, hx'⟩ | ⟨hheld, hheld'⟩
    · exact Option.some.inj (((hplain _ _).symm.trans hx).trans (hx'.symm.trans (hplain _ _)))
    · exact Option.some.inj (hheld.trans hheld'.symm)
  have hid : Option.Rel (KeepsView s.ids s'.ids s''.ids) w'.view.id w''.view.id := by
    rcases h.settled_or_held h' hlast (.common .id) with ⟨x, hx, hx'⟩ | ⟨hheld, hheld'⟩
    · exact rel_imp (fun _ _ => .inl) (sameView_of_setting? hx hx')
    · rw [CommonAttribute.id_eq_of_held (Option.some.inj hheld),
        CommonAttribute.id_eq_of_held (Option.some.inj hheld')]
      cases w.view.id with
      | none => exact .none
      | some own => exact .some (.refl hle hle' own)
  have hplacing : w'.view.placing.Agrees s.ids s'.ids s''.ids w''.view.placing := by
    refine ⟨Setting.dimension.inj (hsame .width fun _ _ => rfl),
      Setting.dimension.inj (hsame .height fun _ _ => rfl), fun rule => ?_⟩
    rcases h.settled_or_held h' hlast (.common (.rule rule)) with ⟨x, hx, hx'⟩ | ⟨hheld, hheld'⟩
    · exact rel_imp (fun _ _ => RuleAnchor.Alike.agrees) (sameAnchor_of_setting? hx hx')
    · rw [CommonAttribute.rule_eq_of_held (Option.some.inj hheld),
        CommonAttribute.rule_eq_of_held (Option.some.inj hheld')]
      cases Entries.get? rule w.view.placing.rules with
      | none => exact .none
      | some anchor => exact .some (.refl hle hle' anchor)
  refine ⟨hid, h.changes.parent.trans h'.changes.parent.symm, ?_,
    Setting.visibility.inj (hsame .visibility fun _ _ => rfl),
    Setting.number.inj (hsame .padding fun _ _ => rfl),
    Setting.optional.inj (hsame .background fun _ _ => rfl),
    Setting.flag.inj (hsame .enabled fun _ _ => rfl),
    Setting.single.inj (hsame .alpha fun _ _ => rfl), h.focusable.trans h'.focusable.symm⟩
  unfold ViewState.placing at hplacing
  cases hp : w'.view.params <;> cases hp' : w''.view.params <;> rw [hp, hp'] at hparams
  · exact .none
  · cases hparams
  · cases hparams
  · rw [hp, hp'] at hplacing
    exact .some hplacing

/-- The same names and the same effects, those on each property in the same order, come to the
same. -/
theorem agrees (h : Applied id numbered effects s w s' w')
    (h' : Applied id numbered' effects' s w s'' w'')
    (hlast : ∀ p, Look.lastOf? p effects' = Look.lastOf? p effects)
    (heffects : ∀ e, e ∈ effects' ↔ e ∈ effects)
    (hnumbered : ∀ name, name ∈ numbered' ↔ name ∈ numbered) : Agrees id s.ids s' s'' := by
  have hparams : w'.view.params.isSome = w''.view.params.isSome := by
    rw [h.params, h'.params, Bool.eq_iff_iff]
    simp only [Bool.or_eq_true, List.any_eq_true, heffects]
  have hitem : w'.item = w''.item := by
    refine Widget.item_eq_of_settings (t := s'.ids) (u := s''.ids) (h.shell.trans h'.shell.symm)
      fun p hcommon => ?_
    rcases h.settled_or_held h' hlast p with ⟨x, hx, hx'⟩ | ⟨hheld, hheld'⟩
    · rw [hx, hx']
    · rw [Property.setting?_of_held hheld, Property.setting?_of_held hheld']
      cases p <;> first | rfl | exact absurd rfl (hcommon _)
  refine ⟨fun name => ?_, ⟨w', w'', h.changes.widget, h'.changes.widget, hitem,
    h.view_agrees h' hlast hparams, h.changes.manager.trans h'.changes.manager.symm,
    h.children.trans h'.children.symm⟩, fun other hne => ?_, ?_, ?_, ?_, ?_⟩
  · simp only [h.names, h'.names, hnumbered, heffects]
  · rw [h.changes.touches.others other hne, h'.changes.touches.others other hne]
  · rw [h.changes.touches.length, h'.changes.touches.length]
  · rw [h.changes.touches.managers, h'.changes.touches.managers]
  · rw [h.changes.touches.tags, h'.changes.touches.tags]
  · rw [h.kept, h'.kept]

end Session.Applied

/-! ## Attributes in another order -/

/-- The layout parameters are the properties whose names say so. -/
theorem Property.isParam_eq_isPrefixOf (p : Property) :
    p.isParam = "layout_".toList.isPrefixOf p.name.toList := by
  cases p with
  | common a =>
    cases a with
    | rule r => cases r <;> decide +kernel
    | _ => decide +kernel
  | text a | editText a => cases a <;> decide +kernel
  | gravity => decide +kernel

/-- Lists that have the same elements of each name have the same elements. -/
theorem mem_iff_of_filter_eq {α β : Type} [DecidableEq β] {nameOf : α → β} {l l' : List α}
    (h : ∀ name, l'.filter (nameOf · = name) = l.filter (nameOf · = name)) (a : α) :
    a ∈ l' ↔ a ∈ l := by
  have hmem : ∀ l : List α, a ∈ l ↔ a ∈ l.filter (nameOf · = nameOf a) := fun l => by
    simp
  rw [hmem l', h, ← hmem l]

namespace Context

variable {k : Kind} {t : IdTable} {s : Session} {id : WidgetId} {w : Widget}
  {attributes : List (String × Value)}

/-- Attributes are independent. One of the engine's own parsers is given attributes other than
children for any widget. Which of them are accepted, and what they set, the session at the start
tells. Each property is held as it was, or set as the last accepted attribute of its own name says;
there are layout parameters if there were before or if an attribute of the layout is accepted. The
attributes of different names may be mixed otherwise: they are accepted alike and come to the same
state. -/
theorem applyEach_independent (context : Context) (ht : (ViewParser.ofKind k t).2 ≤ s.ids)
    (hw : s.widget? id = some w) (hrules : w.view.RulesDistinct)
    (hnames : ∀ named ∈ attributes, named.1 ≠ Layout.childrenName) :
    ∃ s' w', context.applyEach (ViewParser.ofKind k t).1 id attributes s =
        (.ok (attributes.map fun named => (s.effect? k id named).isSome), s') ∧
      Applied id (attributes.map Prod.fst) (attributes.filterMap (s.effect? k id)) s w s' w' ∧
      (∀ p, Look.lastOf? p (attributes.filterMap (s.effect? k id)) =
        Look.lastOf? p ((attributes.filter (·.1 = p.name)).filterMap (s.effect? k id))) ∧
      (w'.view.params.isSome = (w.view.params.isSome || attributes.any fun named =>
        "layout_".toList.isPrefixOf named.1.toList && (s.effect? k id named).isSome)) ∧
      ∀ mixed : List (String × Value),
        (∀ name, mixed.filter (·.1 = name) = attributes.filter (·.1 = name)) →
        ∃ s'', context.applyEach (ViewParser.ofKind k t).1 id mixed s =
            (.ok (mixed.map fun named => (s.effect? k id named).isSome), s'') ∧
          Agrees id s.ids s' s'' := by
  have hserves := (ViewParser.serves_ofKind k t).2.mono ht
  obtain ⟨s', w', hrun, happlied⟩ := context.applyEach_run hserves hw hrules hnames
  refine ⟨s', w', hrun, happlied, fun p => lastOf?_effects s k id p attributes, ?_, ?_⟩
  · rw [happlied.params, List.any_filterMap]
    congr 2
    funext named
    cases heffect : s.effect? k id named with
    | none => simp
    | some e =>
      rw [← name_of_effect? heffect, ← Property.isParam_eq_isPrefixOf]
      simp
  · intro mixed hmixed
    have hmem := mem_iff_of_filter_eq hmixed
    obtain ⟨s'', w'', hrun', happlied'⟩ := context.applyEach_run hserves hw hrules
      fun named hnamed => hnames named ((hmem named).1 hnamed)
    refine ⟨s'', hrun', happlied.agrees happlied' (fun p => ?_) (fun e => ?_) fun name => ?_⟩
    · rw [lastOf?_effects, hmixed, ← lastOf?_effects]
    · simp only [List.mem_filterMap, hmem]
    · simp only [List.mem_map, hmem]

/-- A text widget, and no other widget. -/
def textAlone : Session :=
  ((Session.ofIds (ViewParser.ofKind .text .empty).2).create (.text .initial)).2

/-- Attributes of a line of text below a heading, not all of which are accepted. -/
def lineAttributes : List (String × Value) :=
  [("text", .string "Hi"), ("layout_below", .string "@id/head"), ("textSize", .string "big"),
    ("id", .string "@+id/line"), ("text", .string "Bye")]

/-- The attributes of the line, those of different names in another order. -/
def mixedLineAttributes : List (String × Value) :=
  [("id", .string "@+id/line"), ("textSize", .string "big"), ("text", .string "Hi"),
    ("text", .string "Bye"), ("layout_below", .string "@id/head")]

/-- Mixed with others, the attributes of each name are in the same order. -/
theorem filter_mixedLineAttributes (name : String) :
    mixedLineAttributes.filter (·.1 = name) = lineAttributes.filter (·.1 = name) := by
  by_cases hname : name ∈ ["id", "text", "textSize", "layout_below"]
  · simp only [List.mem_cons, List.not_mem_nil, or_false] at hname
    rcases hname with rfl | rfl | rfl | rfl <;> simp [mixedLineAttributes, lineAttributes]
  · simp only [List.mem_cons, List.not_mem_nil, or_false, not_or] at hname
    obtain ⟨hid, htext, hsize, hbelow⟩ := hname
    simp [mixedLineAttributes, lineAttributes, Ne.symm hid, Ne.symm htext, Ne.symm hsize,
      Ne.symm hbelow]

/-- A line of text takes its attributes in either order, though a view that they refer to gets
another number. -/
theorem applyEach_independent_textAlone :
    ∃ w s' s'', textAlone.widget? ⟨1⟩ = some w ∧ w.view.RulesDistinct ∧
      own.applyEach (ViewParser.ofKind .text .empty).1 ⟨1⟩ lineAttributes textAlone =
        (.ok [true, true, false, true, true], s') ∧
      own.applyEach (ViewParser.ofKind .text .empty).1 ⟨1⟩ mixedLineAttributes textAlone =
        (.ok [true, false, true, true, true], s'') ∧
      s'.ids.viewId? "line" ≠ s''.ids.viewId? "line" ∧ Agrees ⟨1⟩ textAlone.ids s' s'' := by
  have hrules : (Widget.ofItem (.text .initial)).view.RulesDistinct := by
    unfold ViewState.RulesDistinct
    decide +kernel
  have hnames : ∀ named ∈ lineAttributes, named.1 ≠ Layout.childrenName := by decide +kernel
  have hnumbers : Fallible.gives
      (own.applyEach (ViewParser.ofKind .text .empty).1 ⟨1⟩ lineAttributes) textAlone
      (fun answers s' => Fallible.gives
        (own.applyEach (ViewParser.ofKind .text .empty).1 ⟨1⟩ mixedLineAttributes) textAlone
        fun answers' s'' => decide (answers = [true, true, false, true, true] ∧
          answers' = [true, false, true, true, true] ∧
          s'.ids.viewId? "line" ≠ s''.ids.viewId? "line")) = true := by
    decide +kernel
  obtain ⟨answers, s', hrun, hnumbers⟩ := Fallible.exists_of_gives hnumbers
  obtain ⟨answers', s'', hrun', hnumbers⟩ := Fallible.exists_of_gives hnumbers
  obtain ⟨rfl, rfl, hne⟩ := of_decide_eq_true hnumbers
  obtain ⟨s₁, w₁, hrun₁, -, -, -, hagree⟩ :=
    applyEach_independent (k := .text) (t := .empty) own (le_refl textAlone.ids)
      (show textAlone.widget? ⟨1⟩ = some (Widget.ofItem (.text .initial)) from rfl) hrules hnames
  obtain ⟨s₂, hrun₂, hagrees⟩ := hagree mixedLineAttributes filter_mixedLineAttributes
  obtain rfl : s' = s₁ := congrArg Prod.snd (hrun.symm.trans hrun₁)
  obtain rfl : s'' = s₂ := congrArg Prod.snd (hrun'.symm.trans hrun₂)
  exact ⟨_, s', s'', rfl, hrules, hrun, hrun', hne, hagrees⟩

end Context

end LayoutEngine
