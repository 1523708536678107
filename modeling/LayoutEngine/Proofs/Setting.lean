import LayoutEngine.Proofs.IdTable
import LayoutEngine.Proofs.Kind
import LayoutEngine.Proofs.Session
import LayoutEngine.Session.Property

/-!
# Settings

What a property of a widget is set to, apart from how the widget stores it: `Property.settingOf?`
reads the setting off a value, if the property accepts the value, and `Property.setting?` off a
widget. Other views are referred to by name, since their numbers are a matter of the session.
Applying a property sets it as the value says and leaves every other property as it is
(`Session.applyProperty_of_accepted`); a value that it does not accept changes nothing
(`Session.applyProperty_of_rejected`).
-/

namespace LayoutEngine

/-- What a property is set to. -/
inductive Setting where
  | view (name : Option String)
  | dimension (d : Dimension)
  | visibility (v : Visibility)
  | number (n : Int)
  | flag (b : Bool)
  | single (x : Single)
  | string (s : String)
  | optional (s : Option String)
  | noRule
  | parent
  | sibling (name : String)
  | inputType (t : InputType)
  | gravity (flags : List Gravity)
deriving DecidableEq

namespace Setting

/-- The key of the view that is referred to. -/
def key? : Setting → Option String
  | .view (some name) | .sibling name => some (IdTable.viewKey name)
  | _ => none

/-- The table in which the view that is referred to has a number, too. -/
def numbered (t : IdTable) (x : Setting) : IdTable :=
  match x.key? with
  | some key => (t.intern key).2
  | none => t

/-- A view that is referred to may get a number. -/
theorem le_numbered (t : IdTable) (x : Setting) : t ≤ x.numbered t := by
  unfold numbered
  split
  · exact IdTable.le_intern _ t
  · exact le_refl t

end Setting

/-! ## Views -/

namespace ViewState

/-- The layout parameters of a view, the initial ones if it has none. -/
def placing (view : ViewState) : LayoutParams := view.params.getD .initial

/-- No rule is there twice. -/
def RulesDistinct (view : ViewState) : Prop := (Entries.keys view.placing.rules).Nodup

end ViewState

namespace CommonAttribute

/-- The name of the view that a value refers to. -/
def reference? (value : Value) : Option String :=
  value.string?.bind fun s => if referencedName s = "" then none else some (referencedName s)

/-- What a value sets an attribute to, if the attribute accepts it. -/
def settingOf? (value : Value) : CommonAttribute → Option Setting
  | .id => (reference? value).map fun name => .view (some name)
  | .width | .height => (Dimension.ofValue? value).map .dimension
  | .visibility => (Visibility.ofValue? value).map .visibility
  | .padding => (value.int?.filter (Numeral.fitsSigned 32)).map .number
  | .background => (background? value).map .optional
  | .enabled => value.bool?.map .flag
  | .alpha => value.float?.map fun x => .single (x.clampUnit.convert .binary32)
  | .rule r =>
    if r.isSibling then (reference? value).map .sibling
    else value.bool?.map fun on => if on then .parent else .noRule

/-- What an attribute of a view is set to. A number that is no view's says nothing. -/
def setting? (ids : IdTable) (view : ViewState) : CommonAttribute → Option Setting
  | .id =>
    match view.id with
    | none => some (.view none)
    | some own => (ids.viewNameOf? own).map fun name => .view (some name)
  | .width => some (.dimension view.placing.width)
  | .height => some (.dimension view.placing.height)
  | .visibility => some (.visibility view.visibility)
  | .padding => some (.number view.padding)
  | .background => some (.optional view.background)
  | .enabled => some (.flag view.enabled)
  | .alpha => some (.single view.alpha)
  | .rule r =>
    match Entries.get? r view.placing.rules with
    | none => some .noRule
    | some .parent => some .parent
    | some (.sibling anchor) => (ids.viewNameOf? anchor).map .sibling

/-- The attribute is one of the layout parameters. -/
def isParam : CommonAttribute → Bool
  | .width | .height | .rule _ => true
  | _ => false

/-- A reference to a view gives its name a number. -/
theorem viewReference?_eq (value : Value) (ids : IdTable) :
    viewReference? value ids = (reference? value).map fun name => ids.internView name := by
  unfold viewReference? reference?
  cases value.string? with
  | none => rfl
  | some s => by_cases h : referencedName s = "" <;> simp [h]

/-- What a view is set to stays so when more names have numbers. -/
theorem setting?_mono {t u : IdTable} (h : t ≤ u) {view : ViewState} {a : CommonAttribute}
    {x : Setting} (hx : a.setting? t view = some x) : a.setting? u view = some x := by
  cases a with
  | id =>
    simp only [setting?] at hx ⊢
    split at hx
    · exact hx
    · obtain ⟨name, hname, hx⟩ := Option.map_eq_some_iff.1 hx
      rw [IdTable.viewNameOf?_mono h hname]
      exact congrArg some hx
  | rule r =>
    simp only [setting?] at hx ⊢
    split at hx
    · exact hx
    · exact hx
    · obtain ⟨name, hname, hx⟩ := Option.map_eq_some_iff.1 hx
      rw [IdTable.viewNameOf?_mono h hname]
      exact congrArg some hx
  | _ => exact hx

/-- The second view, with its table of names, is the first with an attribute set and nothing else
changed. -/
structure Sets (a : CommonAttribute) (x : Setting) (ids : IdTable) (view : ViewState)
    (ids' : IdTable) (view' : ViewState) : Prop where
  le : ids ≤ ids'
  self : a.setting? ids' view' = some x
  others : ∀ b ≠ a, b.setting? ids' view' = b.setting? ids' view
  parent : view'.parent = view.parent
  focusable : view'.focusable = view.focusable
  params : view'.params.isSome = (view.params.isSome || a.isParam)
  rules : view'.RulesDistinct

/-- A value that is no setting of an attribute is not applied. -/
theorem applied?_of_rejected {a : CommonAttribute} {value : Value}
    (h : a.settingOf? value = none) (view : ViewState) (ids : IdTable) :
    a.applied? value view ids = none := by
  cases a with
  | rule r =>
    by_cases hr : r.isSibling <;>
      simp_all [settingOf?, applied?, applyRule?, viewReference?_eq]
  | _ => simp_all [settingOf?, applied?, viewReference?_eq]

/-- An attribute numbers the view that it refers to, and nothing else. -/
theorem ids_of_applied? {a : CommonAttribute} {value : Value} {x : Setting}
    {view view' : ViewState} {ids ids' : IdTable} (hx : a.settingOf? value = some x)
    (h : a.applied? value view ids = some (view', ids')) : ids' = x.numbered ids := by
  cases a with
  | id =>
    obtain ⟨name, hname, rfl⟩ := Option.map_eq_some_iff.1 hx
    simp only [applied?, viewReference?_eq, hname, Option.map_some, Option.some_inj] at h
    exact (congrArg Prod.snd h).symm
  | rule r =>
    simp only [settingOf?, applied?, applyRule?] at hx h
    split at h
    · next hr =>
      rw [if_pos hr] at hx
      obtain ⟨name, hname, rfl⟩ := Option.map_eq_some_iff.1 hx
      simp only [viewReference?_eq, hname, Option.map_some, Option.some_inj] at h
      exact (congrArg Prod.snd h).symm
    · next hr =>
      rw [if_neg hr] at hx
      obtain ⟨on, -, rfl⟩ := Option.map_eq_some_iff.1 hx
      obtain ⟨on', -, hview⟩ := Option.map_eq_some_iff.1 h
      cases hview
      cases on <;> rfl
  | _ =>
    obtain ⟨y, -, rfl⟩ := Option.map_eq_some_iff.1 hx
    obtain ⟨z, -, hview⟩ := Option.map_eq_some_iff.1 h
    cases hview
    rfl

/-- An attribute numbers names at most. -/
theorem le_of_applied? {a : CommonAttribute} {value : Value} {view view' : ViewState}
    {ids ids' : IdTable} (h : a.applied? value view ids = some (view', ids')) : ids ≤ ids' := by
  cases hx : a.settingOf? value with
  | none =>
    rw [applied?_of_rejected hx] at h
    cases h
  | some x =>
    rw [ids_of_applied? hx h]
    exact x.le_numbered ids

/-- Changing what is known of one rule sets the rule. -/
theorem sets_rule {r : RelativeRule} {x : Setting} {ids ids' : IdTable} {view : ViewState}
    (change : List (RelativeRule × RuleAnchor) → List (RelativeRule × RuleAnchor))
    (hids : ids ≤ ids')
    (hself : (rule r).setting? ids' (view.changeParams fun p =>
      { p with rules := change p.rules }) = some x)
    (hothers : ∀ q ≠ r,
      Entries.get? q (change view.placing.rules) = Entries.get? q view.placing.rules)
    (hrules : (Entries.keys (change view.placing.rules)).Nodup) :
    (rule r).Sets x ids view ids'
      (view.changeParams fun p => { p with rules := change p.rules }) where
  le := hids
  self := hself
  others b hb := by
    cases b with
    | rule q =>
      have hne : q ≠ r := by
        rintro rfl
        exact hb rfl
      have hq := hothers q hne
      simp only [ViewState.placing] at hq
      simp [setting?, ViewState.placing, ViewState.changeParams, hq]
    | _ => rfl
  parent := rfl
  focusable := rfl
  params := by simp [ViewState.changeParams, isParam]
  rules := hrules

/-- An attribute that accepts a value sets the view as the value says. -/
theorem applied?_of_accepted {a : CommonAttribute} {value : Value} {x : Setting}
    (h : a.settingOf? value = some x) {view : ViewState} (hrules : view.RulesDistinct)
    (ids : IdTable) :
    ∃ view' ids', a.applied? value view ids = some (view', ids') ∧
      a.Sets x ids view ids' view' := by
  cases a with
  | id =>
    obtain ⟨name, hname, rfl⟩ := Option.map_eq_some_iff.1 h
    have happlied : CommonAttribute.id.applied? value view ids =
        some ({ view with id := some (ids.internView name).1 }, (ids.internView name).2) := by
      simp [applied?, viewReference?_eq, hname]
    refine ⟨_, _, happlied, IdTable.le_internView name ids, by simp [setting?], ?_, rfl, rfl,
      (Bool.or_false _).symm, hrules⟩
    intro b hb
    cases b <;> first | rfl | exact absurd rfl hb
  | rule r =>
    by_cases hr : r.isSibling
    · simp only [settingOf?, if_pos hr] at h
      obtain ⟨name, hname, rfl⟩ := Option.map_eq_some_iff.1 h
      refine ⟨_, _, by simp only [applied?, applyRule?, hr, viewReference?_eq, hname]; rfl,
        sets_rule (Entries.put r (.sibling (ids.internView name).1))
          (IdTable.le_internView name ids) ?_ ?_ (Entries.nodup_keys_put hrules)⟩
      · simp [setting?, ViewState.placing, ViewState.changeParams]
      · exact fun q hq => Entries.get?_put_of_ne hq _ _
    · simp only [settingOf?, if_neg hr] at h
      obtain ⟨on, hon, rfl⟩ := Option.map_eq_some_iff.1 h
      cases on with
      | true =>
        refine ⟨_, _, by simp only [applied?, applyRule?, hr, hon]; rfl,
          sets_rule (Entries.put r .parent) (le_refl ids) ?_ ?_ (Entries.nodup_keys_put hrules)⟩
        · simp [setting?, ViewState.placing, ViewState.changeParams]
        · exact fun q hq => Entries.get?_put_of_ne hq _ _
      | false =>
        refine ⟨_, _, by simp only [applied?, applyRule?, hr, hon]; rfl,
          sets_rule (Entries.erase r) (le_refl ids) ?_ ?_ (Entries.nodup_keys_erase hrules)⟩
        · have hnone : Entries.get? r (Entries.erase r view.placing.rules) = none :=
            Entries.get?_erase_self hrules
          simp only [ViewState.placing] at hnone
          simp [setting?, ViewState.placing, ViewState.changeParams, hnone]
        · exact fun q hq => Entries.get?_erase_of_ne hq _
  | width | height =>
    obtain ⟨d, hd, rfl⟩ := Option.map_eq_some_iff.1 h
    refine ⟨_, _, Option.map_eq_some_iff.2 ⟨d, hd, rfl⟩, le_refl ids, rfl, ?_, rfl, rfl,
      (Bool.or_true _).symm, hrules⟩
    intro b hb
    cases b <;> first | rfl | exact absurd rfl hb
  | _ =>
    obtain ⟨y, hy, rfl⟩ := Option.map_eq_some_iff.1 h
    refine ⟨_, _, Option.map_eq_some_iff.2 ⟨y, hy, rfl⟩, le_refl ids, rfl, ?_, rfl, rfl,
      (Bool.or_false _).symm, hrules⟩
    intro b hb
    cases b <;> first | rfl | exact absurd rfl hb

end CommonAttribute

/-! ## Items -/

namespace TextAttribute

/-- What a value sets an attribute to, if the attribute accepts it. -/
def settingOf? (value : Value) : TextAttribute → Option Setting
  | .text => some (.string value.text)
  | .size => (value.float?.filter (·.isPositive)).map fun x => .single (x.convert .binary32)
  | .color => (color? value).map .optional

/-- What an attribute of a text widget is set to. -/
def setting (state : TextState) : TextAttribute → Setting
  | .text => .string state.text
  | .size => .single state.size
  | .color => .optional state.color

/-- A value that is no setting of a text attribute is not applied. -/
theorem applied?_of_rejected {a : TextAttribute} {value : Value} (h : a.settingOf? value = none)
    (state : TextState) : a.applied? value state = none := by
  cases a <;> simp_all [settingOf?, applied?]

/-- An attribute that accepts a value sets the state as the value says. -/
theorem applied?_of_accepted {a : TextAttribute} {value : Value} {x : Setting}
    (h : a.settingOf? value = some x) (state : TextState) :
    ∃ state', a.applied? value state = some state' ∧ a.setting state' = x ∧
      ∀ b ≠ a, b.setting state' = b.setting state := by
  cases a with
  | text =>
    cases h
    exact ⟨_, rfl, rfl, fun b hb => by cases b <;> first | rfl | exact absurd rfl hb⟩
  | _ =>
    obtain ⟨y, hy, rfl⟩ := Option.map_eq_some_iff.1 h
    exact ⟨_, Option.map_eq_some_iff.2 ⟨y, hy, rfl⟩, rfl,
      fun b hb => by cases b <;> first | rfl | exact absurd rfl hb⟩

end TextAttribute

namespace EditTextAttribute

/-- What a value sets an attribute to, if the attribute accepts it. -/
def settingOf? (value : Value) : EditTextAttribute → Option Setting
  | .text => some (.string value.text)
  | .hint => some (.optional (if value.isNull then none else some value.text))
  | .inputType => (value.string?.bind InputType.ofText?).map .inputType

/-- What an attribute of an editable field is set to. -/
def setting (state : EditTextState) : EditTextAttribute → Setting
  | .text => .string state.text
  | .hint => .optional state.hint
  | .inputType => .inputType state.inputType

/-- A value that is no setting of an attribute of an input field is not applied. -/
theorem applied?_of_rejected {a : EditTextAttribute} {value : Value}
    (h : a.settingOf? value = none) (state : EditTextState) : a.applied? value state = none := by
  cases a <;> simp_all [settingOf?, applied?]

/-- An attribute that accepts a value sets the state as the value says. -/
theorem applied?_of_accepted {a : EditTextAttribute} {value : Value} {x : Setting}
    (h : a.settingOf? value = some x) (state : EditTextState) :
    ∃ state', a.applied? value state = some state' ∧ a.setting state' = x ∧
      ∀ b ≠ a, b.setting state' = b.setting state := by
  cases a with
  | text | hint =>
    cases h
    exact ⟨_, rfl, rfl, fun b hb => by cases b <;> first | rfl | exact absurd rfl hb⟩
  | inputType =>
    obtain ⟨y, hy, rfl⟩ := Option.map_eq_some_iff.1 h
    exact ⟨_, Option.map_eq_some_iff.2 ⟨y, hy, rfl⟩, rfl,
      fun b hb => by cases b <;> first | rfl | exact absurd rfl hb⟩

end EditTextAttribute

/-! ## Widgets -/

/-- An item is one that a widget of a kind may have. Nothing sets a container's transition. -/
def Kind.IsItem : Kind → Item → Prop
  | .view, .view => True
  | .text, .text _ => True
  | .editText, .editText _ => True
  | .container, .relativeLayout state =>
    state.transition = RelativeLayoutState.initial.transition
  | _, _ => False

/-- A new item is of its kind. -/
theorem Kind.isItem_item (k : Kind) : k.IsItem k.item := by cases k <;> first | rfl | trivial

/-- An item of a kind has its name. -/
theorem Kind.kind_of_isItem {k : Kind} {item : Item} (h : k.IsItem item) :
    item.kind = k.typeName := by
  cases k <;> cases item <;> first | rfl | exact h.elim

namespace Item

/-- An item has a property. -/
def has : Property → Item → Bool
  | .common _, _ => true
  | .text _, .text _ => true
  | .editText _, .editText _ => true
  | .gravity, .relativeLayout _ => true
  | _, _ => false

/-- An item without what properties set. -/
def shell : Item → Item
  | .view => .view
  | .stub => .stub
  | .text _ => .text .initial
  | .editText _ => .editText .initial
  | .relativeLayout state => .relativeLayout { state with gravity := [] }

/-- What an item has is a matter of its shell. -/
theorem has_congr {item item' : Item} (h : item'.shell = item.shell) (p : Property) :
    item'.has p = item.has p := by
  cases item <;> cases item' <;> first | (cases p <;> rfl) | cases h

end Item

/-- Items of a kind have the kind's properties. -/
theorem Kind.has_iff_of_isItem {k : Kind} {item : Item} (h : k.IsItem item) {p : Property} :
    item.has p = true ↔ k.Has p := by
  cases k <;> cases item <;> first | exact h.elim | (cases p <;> simp [Item.has, Has])

/-- The items of a kind are those with the shell of a new one. -/
theorem Kind.isItem_iff_shell {k : Kind} {item : Item} :
    k.IsItem item ↔ item.shell = k.item.shell := by
  cases k with
  | container =>
    cases item with
    | relativeLayout state =>
      obtain ⟨gravity, transition⟩ := state
      simp [IsItem, Item.shell, Kind.item, RelativeLayoutState.initial]
    | _ => exact ⟨False.elim, nofun⟩
  | _ => cases item <;> first | exact ⟨False.elim, nofun⟩ | exact ⟨fun _ => rfl, fun _ => trivial⟩

/-- Of what kind an item is is a matter of its shell. -/
theorem Kind.isItem_congr {k : Kind} {item item' : Item} (hshell : item'.shell = item.shell)
    (h : k.IsItem item) : k.IsItem item' :=
  isItem_iff_shell.2 (hshell.trans (isItem_iff_shell.1 h))

/-- Only text widgets have text attributes. -/
theorem Kind.text_of_has {k : Kind} {a : TextAttribute} {item : Item} (hp : k.Has (.text a))
    (hk : k.IsItem item) : ∃ state, item = .text state := by
  cases k <;> cases item <;> simp_all [Has, IsItem]

/-- Only editable fields have field attributes. -/
theorem Kind.editText_of_has {k : Kind} {a : EditTextAttribute} {item : Item}
    (hp : k.Has (.editText a)) (hk : k.IsItem item) : ∃ state, item = .editText state := by
  cases k <;> cases item <;> simp_all [Has, IsItem]

/-- Only containers have a gravity. -/
theorem Kind.relativeLayout_of_has {k : Kind} {item : Item} (hp : k.Has .gravity)
    (hk : k.IsItem item) : ∃ state, item = .relativeLayout state := by
  cases k <;> cases item <;> simp_all [Has, IsItem]

namespace Property

/-- What a value sets a property to, if the property accepts it. -/
def settingOf? (value : Value) : Property → Option Setting
  | .common a => a.settingOf? value
  | .text a => a.settingOf? value
  | .editText a => a.settingOf? value
  | .gravity => (value.string?.bind Gravity.listOfText?).map .gravity

/-- What a property of a widget is set to, if the widget has the property. -/
def setting? (ids : IdTable) (w : Widget) : Property → Option Setting
  | .common a => a.setting? ids w.view
  | .text a =>
    match w.item with
    | .text state => some (a.setting state)
    | _ => none
  | .editText a =>
    match w.item with
    | .editText state => some (a.setting state)
    | _ => none
  | .gravity =>
    match w.item with
    | .relativeLayout state => some (.gravity state.gravity)
    | _ => none

/-- The property is one of the layout parameters. -/
def isParam : Property → Bool
  | .common a => a.isParam
  | _ => false

/-- Only what all views have may be layout params. -/
theorem isParam_of_ne_common {p : Property} (h : ∀ a, p ≠ .common a) : p.isParam = false := by
  cases p <;> first | rfl | exact absurd rfl (h _)

/-- A property is set to the same in any later table. -/
theorem setting?_mono {t u : IdTable} (h : t ≤ u) {w : Widget} {p : Property} {x : Setting}
    (hx : p.setting? t w = some x) : p.setting? u w = some x := by
  cases p with
  | common a => exact CommonAttribute.setting?_mono h hx
  | _ => exact hx

/-- The second widget, with its table of names, is the first with a property set and nothing else
changed. -/
structure Sets (p : Property) (x : Setting) (ids : IdTable) (w : Widget) (ids' : IdTable)
    (w' : Widget) : Prop where
  le : ids ≤ ids'
  self : p.setting? ids' w' = some x
  others : ∀ q ≠ p, ∀ y, q.setting? ids w = some y → q.setting? ids' w' = some y
  item : ∀ k : Kind, k.IsItem w.item → k.IsItem w'.item
  manager : w'.manager = w.manager
  children : w'.children = w.children
  parent : w'.view.parent = w.view.parent
  focusable : w'.view.focusable = w.view.focusable
  params : w'.view.params.isSome = (w.view.params.isSome || p.isParam)
  rules : w'.view.RulesDistinct

/-- The item is the widget's own but for a property, which is set. -/
structure SetsItem (p : Property) (x : Setting) (w : Widget) (item : Item) : Prop where
  shell : item.shell = w.item.shell
  self : ∀ t, p.setting? t { w with item := item } = some x
  others : ∀ q ≠ p, ∀ t, q.setting? t { w with item := item } = q.setting? t w

/-- What sets an attribute of a view sets the property. -/
theorem sets_view {a : CommonAttribute} {x : Setting} {ids ids' : IdTable} {w : Widget}
    {view : ViewState} (h : a.Sets x ids w.view ids' view) :
    (common a).Sets x ids w ids' { w with view := view } where
  le := h.le
  self := h.self
  others q hq y hy := by
    cases q with
    | common b =>
      have hb : b ≠ a := by
        rintro rfl
        exact hq rfl
      exact (h.others b hb).trans (CommonAttribute.setting?_mono h.le hy)
    | _ => exact hy
  item _ hk := hk
  manager := rfl
  children := rfl
  parent := h.parent
  focusable := h.focusable
  params := h.params
  rules := h.rules

/-- What sets something of an item sets the property. -/
theorem SetsItem.sets {p : Property} {x : Setting} {ids : IdTable} {w : Widget} {item : Item}
    (h : p.SetsItem x w item) (hp : p.isParam = false) (hrules : w.view.RulesDistinct) :
    p.Sets x ids w ids { w with item := item } where
  le := le_refl ids
  self := h.self ids
  others q hq y hy := (h.others q hq ids).trans hy
  item _ hk := Kind.isItem_congr h.shell hk
  manager := rfl
  children := rfl
  parent := rfl
  focusable := rfl
  params := by rw [hp, Bool.or_false]
  rules := hrules

/-- Widgets of a kind set only properties that the kind has. -/
theorem setting?_of_not_has {k : Kind} {p : Property} {t : IdTable} {w : Widget}
    (hk : k.IsItem w.item) (hp : ¬k.Has p) : p.setting? t w = none := by
  have hno : ¬w.item.has p = true := fun h => hp ((Kind.has_iff_of_isItem hk).1 h)
  cases p with
  | common a => exact absurd rfl hno
  | text a | editText a | gravity => cases hitem : w.item <;> simp_all [setting?, Item.has]

end Property

/-- The item of a widget is its shell with what its own properties are set to. -/
theorem Widget.item_eq_of_settings {t u : IdTable} {w w' : Widget}
    (hshell : w.item.shell = w'.item.shell)
    (hsame : ∀ p : Property, (∀ a, p ≠ .common a) → p.setting? t w = p.setting? u w') :
    w.item = w'.item := by
  obtain ⟨item, view, manager, children⟩ := w
  obtain ⟨item', view', manager', children'⟩ := w'
  dsimp only at hshell ⊢
  cases item with
  | view | stub => cases item' <;> first | rfl | cases hshell
  | text state =>
    cases item' with
    | text state' =>
      have hattribute : ∀ a : TextAttribute, a.setting state = a.setting state' := fun a =>
        Option.some.inj (hsame (.text a) nofun)
      have htext := hattribute .text
      have hsize := hattribute .size
      have hcolor := hattribute .color
      simp only [TextAttribute.setting, Setting.string.injEq, Setting.single.injEq,
        Setting.optional.injEq] at htext hsize hcolor
      cases state
      cases state'
      simp_all
    | _ => cases hshell
  | editText state =>
    cases item' with
    | editText state' =>
      have hattribute : ∀ a : EditTextAttribute, a.setting state = a.setting state' := fun a =>
        Option.some.inj (hsame (.editText a) nofun)
      have htext := hattribute .text
      have hhint := hattribute .hint
      have htype := hattribute .inputType
      simp only [EditTextAttribute.setting, Setting.string.injEq, Setting.inputType.injEq,
        Setting.optional.injEq] at htext hhint htype
      cases state
      cases state'
      simp_all
    | _ => cases hshell
  | relativeLayout state =>
    cases item' with
    | relativeLayout state' =>
      have hgravity := Setting.gravity.inj (Option.some.inj (hsame .gravity nofun))
      have htransition := congrArg RelativeLayoutState.transition (Item.relativeLayout.inj hshell)
      cases state
      cases state'
      simp_all
    | _ => cases hshell

/-! ## Applying a property -/

namespace Session

variable {s : Session} {id : WidgetId} {w : Widget} {k : Kind} {p : Property} {value : Value}

/-- An item to which nothing is applied stays. -/
theorem applyItem_of_none (hw : s.widget? id = some w) {applied? : Item → Option Item}
    (h : applied? w.item = none) : s.applyItem id applied? = (false, s) := by
  simp [applyItem, hw, h]

/-- An item to which something is applied takes the place of the one before. -/
theorem applyItem_of_some (hw : s.widget? id = some w) {applied? : Item → Option Item}
    {item : Item} (h : applied? w.item = some item) :
    s.applyItem id applied? = (true, s.setItem id item) := by
  simp [applyItem, hw, h]

/-- The item of a widget is the one that has been set. -/
theorem widget?_setItem (hw : s.widget? id = some w) (item : Item) :
    (s.setItem id item).widget? id = some { w with item := item } := by
  simp [setItem, hw]

@[simp] theorem ids_setItem (id : WidgetId) (item : Item) (s : Session) :
    (s.setItem id item).ids = s.ids := ids_changeWidget id _ s

/-- A text is told of nothing about not being one. -/
theorem noteNotText_of_text (hw : s.widget? id = some w) {state : TextState}
    (hstate : w.item = .text state) (a : TextAttribute) : s.noteNotText id a = s := by
  simp [noteNotText, hw, hstate]

/-- A value that a property does not accept changes nothing. -/
theorem applyProperty_of_rejected (hw : s.widget? id = some w) (hk : k.IsItem w.item)
    (hp : k.Has p) (h : p.settingOf? (s.resolve id value) = none) :
    s.applyProperty id p value = (false, s) := by
  cases p with
  | common a =>
    have hnone := CommonAttribute.applied?_of_rejected h w.view s.ids
    simp [applyProperty, applyCommon, hw, hnone]
  | text a =>
    obtain ⟨state, hstate⟩ := Kind.text_of_has hp hk
    rw [applyProperty, noteNotText_of_text hw hstate]
    refine applyItem_of_none hw ?_
    simp [textItem?, hstate, TextAttribute.applied?_of_rejected h state]
  | editText a =>
    obtain ⟨state, hstate⟩ := Kind.editText_of_has hp hk
    refine applyItem_of_none hw ?_
    simp [editTextItem?, hstate, EditTextAttribute.applied?_of_rejected h state]
  | gravity =>
    refine applyItem_of_none hw ?_
    obtain ⟨state, hstate⟩ := Kind.relativeLayout_of_has hp hk
    simp_all [gravityItem?, RelativeLayoutState.applyGravity?, Property.settingOf?]

/-- A property that the item does not have, or that does not accept the value, leaves the widget as
it is. -/
theorem applyProperty_of_ineffective (hw : s.widget? id = some w)
    (h : w.item.has p = true → p.settingOf? (s.resolve id value) = none) :
    ∃ log, s.applyProperty id p value = (false, { s with log := log }) := by
  cases p with
  | common a =>
    have hnone := CommonAttribute.applied?_of_rejected (h rfl) w.view s.ids
    exact ⟨s.log, by simp [applyProperty, applyCommon, hw, hnone]⟩
  | text a =>
    obtain ⟨log, hnote⟩ : ∃ log, s.noteNotText id a = { s with log := log } := by
      unfold noteNotText
      split
      · exact ⟨s.log, rfl⟩
      · exact ⟨s.log, rfl⟩
      · exact ⟨_, rfl⟩
    refine ⟨log, ?_⟩
    rw [applyProperty, hnote]
    refine applyItem_of_none (s := { s with log := log }) hw ?_
    cases hitem : w.item with
    | text state =>
      rw [hitem] at h
      simp [textItem?, TextAttribute.applied?_of_rejected (h rfl) state]
    | _ => rfl
  | editText a =>
    refine ⟨s.log, applyItem_of_none hw ?_⟩
    cases hitem : w.item with
    | editText state =>
      rw [hitem] at h
      simp [editTextItem?, EditTextAttribute.applied?_of_rejected (h rfl) state]
    | _ => rfl
  | gravity =>
    refine ⟨s.log, applyItem_of_none hw ?_⟩
    cases hitem : w.item with
    | relativeLayout state =>
      rw [hitem] at h
      have hnone := h rfl
      simp_all [gravityItem?, RelativeLayoutState.applyGravity?, Property.settingOf?]
    | _ => rfl

/-- A property of the item that accepts a value sets the item. -/
theorem applyProperty_of_item (hw : s.widget? id = some w) (hp : w.item.has p = true)
    (hcommon : ∀ a, p ≠ .common a) {x : Setting}
    (hx : p.settingOf? (s.resolve id value) = some x) :
    ∃ item, s.applyProperty id p value = (true, s.setItem id item) ∧
      p.SetsItem x w item := by
  cases p with
  | common a => exact absurd rfl (hcommon a)
  | text a =>
    cases hitem : w.item with
    | text state =>
      obtain ⟨state', happlied, hself, hothers⟩ := TextAttribute.applied?_of_accepted hx state
      have hset : textItem? a (s.resolve id value) w.item = some (.text state') := by
        simp [textItem?, hitem, happlied]
      refine ⟨.text state', by rw [applyProperty, noteNotText_of_text hw hitem,
        applyItem_of_some hw hset], by rw [hitem]; rfl, fun _ => congrArg some hself, ?_⟩
      intro q hq t
      cases q with
      | text b =>
        have hb : b ≠ a := by
          rintro rfl
          exact hq rfl
        simp [Property.setting?, hitem, hothers b hb]
      | common b => rfl
      | _ => simp [Property.setting?, hitem]
    | _ =>
      rw [hitem] at hp
      cases hp
  | editText a =>
    cases hitem : w.item with
    | editText state =>
      obtain ⟨state', happlied, hself, hothers⟩ := EditTextAttribute.applied?_of_accepted hx state
      have hset : editTextItem? a (s.resolve id value) w.item = some (.editText state') := by
        simp [editTextItem?, hitem, happlied]
      refine ⟨.editText state', applyItem_of_some hw hset, by rw [hitem]; rfl,
        fun _ => congrArg some hself, ?_⟩
      intro q hq t
      cases q with
      | editText b =>
        have hb : b ≠ a := by
          rintro rfl
          exact hq rfl
        simp [Property.setting?, hitem, hothers b hb]
      | common b => rfl
      | _ => simp [Property.setting?, hitem]
    | _ =>
      rw [hitem] at hp
      cases hp
  | gravity =>
    cases hitem : w.item with
    | relativeLayout state =>
      obtain ⟨flags, hflags, rfl⟩ := Option.map_eq_some_iff.1 hx
      have hset : gravityItem? (s.resolve id value) w.item =
          some (.relativeLayout { state with gravity := flags }) := by
        simp [gravityItem?, hitem, RelativeLayoutState.applyGravity?, hflags]
      refine ⟨_, applyItem_of_some hw hset, by rw [hitem]; rfl, fun _ => rfl, ?_⟩
      intro q hq t
      cases q with
      | gravity => exact absurd rfl hq
      | common b => rfl
      | _ => simp [Property.setting?, hitem]
    | _ =>
      rw [hitem] at hp
      cases hp

/-- An attribute of the view that accepts a value sets the view. -/
theorem applyProperty_of_common (hw : s.widget? id = some w) (hrules : w.view.RulesDistinct)
    {a : CommonAttribute} {x : Setting} (hx : a.settingOf? (s.resolve id value) = some x) :
    ∃ view s', s.applyProperty id (.common a) value = (true, s') ∧ Touches id s s' ∧
      s'.kept = s.kept ∧ s'.widget? id = some { w with view := view } ∧
      a.applied? (s.resolve id value) w.view s.ids = some (view, s'.ids) ∧
      a.Sets x s.ids w.view s'.ids view := by
  obtain ⟨view, ids, happlied, hsets⟩ := CommonAttribute.applied?_of_accepted hx hrules s.ids
  have htouch := Touches.changeWidget id (fun widget => { widget with view := view }) s
  have hself : (s.changeView id fun _ => view).widget? id = some { w with view := view } := by
    rw [changeView, widget?_changeWidget_self, hw]
    rfl
  exact ⟨view, { s.changeView id fun _ => view with ids := ids },
    by simp [applyProperty, applyCommon, hw, happlied],
    ⟨hsets.le, htouch.others, htouch.length, htouch.managers, htouch.tags⟩,
    kept_changeWidget id _ s, hself, happlied, hsets⟩

/-- A value that a property accepts sets it and changes nothing else. -/
theorem applyProperty_of_accepted (hw : s.widget? id = some w) (hk : k.IsItem w.item)
    (hp : k.Has p) (hrules : w.view.RulesDistinct) {x : Setting}
    (h : p.settingOf? (s.resolve id value) = some x) :
    ∃ s' w', s.applyProperty id p value = (true, s') ∧ Touches id s s' ∧
      s'.widget? id = some w' ∧ p.Sets x s.ids w s'.ids w' := by
  by_cases hcommon : ∀ a, p ≠ .common a
  · obtain ⟨item, hrun, hset⟩ :=
      applyProperty_of_item hw ((Kind.has_iff_of_isItem hk).2 hp) hcommon h
    refine ⟨_, _, hrun, Touches.changeWidget id _ s, widget?_setItem hw item, ?_⟩
    rw [ids_setItem]
    exact hset.sets (Property.isParam_of_ne_common hcommon) hrules
  · push Not at hcommon
    obtain ⟨a, rfl⟩ := hcommon
    obtain ⟨view, s', hrun, htouches, -, hself, -, hsets⟩ := applyProperty_of_common hw hrules h
    exact ⟨s', _, hrun, htouches, hself, Property.sets_view hsets⟩

/-- Whatever the widget is, applying a property to it changes nothing else. -/
theorem touches_applyProperty (id : WidgetId) (p : Property) (value : Value) (s : Session) :
    Touches id s (s.applyProperty id p value).2 := by
  have hitem : ∀ (applied? : Item → Option Item) (s : Session),
      Touches id s (s.applyItem id applied?).2 := by
    intro applied? s
    unfold applyItem
    split
    · exact .refl id s
    · exact .changeWidget id _ s
  cases p with
  | common a =>
    simp only [applyProperty, applyCommon]
    split
    · exact .refl id s
    · split
      · exact .refl id s
      · next view ids happlied =>
        have hview : Touches id s (s.changeView id fun _ => view) := .changeWidget id _ s
        exact ⟨CommonAttribute.le_of_applied? happlied, hview.others, hview.length, hview.managers,
          hview.tags⟩
  | text a =>
    have hnote : Touches id s (s.noteNotText id a) := by
      unfold noteNotText
      split <;> exact ⟨le_refl s.ids, fun _ _ => rfl, rfl, rfl, rfl⟩
    exact hnote.trans (hitem _ _)
  | editText a => exact hitem _ s
  | gravity => exact hitem _ s

end Session

end LayoutEngine
