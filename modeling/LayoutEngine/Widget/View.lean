import LayoutEngine.IdTable
import LayoutEngine.TagTable
import LayoutEngine.Widget.Dimension

/-!
# Views

Every widget has a view, which records what a toolkit would be told: the view's number, its parent,
its layout parameters, its appearance. `CommonAttribute` lists the attributes that widgets of all
kinds share, and `CommonAttribute.applied?` says what each of them does to a view. A value that the
attribute has no use for is rejected and changes nothing.
-/

namespace LayoutEngine

/-- Whether a view is seen, and whether it takes up space. -/
inductive Visibility where
  | visible
  | invisible
  | gone
deriving DecidableEq, Repr

namespace Visibility

/-- The name of a visibility, as it is shown. -/
def name : Visibility → String
  | .visible => "Visible"
  | .invisible => "Invisible"
  | .gone => "Gone"

/-- The word that stands for a visibility in a layout. -/
def word : Visibility → String
  | .visible => "visible"
  | .invisible => "invisible"
  | .gone => "gone"

/-- The visibility that a value stands for. -/
def ofValue? (value : Value) : Option Visibility :=
  value.string?.bind fun s =>
    [visible, invisible, gone].find? fun v => v.word = Text.trimmed s

end Visibility

/-- A position relative to a sibling or to the parent. -/
inductive RelativeRule where
  | below
  | above
  | leftOf
  | rightOf
  | alignParentTop
  | alignParentBottom
  | alignParentLeft
  | alignParentRight
  | centerInParent
deriving DecidableEq, Repr

namespace RelativeRule

/-- The name of a rule, as it is shown. -/
def name : RelativeRule → String
  | .below => "Below"
  | .above => "Above"
  | .leftOf => "LeftOf"
  | .rightOf => "RightOf"
  | .alignParentTop => "AlignParentTop"
  | .alignParentBottom => "AlignParentBottom"
  | .alignParentLeft => "AlignParentLeft"
  | .alignParentRight => "AlignParentRight"
  | .centerInParent => "CenterInParent"

/-- The attribute that sets the rule. -/
def attributeName : RelativeRule → String
  | .below => "layout_below"
  | .above => "layout_above"
  | .leftOf => "layout_toLeftOf"
  | .rightOf => "layout_toRightOf"
  | .alignParentTop => "layout_alignParentTop"
  | .alignParentBottom => "layout_alignParentBottom"
  | .alignParentLeft => "layout_alignParentLeft"
  | .alignParentRight => "layout_alignParentRight"
  | .centerInParent => "layout_centerInParent"

/-- The rule positions a view relative to a sibling, not to the parent. -/
def isSibling : RelativeRule → Bool
  | .below | .above | .leftOf | .rightOf => true
  | _ => false

/-- The rules, in order. -/
def all : List RelativeRule :=
  [.below, .above, .leftOf, .rightOf, .alignParentTop, .alignParentBottom, .alignParentLeft,
    .alignParentRight, .centerInParent]

end RelativeRule

/-- What a rule is relative to: the parent, or the view with a number. -/
inductive RuleAnchor where
  | parent
  | sibling (id : Int)
deriving DecidableEq, Repr

/-- What a view tells its parent about its place. The rules are in the order in which they were
first set. -/
structure LayoutParams where
  width : Dimension
  height : Dimension
  rules : List (RelativeRule × RuleAnchor)
deriving DecidableEq, Repr

namespace LayoutParams

/-- The parameters of a view that has just been given a parent. -/
def initial : LayoutParams := ⟨.wrapContent, .wrapContent, []⟩

end LayoutParams

/-- The properties of a view. -/
structure ViewState where
  id : Option Int
  parent : Option WidgetId
  params : Option LayoutParams
  visibility : Visibility
  padding : Int
  background : Option String
  enabled : Bool
  alpha : Single
  focusable : Bool
deriving DecidableEq, Repr

namespace ViewState

/-- The properties of a new view. -/
def initial : ViewState where
  id := none
  parent := none
  params := none
  visibility := .visible
  padding := 0
  background := none
  enabled := true
  alpha := .ofInt .binary32 1
  focusable := true

/-- The view with its layout parameters changed, from the initial ones if it had none. -/
def changeParams (change : LayoutParams → LayoutParams) (view : ViewState) : ViewState :=
  { view with params := some (change (view.params.getD .initial)) }

/-- The view under a parent, or under none. A parent's view needs layout parameters. -/
def attach (parent : Option WidgetId) (view : ViewState) : ViewState :=
  { view with
    parent := parent
    params := if parent.isSome then some (view.params.getD .initial) else view.params }

end ViewState

/-- The name of a view in a reference to it: `@+id/name`, `@id/name` or the name alone. -/
def referencedName (text : String) : String :=
  let trimmed := Text.trim text.toList
  String.ofList <|
    ((Text.after? ['@', '+', 'i', 'd', '/'] trimmed).orElse fun _ =>
      Text.after? ['@', 'i', 'd', '/'] trimmed).getD trimmed

/-- The attributes that all kinds of widgets have. -/
inductive CommonAttribute where
  | id
  | width
  | height
  | visibility
  | padding
  | background
  | enabled
  | alpha
  | rule (r : RelativeRule)
deriving DecidableEq, Repr

namespace CommonAttribute

/-- The name of an attribute in layouts. -/
def name : CommonAttribute → String
  | .id => "id"
  | .width => "layout_width"
  | .height => "layout_height"
  | .visibility => "visibility"
  | .padding => "padding"
  | .background => "background"
  | .enabled => "enabled"
  | .alpha => "alpha"
  | .rule r => r.attributeName

/-- The attributes of all views, in order. -/
def all : List CommonAttribute :=
  [.id, .width, .height, .visibility, .padding, .background, .enabled, .alpha] ++
    RelativeRule.all.map .rule

/-- The number of the view that a value refers to, and the table in which it has one. -/
def viewReference? (value : Value) (ids : IdTable) : Option (Int × IdTable) :=
  value.string?.bind fun s =>
    let name := referencedName s
    if name = "" then none else some (ids.internView name)

/-- What a rule does to a view. A rule relative to a sibling names it; one relative to the parent is
switched on or off. -/
def applyRule? (r : RelativeRule) (value : Value) (view : ViewState) (ids : IdTable) :
    Option (ViewState × IdTable) :=
  if r.isSibling then
    (viewReference? value ids).map fun (anchor, ids) =>
      (view.changeParams fun p => { p with rules := Entries.put r (.sibling anchor) p.rules }, ids)
  else
    value.bool?.map fun on =>
      (view.changeParams fun p =>
        { p with
          rules := if on then Entries.put r .parent p.rules else Entries.erase r p.rules },
        ids)

/-- The background that a value sets, if it sets one: a text, or none at all. -/
def background? : Value → Option (Option String)
  | .null => some none
  | .string color => some (some color)
  | _ => none

/-- The view and the numbered names after an attribute with a value is applied, unless the
attribute rejects the value. -/
def applied? (a : CommonAttribute) (value : Value) (view : ViewState) (ids : IdTable) :
    Option (ViewState × IdTable) :=
  match a with
  | .id => (viewReference? value ids).map fun (own, ids) => ({ view with id := some own }, ids)
  | .width =>
    (Dimension.ofValue? value).map fun d => (view.changeParams ({ · with width := d }), ids)
  | .height =>
    (Dimension.ofValue? value).map fun d => (view.changeParams ({ · with height := d }), ids)
  | .visibility => (Visibility.ofValue? value).map fun v => ({ view with visibility := v }, ids)
  | .padding =>
    (value.int?.filter (Numeral.fitsSigned 32)).map fun n => ({ view with padding := n }, ids)
  | .background => (background? value).map fun color => ({ view with background := color }, ids)
  | .enabled => value.bool?.map fun b => ({ view with enabled := b }, ids)
  | .alpha =>
    value.float?.map fun x => ({ view with alpha := x.clampUnit.convert .binary32 }, ids)
  | .rule r => applyRule? r value view ids

end CommonAttribute

end LayoutEngine
