import LayoutEngine.Floating.Text
import LayoutEngine.Session.Basic

/-!
# Inspecting a session

For a developer's eyes, widgets, managers and contexts are written as records: the name of the kind
and, between braces, the fields with their values. A value that may be missing is `None` or stands
in `Some`.
-/

namespace LayoutEngine.Inspect

/-- A record with named fields. -/
def record (name : String) (fields : List (String × String)) : String :=
  let texts := fields.map fun (field, value) => field ++ ": " ++ value
  name ++ " \x7b " ++ ", ".intercalate texts ++ " \x7d"

/-- A kind with one argument. -/
def wrapped (name value : String) : String := name ++ "(" ++ value ++ ")"

/-- A value that may be missing. -/
def optional {α : Type} (text : α → String) : Option α → String
  | none => "None"
  | some value => wrapped "Some" (text value)

/-- How a truth value is shown. -/
def bool (b : Bool) : String := if b then "true" else "false"

/-- How the number of a widget is shown. -/
def widgetId (id : WidgetId) : String := wrapped "WidgetId" (toString id.number)

/-- How a dimension is shown. -/
def dimension : Dimension → String
  | .matchParent => "MatchParent"
  | .wrapContent => "WrapContent"
  | .pixels n => wrapped "Pixels" (toString n)

/-- How an anchor is shown. -/
def anchor : RuleAnchor → String
  | .parent => "Parent"
  | .sibling id => wrapped "Sibling" (toString id)

/-- How rules are shown. -/
def rules (entries : List (RelativeRule × RuleAnchor)) : String :=
  "\x7b" ++ ", ".intercalate (entries.map fun (rule, a) => rule.name ++ ": " ++ anchor a) ++ "\x7d"

/-- How layout params are shown. -/
def layoutParams (params : LayoutParams) : String :=
  record "LayoutParams"
    [("width", dimension params.width), ("height", dimension params.height),
      ("rules", rules params.rules)]

/-- How the state of a view is shown. -/
def viewState (view : ViewState) : String :=
  record "ViewState"
    [("id", optional toString view.id), ("parent", optional widgetId view.parent),
      ("layout_params", optional layoutParams view.params), ("visibility", view.visibility.name),
      ("padding", toString view.padding), ("background", optional Text.quoted view.background),
      ("enabled", bool view.enabled), ("alpha", FloatStyle.inspection.text view.alpha),
      ("focusable", bool view.focusable)]

/-- How a widget is shown. -/
def widget (id : WidgetId) (w : Widget) : String :=
  record "View"
    [("widget_id", widgetId id), ("kind", Text.quoted w.item.kind),
      ("attached", bool w.manager.isSome), ("state", viewState w.view),
      ("children", toString w.children.length)]

/-- How a manager is shown. -/
def manager (m : Manager) : String :=
  record "Manager"
    [("widget_id", widgetId m.widget), ("view_type", Text.quoted m.layout.viewType),
      ("parser", Text.quoted m.parser.typeName), ("parent", optional widgetId m.parent),
      ("data_index", toString m.index)]

/-- How a configuration is shown. -/
def config (verbose : Bool) : String := record "InflaterConfig" [("verbose", bool verbose)]

/-- How a context is shown. -/
def context (c : Context) : String :=
  record "EditorContext"
    [("parsers", toString c.registry.size), ("layouts", toString c.layouts.size),
      ("callback", bool c.fallback.isSome), ("config", config c.verbose)]

/-- The engine of a session in a context. -/
def engine (c : Context) (s : Session) : String :=
  record "Inflater"
    [("context", context c), ("ids", toString s.ids.size),
      ("tagged_widgets", toString s.tags.size)]

end LayoutEngine.Inspect
