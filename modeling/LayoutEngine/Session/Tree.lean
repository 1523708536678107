import LayoutEngine.Session.Basic

/-!
# Widget trees

The widgets below a widget are visited in preorder: a widget before its children, the children in
order. `Session.describe?` writes one line for each, `Session.findView?` looks for the first whose
view has a number. Children lists are whatever has been put into them, so a walk may not end; one
that goes deeper than there are widgets is given up, and has no result.

`Session.living` tells which widgets somebody still holds on to.
-/

namespace LayoutEngine.Session

/-- A widget and those below it in preorder, each with its depth, if none is deeper than the
fuel allows. -/
def preorderWithin (s : Session) : Nat → Nat → WidgetId → Option (List (Nat × WidgetId))
  | 0, _, _ => none
  | fuel + 1, depth, id => do
    let below ← (s.childrenOf id).mapM fun child => preorderWithin s fuel (depth + 1) child
    return (depth, id) :: below.flatten

/-- A widget and those below it in preorder, each with its depth. -/
def preorder? (s : Session) (root : WidgetId) : Option (List (Nat × WidgetId)) :=
  s.preorderWithin (s.widgets.length + 1) 0 root

/-- The parts of a widget's description, without the blanks between them. -/
def descriptionParts (s : Session) (id : WidgetId) (widget : Widget) : List String :=
  let name := (widget.view.id.map fun id => "id=" ++ s.ids.describeView id).toList
  let index :=
    match widget.manager.bind s.manager? with
    | some manager => if 0 ≤ manager.index then ["index=" ++ toString manager.index] else []
    | none => []
  let visibility := if widget.view.visibility = .visible then [] else [widget.view.visibility.word]
  let summary := if widget.item.summary = "" then [] else [widget.item.summary]
  [widget.item.kind, id.text] ++ name ++ index ++ visibility ++ summary

/-- The line that describes a widget at a depth. -/
def describeLine (s : Session) (depth : Nat) (id : WidgetId) : String :=
  match s.widget? id with
  | none => ""
  | some widget =>
    String.ofList (List.replicate (2 * depth) ' ') ++
      " ".intercalate (s.descriptionParts id widget) ++ "\n"

/-- A line for a widget and each below it, indented by depth. -/
def describe? (s : Session) (root : WidgetId) : Option String := do
  let widgets ← s.preorder? root
  return String.join (widgets.map fun (depth, id) => s.describeLine depth id)

/-- The first result that a search of widgets one after the other has. -/
def firstFound (search : WidgetId → Option (Option WidgetId)) :
    List WidgetId → Option (Option WidgetId)
  | [] => some none
  | id :: rest =>
    match search id with
    | some none => firstFound search rest
    | result => result

/-- The first widget in preorder whose view has the number, as far as the fuel allows. -/
def findViewWithin (s : Session) (view : Int) : Nat → WidgetId → Option (Option WidgetId)
  | 0, _ => none
  | fuel + 1, id =>
    if (s.widget? id).bind (·.view.id) = some view then some (some id)
    else firstFound (findViewWithin s view fuel) (s.childrenOf id)

/-- The first widget in preorder whose view has the number; none if there is none, and no result if
the search does not end. -/
def findView? (s : Session) (view : Int) (root : WidgetId) : Option (Option WidgetId) :=
  s.findViewWithin view (s.widgets.length + 1) root

/-- Those of the widgets that are held from outside or that one of them has as a child. -/
def stillHeld (s : Session) (held ids : List WidgetId) : List WidgetId :=
  ids.filter fun id => held.contains id || ids.any fun other => (s.childrenOf other).contains id

/-- Lets go of widgets until all that are left are held, with fuel for as many rounds. -/
def letGo (s : Session) (held : List WidgetId) : Nat → List WidgetId → List WidgetId
  | 0, ids => ids
  | fuel + 1, ids =>
    let left := s.stillHeld held ids
    if left.length = ids.length then ids else letGo s held fuel left

/-- The widgets that are left when those are let go, again and again, that neither somebody outside
nor another widget holds. -/
def living (s : Session) (held : List WidgetId) : List WidgetId :=
  s.letGo held s.widgets.length ((List.range s.widgets.length).map fun n => ⟨n + 1⟩)

end LayoutEngine.Session
