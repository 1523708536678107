import LayoutEngine.Session.Inflate

/-!
# Updates

An update gives a manager new data and applies the bound attributes of its widget's layout again,
then does the same with the managers of the widget's children. Nothing is made anew. The answer is
how many bound attributes were accepted.

A manager may outlive its widget; `alive` says which widgets are still there. The walk goes from
manager to manager. One that meets a manager on the way from itself would go on for ever, so a walk
deeper than there are managers is given up.
-/

namespace LayoutEngine

namespace Context

/-- Applies the bound attributes among attributes; how many were accepted. -/
def applyBoundBy (context : Context) (host : Host) (parser : ViewParser) (id : WidgetId) :
    List Attribute → Engine Nat
  | [] => return 0
  | ⟨a, value⟩ :: rest => do
    let accepted ←
      if value.isBinding then value.applyBy context host parser id a else pure false
    let more ← applyBoundBy context host parser id rest
    return (if accepted then 1 else 0) + more

/-- Updates managers that are there, one after the other, and adds up the answers. -/
def sumUpdates (update : ManagerId → Engine Nat) : List WidgetId → Engine Nat
  | [] => return 0
  | id :: rest => do
    let accepted ← match ← Engine.look fun s => (s.widget? id).bind (·.manager) with
      | some manager => update manager
      | none => pure 0
    let more ← sumUpdates update rest
    return accepted + more

/-- Updates a manager and those below it, to a depth. -/
def updateWithinBy (context : Context) (host : Host) (alive : WidgetId → Bool) (data : Fields) :
    Nat → ManagerId → Engine Nat
  | 0, _ => throw .endless
  | depth + 1, id => do
    Engine.change (·.setData id data)
    match ← Engine.look (·.manager? id) with
    | none => return 0
    | some manager =>
      if alive manager.widget then
        let own ← context.applyBoundBy host manager.parser manager.widget manager.layout.attributes
        let children ← Engine.look (·.childrenOf manager.widget)
        let below ← sumUpdates (updateWithinBy context host alive data depth) children
        return own + below
      else
        Engine.change (·.note (.managerOutlived manager.widget))
        return 0

/-- Updates a manager and those below it, where parsers are those of a host. -/
def updateBy (context : Context) (host : Host) (alive : WidgetId → Bool) (id : ManagerId)
    (data : Fields) : Engine Nat := do
  context.updateWithinBy host alive data ((← Engine.look (·.managers.length)) + 1) id

/-- Updates a manager and those below it. -/
def update (context : Context) (alive : WidgetId → Bool) (id : ManagerId) (data : Fields) :
    Engine Nat :=
  context.updateBy context.host alive id data

end Context

end LayoutEngine
