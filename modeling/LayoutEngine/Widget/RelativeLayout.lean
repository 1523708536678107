import LayoutEngine.Value.Reading

/-!
# Containers

A container places its children relative to itself and to each other. Its own state is the gravity
of its content, a list of flags, and the transition with which children come and go.
-/

namespace LayoutEngine

/-- Where a container's content gathers. -/
inductive Gravity where
  | top
  | bottom
  | left
  | right
  | leading
  | trailing
  | center
  | centerVertical
  | centerHorizontal
deriving DecidableEq, Repr

namespace Gravity

/-- The word for a gravity in layouts. -/
def word : Gravity → String
  | .top => "top"
  | .bottom => "bottom"
  | .left => "left"
  | .right => "right"
  | .leading => "start"
  | .trailing => "end"
  | .center => "center"
  | .centerVertical => "center_vertical"
  | .centerHorizontal => "center_horizontal"

/-- The gravities, in order. -/
def all : List Gravity :=
  [.top, .bottom, .left, .right, .leading, .trailing, .center, .centerVertical, .centerHorizontal]

/-- The gravity of a word. -/
def ofWord? (word : String) : Option Gravity := all.find? (·.word = word)

/-- The flags that a text lists between bars. Empty places are skipped, but some flag there must
be, and no word that is none. -/
def listOfText? (s : String) : Option (List Gravity) :=
  let words := ((Text.pieces '|' s.toList).map Text.trim).filter (· ≠ [])
  if words = [] then none else words.mapM fun word => ofWord? (String.ofList word)

end Gravity

/-- How children come and go. -/
structure LayoutTransition where
  changing : Bool
  disappearing : Bool
  milliseconds : Nat
deriving DecidableEq, Repr

/-- What a container holds, children apart. -/
structure RelativeLayoutState where
  gravity : List Gravity
  transition : LayoutTransition
deriving DecidableEq, Repr

namespace RelativeLayoutState

/-- A new container. -/
def initial : RelativeLayoutState := ⟨[], ⟨true, false, 180⟩⟩

/-- What a description says of a container. -/
def summary (state : RelativeLayoutState) : String :=
  match state.gravity with
  | [] => ""
  | flags => "gravity=" ++ "|".intercalate (flags.map Gravity.word)

end RelativeLayoutState

/-- The attributes that containers have besides those of all views. -/
inductive ContainerAttribute where
  | children
  | gravity
deriving DecidableEq, Repr

namespace ContainerAttribute

/-- The name of an attribute in layouts. -/
def name : ContainerAttribute → String
  | .children => "children"
  | .gravity => "gravity"

/-- The attributes of containers, in order. -/
def all : List ContainerAttribute := [.children, .gravity]

end ContainerAttribute

namespace RelativeLayoutState

/-- The state after a gravity is applied, unless the value is none. -/
def applyGravity? (value : Value) (state : RelativeLayoutState) : Option RelativeLayoutState :=
  (value.string?.bind Gravity.listOfText?).map fun flags => { state with gravity := flags }

end RelativeLayoutState

end LayoutEngine
