import LayoutEngine.TagTable
import LayoutEngine.Text.Quoted

/-!
# Notices

What the engine tells a reader while it works, and how urgently. A notice is a fact; its text is
made by `Notice.message`. None of them changes what the engine does.
-/

namespace LayoutEngine

/-- How urgent a notice is. -/
inductive Level where
  | debug
  | info
  | warn
deriving DecidableEq, Repr

namespace Level

/-- The level as it is written in front of a notice. -/
def name : Level → String
  | .debug => "DEBUG"
  | .info => "INFO"
  | .warn => "WARN"

end Level

/-- The environment variable that overrides whether the engine is verbose. -/
def verboseVariable : String := "TRELLIS_VERBOSE"

/-- What the engine has to tell, for a log. -/
inductive Notice where
  | parserReplaced (viewType : String)
  | layoutLoaded (name viewType : String)
  | layoutsLoaded (count : Nat) (path : String)
  | noParser (viewType : String)
  | placeholder (viewType : String)
  | managerAttached (viewType : String) (widget : WidgetId)
  | managerKept (widget : WidgetId)
  | attributeHandled (widget : WidgetId) (viewType name value : String)
  | attributeRejected (widget : WidgetId) (viewType name value : String)
  | attributeEdited (widget : WidgetId) (name value : String)
  | noManagerForChildren (widget : WidgetId)
  | childNoLayout (widget : WidgetId)
  | childrenReplaced (count : Nat) (widget : WidgetId)
  | notText (kind name : String)
  | managerOutlived (widget : WidgetId)
  | overrideIgnored (value : String)
  | copied (source path : String)
  | copyFailed (source reason : String)
  | copyCancelled (path : String) (bytes : Nat)
deriving DecidableEq, Repr

namespace Notice

/-- How important a notice is. -/
def level : Notice → Level
  | .layoutsLoaded .. => .info
  | .placeholder .. | .notText .. | .overrideIgnored .. | .copyFailed .. => .warn
  | _ => .debug

/-- The text of a notice. -/
def message : Notice → String
  | .parserReplaced viewType => "replaced parser for '" ++ viewType ++ "'"
  | .layoutLoaded name viewType => "loaded layout '" ++ name ++ "' (" ++ viewType ++ ")"
  | .layoutsLoaded count path => "loaded " ++ toString count ++ " layouts from " ++ path
  | .noParser viewType => "no parser registered for '" ++ viewType ++ "'"
  | .placeholder viewType => "no parser for '" ++ viewType ++ "', using a placeholder view"
  | .managerAttached viewType widget =>
    "attached '" ++ viewType ++ "' manager to " ++ widget.text
  | .managerKept widget => widget.text ++ " already has a manager, keeping it"
  | .attributeHandled widget viewType name value =>
    widget.text ++ " '" ++ viewType ++ "': " ++ name ++ " = " ++ value
  | .attributeRejected widget viewType name value =>
    widget.text ++ " '" ++ viewType ++ "': attribute " ++ name ++ " = " ++ value ++ " rejected"
  | .attributeEdited widget name value =>
    "edited " ++ widget.text ++ " " ++ name ++ " = " ++ value
  | .noManagerForChildren widget => widget.text ++ " has no manager, cannot inflate children"
  | .childNoLayout widget => "non-layout child given to " ++ widget.text
  | .childrenReplaced count widget =>
    "replaced " ++ toString count ++ " children of " ++ widget.text
  | .notText kind name => "text parser got a '" ++ kind ++ "' widget for '" ++ name ++ "'"
  | .managerOutlived widget => "manager for " ++ widget.text ++ " outlived its widget"
  | .overrideIgnored value => "ignoring " ++ verboseVariable ++ "=" ++ Text.quoted value
  | .copied source path => "copied " ++ source ++ " to " ++ path
  | .copyFailed source reason => "copy of " ++ source ++ " failed: " ++ reason
  | .copyCancelled path bytes =>
    "copy to " ++ path ++ " cancelled after " ++ toString bytes ++ " bytes"

/-- The notice as a line of a log. -/
def line (notice : Notice) : String := notice.level.name ++ " " ++ notice.message

end Notice

end LayoutEngine
