import LayoutEngine.Json.Printer
import LayoutEngine.Json.Record

/-!
# Events of copies

A copy tells how it fares: that it starts, how many percent are done, and at last that it finished,
well or not, or was cancelled. In JSON an event is an object with one member, named for the kind of
event, whose value is the record of its fields.
-/

namespace LayoutEngine

/-- What a copy tells, on the way and at its end. -/
inductive CopyEvent where
  | started (id : UInt64) (source : String)
  | progress (id : UInt64) (percent : UInt8)
  | finished (id : UInt64) (path : String) (success : Bool) (detail : String)
  | cancelled (id : UInt64) (path : String) (bytes : UInt64)
deriving DecidableEq, Repr

namespace CopyEvent

/-- The number of the copy that the event belongs to. -/
def id : CopyEvent → UInt64
  | .started id _ | .progress id _ | .finished id _ _ _ | .cancelled id _ _ => id

/-- The event is the last of its copy. -/
def isTerminal : CopyEvent → Bool
  | .finished .. | .cancelled .. => true
  | _ => false

/-- A number of 64 bits. -/
def word? (document : Json.Document) : Option UInt64 :=
  (document.natBelow? UInt64.size).map UInt64.ofNat

/-- A number of 8 bits. -/
def byte? (document : Json.Document) : Option UInt8 :=
  (document.natBelow? UInt8.size).map UInt8.ofNat

/-- The event of a kind with the fields that a document holds. -/
def ofFields? (kind : String) (document : Json.Document) : Option CopyEvent := do
  if kind = "Started" then
    match ← document.fields? ["copy_id", "source"] with
    | [some id, some source] => return .started (← word? id) (← source.text?)
    | _ => none
  else if kind = "Progress" then
    match ← document.fields? ["copy_id", "percent"] with
    | [some id, some percent] => return .progress (← word? id) (← byte? percent)
    | _ => none
  else if kind = "Finished" then
    match ← document.fields? ["copy_id", "path", "success", "detail"] with
    | [some id, some path, some success, some detail] =>
      return .finished (← word? id) (← path.text?) (← success.bool?) (← detail.text?)
    | _ => none
  else if kind = "Cancelled" then
    match ← document.fields? ["copy_id", "path", "bytes_written"] with
    | [some id, some path, some bytes] =>
      return .cancelled (← word? id) (← path.text?) (← word? bytes)
    | _ => none
  else none

/-- The event that a JSON text is. -/
def ofText? (text : String) : Option CopyEvent := do
  match ← Json.Document.read? text with
  | .object [(kind, fields)] => ofFields? (← Json.unitText? kind) fields
  | _ => none

/-- A record under its kind. -/
def tagged (kind : String) (fields : List (String × Json)) : Json :=
  .object [(kind, .object fields)]

/-- The event as JSON. -/
def json : CopyEvent → Json
  | .started id source =>
    tagged "Started" [("copy_id", .int id.toNat), ("source", .string source)]
  | .progress id percent =>
    tagged "Progress" [("copy_id", .int id.toNat), ("percent", .int percent.toNat)]
  | .finished id path success detail =>
    tagged "Finished"
      [("copy_id", .int id.toNat), ("path", .string path), ("success", .bool success),
        ("detail", .string detail)]
  | .cancelled id path bytes =>
    tagged "Cancelled"
      [("copy_id", .int id.toNat), ("path", .string path), ("bytes_written", .int bytes.toNat)]

end CopyEvent

end LayoutEngine
