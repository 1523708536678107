import LayoutEngine.Copy.Event
import LayoutEngine.Copy.Source
import LayoutEngine.Notice

/-!
# Copying files

A copy takes one file into a directory, a chunk at a time. Before each chunk it looks whether it
has been told to stop. After each chunk it tells how many percent of the file are done, if the
number has changed. What has been written stays, also when the copy is stopped or fails.

`Conditions` holds what a copy cannot foresee: how much each read brings, and from which look on
the flag is set. `CopyTask.run` gives the events of a copy and the files it leaves, and
`CopyTask.runUnread` does so for a copy that is stopped before anyone takes its events. `drive`
hands the events of one copy to whoever waits for them, up to the last.
-/

namespace LayoutEngine

namespace Copy

/-- The most that one read brings. -/
def chunkLimit : Nat := 8192

/-- What happens around a copy: the most that the `n`-th read brings, and whether the flag is set
when the copy looks for the `n`-th time. -/
structure Conditions where
  readLimit : Nat → Nat
  stopped : Nat → Bool

namespace Conditions

/-- Each read brings a whole chunk and nobody stops the copy. -/
def undisturbed : Conditions := ⟨fun _ => chunkLimit, fun _ => false⟩

/-- Each read brings a whole chunk and the copy is stopped after some of them. -/
def stoppedAfter (chunks : Nat) : Conditions := ⟨fun _ => chunkLimit, fun n => chunks ≤ n⟩

/-- How many bytes the `n`-th read brings where some are left: at least one, at most a chunk. -/
def readSize (c : Conditions) (n : Nat) : Nat := max 1 (min (c.readLimit n) chunkLimit)

/-- A read gives something, as long as there is something left. -/
theorem readSize_pos (c : Conditions) (n : Nat) : 0 < c.readSize n := by
  unfold readSize
  omega

end Conditions

/-- How many percent of a positive size a number of bytes is. The product is kept to 64 bits. -/
def percentOf (size total : Nat) : UInt8 :=
  UInt8.ofNat (min (min (total * 100) (UInt64.size - 1) / size) 100)

/-- What came of a transfer: the bytes written, the percentages told on the way, and whether it
was stopped. -/
structure Transfer where
  written : List UInt8
  percents : List UInt8
  stopped : Bool
deriving DecidableEq, Repr

namespace Transfer

/-- Transfers what is left, from the `n`-th look on, when `total` bytes have been written and `last`
is the percentage last told. A size of zero is no size to take percentages of. -/
def run (c : Conditions) (size n total : Nat) (last : Option UInt8) (left : List UInt8) :
    Transfer :=
  if c.stopped n then ⟨[], [], true⟩
  else if _ : left = [] then ⟨[], [], false⟩
  else
    let chunk := left.take (c.readSize n)
    let total := total + chunk.length
    let percent := if size = 0 then none else some (percentOf size total)
    let fresh := if percent = last then [] else percent.toList
    let rest := run c size (n + 1) total percent (left.drop (c.readSize n))
    ⟨chunk ++ rest.written, fresh ++ rest.percents, rest.stopped⟩
termination_by left.length
decreasing_by
  have := c.readSize_pos n
  have := List.length_pos_iff.2 ‹_›
  simp only [List.length_drop]
  omega

end Transfer

/-- What came of copying a file that could be opened. -/
structure FileCopy where
  result : Except FileError Transfer
  files : FileSystem

/-- Copies an open file to a path. The file that is made there is empty at first, so that a file
copied onto itself is emptied; its size was taken before. A directory can be opened but not
read. -/
def copyOpened (c : Conditions) (fs : FileSystem) (source : Place) (node : FileNode)
    (path : String) : FileCopy :=
  match fs.writable path with
  | .error e => ⟨.error e, fs⟩
  | .ok place =>
    let emptied := fs.put place (.file [])
    match node with
    | .directory =>
      if c.stopped 0 then ⟨.ok ⟨[], [], true⟩, emptied⟩ else ⟨.error .isADirectory, emptied⟩
    | .file bytes =>
      let left := if place = source then [] else bytes
      let transfer := Transfer.run c bytes.length 0 0 none left
      ⟨.ok transfer, fs.put place (.file transfer.written)⟩

/-- Copies the file at a path to another path. -/
def copyFile (c : Conditions) (fs : FileSystem) (source path : String) : FileCopy :=
  match fs.openNode source with
  | .error e => ⟨.error e, fs⟩
  | .ok (place, node) => copyOpened c fs place node path

end Copy

/-- A copy to be made. -/
structure CopyTask where
  id : UInt64
  source : String
  directory : String
deriving DecidableEq, Repr

/-- What came of a copy: its events in order, the files it left, and what the log says. -/
structure CopyOutcome where
  events : List CopyEvent
  files : FileSystem
  log : List Notice

namespace CopyTask

/-- The end of a copy that fails. -/
def failed (task : CopyTask) (path : String) (e : CopyError) (files : FileSystem) : CopyOutcome :=
  ⟨[.started task.id task.source, .finished task.id path false e.message], files,
    [.copyFailed task.source e.message]⟩

/-- The path behind the source, and the name that the copy will have. -/
def names (task : CopyTask) : Except CopyError (String × String) := do
  let path ← Copy.sourcePath? task.source
  match Copy.fileName? path with
  | some name => return (path, name)
  | none => throw (.noFileName task.source)

/-- Makes the copy. -/
def run (c : Copy.Conditions) (fs : FileSystem) (task : CopyTask) : CopyOutcome :=
  match task.names with
  | .error e => task.failed task.directory e fs
  | .ok (source, name) =>
    let path := Copy.pathIn task.directory name
    let copy := Copy.copyFile c fs source path
    match copy.result with
    | .error e => task.failed path (.file e) copy.files
    | .ok transfer =>
      let events := .started task.id task.source :: transfer.percents.map (.progress task.id)
      if transfer.stopped then
        let bytes := UInt64.ofNat transfer.written.length
        ⟨events ++ [.cancelled task.id path bytes], copy.files, []⟩
      else
        ⟨events ++ [.finished task.id path true name], copy.files,
          [.copied task.source path]⟩

/-- Makes the copy while nobody takes its events, through a channel that holds as many events as
chunks are to be written before the copy is told to stop. Where every chunk had a percentage to
tell, the copy waits with the last of them and then sees that it has to stop. Otherwise the
channel is not full, and the copy has gone on by a chunk before it looks. -/
def runUnread (capacity : Nat) (fs : FileSystem) (task : CopyTask) : CopyOutcome :=
  let waiting := task.run (.stoppedAfter capacity) fs
  if capacity < (waiting.events.filter (!·.isTerminal)).length then waiting
  else task.run (.stoppedAfter (capacity + 1)) fs

end CopyTask

/-- What whoever waits for a copy is told. -/
inductive CopyCall where
  | starting
  | progress (percent : UInt8)
  | finished (path : String) (success : Bool) (detail : String)
  | cancelled (path : String) (bytes : UInt64)
deriving DecidableEq, Repr

namespace CopyCall

/-- What an event tells. -/
def ofEvent : CopyEvent → CopyCall
  | .started _ _ => .starting
  | .progress _ percent => .progress percent
  | .finished _ path success detail => .finished path success detail
  | .cancelled _ path bytes => .cancelled path bytes

/-- What the log says of a call that nobody has a use for: only of a cancellation anything. -/
def unheard : CopyCall → List Notice
  | .cancelled path bytes => [.copyCancelled path bytes.toNat]
  | _ => []

end CopyCall

namespace CopyTask

/-- Tells the events of one copy up to its last, and leaves what comes after it. Events of other
copies on the way are dropped. -/
def drive (id : UInt64) : List CopyEvent → List CopyCall × List CopyEvent
  | [] => ([], [])
  | event :: rest =>
    if event.id ≠ id then drive id rest
    else if event.isTerminal then ([CopyCall.ofEvent event], rest)
    else
      let (calls, left) := drive id rest
      (CopyCall.ofEvent event :: calls, left)

end CopyTask

end LayoutEngine
