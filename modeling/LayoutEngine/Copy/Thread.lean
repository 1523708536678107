import LayoutEngine.Copy.Task

/-!
# Copies at work

A copy works on a thread of its own, a step at a time, and between any two of its steps somebody
may set the flag. The thread tells that it starts, opens its source and makes its destination. Then
it looks at the flag, reads, writes and tells how many percent are done, in turns, until there is
one last event to send. A thread that waits to send stands before that step until it is taken.

`CopyThread` is a copy at one moment: what it is about to do and what it has done. A `Turn` is what
happens next; besides the steps of the thread and the setting of the flag, the system may interrupt
a read, or refuse to open, read or write. `step?` gives the thread after a turn and `run?` after
turn upon turn. Where nothing is refused it ends with an outcome of `CopyTask.run`.
-/

namespace LayoutEngine

namespace Copy

/-- How many bytes a read brings where some are left: at least one, at most a chunk. -/
def readSize (limit : Nat) : Nat := max 1 (min limit chunkLimit)

/-- How many percent are done, where there is a size to take percentages of. -/
def percentAt (size total : Nat) : Option UInt8 :=
  if size = 0 then none else some (percentOf size total)

/-- What happens next around a copy. -/
inductive Turn where
  /-- Somebody sets the flag. -/
  | cancel
  /-- The thread takes its next step. Where this is a read, it brings at most so many bytes. -/
  | go (limit : Nat)
  /-- A read is interrupted and has brought nothing. -/
  | interrupt
  /-- The system refuses to open, read or write. Of a chunk it has taken the first bytes. -/
  | refuse (reason : FileError) (kept : Nat)
deriving DecidableEq, Repr

namespace Turn

/-- The turn takes the thread a step further, be it to its end. -/
def isStep : Turn → Bool
  | .go _ | .refuse _ _ => true
  | .cancel | .interrupt => false

/-- A read is interrupted. -/
def isInterrupt : Turn → Bool
  | .interrupt => true
  | _ => false

/-- The system refuses something. -/
def isRefusal : Turn → Bool
  | .refuse _ _ => true
  | _ => false

end Turn

/-- A copy between its two open files: what it is called and where, the places of source and
destination, and how long the source was when it was opened. -/
structure Job where
  name : String
  path : String
  origin : Place
  place : Place
  size : Nat
deriving DecidableEq, Repr

/-- What a copy is about to do. -/
inductive Stage where
  | starting
  | opening
  | creating (name path : String) (origin : Place) (size : Nat)
  | looking (job : Job)
  | reading (job : Job)
  | writing (job : Job) (chunk : List UInt8)
  | telling (job : Job) (percent : UInt8)
  | ending (event : CopyEvent)
  | ended
deriving DecidableEq, Repr

end Copy

open Copy

/-- A copy at one moment: what it is about to do, whether the flag is set and how often it has
looked, the files, the paths it has asked to open for writing, the place where it has made its
destination, the chunks it has written, the percentage it has told last, the events it has sent
and what the log says. -/
structure CopyThread where
  stage : Stage
  stopped : Bool
  looks : Nat
  files : FileSystem
  asked : List String
  made : Option Place
  writes : List (List UInt8)
  last : Option UInt8
  sent : List CopyEvent
  log : List Notice

namespace CopyThread

/-- A copy that has done nothing yet. -/
def fresh (files : FileSystem) : CopyThread :=
  ⟨.starting, false, 0, files, [], none, [], none, [], []⟩

/-- The bytes that the copy has written. -/
def written (thread : CopyThread) : List UInt8 := thread.writes.flatten

/-- What has come of the copy so far. -/
def outcome (thread : CopyThread) : CopyOutcome := ⟨thread.sent, thread.files, thread.log⟩

/-- Sends an event and goes on. -/
def send (event : CopyEvent) (next : Stage) (thread : CopyThread) : CopyThread :=
  { thread with stage := next, sent := thread.sent ++ [event] }

/-- Has failed, and is to tell so of a path. -/
def fail (task : CopyTask) (path : String) (e : CopyError) (thread : CopyThread) : CopyThread :=
  { thread with
    stage := .ending (.finished task.id path false e.message)
    log := thread.log ++ [.copyFailed task.source e.message] }

/-- Finds the source's path and opens it. -/
def openSource (task : CopyTask) (thread : CopyThread) : CopyThread :=
  match task.names with
  | .error e => thread.fail task task.directory e
  | .ok (source, name) =>
    let path := pathIn task.directory name
    match thread.files.openNode source with
    | .error e => thread.fail task path (.file e)
    | .ok (origin, node) =>
      { thread with stage := .creating name path origin node.bytes.length }

/-- Asks to open a path for writing. -/
def ask (path : String) (thread : CopyThread) : CopyThread :=
  { thread with asked := thread.asked ++ [path] }

/-- Makes the destination, which is empty then. -/
def create (task : CopyTask) (name path : String) (origin : Place) (size : Nat)
    (thread : CopyThread) : CopyThread :=
  match thread.files.writable path with
  | .error e => (thread.ask path).fail task path (.file e)
  | .ok place =>
    { thread.ask path with
      stage := .looking ⟨name, path, origin, place, size⟩
      made := some place
      files := thread.files.put place (.file []) }

/-- Looks at the flag. -/
def look (task : CopyTask) (job : Job) (thread : CopyThread) : CopyThread :=
  { thread with
    looks := thread.looks + 1
    stage :=
      if thread.stopped then
        .ending (.cancelled task.id job.path (UInt64.ofNat thread.written.length))
      else .reading job }

/-- Reads on in the source. Where nothing is left the copy is done. -/
def read (task : CopyTask) (job : Job) (limit : Nat) (thread : CopyThread) : CopyThread :=
  match thread.files.readFrom job.origin thread.written.length with
  | .error e => thread.fail task job.path (.file e)
  | .ok [] =>
    { thread with
      stage := .ending (.finished task.id job.path true job.name)
      log := thread.log ++ [.copied task.source job.path] }
  | .ok left => { thread with stage := .writing job (left.take (readSize limit)) }

/-- Adds bytes to the destination. -/
def put (job : Job) (chunk : List UInt8) (thread : CopyThread) : CopyThread :=
  { thread with
    files := thread.files.append job.place chunk
    writes := thread.writes ++ [chunk] }

/-- Writes a chunk. If the percentage is a new one then, it is to be told. -/
def write (job : Job) (chunk : List UInt8) (thread : CopyThread) : CopyThread :=
  let thread := thread.put job chunk
  match percentAt job.size thread.written.length with
  | none => { thread with stage := .looking job }
  | some percent =>
    if thread.last = some percent then { thread with stage := .looking job }
    else { thread with stage := .telling job percent, last := some percent }

/-- The thread's next step; none if it has ended. -/
def go? (task : CopyTask) (limit : Nat) (thread : CopyThread) : Option CopyThread :=
  match thread.stage with
  | .starting => some (thread.send (.started task.id task.source) .opening)
  | .opening => some (thread.openSource task)
  | .creating name path origin size => some (thread.create task name path origin size)
  | .looking job => some (thread.look task job)
  | .reading job => some (thread.read task job limit)
  | .writing job chunk => some (thread.write job chunk)
  | .telling job percent => some (thread.send (.progress task.id percent) (.looking job))
  | .ending event => some (thread.send event .ended)
  | .ended => none

/-- A step that the system refuses; none where the thread asks nothing of it. -/
def refuse? (task : CopyTask) (reason : FileError) (kept : Nat) (thread : CopyThread) :
    Option CopyThread :=
  match thread.stage with
  | .opening =>
    match task.names with
    | .error _ => none
    | .ok (_, name) => some (thread.fail task (pathIn task.directory name) (.file reason))
  | .creating _ path _ _ => some ((thread.ask path).fail task path (.file reason))
  | .reading job => some (thread.fail task job.path (.file reason))
  | .writing job chunk =>
    if kept < chunk.length then
      some ((thread.put job (chunk.take kept)).fail task job.path (.file reason))
    else none
  | _ => none

/-- An interrupted read, after which the thread looks at the flag again. -/
def interrupt? (thread : CopyThread) : Option CopyThread :=
  match thread.stage with
  | .reading job => some { thread with stage := .looking job }
  | _ => none

/-- The thread after a turn, if the turn can come. -/
def step? (task : CopyTask) (turn : Turn) (thread : CopyThread) : Option CopyThread :=
  match turn with
  | .cancel => some { thread with stopped := true }
  | .go limit => thread.go? task limit
  | .interrupt => thread.interrupt?
  | .refuse reason kept => thread.refuse? task reason kept

/-- The thread after turn upon turn, if they can come. -/
def run? (task : CopyTask) : List Turn → CopyThread → Option CopyThread
  | [], thread => some thread
  | turn :: rest, thread => (thread.step? task turn).bind (run? task rest)

end CopyThread

end LayoutEngine
