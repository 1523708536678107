import LayoutEngine.Proofs.FileSystem
import LayoutEngine.Proofs.Turns

/-!
# What holds of a copy at work

`CopyThread.Sound` says of a thread what holds of it before each of its steps, and every turn keeps
it (`Sound.moves`, `sound_of_run?`): before the destination is made the files are as they were, from
then on the destination holds just what has been written, which are first bytes of the source, and
the events so far are the start and rising percentages. `Verdict` says how a copy comes to the event
that it ends with.
-/

namespace LayoutEngine

open Copy

/-- What there is to copy: nothing, where making the destination has emptied the source. -/
def Copy.Job.contents (job : Job) (node : FileNode) : List UInt8 :=
  if job.place = job.origin then [] else node.bytes

namespace CopyThread

/-! ## Percentages -/

/-- The percentage as a number, with the product cut off at the end of its range. -/
theorem toNat_percentOf (size total : Nat) :
    (percentOf size total).toNat = min (min (total * 100) (UInt64.size - 1) / size) 100 := by
  rw [percentOf, UInt8.toNat_ofNat']
  exact Nat.mod_eq_of_lt (Nat.lt_of_le_of_lt (Nat.min_le_right _ _) (by decide))

/-- A percentage is one hundred at most. -/
theorem percentOf_le (size total : Nat) : percentOf size total ≤ 100 := by
  rw [UInt8.le_iff_toNat_le, toNat_percentOf]
  exact Nat.min_le_right _ _

/-- More bytes are at least as many percent. -/
theorem percentOf_mono (size : Nat) {total more : Nat} (h : total ≤ more) :
    percentOf size total ≤ percentOf size more := by
  have hproduct : min (total * 100) (UInt64.size - 1) ≤ min (more * 100) (UInt64.size - 1) := by
    omega
  have hquotient := Nat.div_le_div_right (c := size) hproduct
  rw [UInt8.le_iff_toNat_le, toNat_percentOf, toNat_percentOf]
  omega

/-- All bytes are a hundred percent, if a hundred times their number fits into 64 bits. -/
theorem percentOf_self {size : Nat} (hpos : 0 < size) (hfit : size ≤ (UInt64.size - 1) / 100) :
    percentOf size size = 100 := by
  have hmin : min (size * 100) (UInt64.size - 1) = size * 100 :=
    Nat.min_eq_left ((Nat.le_div_iff_mul_le (by decide)).1 hfit)
  rw [percentOf, hmin, Nat.mul_div_cancel_left 100 hpos]
  rfl

/-- The percentage last told when so many bytes have been written. -/
def toldAt (size total : Nat) : Option UInt8 := if total = 0 then none else percentAt size total

/-- What has been told is the start and then percentages, each higher than the one before. -/
structure Told (task : CopyTask) (percents : List UInt8) (sent : List CopyEvent) : Prop where
  sent : sent = .started task.id task.source :: percents.map (.progress task.id)
  rising : percents.Pairwise (· < ·)
  bounded : ∀ p ∈ percents, p ≤ 100

/-- A higher percentage can be told. -/
theorem Told.tell {task : CopyTask} {percents : List UInt8} {sent : List CopyEvent} {p : UInt8}
    (h : Told task percents sent) (hhigher : ∀ q ∈ percents, q < p) (hp : p ≤ 100) :
    Told task (percents ++ [p]) (sent ++ [.progress task.id p]) where
  sent := by rw [h.sent, List.map_append, List.map_singleton, List.cons_append]
  rising := List.pairwise_append.2
    ⟨h.rising, List.pairwise_singleton _ _, fun q hq r hr => by
      rw [List.mem_singleton.1 hr]
      exact hhigher q hq⟩
  bounded := by
    intro q hq
    rcases List.mem_append.1 hq with hq | hq
    · exact h.bounded q hq
    · rw [List.mem_singleton.1 hq]
      exact hp

/-- Rising percentages are at most the last of them. -/
theorem Told.le_last {task : CopyTask} {percents : List UInt8} {sent : List CopyEvent}
    {last : UInt8} (h : Told task percents sent) (hlast : percents.getLast? = some last) :
    ∀ q ∈ percents, q ≤ last := by
  obtain ⟨before, rfl⟩ := List.getLast?_eq_some_iff.1 hlast
  intro q hq
  rcases List.mem_append.1 hq with hq | hq
  · exact UInt8.le_of_lt ((List.pairwise_append.1 h.rising).2.2 q hq last List.mem_cons_self)
  · exact UInt8.le_of_eq (List.mem_singleton.1 hq)

/-! ## What a copy holds -/

/-- Nothing has been done to the files yet. -/
structure Untouched (fs : FileSystem) (t : CopyThread) : Prop where
  files : t.files = fs
  made : t.made = none
  writes : t.writes = []

/-- Nothing has come of the copy yet, but that it may have told that it starts. -/
structure Idle (fs : FileSystem) (t : CopyThread) : Prop where
  untouched : Untouched fs t
  asked : t.asked = []
  last : t.last = none
  log : t.log = []

/-- The source has been opened, and this is where its copy is to be. -/
structure Opened (task : CopyTask) (fs : FileSystem) (name path : String) (origin : Place)
    (node : FileNode) : Prop where
  names : ∃ source, task.names = .ok (source, name) ∧ fs.openNode source = .ok (origin, node)
  path : path = pathIn task.directory name

/-- Both files are open. The destination holds what has been written, the rest of the files is as
it was, and what has been written are first bytes of what there is to copy. -/
structure Working (task : CopyTask) (fs : FileSystem) (job : Job) (node : FileNode)
    (t : CopyThread) : Prop where
  opened : Opened task fs job.name job.path job.origin node
  size : job.size = node.bytes.length
  place : fs.writable job.path = .ok job.place
  asked : t.asked = [job.path]
  made : t.made = some job.place
  files : t.files = fs.put job.place (.file t.written)
  written : t.written <+: job.contents node

/-- The percentages told are those up to what has been written. -/
structure Telling (task : CopyTask) (job : Job) (percents : List UInt8) (t : CopyThread) :
    Prop where
  told : Told task percents t.sent
  last : percents.getLast? = t.last
  current : t.last = toldAt job.size t.written.length

/-- How a copy comes to the event that it ends with. `refused` says whether the system has refused
anything. -/
inductive Verdict (task : CopyTask) (fs : FileSystem) (refused : Prop) (t : CopyThread) :
    List UInt8 → CopyEvent → Prop
  | unnamed {e : CopyError} (hnames : task.names = .error e) (huntouched : Untouched fs t)
      (hasked : t.asked = []) :
      Verdict task fs refused t [] (.finished task.id task.directory false e.message)
  | unmade {source name : String} {e : FileError} (hnames : task.names = .ok (source, name))
      (huntouched : Untouched fs t) (hasked : ∀ path ∈ t.asked, path = pathIn task.directory name)
      (hreason : fs.openNode source = .error e ∨
        fs.writable (pathIn task.directory name) = .error e ∨ refused) :
      Verdict task fs refused t []
        (.finished task.id (pathIn task.directory name) false (CopyError.file e).message)
  | broken {job : Job} {node : FileNode} {e : FileError} {percents : List UInt8} {total : Nat}
      (hwork : Working task fs job node t) (hlast : percents.getLast? = toldAt job.size total)
      (hreason : node = .directory ∨ refused) :
      Verdict task fs refused t percents
        (.finished task.id job.path false (CopyError.file e).message)
  | cancelled {job : Job} {node : FileNode} {percents : List UInt8}
      (hwork : Working task fs job node t)
      (hlast : percents.getLast? = toldAt job.size t.written.length) :
      Verdict task fs refused t percents
        (.cancelled task.id job.path (UInt64.ofNat t.written.length))
  | copied {job : Job} {bytes : List UInt8} {percents : List UInt8}
      (hwork : Working task fs job (.file bytes) t)
      (hlast : percents.getLast? = toldAt job.size t.written.length)
      (hall : t.written = job.contents (.file bytes)) :
      Verdict task fs refused t percents (.finished task.id job.path true job.name)

/-- What holds of a thread that stands before a step. -/
inductive SoundAt (task : CopyTask) (fs : FileSystem) (refused : Prop) (t : CopyThread) :
    Stage → Prop
  | starting (hidle : Idle fs t) (hsent : t.sent = []) : SoundAt task fs refused t .starting
  | opening (hidle : Idle fs t) (htold : Told task [] t.sent) : SoundAt task fs refused t .opening
  | creating {name path : String} {origin : Place} {node : FileNode} (hidle : Idle fs t)
      (htold : Told task [] t.sent) (hopened : Opened task fs name path origin node) :
      SoundAt task fs refused t (.creating name path origin node.bytes.length)
  | looking {job : Job} {node : FileNode} {percents : List UInt8}
      (hwork : Working task fs job node t) (htell : Telling task job percents t) :
      SoundAt task fs refused t (.looking job)
  | reading {job : Job} {node : FileNode} {percents : List UInt8}
      (hwork : Working task fs job node t) (htell : Telling task job percents t) :
      SoundAt task fs refused t (.reading job)
  | writing {job : Job} {bytes chunk : List UInt8} {percents : List UInt8}
      (hwork : Working task fs job (.file bytes) t) (htell : Telling task job percents t)
      (hchunk : chunk <+: (job.contents (.file bytes)).drop t.written.length) (hpos : chunk ≠ [])
      (hlimit : chunk.length ≤ chunkLimit) : SoundAt task fs refused t (.writing job chunk)
  | telling {job : Job} {node : FileNode} {percents : List UInt8} {p : UInt8}
      (hwork : Working task fs job node t) (htold : Told task percents t.sent)
      (hhigher : ∀ q ∈ percents, q < p) (hp : p ≤ 100) (hlast : t.last = some p)
      (hcurrent : t.last = toldAt job.size t.written.length) :
      SoundAt task fs refused t (.telling job p)
  | ending {percents : List UInt8} {event : CopyEvent} (htold : Told task percents t.sent)
      (hverdict : Verdict task fs refused t percents event) :
      SoundAt task fs refused t (.ending event)
  | ended {percents : List UInt8} {event : CopyEvent} {before : List CopyEvent}
      (htold : Told task percents before) (hsent : t.sent = before ++ [event])
      (hverdict : Verdict task fs refused t percents event) : SoundAt task fs refused t .ended

/-- What holds of every thread of a copy that found these files. -/
def Sound (task : CopyTask) (fs : FileSystem) (refused : Prop) (t : CopyThread) : Prop :=
  SoundAt task fs refused t t.stage

section

variable {task : CopyTask} {fs : FileSystem} {refused : Prop} {t t' : CopyThread} {job : Job}
  {node : FileNode} {percents : List UInt8}

/-- All is well with a thread that has not begun. -/
theorem sound_fresh : Sound task fs refused (fresh fs) :=
  .starting ⟨⟨rfl, rfl, rfl⟩, rfl, rfl, rfl⟩ rfl

/-- That nothing has been changed is a matter of the files. -/
theorem Untouched.of_eq (h : Untouched fs t) (hfiles : t'.files = t.files)
    (hmade : t'.made = t.made) (hwrites : t'.writes = t.writes) : Untouched fs t' :=
  ⟨hfiles.trans h.files, hmade.trans h.made, hwrites.trans h.writes⟩

/-- That a thread is idle is a matter of the files, and of what has been asked for and told. -/
theorem Idle.of_eq (h : Idle fs t) (hfiles : t'.files = t.files) (hmade : t'.made = t.made)
    (hwrites : t'.writes = t.writes) (hasked : t'.asked = t.asked) (hlast : t'.last = t.last)
    (hlog : t'.log = t.log) : Idle fs t' where
  untouched := h.untouched.of_eq hfiles hmade hwrites
  asked := hasked.trans h.asked
  last := hlast.trans h.last
  log := hlog.trans h.log

/-- That a thread works is a matter of the files, and of what has been asked for. -/
theorem Working.of_eq (h : Working task fs job node t) (hasked : t'.asked = t.asked)
    (hmade : t'.made = t.made) (hfiles : t'.files = t.files) (hwrites : t'.writes = t.writes) :
    Working task fs job node t' where
  opened := h.opened
  size := h.size
  place := h.place
  asked := hasked.trans h.asked
  made := hmade.trans h.made
  files := by rw [hfiles, h.files, CopyThread.written, CopyThread.written, hwrites]
  written := by rw [CopyThread.written, hwrites]; exact h.written

/-- A verdict is a matter of the files, and of what has been asked for. -/
theorem Verdict.of_eq {event : CopyEvent} (h : Verdict task fs refused t percents event)
    (hasked : t'.asked = t.asked) (hmade : t'.made = t.made) (hfiles : t'.files = t.files)
    (hwrites : t'.writes = t.writes) : Verdict task fs refused t' percents event := by
  have hwritten : t'.written = t.written := congrArg List.flatten hwrites
  cases h with
  | unnamed hnames huntouched hnone =>
    exact .unnamed hnames (huntouched.of_eq hfiles hmade hwrites) (hasked.trans hnone)
  | unmade hnames huntouched hpaths hreason =>
    exact .unmade hnames (huntouched.of_eq hfiles hmade hwrites) (hasked ▸ hpaths) hreason
  | broken hwork hlast hreason =>
    exact .broken (hwork.of_eq hasked hmade hfiles hwrites) hlast hreason
  | cancelled hwork hlast =>
    rw [← hwritten] at hlast ⊢
    exact .cancelled (hwork.of_eq hasked hmade hfiles hwrites) hlast
  | copied hwork hlast hall =>
    rw [← hwritten] at hlast hall
    exact .copied (hwork.of_eq hasked hmade hfiles hwrites) hlast hall

/-- What is being told is a matter of what has been sent and written. -/
theorem Telling.of_eq (h : Telling task job percents t) (hsent : t'.sent = t.sent)
    (hlast : t'.last = t.last) (hwrites : t'.writes = t.writes) :
    Telling task job percents t' where
  told := hsent ▸ h.told
  last := h.last.trans hlast.symm
  current := by rw [hlast, h.current, written, written, hwrites]

/-- There is only one source to be opened, and one path for its copy. -/
theorem Opened.unique {name name' path path' : String} {origin origin' : Place}
    {node' : FileNode} (h : Opened task fs name path origin node)
    (h' : Opened task fs name' path' origin' node') :
    name = name' ∧ path = path' ∧ origin = origin' ∧ node = node' := by
  obtain ⟨⟨source, hnames, hopen⟩, rfl⟩ := h
  obtain ⟨⟨source', hnames', hopen'⟩, rfl⟩ := h'
  cases hnames.symm.trans hnames'
  cases hopen.symm.trans hopen'
  exact ⟨rfl, rfl, rfl, rfl⟩

/-- A file is never written to the root. -/
theorem Working.place_ne_nil (h : Working task fs job node t) : job.place ≠ [] :=
  FileSystem.ne_nil_of_writable h.place

/-- What the open source still has to give is what is left to copy. -/
theorem Working.readFrom (h : Working task fs job node t) :
    t.files.readFrom job.origin t.written.length =
      match node with
      | .directory => .error .isADirectory
      | .file bytes => .ok ((job.contents (.file bytes)).drop t.written.length) := by
  obtain ⟨source, -, hopen⟩ := h.opened.names
  have hnode := (FileSystem.openNode_eq_ok_iff.1 hopen).2
  unfold FileSystem.readFrom
  rw [h.files]
  by_cases hsame : job.place = job.origin
  · -- the source has been emptied, and nothing has been written
    have hwritten : t.written = [] := by
      have := h.written
      rw [Job.contents, if_pos hsame] at this
      exact List.prefix_nil.1 this
    have hfile : node ≠ .directory := by
      rintro rfl
      exact (FileSystem.writable_eq_ok_iff.1 h.place).2 (hsame ▸ hnode)
    rw [← hsame, FileSystem.get?_put_self h.place_ne_nil, hwritten]
    cases node with
    | directory => exact absurd rfl hfile
    | file bytes => simp only [Job.contents, if_pos hsame, List.drop_nil]
  · rw [FileSystem.get?_put_of_ne (Ne.symm hsame), hnode]
    cases node with
    | directory => rfl
    | file bytes => simp only [Job.contents, if_neg hsame, FileNode.bytes]

/-- A chunk of what is left can be added to the destination. -/
theorem Working.put (h : Working task fs job node t) {chunk : List UInt8}
    (hchunk : chunk <+: (job.contents node).drop t.written.length) :
    Working task fs job node (t.put job chunk) := by
  have hwritten : (t.put job chunk).written = t.written ++ chunk := by
    simp [CopyThread.put, CopyThread.written]
  refine ⟨h.opened, h.size, h.place, h.asked, h.made, ?_, ?_⟩
  · rw [hwritten]
    show t.files.append job.place chunk = _
    rw [h.files, FileSystem.append_put h.place_ne_nil]
  · rw [hwritten]
    obtain ⟨tail, htail⟩ := h.written
    rw [← htail, List.drop_left] at hchunk
    rw [← htail]
    exact (List.prefix_append_right_inj _).2 hchunk

/-- What has been written is longer by a chunk that is put. -/
theorem length_written_put (job : Job) (chunk : List UInt8) (t : CopyThread) :
    (t.put job chunk).written.length = t.written.length + chunk.length := by
  simp [CopyThread.put, CopyThread.written]

/-- Once something is written the percentage is that of what is written. -/
theorem toldAt_of_pos {size total : Nat} (h : 0 < total) :
    toldAt size total = percentAt size total := if_neg (Nat.pos_iff_ne_zero.1 h)

/-- Percentages told are below one that comes later and is not the last of them. -/
theorem Telling.lt_of_new (h : Telling task job percents t) {more : Nat} {p : UInt8}
    (hmore : t.written.length ≤ more) (hp : percentAt job.size more = some p)
    (hnew : t.last ≠ some p) : ∀ q ∈ percents, q < p := by
  intro q hq
  have hsome : percents.getLast? ≠ none := fun hnone => by
    rw [List.getLast?_eq_none_iff.1 hnone] at hq
    exact absurd hq List.not_mem_nil
  obtain ⟨last, hlast⟩ := Option.ne_none_iff_exists'.1 hsome
  have hle := h.told.le_last hlast q hq
  rw [h.last] at hlast
  have hcurrent := h.current.symm.trans hlast
  unfold toldAt at hcurrent
  split at hcurrent
  · cases hcurrent
  · unfold percentAt at hcurrent hp
    split at hcurrent
    · cases hcurrent
    · next hsize =>
      rw [if_neg hsize] at hp
      cases hcurrent
      cases hp
      have hmono := percentOf_mono job.size hmore
      have hne : percentOf job.size t.written.length ≠ percentOf job.size more :=
        fun heq => hnew (hlast.trans (congrArg some heq))
      exact UInt8.lt_of_le_of_lt hle (UInt8.lt_of_le_of_ne hmono hne)

/-- So it is once a chunk has been put. -/
theorem toldAt_put {chunk : List UInt8} (hpos : chunk ≠ []) :
    toldAt job.size (t.put job chunk).written.length =
      percentAt job.size (t.put job chunk).written.length := by
  rw [length_written_put]
  exact toldAt_of_pos (Nat.add_pos_right _ (List.length_pos_iff.2 hpos))

/-- Where nothing is told of a chunk, the percentage is the last one still. -/
theorem percentAt_put_eq_last (hcurrent : t.last = toldAt job.size t.written.length)
    {chunk : List UInt8}
    (hpercent : percentAt job.size (t.put job chunk).written.length = none ∨
      percentAt job.size (t.put job chunk).written.length = t.last) :
    percentAt job.size (t.put job chunk).written.length = t.last := by
  rcases hpercent with hnone | hsame
  · -- without a size nothing has been told before either
    have hsize : job.size = 0 := by
      unfold percentAt at hnone
      split at hnone
      · assumption
      · cases hnone
    rw [hnone, hcurrent, toldAt, percentAt, if_pos hsize, ite_self]
  · exact hsame

/-- A chunk that comes to no new percentage needs nothing told. -/
theorem Telling.put (h : Telling task job percents t) {chunk : List UInt8} (hpos : chunk ≠ [])
    (hpercent : percentAt job.size (t.put job chunk).written.length = none ∨
      percentAt job.size (t.put job chunk).written.length = t.last) :
    Telling task job percents (t.put job chunk) where
  told := h.told
  last := h.last
  current := ((toldAt_put hpos).trans (percentAt_put_eq_last h.current hpercent)).symm

/-- A percentage is one hundred at most. -/
theorem percentAt_le {size total : Nat} {p : UInt8} (h : percentAt size total = some p) :
    p ≤ 100 := by
  unfold percentAt at h
  split at h
  · cases h
  · cases h
    exact percentOf_le size total

/-- A thread that has asked for nothing has then asked for one path alone. -/
theorem mem_ask {path : String} (hasked : t.asked = []) :
    ∀ other ∈ (t.ask path).asked, other = path := by
  intro other hother
  rw [ask, hasked] at hother
  exact List.mem_singleton.1 hother

/-- The destination could not be opened. -/
theorem Opened.unmade {name path : String} {origin : Place}
    (h : Opened task fs name path origin node) (huntouched : Untouched fs t)
    (hasked : ∀ other ∈ t.asked, other = path) {e : FileError}
    (hreason : fs.writable path = .error e ∨ refused) :
    Verdict task fs refused t [] (.finished task.id path false (CopyError.file e).message) := by
  obtain ⟨⟨source, hnames, hopen⟩, rfl⟩ := h
  exact .unmade hnames huntouched hasked (.inr hreason)

/-- A read gives something if something is left. -/
theorem take_readSize_ne_nil {left : List UInt8} (h : left ≠ []) (limit : Nat) :
    left.take (readSize limit) ≠ [] := by
  have hpos : readSize limit ≠ 0 := by unfold readSize; omega
  rw [Ne, List.take_eq_nil_iff]
  exact fun hnil => hnil.elim hpos h

/-- A read gives no more than a chunk. -/
theorem length_take_readSize_le (left : List UInt8) (limit : Nat) :
    (left.take (readSize limit)).length ≤ chunkLimit := by
  rw [List.length_take]
  unfold readSize chunkLimit
  omega

/-- Setting the flag changes nothing that a thread goes by before it looks. -/
theorem SoundAt.cancel {stage : Stage} (h : SoundAt task fs refused t stage) :
    SoundAt task fs refused { t with stopped := true } stage := by
  cases h with
  | starting hidle hsent => exact .starting (hidle.of_eq rfl rfl rfl rfl rfl rfl) hsent
  | opening hidle htold => exact .opening (hidle.of_eq rfl rfl rfl rfl rfl rfl) htold
  | creating hidle htold hopened =>
    exact .creating (hidle.of_eq rfl rfl rfl rfl rfl rfl) htold hopened
  | looking hwork htell =>
    exact .looking (hwork.of_eq rfl rfl rfl rfl) (htell.of_eq rfl rfl rfl)
  | reading hwork htell =>
    exact .reading (hwork.of_eq rfl rfl rfl rfl) (htell.of_eq rfl rfl rfl)
  | writing hwork htell hchunk hpos hlimit =>
    exact .writing (hwork.of_eq rfl rfl rfl rfl) (htell.of_eq rfl rfl rfl) hchunk hpos hlimit
  | telling hwork htold hhigher hp hlast hcurrent =>
    exact .telling (hwork.of_eq rfl rfl rfl rfl) htold hhigher hp hlast hcurrent
  | ending htold hverdict => exact .ending htold (hverdict.of_eq rfl rfl rfl rfl)
  | ended htold hsent hverdict => exact .ended htold hsent (hverdict.of_eq rfl rfl rfl rfl)

/-! What holds of a thread at each of its stages. -/

/-- A thread that starts is idle, and has sent nothing. -/
theorem Sound.of_starting (hs : Sound task fs refused t) (h : t.stage = .starting) :
    Idle fs t ∧ t.sent = [] := by
  rw [Sound, h] at hs
  cases hs with
  | starting hidle hsent => exact ⟨hidle, hsent⟩

/-- A thread that opens the source is idle, and has told its start. -/
theorem Sound.of_opening (hs : Sound task fs refused t) (h : t.stage = .opening) :
    Idle fs t ∧ Told task [] t.sent := by
  rw [Sound, h] at hs
  cases hs with
  | opening hidle htold => exact ⟨hidle, htold⟩

/-- A thread that creates the destination is idle, has told its start, and has opened the source. -/
theorem Sound.of_creating {name path : String} {origin : Place} {size : Nat}
    (hs : Sound task fs refused t) (h : t.stage = .creating name path origin size) :
    Idle fs t ∧ Told task [] t.sent ∧
      ∃ node, Opened task fs name path origin node ∧ size = node.bytes.length := by
  rw [Sound, h] at hs
  cases hs with
  | creating hidle htold hopened => exact ⟨hidle, htold, _, hopened, rfl⟩

/-- A thread that looks at the flag works and tells. -/
theorem Sound.of_looking (hs : Sound task fs refused t) (h : t.stage = .looking job) :
    ∃ node percents, Working task fs job node t ∧ Telling task job percents t := by
  rw [Sound, h] at hs
  cases hs with
  | looking hwork htell => exact ⟨_, _, hwork, htell⟩

/-- A thread that reads works and tells. -/
theorem Sound.of_reading (hs : Sound task fs refused t) (h : t.stage = .reading job) :
    ∃ node percents, Working task fs job node t ∧ Telling task job percents t := by
  rw [Sound, h] at hs
  cases hs with
  | reading hwork htell => exact ⟨_, _, hwork, htell⟩

/-- A thread that writes has read a chunk of what is left. -/
theorem Sound.of_writing {chunk : List UInt8} (hs : Sound task fs refused t)
    (h : t.stage = .writing job chunk) :
    ∃ bytes percents, Working task fs job (.file bytes) t ∧ Telling task job percents t ∧
      chunk <+: (job.contents (.file bytes)).drop t.written.length ∧ chunk ≠ [] ∧
      chunk.length ≤ chunkLimit := by
  rw [Sound, h] at hs
  cases hs with
  | writing hwork htell hchunk hpos hlimit => exact ⟨_, _, hwork, htell, hchunk, hpos, hlimit⟩

/-- A thread that tells a percentage has not told it before. -/
theorem Sound.of_telling {p : UInt8} (hs : Sound task fs refused t)
    (h : t.stage = .telling job p) :
    ∃ node percents, Working task fs job node t ∧ Told task percents t.sent ∧
      (∀ q ∈ percents, q < p) ∧ p ≤ 100 ∧ t.last = some p ∧
      t.last = toldAt job.size t.written.length := by
  rw [Sound, h] at hs
  cases hs with
  | telling hwork htold hhigher hp hlast hcurrent =>
    exact ⟨_, _, hwork, htold, hhigher, hp, hlast, hcurrent⟩

/-- A thread that is about to end has come to a verdict. -/
theorem Sound.of_ending {event : CopyEvent} (hs : Sound task fs refused t)
    (h : t.stage = .ending event) :
    ∃ percents, Told task percents t.sent ∧ Verdict task fs refused t percents event := by
  rw [Sound, h] at hs
  cases hs with
  | ending htold hverdict => exact ⟨_, htold, hverdict⟩

/-- A thread that has ended has sent its verdict last. -/
theorem Sound.of_ended (hs : Sound task fs refused t) (h : t.stage = .ended) :
    ∃ percents event before, Told task percents before ∧ t.sent = before ++ [event] ∧
      Verdict task fs refused t percents event := by
  rw [Sound, h] at hs
  cases hs with
  | ended htold hsent hverdict => exact ⟨_, _, _, htold, hsent, hverdict⟩

/-- The destination, once made, is empty, and nothing has been told but the start. -/
theorem Working.of_created {name path : String} {origin place : Place}
    (hidle : Idle fs t) (hopened : Opened task fs name path origin node)
    (hplace : fs.writable path = .ok place) (hasked : t'.asked = t.asked ++ [path])
    (hmade : t'.made = some place) (hfiles : t'.files = t.files.put place (.file []))
    (hwrites : t'.writes = t.writes) :
    Working task fs ⟨name, path, origin, place, node.bytes.length⟩ node t' := by
  have hwritten : t'.written = [] := by
    rw [CopyThread.written, hwrites, hidle.untouched.writes, List.flatten_nil]
  refine ⟨hopened, rfl, hplace, ?_, hmade, ?_, ?_⟩
  · rw [hasked, hidle.asked, List.nil_append]
  · rw [hfiles, hidle.untouched.files, hwritten]
  · rw [hwritten]
    exact List.nil_prefix

/-- Every turn keeps what holds of a thread. -/
theorem Sound.moves {turn : Turn} (hrefused : turn.isRefusal = true → refused)
    (h : Moves task t turn t') (hs : Sound task fs refused t) : Sound task fs refused t' := by
  cases h with
  | cancel => exact SoundAt.cancel hs
  | start hstage =>
    obtain ⟨hidle, hsent⟩ := hs.of_starting hstage
    refine SoundAt.opening (hidle.of_eq rfl rfl rfl rfl rfl rfl) ⟨?_, .nil, nofun⟩
    show t.sent ++ _ = _
    rw [hsent]
    rfl
  | unnamed hstage hnames =>
    obtain ⟨hidle, htold⟩ := hs.of_opening hstage
    exact SoundAt.ending htold (.unnamed hnames (hidle.untouched.of_eq rfl rfl rfl) hidle.asked)
  | missing hstage hnames hopen =>
    obtain ⟨hidle, htold⟩ := hs.of_opening hstage
    rw [hidle.untouched.files] at hopen
    exact SoundAt.ending htold (.unmade hnames (hidle.untouched.of_eq rfl rfl rfl)
      (fun path hpath => absurd hpath (hidle.asked ▸ List.not_mem_nil)) (.inl hopen))
  | opened hstage hnames hopen =>
    obtain ⟨hidle, htold⟩ := hs.of_opening hstage
    rw [hidle.untouched.files] at hopen
    exact SoundAt.creating (hidle.of_eq rfl rfl rfl rfl rfl rfl) htold
      ⟨⟨_, hnames, hopen⟩, rfl⟩
  | refusedOpen hstage hnames =>
    obtain ⟨hidle, htold⟩ := hs.of_opening hstage
    exact SoundAt.ending htold (.unmade hnames (hidle.untouched.of_eq rfl rfl rfl)
      (fun path hpath => absurd hpath (hidle.asked ▸ List.not_mem_nil))
      (.inr (.inr (hrefused rfl))))
  | @unwritable limit name path origin size e hstage hplace =>
    obtain ⟨hidle, htold, node, hopened, rfl⟩ := hs.of_creating hstage
    rw [hidle.untouched.files] at hplace
    have hasking : Untouched fs (t.ask path) := hidle.untouched.of_eq rfl rfl rfl
    exact SoundAt.ending htold
      (.of_eq (hopened.unmade hasking (mem_ask hidle.asked) (.inl hplace)) rfl rfl rfl rfl)
  | created hstage hplace =>
    obtain ⟨hidle, htold, node, hopened, rfl⟩ := hs.of_creating hstage
    rw [hidle.untouched.files] at hplace
    have hcurrent : t.last = toldAt node.bytes.length t.written.length := by
      rw [hidle.last, CopyThread.written, hidle.untouched.writes]
      rfl
    exact SoundAt.looking (.of_created hidle hopened hplace rfl rfl rfl rfl)
      ⟨htold, hidle.last.symm, hcurrent⟩
  | @refusedCreate reason kept name path origin size hstage =>
    obtain ⟨hidle, htold, node, hopened, rfl⟩ := hs.of_creating hstage
    have hasking : Untouched fs (t.ask path) := hidle.untouched.of_eq rfl rfl rfl
    exact SoundAt.ending htold
      (.of_eq (hopened.unmade hasking (mem_ask hidle.asked) (.inr (hrefused rfl)))
        rfl rfl rfl rfl)
  | stop hstage hstop =>
    obtain ⟨node, percents, hwork, htell⟩ := hs.of_looking hstage
    exact SoundAt.ending htell.told
      (.of_eq (.cancelled hwork (htell.last.trans htell.current)) rfl rfl rfl rfl)
  | look hstage hgo =>
    obtain ⟨node, percents, hwork, htell⟩ := hs.of_looking hstage
    exact SoundAt.reading (hwork.of_eq rfl rfl rfl rfl) (htell.of_eq rfl rfl rfl)
  | unreadable hstage hread =>
    obtain ⟨node, percents, hwork, htell⟩ := hs.of_reading hstage
    -- A directory can be opened as a source; it is the reading that fails.
    have hlast := htell.last.trans htell.current
    rw [hwork.readFrom] at hread
    cases node with
    | directory =>
      exact SoundAt.ending htell.told (.broken (hwork.of_eq rfl rfl rfl rfl) hlast (.inl rfl))
    | file bytes => cases hread
  | done hstage hread =>
    obtain ⟨node, percents, hwork, htell⟩ := hs.of_reading hstage
    have hlast := htell.last.trans htell.current
    rw [hwork.readFrom] at hread
    cases node with
    | directory => cases hread
    | file bytes =>
      -- Nothing is left to be read, and what has been written is as long as what there was.
      have hlength := List.drop_eq_nil_iff.1 (Except.ok.inj hread)
      have hall := hwork.written.eq_of_length_le hlength
      exact SoundAt.ending htell.told (.of_eq (.copied hwork hlast hall) rfl rfl rfl rfl)
  | @read limit job left hstage hread hleft =>
    obtain ⟨node, percents, hwork, htell⟩ := hs.of_reading hstage
    rw [hwork.readFrom] at hread
    cases node with
    | directory => cases hread
    | file bytes =>
      cases hread
      exact SoundAt.writing (hwork.of_eq rfl rfl rfl rfl) (htell.of_eq rfl rfl rfl)
        (List.take_prefix _ _) (take_readSize_ne_nil hleft limit) (length_take_readSize_le _ _)
  | interrupted hstage =>
    obtain ⟨node, percents, hwork, htell⟩ := hs.of_reading hstage
    exact SoundAt.looking (hwork.of_eq rfl rfl rfl rfl) (htell.of_eq rfl rfl rfl)
  | refusedRead hstage =>
    obtain ⟨node, percents, hwork, htell⟩ := hs.of_reading hstage
    have hlast := htell.last.trans htell.current
    exact SoundAt.ending htell.told
      (.broken (hwork.of_eq rfl rfl rfl rfl) hlast (.inr (hrefused rfl)))
  | write hstage hpercent =>
    obtain ⟨bytes, percents, hwork, htell, hchunk, hpos, -⟩ := hs.of_writing hstage
    exact SoundAt.looking ((hwork.put hchunk).of_eq rfl rfl rfl rfl)
      ((htell.put hpos hpercent).of_eq rfl rfl rfl)
  | @writeNew limit job chunk percent hstage hpercent hnew =>
    obtain ⟨bytes, percents, hwork, htell, hchunk, hpos, -⟩ := hs.of_writing hstage
    have hlength := length_written_put job chunk t
    have hmore : t.written.length ≤ (t.put job chunk).written.length := by omega
    have hcurrent := (toldAt_put hpos).trans hpercent
    exact SoundAt.telling ((hwork.put hchunk).of_eq rfl rfl rfl rfl) htell.told
      (htell.lt_of_new hmore hpercent hnew) (percentAt_le hpercent) rfl hcurrent.symm
  | @refusedWrite reason kept job chunk hstage hkept =>
    obtain ⟨bytes, percents, hwork, htell, hchunk, -, -⟩ := hs.of_writing hstage
    have hlast := htell.last.trans htell.current
    have htaken := (List.take_prefix kept chunk).trans hchunk
    exact SoundAt.ending htell.told
      (.broken ((hwork.put htaken).of_eq rfl rfl rfl rfl) hlast (.inr (hrefused rfl)))
  | tell hstage =>
    obtain ⟨node, percents, hwork, htold, hhigher, hp, hlast, hcurrent⟩ := hs.of_telling hstage
    exact SoundAt.looking (hwork.of_eq rfl rfl rfl rfl)
      ⟨htold.tell hhigher hp, List.getLast?_concat.trans hlast.symm, hcurrent⟩
  | finish hstage =>
    obtain ⟨percents, htold, hverdict⟩ := hs.of_ending hstage
    exact SoundAt.ended htold rfl (hverdict.of_eq rfl rfl rfl rfl)

/-- **Whatever turns come, in whatever order, every thread of a copy is sound.** -/
theorem sound_of_run? {turns : List Turn}
    (hrefused : ∀ turn ∈ turns, turn.isRefusal = true → refused)
    (h : (fresh fs).run? task turns = some t) : Sound task fs refused t :=
  run?_induction (fun turn hturn _ _ hmoves hs => hs.moves (hrefused turn hturn) hmoves) h
    sound_fresh

/-! ## The destination -/

/-- Whatever the verdict, nothing has been changed or a file has been worked on. -/
theorem Verdict.untouched_or_working {event : CopyEvent}
    (h : Verdict task fs refused t percents event) :
    Untouched fs t ∨ ∃ job node, Working task fs job node t := by
  cases h with
  | unnamed hnames huntouched hasked => exact .inl huntouched
  | unmade hnames huntouched hasked hreason => exact .inl huntouched
  | broken hwork hlast hreason | cancelled hwork hlast | copied hwork hlast hall =>
    exact .inr ⟨_, _, hwork⟩

/-- A copy has not begun, or is at work between its files, or knows how it ends. -/
theorem Sound.idle_or_working_or_verdict (hs : Sound task fs refused t) :
    Idle fs t ∨ (∃ job node, Working task fs job node t) ∨
      ∃ percents event, Verdict task fs refused t percents event := by
  rw [Sound] at hs
  generalize t.stage = stage at hs
  cases hs with
  | starting hidle hsent => exact .inl hidle
  | opening hidle htold => exact .inl hidle
  | creating hidle htold hopened => exact .inl hidle
  | looking hwork htell | reading hwork htell | writing hwork htell hchunk hpos hlimit
  | telling hwork htold hhigher hp hlast hcurrent => exact .inr (.inl ⟨_, _, hwork⟩)
  | ending htold hverdict | ended htold hsent hverdict => exact .inr (.inr ⟨_, _, hverdict⟩)

/-- The files are as they were, or the destination has been made and holds what has been written. -/
theorem Sound.untouched_or_working (hs : Sound task fs refused t) :
    Untouched fs t ∨ ∃ job node, Working task fs job node t := by
  rcases hs.idle_or_working_or_verdict with hidle | hwork | ⟨percents, event, hverdict⟩
  · exact .inl hidle.untouched
  · exact .inr hwork
  · exact hverdict.untouched_or_working

/-- The destination holds what has been written. -/
theorem Sound.get?_made {place : Place} (hs : Sound task fs refused t)
    (hmade : t.made = some place) : t.files.get? place = some (.file t.written) := by
  rcases hs.untouched_or_working with huntouched | ⟨job, node, hwork⟩
  · cases huntouched.made.symm.trans hmade
  · cases hwork.made.symm.trans hmade
    rw [hwork.files, FileSystem.get?_put_self hwork.place_ne_nil]

/-! ## The last event -/

/-- Nothing that is told on the way ends a stream. -/
theorem Told.isTerminal_eq_false {sent : List CopyEvent} {event : CopyEvent}
    (h : Told task percents sent) (hmem : event ∈ sent) : event.isTerminal = false := by
  rw [h.sent] at hmem
  rcases List.mem_cons.1 hmem with rfl | hmem
  · rfl
  · obtain ⟨p, -, rfl⟩ := List.mem_map.1 hmem
    rfl

/-- Where a last event has been sent, the thread has ended with it. -/
theorem Sound.of_terminal {event : CopyEvent} (hs : Sound task fs refused t)
    (hmem : event ∈ t.sent) (hterminal : event.isTerminal = true) :
    t.stage = .ended ∧ ∃ percents before, Told task percents before ∧ t.sent = before ++ [event] ∧
      Verdict task fs refused t percents event := by
  have hnot : ∀ {percents sent}, Told task percents sent → event ∉ sent := fun htold hmem =>
    absurd hterminal (Bool.eq_false_iff.1 (htold.isTerminal_eq_false hmem))
  rw [Sound] at hs
  generalize hstage : t.stage = stage at hs
  cases hs with
  | starting hidle hsent =>
    rw [hsent] at hmem
    exact absurd hmem List.not_mem_nil
  | opening hidle htold | creating hidle htold hopened | telling hwork htold hhigher hp hlast
  | ending htold hverdict => exact absurd hmem (hnot htold)
  | looking hwork htell | reading hwork htell | writing hwork htell hchunk hpos hlimit =>
    exact absurd hmem (hnot htell.told)
  | ended htold hsent hverdict =>
    rw [hsent] at hmem
    rcases List.mem_append.1 hmem with hbefore | hlast
    · exact absurd hbefore (hnot htold)
    · cases List.mem_singleton.1 hlast
      exact ⟨rfl, _, _, htold, hsent, hverdict⟩

end

end CopyThread

end LayoutEngine
