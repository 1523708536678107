import LayoutEngine.Proofs.Thread

/-!
# The course of a copy, and what comes of it as a whole

Where the system refuses nothing, a thread that has ended has come to what `CopyTask.run` gives, for
some account of how much the reads brought and at which look the flag was found set; and whatever
`CopyTask.run` gives, a thread can come to (`ended_iff_run`). Interrupted reads leave no trace,
since the thread only looks once more.

From the end backwards each turn is taken into the account (`LeadsAt.of_moves`). The other way the
thread is led through the account look by look (`comes_of_looking`).
-/

namespace LayoutEngine

open Copy

/-! ## Transfers, look by look -/

namespace Copy

/-- The conditions from the second look on. -/
def Conditions.later (c : Conditions) : Conditions :=
  ⟨fun n => c.readLimit (n + 1), fun n => c.stopped (n + 1)⟩

/-- At the first look the flag is not set, and the read brings so many bytes. -/
def Conditions.after (limit : Nat) (c : Conditions) : Conditions where
  readLimit
    | 0 => limit
    | n + 1 => c.readLimit n
  stopped
    | 0 => false
    | n + 1 => c.stopped n

namespace Transfer

variable {c : Conditions} {size n total : Nat} {last : Option UInt8} {left : List UInt8}

/-- A copy that is stopped writes nothing further. -/
theorem run_of_stopped (h : c.stopped n = true) :
    run c size n total last left = ⟨[], [], true⟩ := by
  rw [run, if_pos h]

/-- A copy that has come to the end of its source is complete. -/
theorem run_nil (h : c.stopped n = false) : run c size n total last [] = ⟨[], [], false⟩ := by
  rw [run, if_neg (Bool.eq_false_iff.1 h), dif_pos rfl]

/-- A copy that goes on writes one chunk, tells the percentage if that is new, and runs on. -/
theorem run_of_ne_nil (h : c.stopped n = false) (hleft : left ≠ []) :
    run c size n total last left =
      let chunk := left.take (c.readSize n)
      let percent := percentAt size (total + chunk.length)
      let rest := run c size (n + 1) (total + chunk.length) percent (left.drop (c.readSize n))
      ⟨chunk ++ rest.written, (if percent = last then [] else percent.toList) ++ rest.percents,
        rest.stopped⟩ := by
  rw [run, if_neg (Bool.eq_false_iff.1 h), dif_neg hleft]
  rfl

/-- Looking goes on with the conditions that are left. -/
theorem run_later (c : Conditions) (size n total : Nat) (last : Option UInt8) (left : List UInt8) :
    run c size (n + 1) total last left = run c.later size n total last left := by
  induction hlength : left.length using Nat.strongRecOn generalizing n total last left with
  | ind length ih =>
    cases hstop : c.later.stopped n with
    | true => rw [run_of_stopped hstop, run_of_stopped (c := c) hstop]
    | false =>
      by_cases hleft : left = []
      · rw [hleft, run_nil hstop, run_nil (c := c) hstop]
      · rw [run_of_ne_nil hstop hleft, run_of_ne_nil (c := c) hstop hleft]
        dsimp only
        have hread : c.readSize (n + 1) = c.later.readSize n := rfl
        have hpos := c.readSize_pos (n + 1)
        have hne := List.length_pos_iff.2 hleft
        rw [ih (left.drop (c.readSize (n + 1))).length
          (by rw [List.length_drop, ← hlength]; omega) _ _ _ _ rfl, hread]

end Transfer

end Copy

namespace CopyThread

/-! ## What is left of a copy -/

/-- The transfer that a thread still has before it when it is to look. -/
def transfer? (c : Conditions) (job : Job) (node : FileNode) (t : CopyThread) :
    Except FileError Transfer :=
  match node with
  | .directory => if c.stopped 0 then .ok ⟨[], [], true⟩ else .error .isADirectory
  | .file bytes =>
    .ok (Transfer.run c job.size 0 t.written.length t.last
      ((job.contents (.file bytes)).drop t.written.length))

/-- What a thread comes to with what a transfer gives. -/
def conclude (task : CopyTask) (job : Job) (t : CopyThread) :
    Except FileError Transfer → CopyOutcome
  | .error e =>
    let reason := (CopyError.file e).message
    ⟨t.sent ++ [.finished task.id job.path false reason], t.files,
      t.log ++ [.copyFailed task.source reason]⟩
  | .ok transfer =>
    let events := t.sent ++ transfer.percents.map (.progress task.id)
    let files := t.files.append job.place transfer.written
    if transfer.stopped then
      let bytes := UInt64.ofNat (t.written.length + transfer.written.length)
      ⟨events ++ [.cancelled task.id job.path bytes], files, t.log⟩
    else
      ⟨events ++ [.finished task.id job.path true job.name], files,
        t.log ++ [.copied task.source job.path]⟩

section

variable {task : CopyTask} {fs : FileSystem} {t t' : CopyThread} {job : Job} {node : FileNode}
  {c : Conditions}

/-- A transfer that ends at once leaves what there is. -/
theorem Working.conclude_nil (h : Working task fs job node t) (stopped : Bool) :
    conclude task job t (.ok ⟨[], [], stopped⟩) =
      if stopped then
        ⟨t.sent ++ [.cancelled task.id job.path (UInt64.ofNat t.written.length)], t.files, t.log⟩
      else
        ⟨t.sent ++ [.finished task.id job.path true job.name], t.files,
          t.log ++ [.copied task.source job.path]⟩ := by
  have hfiles : t.files.append job.place [] = t.files := by
    rw [h.files, FileSystem.append_put h.place_ne_nil, List.append_nil]
  rw [conclude, hfiles, List.map_nil, List.append_nil]
  rfl

/-- A chunk and what is told of it can be taken out of a transfer. -/
theorem Working.conclude_cons (h : Working task fs job node t) (chunk : List UInt8)
    (fresh : List UInt8) (rest : Transfer) (hfiles : t'.files = t.files.append job.place chunk)
    (hwritten : t'.written = t.written ++ chunk)
    (hsent : t'.sent = t.sent ++ fresh.map (.progress task.id)) (hlog : t'.log = t.log) :
    conclude task job t (.ok ⟨chunk ++ rest.written, fresh ++ rest.percents, rest.stopped⟩) =
      conclude task job t' (.ok rest) := by
  have happend : t.files.append job.place (chunk ++ rest.written) =
      t'.files.append job.place rest.written := by
    rw [hfiles, h.files, FileSystem.append_put h.place_ne_nil, FileSystem.append_put h.place_ne_nil,
      FileSystem.append_put h.place_ne_nil, List.append_assoc]
  simp only [conclude, happend, hwritten, hsent, hlog, List.map_append, List.append_assoc,
    List.length_append, Nat.add_assoc]

/-- A copy whose files can be opened comes to what its transfer gives. -/
theorem Working.run_eq_conclude (hwork : Working task fs job node t) (hwritten : t.written = [])
    (hlast : t.last = none) (hsent : t.sent = [.started task.id task.source]) (hlog : t.log = []) :
    task.run c fs = conclude task job t (transfer? c job node t) := by
  obtain ⟨source, hnames, hopen⟩ := hwork.opened.names
  have hput : ∀ bytes, fs.put job.place (.file bytes) = t.files.append job.place bytes := by
    intro bytes
    rw [hwork.files, hwritten, FileSystem.append_put hwork.place_ne_nil]
    rfl
  unfold CopyTask.run copyFile copyOpened
  simp only [hnames, ← hwork.opened.path, hopen, hwork.place]
  cases node with
  | directory =>
    cases hstop : c.stopped 0 with
    | true => simp [transfer?, conclude, hstop, hput, hwritten, hsent, hlog]
    | false =>
      simp [transfer?, conclude, hstop, CopyTask.failed, hwork.files, hwritten, hsent, hlog]
  | file bytes =>
    have hrun : transfer? c job (.file bytes) t =
        .ok (Transfer.run c bytes.length 0 0 none (job.contents (.file bytes))) := by
      rw [transfer?, hwork.size, hwritten, hlast]
      rfl
    rw [hrun]
    simp only [conclude, hput, hwritten, hsent, hlog, List.length_nil, Nat.zero_add]
    rfl

/-- While a copy is idle nothing is written. -/
theorem Idle.written (h : Idle fs t) : t.written = [] := congrArg List.flatten h.untouched.writes

/-- A transfer that is stopped before it begins writes nothing. -/
theorem transfer?_of_stopped (h : c.stopped 0 = true) :
    transfer? c job node t = .ok ⟨[], [], true⟩ := by
  cases node with
  | directory => exact if_pos h
  | file bytes => exact congrArg Except.ok (Transfer.run_of_stopped h)

/-- A directory cannot be read. -/
theorem transfer?_directory (h : c.stopped 0 = false) :
    transfer? c job .directory t = .error .isADirectory := if_neg (Bool.eq_false_iff.1 h)

/-- A transfer that has come to the end of its source is complete. -/
theorem Working.transfer?_nil {bytes : List UInt8} (hwork : Working task fs job (.file bytes) t)
    (hread : t.files.readFrom job.origin t.written.length = .ok []) (h : c.stopped 0 = false) :
    transfer? c job (.file bytes) t = .ok ⟨[], [], false⟩ := by
  rw [hwork.readFrom] at hread
  rw [transfer?, Except.ok.inj hread, Transfer.run_nil h]

/-- A thread has written a chunk, has told what was to be told of it, and is to look again. -/
structure Wrote (task : CopyTask) (job : Job) (chunk : List UInt8) (t t' : CopyThread) : Prop where
  stage : t'.stage = .looking job
  stopped : t'.stopped = t.stopped
  asked : t'.asked = t.asked
  made : t'.made = t.made
  files : t'.files = (t.put job chunk).files
  writes : t'.writes = (t.put job chunk).writes
  last : t'.last = percentAt job.size (t.put job chunk).written.length
  sent : t'.sent = t.sent ++
    (if t'.last = t.last then [] else t'.last.toList).map (.progress task.id)
  log : t'.log = t.log

/-- Nothing is to be told where the percentage is the one last told. -/
theorem Wrote.of_same {chunk : List UInt8}
    (h : percentAt job.size (t.put job chunk).written.length = t.last) :
    Wrote task job chunk t { t.put job chunk with stage := .looking job } := by
  refine ⟨rfl, rfl, rfl, rfl, rfl, rfl, h.symm, ?_, rfl⟩
  show t.sent = t.sent ++ (if t.last = t.last then [] else t.last.toList).map (.progress task.id)
  rw [if_pos rfl, List.map_nil, List.append_nil]

/-- A new percentage is told. -/
theorem Wrote.of_new {chunk : List UInt8} {p : UInt8}
    (h : percentAt job.size (t.put job chunk).written.length = some p) (hnew : t.last ≠ some p) :
    Wrote task job chunk t
      (send (.progress task.id p) (.looking job)
        { t.put job chunk with stage := .telling job p, last := some p }) := by
  refine ⟨rfl, rfl, rfl, rfl, rfl, rfl, h.symm, ?_, rfl⟩
  show t.sent ++ [CopyEvent.progress task.id p] =
    t.sent ++ (if some p = t.last then [] else (some p).toList).map (.progress task.id)
  rw [if_neg (Ne.symm hnew)]
  rfl

/-- Having written a chunk, the thread still works. -/
theorem Wrote.working {chunk : List UInt8} (h : Wrote task job chunk t t')
    (hwork : Working task fs job node t)
    (hchunk : chunk <+: (job.contents node).drop t.written.length) :
    Working task fs job node t' :=
  (hwork.put hchunk).of_eq h.asked h.made h.files h.writes

/-- The percentage told last is that of what has been written. -/
theorem Wrote.current {chunk : List UInt8} (h : Wrote task job chunk t t') (hpos : chunk ≠ []) :
    t'.last = toldAt job.size t'.written.length := by
  have hwritten : t'.written = (t.put job chunk).written := congrArg List.flatten h.writes
  rw [h.last, hwritten, toldAt_put hpos]

/-- What has been written is longer by the chunk. -/
theorem Wrote.length_written {chunk : List UInt8} (h : Wrote task job chunk t t') :
    t'.written.length = t.written.length + chunk.length := by
  rw [← length_written_put job]
  exact congrArg (List.length ∘ List.flatten) h.writes

/-- What a thread comes to with a chunk that is written is what it comes to afterwards. -/
theorem Working.conclude_chunk {bytes left chunk : List UInt8}
    (hwork : Working task fs job (.file bytes) t)
    (hread : t.files.readFrom job.origin t.written.length = .ok left) (hleft : left ≠ [])
    (hchunk : chunk = left.take (c.readSize 0)) (hgo : c.stopped 0 = false)
    (hwrote : Wrote task job chunk t t') :
    conclude task job t (transfer? c job (.file bytes) t) =
      conclude task job t' (transfer? c.later job (.file bytes) t') := by
  have hwritten : t'.written = t.written ++ chunk := by
    simp [CopyThread.written, hwrote.writes, CopyThread.put]
  have hlength : t'.written.length = t.written.length + chunk.length := by
    rw [hwritten, List.length_append]
  have hlast := hwrote.last
  rw [length_written_put] at hlast
  rw [hwork.readFrom] at hread
  have hrest : left.drop (c.readSize 0) =
      (job.contents (.file bytes)).drop (t.written.length + chunk.length) := by
    rw [← List.drop_drop, Except.ok.inj hread, hchunk, List.length_take, ← List.drop_eq_drop_min]
  rw [transfer?, transfer?, Except.ok.inj hread, Transfer.run_of_ne_nil hgo hleft]
  dsimp only
  rw [← hchunk, ← hlast, Transfer.run_later, hrest, ← hlength]
  exact hwork.conclude_cons chunk _ _ hwrote.files hwritten hwrote.sent hwrote.log

/-! ## From the end backwards -/

/-- A thread that stands before a step has this outcome before it, where things go as `c` says from
the look on that it is at or comes to next. -/
inductive LeadsAt (task : CopyTask) (fs : FileSystem) (c : Conditions) (t : CopyThread)
    (o : CopyOutcome) : Stage → Prop
  | starting (ho : task.run c fs = o) : LeadsAt task fs c t o .starting
  | opening (ho : task.run c fs = o) : LeadsAt task fs c t o .opening
  | creating {name path : String} {origin : Place} {size : Nat} (ho : task.run c fs = o) :
      LeadsAt task fs c t o (.creating name path origin size)
  | looking {job : Job} {node : FileNode} (hwork : Working task fs job node t)
      (ho : conclude task job t (transfer? c job node t) = o) : LeadsAt task fs c t o (.looking job)
  | reading {job : Job} {node : FileNode} (hwork : Working task fs job node t)
      (ho : conclude task job t (transfer? c job node t) = o) : LeadsAt task fs c t o (.reading job)
  | writing {job : Job} {bytes chunk : List UInt8} (hwork : Working task fs job (.file bytes) t)
      (ho : conclude task job t (transfer? c job (.file bytes) t) = o) :
      LeadsAt task fs c t o (.writing job chunk)
  | telling {job : Job} {node : FileNode} {p : UInt8} (hwork : Working task fs job node t)
      (ho : conclude task job (t.send (.progress task.id p) (.looking job))
        (transfer? c job node t) = o) : LeadsAt task fs c t o (.telling job p)
  | ending {event : CopyEvent} (ho : ⟨t.sent ++ [event], t.files, t.log⟩ = o) :
      LeadsAt task fs c t o (.ending event)
  | ended (ho : t.outcome = o) : LeadsAt task fs c t o .ended

/-- A flag that is set anyway makes no difference to how the copy ends. -/
theorem LeadsAt.cancel {o : CopyOutcome} {stage : Stage}
    (h : LeadsAt task fs c { t with stopped := true } o stage) : LeadsAt task fs c t o stage := by
  cases h with
  | starting ho => exact .starting ho
  | opening ho => exact .opening ho
  | creating ho => exact .creating ho
  | looking hwork ho => exact .looking (hwork.of_eq rfl rfl rfl rfl) ho
  | reading hwork ho => exact .reading (hwork.of_eq rfl rfl rfl rfl) ho
  | writing hwork ho => exact .writing (hwork.of_eq rfl rfl rfl rfl) ho
  | telling hwork ho => exact .telling (hwork.of_eq rfl rfl rfl rfl) ho
  | ending ho => exact .ending ho
  | ended ho => exact .ended ho

/-- A copy that fails before its destination is made. -/
theorem Idle.failed_eq (h : Idle fs t) (htold : Told task [] t.sent) (path : String)
    (e : CopyError) :
    task.failed path e fs =
      ⟨t.sent ++ [.finished task.id path false e.message], t.files,
        t.log ++ [.copyFailed task.source e.message]⟩ := by
  rw [htold.sent, h.untouched.files, h.log]
  rfl

/-- Where there is a chunk there was something left. -/
theorem ne_nil_of_chunk {chunk left : List UInt8} (h : chunk <+: left) (hpos : chunk ≠ []) :
    left ≠ [] := by
  rintro rfl
  exact hpos (List.prefix_nil.1 h)

/-- A chunk is what a read brings that is to bring so many bytes. -/
theorem eq_take_readSize {chunk left : List UInt8} (h : chunk <+: left) (hpos : chunk ≠ [])
    (hlimit : chunk.length ≤ chunkLimit) :
    chunk = left.take ((c.after chunk.length).readSize 0) := by
  have hsize : (c.after chunk.length).readSize 0 = chunk.length := by
    have := List.length_pos_iff.2 hpos
    show max 1 (min chunk.length chunkLimit) = chunk.length
    omega
  rw [hsize]
  exact List.prefix_iff_eq_take.1 h

/-- An outcome that is before a thread after a turn was before it already. -/
theorem LeadsAt.of_moves {turn : Turn} {o : CopyOutcome} (h : Moves task t turn t')
    (hturn : turn.isRefusal = false) (hs : Sound task fs False t)
    (hlead : LeadsAt task fs c t' o t'.stage) : ∃ c, LeadsAt task fs c t o t.stage := by
  cases h with
  | cancel => exact ⟨c, hlead.cancel⟩
  | start hstage =>
    rw [hstage]
    cases hlead with
    | opening ho => exact ⟨c, .starting ho⟩
  | @unnamed limit e hstage hnames =>
    obtain ⟨hidle, htold⟩ := hs.of_opening hstage
    rw [hstage]
    cases hlead with
    | ending ho =>
      refine ⟨c, .opening (Eq.trans ?_ ho)⟩
      rw [CopyTask.run, hnames]
      exact hidle.failed_eq htold _ e
  | @missing limit source name e hstage hnames hopen =>
    obtain ⟨hidle, htold⟩ := hs.of_opening hstage
    rw [hidle.untouched.files] at hopen
    rw [hstage]
    cases hlead with
    | ending ho =>
      refine ⟨c, .opening (Eq.trans ?_ ho)⟩
      simp only [CopyTask.run, hnames, copyFile, hopen]
      exact hidle.failed_eq htold _ (.file e)
  | opened hstage hnames hopen =>
    rw [hstage]
    cases hlead with
    | creating ho => exact ⟨c, .opening ho⟩
  | refusedOpen | refusedCreate | refusedRead | refusedWrite => cases hturn
  | @unwritable limit name path origin size e hstage hplace =>
    obtain ⟨hidle, htold, node, ⟨⟨source, hnames, hopen⟩, rfl⟩, -⟩ := hs.of_creating hstage
    rw [hidle.untouched.files] at hplace
    rw [hstage]
    cases hlead with
    | ending ho =>
      refine ⟨c, .creating (Eq.trans ?_ ho)⟩
      simp only [CopyTask.run, hnames, copyFile, hopen, copyOpened, hplace]
      exact hidle.failed_eq htold _ (.file e)
  | created hstage hplace =>
    obtain ⟨hidle, htold, -⟩ := hs.of_creating hstage
    rw [hstage]
    cases hlead with
    | looking hwork ho =>
      have hrun := hwork.run_eq_conclude (c := c) hidle.written hidle.last htold.sent hidle.log
      exact ⟨c, .creating (hrun.trans ho)⟩
  | stop hstage hstop =>
    obtain ⟨node, percents, hwork, -⟩ := hs.of_looking hstage
    rw [hstage]
    cases hlead with
    | ending ho =>
      -- of the conditions only what the next look finds matters
      refine ⟨.stoppedAfter 0, .looking hwork ?_⟩
      rw [transfer?_of_stopped rfl, hwork.conclude_nil]
      exact ho
  | look hstage hgo =>
    rw [hstage]
    cases hlead with
    | reading hwork ho => exact ⟨c, .looking (hwork.of_eq rfl rfl rfl rfl) ho⟩
  | unreadable hstage hread =>
    obtain ⟨node, percents, hwork, -⟩ := hs.of_reading hstage
    rw [hwork.readFrom] at hread
    rw [hstage]
    cases hlead with
    | ending ho =>
      cases node with
      | directory =>
        cases hread
        refine ⟨.undisturbed, .reading hwork ?_⟩
        rw [transfer?_directory rfl]
        exact ho
      | file bytes => cases hread
  | done hstage hread =>
    obtain ⟨node, percents, hwork, -⟩ := hs.of_reading hstage
    rw [hstage]
    cases hlead with
    | ending ho =>
      cases node with
      | directory => rw [hwork.readFrom] at hread; cases hread
      | file bytes =>
        refine ⟨.undisturbed, .reading hwork ?_⟩
        rw [hwork.transfer?_nil hread rfl, hwork.conclude_nil]
        exact ho
  | read hstage hread hleft =>
    rw [hstage]
    cases hlead with
    | writing hwork ho => exact ⟨c, .reading (hwork.of_eq rfl rfl rfl rfl) ho⟩
  | interrupted hstage =>
    rw [hstage]
    cases hlead with
    | looking hwork ho => exact ⟨c, .reading (hwork.of_eq rfl rfl rfl rfl) ho⟩
  | @write limit job chunk hstage hpercent =>
    obtain ⟨bytes, percents, hwork, htell, hchunk, hpos, hlimit⟩ := hs.of_writing hstage
    rw [hstage]
    cases hlead with
    | looking hwork' ho =>
      obtain ⟨-, -, -, rfl⟩ := hwork'.opened.unique hwork.opened
      have hlast := percentAt_put_eq_last htell.current hpercent
      -- a look that let the copy go on and a read of this chunk come before the rest
      refine ⟨c.after chunk.length, .writing hwork (Eq.trans ?_ ho)⟩
      exact hwork.conclude_chunk hwork.readFrom (ne_nil_of_chunk hchunk hpos)
        (eq_take_readSize hchunk hpos hlimit) rfl (.of_same hlast)
  | @writeNew limit job chunk p hstage hpercent hnew =>
    obtain ⟨bytes, percents, hwork, htell, hchunk, hpos, hlimit⟩ := hs.of_writing hstage
    rw [hstage]
    cases hlead with
    | telling hwork' ho =>
      obtain ⟨-, -, -, rfl⟩ := hwork'.opened.unique hwork.opened
      refine ⟨c.after chunk.length, .writing hwork (Eq.trans ?_ ho)⟩
      exact hwork.conclude_chunk hwork.readFrom (ne_nil_of_chunk hchunk hpos)
        (eq_take_readSize hchunk hpos hlimit) rfl (.of_new hpercent hnew)
  | tell hstage =>
    rw [hstage]
    cases hlead with
    | looking hwork ho => exact ⟨c, .telling (hwork.of_eq rfl rfl rfl rfl) ho⟩
  | finish hstage =>
    rw [hstage]
    cases hlead with
    | ended ho => exact ⟨c, .ending ho⟩

/-- The thread can come to an outcome, with nothing refused to it on the way. -/
inductive Comes (task : CopyTask) : CopyThread → CopyOutcome → Prop
  | ended {t : CopyThread} (hstage : t.stage = .ended) : Comes task t t.outcome
  | turn {t next : CopyThread} {o : CopyOutcome} {turn : Turn} (h : Moves task t turn next)
      (hturn : turn.isRefusal = false) (hrest : Comes task next o) : Comes task t o

/-- An outcome comes about just if some turns without refusals lead to it. -/
theorem comes_iff_run? {o : CopyOutcome} :
    Comes task t o ↔ ∃ (turns : List Turn) (t' : CopyThread),
      (∀ turn ∈ turns, turn.isRefusal = false) ∧ t.run? task turns = some t' ∧
        t'.stage = .ended ∧ t'.outcome = o := by
  constructor
  · intro h
    induction h with
    | @ended t hstage => exact ⟨[], t, nofun, rfl, hstage, rfl⟩
    | @turn t next o turn h hturn _ ih =>
      obtain ⟨turns, t', hquiet, hrun, hended, hout⟩ := ih
      refine ⟨turn :: turns, t', List.forall_mem_cons.2 ⟨hturn, hquiet⟩, ?_, hended, hout⟩
      rw [run?, step?_of_moves h]
      exact hrun
  · rintro ⟨turns, t', hquiet, hrun, hended, rfl⟩
    induction turns generalizing t with
    | nil => cases hrun; exact .ended hended
    | cons turn rest ih =>
      obtain ⟨hturn, hmore⟩ := List.forall_mem_cons.1 hquiet
      obtain ⟨next, hstep, hrest⟩ := Option.bind_eq_some_iff.1 hrun
      exact .turn (moves_of_step? hstep) hturn (ih hmore hrest)

/-- What a thread can come to is before it. -/
theorem Comes.leadsAt {o : CopyOutcome} (h : Comes task t o) (hs : Sound task fs False t) :
    ∃ c, LeadsAt task fs c t o t.stage := by
  induction h with
  | @ended t hstage =>
    rw [hstage]
    exact ⟨.undisturbed, .ended rfl⟩
  | @turn t next o turn h hturn _ ih =>
    obtain ⟨c, hlead⟩ := ih (hs.moves (Bool.eq_false_iff.1 hturn) h)
    exact hlead.of_moves h hturn hs

/-! ## Through the account -/

/-- A step of the thread that is taken as it should. -/
theorem Comes.go (limit : Nat) {next : CopyThread} {o : CopyOutcome}
    (h : Moves task t (.go limit) next) (hrest : Comes task next o) : Comes task t o :=
  .turn h rfl hrest

/-- A thread that has something last to tell tells it. -/
theorem comes_of_ending {event : CopyEvent} {o : CopyOutcome} (hstage : t.stage = .ending event)
    (ho : o = ⟨t.sent ++ [event], t.files, t.log⟩) : Comes task t o := by
  rw [ho]
  exact .go 0 (.finish hstage) (.ended rfl)

/-- A thread that is to write a chunk does so, tells what is to be told and is to look again. -/
theorem comes_of_writing {chunk : List UInt8} {o : CopyOutcome}
    (hstage : t.stage = .writing job chunk) (hcurrent : t.last = toldAt job.size t.written.length)
    (hrest : ∀ t', Wrote task job chunk t t' → Comes task t' o) : Comes task t o := by
  by_cases hquiet : percentAt job.size (t.put job chunk).written.length = none ∨
      percentAt job.size (t.put job chunk).written.length = t.last
  · have hlast := percentAt_put_eq_last hcurrent hquiet
    exact .go 0 (.write hstage hquiet) (hrest _ (.of_same hlast))
  · obtain ⟨hsome, hnew⟩ := not_or.1 hquiet
    obtain ⟨p, hp⟩ := Option.ne_none_iff_exists'.1 hsome
    rw [hp] at hnew
    exact .go 0 (.writeNew hstage hp (Ne.symm hnew))
      (.go 0 (.tell rfl) (hrest _ (.of_new hp (Ne.symm hnew))))

/-- A thread that is to read and finds something left goes through one round of its copy. -/
theorem comes_of_reading {bytes more : List UInt8} (hstage : t.stage = .reading job)
    (hwork : Working task fs job (.file bytes) t)
    (hcurrent : t.last = toldAt job.size t.written.length)
    (hread : t.files.readFrom job.origin t.written.length = .ok more) (hmore : more ≠ [])
    (hstop : c.stopped 0 = false)
    (hrest : ∀ t' chunk, chunk <+: more → chunk ≠ [] → Wrote task job chunk t t' →
      Comes task t' (conclude task job t' (transfer? c.later job (.file bytes) t'))) :
    Comes task t (conclude task job t (transfer? c job (.file bytes) t)) := by
  refine .go (c.readLimit 0) (.read hstage hread hmore) ?_
  refine comes_of_writing rfl hcurrent fun t' hwrote => ?_
  -- what is written goes by the files and what has been written, not by the stage
  have hwrote : Wrote task job (more.take (c.readSize 0)) t t' :=
    ⟨hwrote.stage, hwrote.stopped, hwrote.asked, hwrote.made, hwrote.files, hwrote.writes,
      hwrote.last, hwrote.sent, hwrote.log⟩
  rw [hwork.conclude_chunk hread hmore rfl hstop hwrote]
  exact hrest t' _ (List.take_prefix _ _) (take_readSize_ne_nil hmore _) hwrote

/-- A thread that is to look can come to what is left of its copy, however things go. -/
theorem comes_of_looking (c : Conditions) (hstage : t.stage = .looking job)
    (hgo : t.stopped = false) (hwork : Working task fs job node t)
    (hcurrent : t.last = toldAt job.size t.written.length) :
    Comes task t (conclude task job t (transfer? c job node t)) := by
  -- every round writes at least a byte, so that less is left to copy
  induction hleft : (job.contents node).length - t.written.length using Nat.strongRecOn
    generalizing t c with
  | ind left ih =>
  cases hstop : c.stopped 0 with
  | true =>
    rw [transfer?_of_stopped hstop, hwork.conclude_nil]
    exact .turn .cancel rfl (.go 0 (.stop hstage rfl) (comes_of_ending rfl rfl))
  | false =>
    refine .go 0 (.look hstage hgo) ?_
    cases node with
    | directory =>
      rw [transfer?_directory hstop]
      exact .go 0 (.unreadable rfl hwork.readFrom) (comes_of_ending rfl rfl)
    | file bytes =>
      have hread : t.files.readFrom job.origin t.written.length = .ok _ := hwork.readFrom
      by_cases hnil : (job.contents (.file bytes)).drop t.written.length = []
      · rw [hnil] at hread
        rw [hwork.transfer?_nil hread hstop, hwork.conclude_nil]
        exact .go 0 (.done rfl hread) (comes_of_ending rfl rfl)
      · refine comes_of_reading rfl (hwork.of_eq rfl rfl rfl rfl) hcurrent hread hnil hstop
          fun t' chunk hchunk hpos hwrote => ?_
        have hwork' := hwrote.working (hwork.of_eq rfl rfl rfl rfl) hchunk
        have hlength : t'.written.length = t.written.length + chunk.length :=
          hwrote.length_written
        have hfew := hwork'.written.length_le
        have hpos' := List.length_pos_iff.2 hpos
        exact ih _ (by omega) c.later hwrote.stage (hwrote.stopped.trans hgo) hwork'
          (hwrote.current hpos) rfl

/-- A thread that has just made its destination can come to whatever is made of its copy. -/
theorem comes_of_created (hstage : t.stage = .looking job) (hgo : t.stopped = false)
    (hwork : Working task fs job node t) (hwritten : t.written = []) (hlast : t.last = none)
    (hsent : t.sent = [.started task.id task.source]) (hlog : t.log = []) :
    Comes task t (task.run c fs) := by
  have hcurrent : t.last = toldAt job.size t.written.length := by
    rw [hlast, hwritten]
    rfl
  rw [hwork.run_eq_conclude hwritten hlast hsent hlog]
  exact comes_of_looking c hstage hgo hwork hcurrent

/-- A thread that starts can come to whatever is made of its copy. -/
theorem comes_run (c : Conditions) : Comes task (fresh fs) (task.run c fs) := by
  refine .go 0 (.start rfl) ?_
  cases hnames : task.names with
  | error e =>
    refine .go 0 (.unnamed rfl hnames) (comes_of_ending rfl ?_)
    rw [CopyTask.run, hnames]
    rfl
  | ok names =>
    obtain ⟨source, name⟩ := names
    cases hopen : fs.openNode source with
    | error e =>
      refine .go 0 (.missing rfl hnames hopen) (comes_of_ending rfl ?_)
      simp only [CopyTask.run, hnames, copyFile, hopen]
      rfl
    | ok opened =>
      obtain ⟨origin, node⟩ := opened
      refine .go 0 (.opened rfl hnames hopen) ?_
      cases hplace : fs.writable (pathIn task.directory name) with
      | error e =>
        refine .go 0 (.unwritable rfl hplace) (comes_of_ending rfl ?_)
        simp only [CopyTask.run, hnames, copyFile, hopen, copyOpened, hplace]
        rfl
      | ok place =>
        refine .go 0 (.created rfl hplace) ?_
        have hopened : Opened task fs name (pathIn task.directory name) origin node :=
          ⟨⟨source, hnames, hopen⟩, rfl⟩
        exact comes_of_created rfl rfl ⟨hopened, rfl, hplace, rfl, rfl, rfl, List.nil_prefix⟩
          rfl rfl rfl rfl

/-- **What threads come to is what is made of the copy.** Where nothing is refused, a thread that
has ended has come to what `CopyTask.run` gives under some conditions, and under all conditions
there are turns that take a thread there. -/
theorem ended_iff_run {o : CopyOutcome} :
    (∃ (turns : List Turn) (t : CopyThread), (∀ turn ∈ turns, turn.isRefusal = false) ∧
        (fresh fs).run? task turns = some t ∧ t.stage = .ended ∧ t.outcome = o) ↔
      ∃ c, task.run c fs = o := by
  rw [← comes_iff_run?]
  constructor
  · intro h
    obtain ⟨c, hlead⟩ := h.leadsAt sound_fresh
    cases hlead with
    | starting ho => exact ⟨c, ho⟩
  · rintro ⟨c, rfl⟩
    exact comes_run c

end

end CopyThread

end LayoutEngine
