import LayoutEngine.Copy.Thread

/-!
# What a turn makes of a copy

`CopyThread.Moves` lists, one constructor for each, the ways in which a turn changes a thread, and
nothing else comes about (`moves_of_step?`, `step?_of_moves`). So what every turn keeps is shown
case by case, and what each turn keeps all of them keep (`run?_induction`).
-/

namespace LayoutEngine

open Copy

namespace CopyThread

/-- What a turn makes of a thread. -/
inductive Moves (task : CopyTask) (t : CopyThread) : Turn → CopyThread → Prop
  | cancel : Moves task t .cancel { t with stopped := true }
  | start {limit : Nat} (hstage : t.stage = .starting) :
      Moves task t (.go limit) (t.send (.started task.id task.source) .opening)
  | unnamed {limit : Nat} {e : CopyError} (hstage : t.stage = .opening)
      (hnames : task.names = .error e) :
      Moves task t (.go limit) (t.fail task task.directory e)
  | missing {limit : Nat} {source name : String} {e : FileError} (hstage : t.stage = .opening)
      (hnames : task.names = .ok (source, name)) (hopen : t.files.openNode source = .error e) :
      Moves task t (.go limit) (t.fail task (pathIn task.directory name) (.file e))
  | opened {limit : Nat} {source name : String} {origin : Place} {node : FileNode}
      (hstage : t.stage = .opening) (hnames : task.names = .ok (source, name))
      (hopen : t.files.openNode source = .ok (origin, node)) :
      Moves task t (.go limit)
        { t with
          stage := .creating name (pathIn task.directory name) origin node.bytes.length }
  | refusedOpen {reason : FileError} {kept : Nat} {source name : String}
      (hstage : t.stage = .opening) (hnames : task.names = .ok (source, name)) :
      Moves task t (.refuse reason kept) (t.fail task (pathIn task.directory name) (.file reason))
  | unwritable {limit : Nat} {name path : String} {origin : Place} {size : Nat} {e : FileError}
      (hstage : t.stage = .creating name path origin size)
      (hplace : t.files.writable path = .error e) :
      Moves task t (.go limit) ((t.ask path).fail task path (.file e))
  | created {limit : Nat} {name path : String} {origin place : Place} {size : Nat}
      (hstage : t.stage = .creating name path origin size)
      (hplace : t.files.writable path = .ok place) :
      Moves task t (.go limit)
        { t.ask path with
          stage := .looking ⟨name, path, origin, place, size⟩
          made := some place
          files := t.files.put place (.file []) }
  | refusedCreate {reason : FileError} {kept : Nat} {name path : String} {origin : Place}
      {size : Nat} (hstage : t.stage = .creating name path origin size) :
      Moves task t (.refuse reason kept) ((t.ask path).fail task path (.file reason))
  | stop {limit : Nat} {job : Job} (hstage : t.stage = .looking job) (hstop : t.stopped = true) :
      Moves task t (.go limit)
        { t with
          looks := t.looks + 1
          stage := .ending (.cancelled task.id job.path (UInt64.ofNat t.written.length)) }
  | look {limit : Nat} {job : Job} (hstage : t.stage = .looking job) (hgo : t.stopped = false) :
      Moves task t (.go limit) { t with looks := t.looks + 1, stage := .reading job }
  | unreadable {limit : Nat} {job : Job} {e : FileError} (hstage : t.stage = .reading job)
      (hread : t.files.readFrom job.origin t.written.length = .error e) :
      Moves task t (.go limit) (t.fail task job.path (.file e))
  | done {limit : Nat} {job : Job} (hstage : t.stage = .reading job)
      (hread : t.files.readFrom job.origin t.written.length = .ok []) :
      Moves task t (.go limit)
        { t with
          stage := .ending (.finished task.id job.path true job.name)
          log := t.log ++ [.copied task.source job.path] }
  | read {limit : Nat} {job : Job} {left : List UInt8} (hstage : t.stage = .reading job)
      (hread : t.files.readFrom job.origin t.written.length = .ok left) (hleft : left ≠ []) :
      Moves task t (.go limit) { t with stage := .writing job (left.take (readSize limit)) }
  | interrupted {job : Job} (hstage : t.stage = .reading job) :
      Moves task t .interrupt { t with stage := .looking job }
  | refusedRead {reason : FileError} {kept : Nat} {job : Job} (hstage : t.stage = .reading job) :
      Moves task t (.refuse reason kept) (t.fail task job.path (.file reason))
  | write {limit : Nat} {job : Job} {chunk : List UInt8} (hstage : t.stage = .writing job chunk)
      (hpercent : percentAt job.size (t.put job chunk).written.length = none ∨
        percentAt job.size (t.put job chunk).written.length = t.last) :
      Moves task t (.go limit) { t.put job chunk with stage := .looking job }
  | writeNew {limit : Nat} {job : Job} {chunk : List UInt8} {percent : UInt8}
      (hstage : t.stage = .writing job chunk)
      (hpercent : percentAt job.size (t.put job chunk).written.length = some percent)
      (hnew : t.last ≠ some percent) :
      Moves task t (.go limit)
        { t.put job chunk with stage := .telling job percent, last := some percent }
  | refusedWrite {reason : FileError} {kept : Nat} {job : Job} {chunk : List UInt8}
      (hstage : t.stage = .writing job chunk) (hkept : kept < chunk.length) :
      Moves task t (.refuse reason kept)
        ((t.put job (chunk.take kept)).fail task job.path (.file reason))
  | tell {limit : Nat} {job : Job} {percent : UInt8} (hstage : t.stage = .telling job percent) :
      Moves task t (.go limit) (t.send (.progress task.id percent) (.looking job))
  | finish {limit : Nat} {event : CopyEvent} (hstage : t.stage = .ending event) :
      Moves task t (.go limit) (t.send event .ended)

/-- Whatever a turn makes of a thread is listed. -/
theorem moves_of_step? {task : CopyTask} {turn : Turn} {t t' : CopyThread}
    (h : t.step? task turn = some t') : Moves task t turn t' := by
  cases turn with
  | cancel =>
    cases h
    exact .cancel
  | go limit =>
    rw [step?, go?] at h
    split at h
    · next hstage => cases h; exact .start hstage
    · next hstage =>
      cases h
      unfold openSource
      cases hnames : task.names with
      | error e => exact .unnamed hstage hnames
      | ok names =>
        dsimp only
        cases hopen : t.files.openNode names.1 with
        | error e => exact .missing hstage hnames hopen
        | ok opened => exact .opened hstage hnames hopen
    · next hstage =>
      cases h
      unfold create
      split
      · next hplace => exact .unwritable hstage hplace
      · next hplace => exact .created hstage hplace
    · next hstage =>
      cases h
      unfold look
      split
      · next hstop => exact .stop hstage hstop
      · next hgo => exact .look hstage (Bool.eq_false_iff.2 hgo)
    · next hstage =>
      cases h
      unfold read
      split
      · next hread => exact .unreadable hstage hread
      · next hread => exact .done hstage hread
      · next left hempty hread => exact .read hstage hread hempty
    · next hstage =>
      cases h
      unfold write
      dsimp only
      split
      · next hnone => exact .write hstage (.inl hnone)
      · next percent hpercent =>
        split
        · next hsame => exact .write hstage (.inr (hpercent.trans hsame.symm))
        · next hnew => exact .writeNew hstage hpercent hnew
    · next hstage => cases h; exact .tell hstage
    · next hstage => cases h; exact .finish hstage
    · cases h
  | interrupt =>
    rw [step?, interrupt?] at h
    split at h
    · next hstage => cases h; exact .interrupted hstage
    · cases h
  | refuse reason kept =>
    rw [step?, refuse?] at h
    split at h
    · next hstage =>
      split at h
      · cases h
      · next hnames => cases h; exact .refusedOpen hstage hnames
    · next hstage => cases h; exact .refusedCreate hstage
    · next hstage => cases h; exact .refusedRead hstage
    · next hstage =>
      split at h
      · next hkept => cases h; exact .refusedWrite hstage hkept
      · cases h
    · cases h

/-- What is listed comes about. -/
theorem step?_of_moves {task : CopyTask} {turn : Turn} {t t' : CopyThread}
    (h : Moves task t turn t') : t.step? task turn = some t' := by
  cases h with
  | cancel => rfl
  | start hstage | tell hstage | finish hstage => rw [step?, go?, hstage]
  | unnamed hstage hnames => rw [step?, go?, hstage, openSource, hnames]
  | missing hstage hnames hopen | opened hstage hnames hopen =>
    simp only [step?, go?, hstage, openSource, hnames, hopen]
  | refusedOpen hstage hnames => rw [step?, refuse?, hstage, hnames]
  | unwritable hstage hplace | created hstage hplace =>
    simp only [step?, go?, hstage, create, hplace]
  | refusedCreate hstage | refusedRead hstage => rw [step?, refuse?, hstage]
  | stop hstage hstop => simp only [step?, go?, hstage, look, if_pos hstop]
  | look hstage hgo =>
    simp only [step?, go?, hstage, look, if_neg (Bool.eq_false_iff.1 hgo)]
  | unreadable hstage hread | done hstage hread =>
    simp only [step?, go?, hstage, read, hread]
  | @read limit job left hstage hread hleft =>
    obtain ⟨b, rest, rfl⟩ := List.exists_cons_of_ne_nil hleft
    simp only [step?, go?, hstage, read, hread]
  | interrupted hstage => rw [step?, interrupt?, hstage]
  | @write limit job chunk hstage hpercent =>
    simp only [step?, go?, hstage, write]
    cases hp : percentAt job.size (t.put job chunk).written.length with
    | none => rfl
    | some p =>
      rw [hp] at hpercent
      have hsame : (t.put job chunk).last = some p :=
        (hpercent.resolve_left (Option.some_ne_none p)).symm
      dsimp only
      rw [if_pos hsame]
  | @writeNew limit job chunk percent hstage hpercent hnew =>
    have hnew' : (t.put job chunk).last ≠ some percent := hnew
    simp only [step?, go?, hstage, write, hpercent, if_neg hnew']
  | refusedWrite hstage hkept => simp only [step?, refuse?, hstage, if_pos hkept]

/-- What each of the turns keeps is kept by all of them. -/
theorem run?_induction {task : CopyTask} {p : CopyThread → Prop} {turns : List Turn}
    (hkeep : ∀ turn ∈ turns, ∀ t t', Moves task t turn t' → p t → p t') {t t' : CopyThread}
    (h : t.run? task turns = some t') (ht : p t) : p t' := by
  induction turns generalizing t with
  | nil => cases h; exact ht
  | cons turn rest ih =>
    obtain ⟨next, hstep, hrest⟩ := Option.bind_eq_some_iff.1 h
    obtain ⟨hturn, hmore⟩ := List.forall_mem_cons.1 hkeep
    exact ih hmore hrest (hturn _ _ (moves_of_step? hstep) ht)

/-- Turns may come in two parts. -/
theorem run?_append {task : CopyTask} {first second : List Turn} {t t' : CopyThread}
    (h : t.run? task first = some t') :
    t.run? task (first ++ second) = t'.run? task second := by
  induction first generalizing t with
  | nil => cases h; rfl
  | cons turn rest ih =>
    obtain ⟨next, hstep, hrest⟩ := Option.bind_eq_some_iff.1 h
    rw [List.cons_append, run?, hstep]
    exact ih hrest

/-- To a thread that has ended nothing happens but that its flag is set. -/
theorem Moves.of_ended {task : CopyTask} {turn : Turn} {t t' : CopyThread}
    (h : Moves task t turn t') (hended : t.stage = .ended) :
    t' = { t with stopped := true } := by
  cases h with
  | cancel => rfl
  | start hstage | unnamed hstage | missing hstage | opened hstage | refusedOpen hstage
  | unwritable hstage | created hstage | refusedCreate hstage | stop hstage | look hstage
  | unreadable hstage | done hstage | read hstage | interrupted hstage | refusedRead hstage
  | write hstage | writeNew hstage | refusedWrite hstage | tell hstage | finish hstage =>
    cases hended.symm.trans hstage

/-- Once a thread has ended, turns do no more than set the flag. -/
theorem run?_of_ended {task : CopyTask} {turns : List Turn} {t t' : CopyThread}
    (h : t.run? task turns = some t') (hended : t.stage = .ended) :
    ∃ stopped, t' = { t with stopped := stopped } := by
  refine run?_induction (p := fun x => ∃ stopped, x = { t with stopped := stopped }) ?_ h
    ⟨t.stopped, rfl⟩
  rintro turn - _ t' hmoves ⟨stopped, rfl⟩
  exact ⟨true, hmoves.of_ended hended⟩

end CopyThread

end LayoutEngine
