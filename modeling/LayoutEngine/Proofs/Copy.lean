import LayoutEngine.Copy.Task
import LayoutEngine.Proofs.FileSystem

/-!
# What a successful copy leaves

A transfer that is not stopped writes all that was left to read, however the reads cut it
(`Transfer.run_written`). What was left is the source's bytes, except where the destination is the
source itself: making the destination has then emptied it. So a copy that reports success is
faithful exactly where source and destination are two places, or where there was nothing to lose
(`CopyTask.success_faithful_iff`).
-/

namespace LayoutEngine

open Copy

/-! ## Transfers -/

/-- A transfer that ran to its end wrote what was left. -/
theorem Copy.Transfer.run_written {c : Conditions} {size n total : Nat} {last : Option UInt8}
    {left : List UInt8} (h : (Transfer.run c size n total last left).stopped = false) :
    (Transfer.run c size n total last left).written = left := by
  fun_induction Transfer.run c size n total last left with
  | case1 => cases h
  | case2 n total last hgo => rfl
  | case3 n total last left hgo hleft chunk total' percent fresh rest ih =>
    have hrest : rest.written = left.drop (c.readSize n) := ih h
    show chunk ++ rest.written = left
    rw [hrest]
    exact List.take_append_drop _ _

/-- A transfer that nobody stops runs to its end. -/
theorem Copy.Transfer.stopped_run {c : Conditions} (hgo : ∀ n, c.stopped n = false)
    (size n total : Nat) (last : Option UInt8) (left : List UInt8) :
    (Transfer.run c size n total last left).stopped = false := by
  fun_induction Transfer.run c size n total last left with
  | case1 n total last left hstop => rw [hgo n] at hstop; cases hstop
  | case2 => rfl
  | case3 n total last left _ _ chunk total' percent fresh rest ih => exact ih

/-! ## Copies of files -/

namespace Copy

/-- The file that a path led to before is what another path leads to afterwards, and no other place
has changed. -/
def IsFaithful (before after : FileSystem) (source path : String) : Prop :=
  ∃ origin place bytes,
    before.openNode source = .ok (origin, .file bytes) ∧
      after.openNode path = .ok (place, .file bytes) ∧
      ∀ other, other ≠ place → after.get? other = before.get? other

/-- A copy that is neither stopped nor fails read a file, wrote to one place, and left there what
the source still held once that place was emptied. -/
theorem copyFile_completed {c : Conditions} {fs : FileSystem} {source path : String}
    {transfer : Transfer} (h : (copyFile c fs source path).result = .ok transfer)
    (hend : transfer.stopped = false) :
    ∃ origin place bytes,
      fs.openNode source = .ok (origin, .file bytes) ∧ fs.writable path = .ok place ∧
        (copyFile c fs source path).files =
          fs.put place (.file (if place = origin then [] else bytes)) := by
  unfold copyFile at h ⊢
  cases hsource : fs.openNode source with
  | error e => rw [hsource] at h; cases h
  | ok opened =>
    obtain ⟨origin, node⟩ := opened
    rw [hsource] at h
    dsimp only at h ⊢
    unfold copyOpened at h ⊢
    cases hpath : fs.writable path with
    | error e => rw [hpath] at h; cases h
    | ok place =>
      rw [hpath] at h
      cases node with
      | directory =>
        dsimp only at h
        split at h
        · cases h; cases hend
        · cases h
      | file bytes =>
        dsimp only at h ⊢
        cases h
        exact ⟨origin, place, bytes, rfl, rfl, by rw [Transfer.run_written hend]⟩

/-- Of a file system in which one place was written with what the source held, or with nothing if
it is the source's own: it is a faithful copy exactly if nothing was lost. -/
theorem isFaithful_put_iff {fs : FileSystem} {source path : String} {origin place : Place}
    {bytes : List UInt8} (hsource : fs.openNode source = .ok (origin, .file bytes))
    (hpath : fs.writable path = .ok place) :
    IsFaithful fs (fs.put place (.file (if place = origin then [] else bytes))) source path ↔
      place ≠ origin ∨ bytes = [] := by
  have hopen := FileSystem.openNode_put (if place = origin then [] else bytes) hpath
  constructor
  · rintro ⟨origin', place', bytes', hsource', hpath', -⟩
    rw [hsource] at hsource'
    rw [hopen] at hpath'
    cases hsource'
    by_cases hsame : place = origin
    · rw [if_pos hsame] at hpath'
      cases hpath'
      exact .inr rfl
    · exact .inl hsame
  · intro hkept
    have hbytes : (if place = origin then [] else bytes) = bytes := by
      rcases hkept with hne | rfl
      · exact if_neg hne
      · exact ite_self _
    rw [hbytes] at hopen ⊢
    exact ⟨origin, place, bytes, hsource, hopen,
      fun other hother => FileSystem.get?_put_of_ne hother _ fs⟩

end Copy

/-! ## Copy tasks -/

namespace CopyTask

/-- A task whose last event tells of success copied a file, under the source's name, and the copy
was not stopped. -/
theorem run_success {c : Conditions} {fs : FileSystem} {task : CopyTask} {path detail : String}
    (h : (task.run c fs).events.getLast? = some (.finished task.id path true detail)) :
    ∃ source transfer, task.names = .ok (source, detail) ∧ path = pathIn task.directory detail ∧
      (copyFile c fs source path).result = .ok transfer ∧ transfer.stopped = false ∧
      (task.run c fs).files = (copyFile c fs source path).files := by
  unfold run at h ⊢
  cases hnames : task.names with
  | error e => rw [hnames] at h; simp [failed] at h
  | ok names =>
    obtain ⟨source, name⟩ := names
    rw [hnames] at h
    dsimp only at h ⊢
    cases hcopy : (copyFile c fs source (pathIn task.directory name)).result with
    | error e => rw [hcopy] at h; simp [failed] at h
    | ok transfer =>
      rw [hcopy] at h
      dsimp only at h ⊢
      split at h
      · rw [List.getLast?_concat] at h
        cases h
      · next hend =>
        rw [List.getLast?_concat] at h
        cases h
        rw [if_neg hend]
        exact ⟨source, transfer, rfl, rfl, hcopy, Bool.eq_false_iff.2 hend, rfl⟩

/-- **A copy that reports success is faithful exactly where the destination is not the source
itself, or the source was empty.** The source is the file that the resolved path led to when the
task started, the destination lies under the source's name in the directory. In every case the
destination alone has changed; written onto itself, a file is left empty. -/
theorem success_faithful_iff {c : Conditions} {fs : FileSystem} {task : CopyTask}
    {path detail : String}
    (h : (task.run c fs).events.getLast? = some (.finished task.id path true detail)) :
    ∃ source origin place bytes,
      sourcePath? task.source = .ok source ∧ fileName? source = some detail ∧
        path = pathIn task.directory detail ∧
        fs.openNode source = .ok (origin, .file bytes) ∧ fs.place? path = .ok place ∧
        (task.run c fs).files.openNode path =
          .ok (place, .file (if place = origin then [] else bytes)) ∧
        (∀ other, other ≠ place → (task.run c fs).files.get? other = fs.get? other) ∧
        (IsFaithful fs (task.run c fs).files source path ↔ place ≠ origin ∨ bytes = []) := by
  obtain ⟨source, transfer, hnames, hpath, hcopy, hend, hfiles⟩ := run_success h
  obtain ⟨origin, place, bytes, hsource, hplace, hwritten⟩ := copyFile_completed hcopy hend
  rw [hfiles, hwritten]
  have hresolved : sourcePath? task.source = .ok source ∧ fileName? source = some detail := by
    unfold names at hnames
    cases hs : sourcePath? task.source with
    | error e => rw [hs] at hnames; cases hnames
    | ok resolved =>
      rw [hs] at hnames
      simp only [bind, Except.bind] at hnames
      split at hnames
      · next name hname =>
        cases hnames
        exact ⟨rfl, hname⟩
      · cases hnames
  exact ⟨source, origin, place, bytes, hresolved.1, hresolved.2, hpath, hsource,
    (FileSystem.writable_eq_ok_iff.1 hplace).1, FileSystem.openNode_put _ hplace,
    fun other hother => FileSystem.get?_put_of_ne hother _ fs,
    isFaithful_put_iff hsource hplace⟩

/-- A copy that nobody stops succeeds where its source is a file and its destination can be
written. -/
theorem run_undisturbed {c : Conditions} (hgo : ∀ n, c.stopped n = false) {fs : FileSystem}
    {task : CopyTask} {source name path : String} {origin place : Place} {bytes : List UInt8}
    (hnames : task.names = .ok (source, name)) (hname : pathIn task.directory name = path)
    (hsource : fs.openNode source = .ok (origin, .file bytes))
    (hpath : fs.writable path = .ok place) :
    (task.run c fs).events.getLast? = some (.finished task.id path true name) := by
  subst hname
  have hend := Transfer.stopped_run hgo bytes.length 0 0 none (if place = origin then [] else bytes)
  unfold run
  rw [hnames]
  dsimp only
  unfold copyFile
  rw [hsource]
  dsimp only
  unfold copyOpened
  rw [hpath]
  dsimp only
  rw [hend, if_neg Bool.false_ne_true]
  exact List.getLast?_concat

/-- A copy into another directory: the file is there afterwards, and it was not empty. -/
theorem success_faithful_from_subdirectory :
    let fs := FileSystem.empty.addFile ["work", "in", "a"] [7]
    let task : CopyTask := ⟨1, "/work/in/a", "/work"⟩
    (task.run .undisturbed fs).events.getLast? = some (.finished 1 "/work/a" true "a") ∧
      IsFaithful fs (task.run .undisturbed fs).files "/work/in/a" "/work/a" := by
  intro fs task
  have hnames : names ⟨1, "/work/in/a", "/work"⟩ = .ok ("/work/in/a", "a") := rfl
  have hname : pathIn "/work" "a" = "/work/a" := by decide
  have hsource : fs.openNode "/work/in/a" = .ok (["work", "in", "a"], .file [7]) := rfl
  have hpath : fs.writable "/work/a" = .ok ["work", "a"] := rfl
  have hlast : (task.run .undisturbed fs).events.getLast? =
      some (.finished 1 "/work/a" true "a") :=
    run_undisturbed (fun _ => rfl) hnames hname hsource hpath
  refine ⟨hlast, ?_⟩
  obtain ⟨source, origin, place, bytes, hresolved, -, -, hopened, hplace, -, -, hiff⟩ :=
    success_faithful_iff hlast
  have hsame : source = "/work/in/a" := by
    have : sourcePath? "/work/in/a" = .ok "/work/in/a" := rfl
    exact Except.ok.inj (hresolved.symm.trans this)
  subst hsame
  rw [hsource] at hopened
  cases hopened
  rw [(FileSystem.writable_eq_ok_iff.1 hpath).1] at hplace
  cases hplace
  exact hiff.2 (.inl (by decide))

/-- A copy into the directory that holds the source reports success and leaves the file empty. -/
theorem copy_onto_itself_not_faithful :
    let fs := FileSystem.empty.addFile ["work", "a"] [7]
    let task : CopyTask := ⟨1, "/work/a", "/work"⟩
    (task.run .undisturbed fs).events.getLast? = some (.finished 1 "/work/a" true "a") ∧
      (task.run .undisturbed fs).files.openNode "/work/a" = .ok (["work", "a"], .file []) ∧
      ¬ IsFaithful fs (task.run .undisturbed fs).files "/work/a" "/work/a" := by
  intro fs task
  have hnames : names ⟨1, "/work/a", "/work"⟩ = .ok ("/work/a", "a") := rfl
  have hname : pathIn "/work" "a" = "/work/a" := by decide
  have hsource : fs.openNode "/work/a" = .ok (["work", "a"], .file [7]) := rfl
  have hpath : fs.writable "/work/a" = .ok ["work", "a"] := rfl
  have hlast : (task.run .undisturbed fs).events.getLast? =
      some (.finished 1 "/work/a" true "a") :=
    run_undisturbed (fun _ => rfl) hnames hname hsource hpath
  obtain ⟨source, transfer, hnames', -, hcopy, hend, hfiles⟩ := run_success hlast
  rw [hnames] at hnames'
  cases hnames'
  obtain ⟨origin, place, bytes, hsource', hpath', hwritten⟩ := copyFile_completed hcopy hend
  rw [hsource] at hsource'
  cases hsource'
  rw [hpath] at hpath'
  cases hpath'
  rw [hfiles, hwritten]
  refine ⟨hlast, FileSystem.openNode_put [] hpath, ?_⟩
  intro hkept
  rcases (isFaithful_put_iff hsource hpath).1 hkept with hne | hempty
  · exact hne rfl
  · cases hempty

end CopyTask

end LayoutEngine
