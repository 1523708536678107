import LayoutEngine.Proofs.Thread

/-!
# Copies that fail before their first byte

A copy opens its source before it makes its destination, so that a source that is not there does no
harm. But a source may be opened and still not be read, as a directory is; by then the destination
has been made, and a file that was there before is empty (`failed_copy_leaves_files_iff`).
-/

namespace LayoutEngine

open Copy

namespace CopyThread

section

variable {task : CopyTask} {fs : FileSystem} {refused : Prop} {t : CopyThread} {turns : List Turn}
  {percents : List UInt8} {path reason : String}

/-- A copy that fails has not touched the files, or its destination was made and its source is a
directory, unless the system has refused something. -/
theorem Verdict.of_failed
    (h : Verdict task fs refused t percents (.finished task.id path false reason)) :
    (Untouched fs t ∧ (refused ∨ ∀ {name origin place},
      Opened task fs name path origin .directory → fs.writable path ≠ .ok place)) ∨
    ∃ job node, job.path = path ∧ Working task fs job node t ∧ (node = .directory ∨ refused) := by
  cases h with
  | unnamed hnames huntouched hasked =>
    refine .inl ⟨huntouched, .inr fun {name origin place} hopened => ?_⟩
    obtain ⟨source, hnames', -⟩ := hopened.names
    cases hnames.symm.trans hnames'
  | @unmade source name e hnames huntouched hasked hreason =>
    refine .inl ⟨huntouched, ?_⟩
    by_cases hrefused : refused
    · exact .inl hrefused
    refine .inr fun {name' origin place} hopened hplace => ?_
    obtain ⟨source', hnames', hopen⟩ := hopened.names
    cases hnames.symm.trans hnames'
    rcases hreason with hmissing | hunwritable | hrefusal
    · cases hmissing.symm.trans hopen
    · cases hunwritable.symm.trans hplace
    · exact hrefused hrefusal
  | broken hwork hlast hreason => exact .inr ⟨_, _, rfl, hwork, hreason⟩

/-- **A copy that fails before its first byte leaves all files as they were exactly if it has made
no destination, or made it where there was an empty file.** It has made one exactly if its source
could be opened and is a directory, and the path of the destination can be written; the system
may also have refused to read or write. Then the destination is an empty file, and everything else
is as it was. -/
theorem failed_copy_leaves_files_iff (hrun : (fresh fs).run? task turns = some t)
    (hfailed : .finished task.id path false reason ∈ t.sent) (hnone : t.written = []) :
    ((∀ place, t.files.get? place = fs.get? place) ↔
      ∀ place, t.made = some place → fs.get? place = some (.file [])) ∧
    (t.made = none ∧ t.files = fs ∨
      ∃ name origin node place, Opened task fs name path origin node ∧
        fs.writable path = .ok place ∧ t.made = some place ∧
        t.files = fs.put place (.file []) ∧
        (node = .directory ∨ ∃ turn ∈ turns, turn.isRefusal = true)) ∧
    ((∀ turn ∈ turns, turn.isRefusal = false) → ∀ place,
      t.made = some place ↔ ∃ name origin, Opened task fs name path origin .directory ∧
        fs.writable path = .ok place) := by
  have hs : Sound task fs (∃ turn ∈ turns, turn.isRefusal = true) t :=
    sound_of_run? (fun turn hturn hr => ⟨turn, hturn, hr⟩) hrun
  have hquiet : (∀ turn ∈ turns, turn.isRefusal = false) →
      ¬ ∃ turn ∈ turns, turn.isRefusal = true := by
    rintro hall ⟨turn, hturn, hrefusal⟩
    exact Bool.false_ne_true ((hall turn hturn).symm.trans hrefusal)
  obtain ⟨-, percents, before, -, -, hverdict⟩ := hs.of_terminal hfailed rfl
  rcases hverdict.of_failed with ⟨huntouched, hnot⟩ | ⟨job, node, rfl, hwork, hreason⟩
  · have hmade := huntouched.made
    have hfiles := huntouched.files
    refine ⟨⟨fun _ place h => ?_, fun _ place => by rw [hfiles]⟩, .inl ⟨hmade, hfiles⟩,
      fun hall place => ⟨fun h => ?_, ?_⟩⟩
    · cases hmade.symm.trans h
    · cases hmade.symm.trans h
    · rintro ⟨name, origin, hopened, hplace⟩
      exact absurd hplace (hnot.resolve_left (hquiet hall) hopened)
  · have hfiles : t.files = fs.put job.place (.file []) := by rw [hwork.files, hnone]
    have hmade := hwork.made
    refine ⟨?_, .inr ⟨job.name, job.origin, node, job.place, hwork.opened, hwork.place, hmade,
      hfiles, hreason⟩, fun hall place => ⟨fun h => ?_, ?_⟩⟩
    · rw [hfiles, FileSystem.get?_put_eq_iff hwork.place_ne_nil, hmade]
      simp
    · cases hmade.symm.trans h
      cases hreason.resolve_right (hquiet hall)
      exact ⟨job.name, job.origin, hwork.opened, hwork.place⟩
    · rintro ⟨name, origin, hopened, hplace⟩
      cases hwork.place.symm.trans hplace
      exact hmade

/-- Where the source is missing, an existing file of its name stays as it was. -/
theorem failed_copy_of_missing_source_leaves_files :
    let fs := FileSystem.empty.addFile ["work", "out", "sub"] [7]
    let task : CopyTask := ⟨1, "/work/sub", "/work/out"⟩
    ∃ t, (fresh fs).run? task [.go 0, .go 0, .go 0] = some t ∧
      .finished 1 "/work/out/sub" false "No such file or directory (os error 2)" ∈ t.sent ∧
      ∀ place, t.files.get? place = fs.get? place := by
  intro fs task
  obtain ⟨t, hrun, hfailed, hnone, hmade⟩ : ∃ t,
      (fresh fs).run? task [.go 0, .go 0, .go 0] = some t ∧
      .finished 1 "/work/out/sub" false "No such file or directory (os error 2)" ∈ t.sent ∧
      t.written = [] ∧ t.made = none := by
    dsimp only [fs, task]
    exact ⟨_, rfl, by decide⟩
  refine ⟨t, hrun, hfailed, (failed_copy_leaves_files_iff hrun hfailed hnone).1.2 ?_⟩
  intro place h
  cases hmade.symm.trans h

/-- Where the source is a directory, an existing file of its name is emptied. -/
theorem failed_copy_of_directory_empties_file :
    let fs := (FileSystem.empty.addFile ["work", "out", "sub"] [7]).makeDirectories ["work", "sub"]
    let task : CopyTask := ⟨1, "/work/sub", "/work/out"⟩
    ∃ t, (fresh fs).run? task [.go 0, .go 0, .go 0, .go 0, .go 0, .go 0] = some t ∧
      .finished 1 "/work/out/sub" false "Is a directory (os error 21)" ∈ t.sent ∧
      t.written = [] ∧ fs.get? ["work", "out", "sub"] = some (.file [7]) ∧
      t.files.get? ["work", "out", "sub"] = some (.file []) := by
  dsimp only
  exact ⟨_, rfl, by decide⟩

end

end CopyThread

end LayoutEngine
