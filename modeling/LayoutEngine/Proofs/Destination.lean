import LayoutEngine.Proofs.EventStream
import Mathlib.Data.List.TakeWhile

/-!
# Where copies are written

A copy is named for the last name of its source, as it is after decoding, so that a slash or two
dots that were escaped count as such (`IsLastName`, `fileName?_eq_some_iff`). A name has no slash in
it and does not lead upwards; so its path in a directory leads to a place right in the directory,
if it leads anywhere (`FileSystem.place?_pathIn`). This is the only path a copy opens for writing
(`copy_stays_in_directory`).
-/

namespace LayoutEngine

/-! ## Last names -/

namespace Copy

/-- The path ends in the name: what follows it names nothing, and it is a name itself. -/
structure IsLastName (path name : String) : Prop where
  pieces : ∃ before after, Text.pieces '/' path.toList = before ++ name.toList :: after ∧
    ∀ piece ∈ after, piece = [] ∨ piece = ['.']
  ne_empty : name ≠ ""
  no_slash : '/' ∉ name.toList
  ne_dot : name ≠ "."
  ne_dots : name ≠ ".."

/-- Of the pieces of a path, empty ones and single dots lead nowhere. -/
theorem isIdlePiece_iff {piece : List Char} :
    isIdlePiece piece = true ↔ piece = [] ∨ piece = ['.'] := by
  simp [isIdlePiece]

/-- What comes last among pieces, but for idle ones, is followed by idle ones only. -/
theorem eq_append_of_dropWhile_reverse {pieces rest : List (List Char)} {piece : List Char}
    (h : pieces.reverse.dropWhile isIdlePiece = piece :: rest) :
    isIdlePiece piece = false ∧ ∃ after, pieces = rest.reverse ++ piece :: after ∧
      ∀ other ∈ after, isIdlePiece other = true := by
  have hbusy := List.head?_dropWhile_not isIdlePiece pieces.reverse
  have hcut := List.takeWhile_append_dropWhile (p := isIdlePiece) (l := pieces.reverse)
  rw [h] at hbusy hcut
  have hpieces := congrArg List.reverse hcut.symm
  rw [List.reverse_reverse, List.reverse_append, List.reverse_cons, List.append_assoc] at hpieces
  exact ⟨hbusy, _, hpieces, fun other hother =>
    List.mem_takeWhile_imp (List.mem_reverse.1 hother)⟩

/-- The name that a copy gets is the last name of its path. -/
theorem fileName?_eq_some_iff {path name : String} :
    fileName? path = some name ↔ IsLastName path name := by
  constructor
  · intro h
    rw [fileName?] at h
    split at h
    · cases h
    · next piece rest hdrop =>
      split at h
      · cases h
      · next hdots =>
        cases h
        obtain ⟨hbusy, after, hpieces, hidle⟩ := eq_append_of_dropWhile_reverse hdrop
        obtain ⟨hempty, hdot⟩ := not_or.1 (mt isIdlePiece_iff.2 (Bool.eq_false_iff.1 hbusy))
        have hmem : piece ∈ Text.pieces '/' path.toList := by
          rw [hpieces]
          exact List.mem_append_right _ List.mem_cons_self
        refine ⟨⟨rest.reverse, after, by rw [hpieces, String.toList_ofList],
          fun other hother => isIdlePiece_iff.1 (hidle other hother)⟩, ?_, ?_, ?_, ?_⟩
        · exact fun h => hempty (by simpa using congrArg String.toList h)
        · rw [String.toList_ofList]
          exact Text.not_mem_of_mem_pieces hmem
        · exact fun h => hdot (by simpa using congrArg String.toList h)
        · exact fun h => hdots (by simpa using congrArg String.toList h)
  · rintro ⟨⟨before, after, hpieces, hidle⟩, hempty, -, hdot, hdots⟩
    have hbusy : ¬ isIdlePiece name.toList = true := by
      rw [isIdlePiece_iff, not_or]
      exact ⟨fun h => hempty (String.toList_injective h), fun h => hdot (String.toList_injective h)⟩
    have hreverse : (Text.pieces '/' path.toList).reverse =
        after.reverse ++ name.toList :: before.reverse := by
      rw [hpieces, List.reverse_append, List.reverse_cons, List.append_assoc]
      rfl
    have hskip : ∀ piece ∈ after.reverse, isIdlePiece piece = true :=
      fun piece hpiece => isIdlePiece_iff.2 (hidle piece (List.mem_reverse.1 hpiece))
    have hname : name.toList ≠ ['.', '.'] := fun h => hdots (String.toList_injective h)
    rw [fileName?, hreverse, List.dropWhile_append_of_pos hskip, List.dropWhile_cons_of_neg hbusy]
    dsimp only
    rw [if_neg hname, String.ofList_toList]

end Copy

open Copy

/-- A task copies under the last name of the path behind its source. -/
theorem CopyTask.names_eq_ok_iff {task : CopyTask} {source name : String} :
    task.names = .ok (source, name) ↔
      sourcePath? task.source = .ok source ∧ IsLastName source name := by
  rw [← fileName?_eq_some_iff, names]
  cases hsource : sourcePath? task.source with
  | error e => simp [bind, Except.bind]
  | ok path =>
    simp only [bind, Except.bind, Except.ok.injEq]
    split
    · next found hfound =>
      simp only [pure, Except.pure, Except.ok.injEq, Prod.mk.injEq]
      constructor
      · rintro ⟨rfl, rfl⟩
        exact ⟨rfl, hfound⟩
      · rintro ⟨rfl, hname⟩
        exact ⟨rfl, Option.some.inj (hfound.symm.trans hname)⟩
    · next hnone =>
      simp only [throw, throwThe, MonadExceptOf.throw, reduceCtorEq, false_iff, not_and]
      rintro rfl hname
      cases hnone.symm.trans hname

/-! ## Names in a directory -/

/-- A name's path in a directory is that of the directory, a slash and the name. -/
theorem Copy.toList_pathIn {directory : String} (hne : directory ≠ "") (name : String) :
    ∃ front, (pathIn directory name).toList = front ++ '/' :: name.toList ∧
      (directory.toList = front ∨ directory.toList = front ++ ['/']) := by
  unfold pathIn
  split
  · next hnone =>
    exact absurd (String.toList_eq_nil_iff.1 (List.getLast?_eq_none_iff.1 hnone)) hne
  · next hslash =>
    obtain ⟨front, hfront⟩ := List.getLast?_eq_some_iff.1 hslash
    refine ⟨front, ?_, .inr hfront⟩
    rw [String.toList_append, hfront, List.append_assoc]
    rfl
  · refine ⟨directory.toList, ?_, .inl rfl⟩
    rw [String.toList_append, String.toList_append, List.append_assoc]
    rfl

namespace FileSystem

/-- A last name's path in a directory leads to a place right in that directory. -/
theorem place?_pathIn {fs : FileSystem} {directory source name : String} {place : Place}
    (hname : IsLastName source name) (h : fs.place? (pathIn directory name) = .ok place) :
    ∃ inside, fs.directory? directory = .ok inside ∧ fs.get? inside = some .directory ∧
      place = inside ++ [name] := by
  obtain ⟨hne, hnul, hfollow⟩ := place?_eq_ok_iff.1 h
  have hpiece : Text.pieces '/' name.toList = [name.toList] :=
    Text.pieces_of_not_mem hname.no_slash
  by_cases hempty : directory = ""
  · subst hempty
    have hpath : (pathIn "" name).toList = name.toList := by simp [pathIn]
    have hhead : name.toList.head? ≠ some '/' := fun h =>
      hname.no_slash (List.mem_of_mem_head? h)
    rw [hpath, hpiece, start, if_neg hhead] at hfollow
    exact ⟨_, rfl, follow_name hname.ne_empty hname.ne_dot hname.ne_dots hfollow⟩
  · obtain ⟨front, hpath, hdirectory⟩ := toList_pathIn hempty name
    rw [hpath] at hnul hfollow
    rw [Text.pieces_append, hpiece] at hfollow
    rw [follow_append] at hfollow
    obtain ⟨inside, hinside⟩ :
        ∃ inside, fs.follow (fs.start (front ++ '/' :: name.toList)) (Text.pieces '/' front) =
          .ok inside := by
      cases hinside : fs.follow (fs.start (front ++ '/' :: name.toList)) _ with
      | error e => rw [hinside] at hfollow; cases hfollow
      | ok inside => exact ⟨inside, rfl⟩
    rw [hinside] at hfollow
    obtain ⟨hnode, hplace⟩ := follow_name hname.ne_empty hname.ne_dot hname.ne_dots hfollow
    obtain ⟨back, hback⟩ : ∃ back, front ++ '/' :: name.toList = directory.toList ++ back := by
      rcases hdirectory with hfront | hfront
      · exact ⟨'/' :: name.toList, by rw [hfront]⟩
      · exact ⟨name.toList, by rw [hfront, List.append_assoc]; rfl⟩
    rw [hback] at hnul hinside
    rw [start_append fs (mt String.toList_eq_nil_iff.1 hempty)] at hinside
    refine ⟨inside, ?_, hnode, hplace⟩
    rw [directory?, if_neg hempty, place?_eq_ok_iff]
    refine ⟨hempty, fun h => hnul (List.mem_append_left _ h), ?_⟩
    rcases hdirectory with hfront | hfront
    · rw [← hfront] at hinside
      exact hinside
    · -- the slash at the end adds a piece that names nothing
      have hpieces : Text.pieces '/' directory.toList = Text.pieces '/' front ++ [[]] := by
        rw [hfront, Text.pieces_append]
        rfl
      rw [hpieces, follow_append, hinside]
      simp [Except.bind, follow, hnode]

end FileSystem

namespace CopyThread

section

variable {task : CopyTask} {fs : FileSystem} {refused : Prop} {t : CopyThread} {turns : List Turn}
  {percents : List UInt8}

/-! ## What a copy opens for writing -/

/-- A working thread has asked for the file in its directory that is named like the source, if for
any. -/
theorem Working.of_mem_asked {job : Job} {node : FileNode} (h : Working task fs job node t)
    {path : String} (hpath : path ∈ t.asked) :
    ∃ source name, task.names = .ok (source, name) ∧ path = pathIn task.directory name := by
  obtain ⟨source, hnames, -⟩ := h.opened.names
  rw [h.asked] at hpath
  exact ⟨source, job.name, hnames, (List.mem_singleton.1 hpath).trans h.opened.path⟩

/-- So has one with a verdict. -/
theorem Verdict.of_mem_asked {event : CopyEvent} (h : Verdict task fs refused t percents event)
    {path : String} (hpath : path ∈ t.asked) :
    ∃ source name, task.names = .ok (source, name) ∧ path = pathIn task.directory name := by
  cases h with
  | unnamed hnames huntouched hasked => exact absurd hpath (hasked ▸ List.not_mem_nil)
  | unmade hnames huntouched hasked hreason => exact ⟨_, _, hnames, hasked path hpath⟩
  | broken hwork hlast hreason | cancelled hwork hlast | copied hwork hlast hall =>
    exact hwork.of_mem_asked hpath

/-- So has every thread, at any time. -/
theorem Sound.of_mem_asked (hs : Sound task fs refused t) {path : String}
    (hpath : path ∈ t.asked) :
    ∃ source name, task.names = .ok (source, name) ∧ path = pathIn task.directory name := by
  rcases hs.idle_or_working_or_verdict with hidle | ⟨job, node, hwork⟩ | ⟨percents, event, hverdict⟩
  · exact absurd hpath (hidle.asked ▸ List.not_mem_nil)
  · exact hwork.of_mem_asked hpath
  · exact hverdict.of_mem_asked hpath

/-- Where the source has no name, nothing gets to be copied. -/
theorem Working.not_of_unnamed {job : Job} {node : FileNode} {e : CopyError}
    (hnames : task.names = .error e) : ¬ Working task fs job node t := fun hwork => by
  obtain ⟨source, hnames', -⟩ := hwork.opened.names
  cases hnames.symm.trans hnames'

/-- A task that has no name to give fails and does nothing else. -/
theorem Verdict.of_unnamed {event : CopyEvent} {e : CopyError}
    (h : Verdict task fs refused t percents event) (hnames : task.names = .error e) :
    percents = [] ∧ Untouched fs t ∧ t.asked = [] ∧
      event = .finished task.id task.directory false e.message := by
  cases h with
  | unnamed hnames' huntouched hasked =>
    cases hnames.symm.trans hnames'
    exact ⟨rfl, huntouched, hasked, rfl⟩
  | unmade hnames' huntouched hasked hreason => cases hnames.symm.trans hnames'
  | broken hwork hlast hreason | cancelled hwork hlast | copied hwork hlast hall =>
    exact absurd hwork (Working.not_of_unnamed hnames)

/-- Where the source has no name, nothing is changed or asked for, and the copy ends with the
failure. -/
theorem Sound.of_unnamed {e : CopyError} (hs : Sound task fs refused t)
    (hnames : task.names = .error e) :
    Untouched fs t ∧ t.asked = [] ∧
      (t.stage = .ended → t.sent = [.started task.id task.source,
        .finished task.id task.directory false e.message]) := by
  have hbefore : Untouched fs t ∧ t.asked = [] := by
    rcases hs.idle_or_working_or_verdict with
      hidle | ⟨job, node, hwork⟩ | ⟨percents, event, hverdict⟩
    · exact ⟨hidle.untouched, hidle.asked⟩
    · exact absurd hwork (Working.not_of_unnamed hnames)
    · obtain ⟨-, huntouched, hasked, -⟩ := hverdict.of_unnamed hnames
      exact ⟨huntouched, hasked⟩
  refine ⟨hbefore.1, hbefore.2, fun hended => ?_⟩
  obtain ⟨percents, event, before, htold, hsent, hverdict⟩ := hs.of_ended hended
  obtain ⟨rfl, -, -, rfl⟩ := hverdict.of_unnamed hnames
  rw [hsent, htold.sent]
  rfl

/-- Only the place of the destination may have changed. -/
theorem Sound.place_of_changed (hs : Sound task fs refused t) {place : Place}
    (hchanged : t.files.get? place ≠ fs.get? place) :
    ∃ source name, task.names = .ok (source, name) ∧
      fs.place? (pathIn task.directory name) = .ok place := by
  rcases hs.untouched_or_working with huntouched | ⟨job, node, hwork⟩
  · exact absurd (by rw [huntouched.files]) hchanged
  · obtain ⟨source, hnames, -⟩ := hwork.opened.names
    have hplace : place = job.place := by
      by_contra hne
      exact hchanged (by rw [hwork.files, FileSystem.get?_put_of_ne hne])
    subst hplace
    have hpath := (FileSystem.writable_eq_ok_iff.1 hwork.place).1
    rw [hwork.opened.path] at hpath
    exact ⟨source, job.name, hnames, hpath⟩

/-- **A copy never writes outside its directory.** However the turns come, it opens nothing for
writing but the path of its source's last name in the directory, and nothing has changed but, at
most, the place right in the directory that has this name. If the source has no path or its path
no last name, nothing is opened or changed at all, and after a few steps the copy ends with a
failure that tells of the directory. -/
theorem copy_stays_in_directory (hrun : (fresh fs).run? task turns = some t) :
    (∀ path ∈ t.asked, ∃ source name, sourcePath? task.source = .ok source ∧
      IsLastName source name ∧ path = pathIn task.directory name) ∧
    (∀ place, t.files.get? place ≠ fs.get? place →
      ∃ source name directory, sourcePath? task.source = .ok source ∧ IsLastName source name ∧
        fs.directory? task.directory = .ok directory ∧
        fs.get? directory = some .directory ∧ place = directory ++ [name]) ∧
    ((∀ source name, sourcePath? task.source = .ok source → ¬ IsLastName source name) →
      t.asked = [] ∧ t.files = fs ∧
        turns.countP Turn.isStep ≤ 6 + turns.countP Turn.isInterrupt ∧
        (t.stage ≠ .ended → ∀ limit, ∃ next, t.step? task (.go limit) = some next) ∧
        (t.stage = .ended → ∃ reason, t.sent = [.started task.id task.source,
          .finished task.id task.directory false reason])) := by
  have hs : Sound task fs True t := sound_of_run? (fun _ _ _ => trivial) hrun
  refine ⟨?_, ?_, ?_⟩
  · intro path hpath
    obtain ⟨source, name, hnames, rfl⟩ := hs.of_mem_asked hpath
    obtain ⟨hsource, hname⟩ := CopyTask.names_eq_ok_iff.1 hnames
    exact ⟨source, name, hsource, hname, rfl⟩
  · intro place hchanged
    obtain ⟨source, name, hnames, hplace⟩ := hs.place_of_changed hchanged
    obtain ⟨hsource, hname⟩ := CopyTask.names_eq_ok_iff.1 hnames
    obtain ⟨directory, hdirectory, hnode, rfl⟩ := FileSystem.place?_pathIn hname hplace
    exact ⟨source, name, directory, hsource, hname, hdirectory, hnode, rfl⟩
  · intro hnone
    cases hnames : task.names with
    | ok names =>
      obtain ⟨hsource, hname⟩ := CopyTask.names_eq_ok_iff.1 hnames
      exact absurd hname (hnone _ _ hsource)
    | error e =>
      obtain ⟨huntouched, hasked, hended⟩ := hs.of_unnamed hnames
      have hlength : task.sourceLength fs = 0 := by rw [CopyTask.sourceLength, hnames]
      have hsteps := sound_fresh.steps_le hrun
      rw [effort, fresh, hlength] at hsteps
      exact ⟨hasked, huntouched.files, hsteps, go?_of_not_ended, fun h => ⟨_, hended h⟩⟩

/-- Escaped slashes and dots do not lead out of the directory: what there is a name for is copied
right into it, and what there is none for is not copied. -/
theorem escaped_sources_stay_in_directory :
    let fs := (FileSystem.empty.addFile ["work", "a"] [7]).makeDirectories ["work", "in"]
    (∃ t, (fresh fs).run? ⟨1, "file:///work%2Fin%2F%2E%2E%2Fa", "/work/in"⟩
        [.go 0, .go 0, .go 0] = some t ∧ "/work/in/a" ∈ t.asked ∧
      ∃ source name, sourcePath? "file:///work%2Fin%2F%2E%2E%2Fa" = .ok source ∧
        IsLastName source name ∧ "/work/in/a" = pathIn "/work/in" name) ∧
    ∃ t, (fresh fs).run? ⟨1, "/work%2Fin%2F%2E%2E", "/work/in"⟩ [.go 0, .go 0, .go 0] = some t ∧
      t.asked = [] ∧ t.files = fs ∧ ∃ reason, t.sent = [.started 1 "/work%2Fin%2F%2E%2E",
        .finished 1 "/work/in" false reason] := by
  intro fs
  constructor
  · obtain ⟨t, hrun, hasked⟩ : ∃ t, (fresh fs).run?
        ⟨1, "file:///work%2Fin%2F%2E%2E%2Fa", "/work/in"⟩ [.go 0, .go 0, .go 0] = some t ∧
        "/work/in/a" ∈ t.asked := by
      dsimp only [fs]
      exact ⟨_, rfl, by decide⟩
    exact ⟨t, hrun, hasked, (copy_stays_in_directory hrun).1 _ hasked⟩
  · obtain ⟨t, hrun, hended⟩ : ∃ t, (fresh fs).run? ⟨1, "/work%2Fin%2F%2E%2E", "/work/in"⟩
        [.go 0, .go 0, .go 0] = some t ∧ t.stage = .ended := by
      dsimp only [fs]
      exact ⟨_, rfl, rfl⟩
    have hsource : sourcePath? "/work%2Fin%2F%2E%2E" = .ok "/work/in/.." := rfl
    have hnone : ∀ name, ¬ IsLastName "/work/in/.." name := fun name hname => by
      cases fileName?_eq_some_iff.2 hname
    obtain ⟨-, -, hunnamed⟩ := copy_stays_in_directory hrun
    obtain ⟨hasked, hfiles, -, -, hsent⟩ := hunnamed fun source name h => by
      cases hsource.symm.trans h
      exact hnone name
    exact ⟨t, hrun, hasked, hfiles, hsent hended⟩

end

end CopyThread

end LayoutEngine
