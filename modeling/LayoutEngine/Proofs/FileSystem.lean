import LayoutEngine.FileSystem

/-!
# Paths while a file is written

A file that is written takes one place and leaves every other as it was (`get?_put_self`,
`get?_put_of_ne`). The directories stay directories, so a path that led to a place before leads to
it afterwards (`place?_put`).
-/

namespace LayoutEngine.FileSystem

/-- There is always a directory at the root. -/
@[simp] theorem get?_nil (fs : FileSystem) : fs.get? [] = some .directory := rfl

/-- What has been put in a place is there. -/
theorem get?_put_self {place : Place} (h : place ≠ []) (node : FileNode) (fs : FileSystem) :
    (fs.put place node).get? place = some node := by
  simp [get?, put, h]

/-- Other places are left alone. -/
theorem get?_put_of_ne {place other : Place} (h : other ≠ place) (node : FileNode)
    (fs : FileSystem) : (fs.put place node).get? other = fs.get? other := by
  by_cases hroot : other = []
  · rw [hroot, get?_nil, get?_nil]
  · simp [get?, put, hroot, Entries.get?_put_of_ne h]

/-- Putting a node somewhere changes nothing exactly if it was there already. -/
theorem get?_put_eq_iff {fs : FileSystem} {place : Place} {node : FileNode} (h : place ≠ []) :
    (∀ other, (fs.put place node).get? other = fs.get? other) ↔ fs.get? place = some node := by
  constructor
  · intro hsame
    rw [← hsame place, get?_put_self h]
  · intro hnode other
    by_cases hother : other = place
    · rw [hother, get?_put_self h, hnode]
    · exact get?_put_of_ne hother _ fs

/-- Of two nodes put at one place the second stays. -/
theorem put_put (place : Place) (old new : FileNode) (fs : FileSystem) :
    (fs.put place old).put place new = fs.put place new := by
  simp [put, Entries.put_put]

/-- A file that has been put somewhere and is added to holds the bytes of both. -/
theorem append_put {place : Place} (h : place ≠ []) (bytes more : List UInt8) (fs : FileSystem) :
    (fs.put place (.file bytes)).append place more = fs.put place (.file (bytes ++ more)) := by
  rw [append, get?_put_self h]
  exact put_put _ _ _ _

/-- A path is followed to the same place wherever all directories are still there. -/
theorem follow_mono {fs fs' : FileSystem}
    (hdir : ∀ p, fs.get? p = some .directory → fs'.get? p = some .directory)
    {pieces : List (List Char)} {start target : Place} (h : fs.follow start pieces = .ok target) :
    fs'.follow start pieces = .ok target := by
  induction pieces generalizing start with
  | nil => exact h
  | cons piece rest ih =>
    rw [follow] at h
    split at h
    · cases h
    · cases h
    · next hstart =>
      rw [follow, hdir _ hstart]
      dsimp only
      -- the three ways on differ only in where the rest is followed from
      split at h
      · next hidle => rw [if_pos hidle]; exact ih h
      · next hidle =>
        rw [if_neg hidle]
        split at h
        · next hup => rw [if_pos hup]; exact ih h
        · next hup => rw [if_neg hup]; exact ih h

/-- Writing a file where no directory is changes no path's place. -/
theorem place?_put {fs : FileSystem} {place target : Place} {path : String} (node : FileNode)
    (hfile : fs.get? place ≠ some .directory) (h : fs.place? path = .ok target) :
    (fs.put place node).place? path = .ok target := by
  have hdir : ∀ p, fs.get? p = some .directory →
      (fs.put place node).get? p = some .directory := by
    intro p hp
    have hne : p ≠ place := fun he => hfile (he ▸ hp)
    rw [get?_put_of_ne hne, hp]
  unfold place? at h ⊢
  dsimp only at h ⊢
  split at h
  · cases h
  · next hnul =>
    rw [if_neg hnul]
    split at h
    · cases h
    · exact follow_mono hdir h
    · exact follow_mono hdir h

/-- A path is opened just if it leads to a place where something is. -/
theorem openNode_eq_ok_iff {fs : FileSystem} {path : String} {place : Place} {node : FileNode} :
    fs.openNode path = .ok (place, node) ↔
      fs.place? path = .ok place ∧ fs.get? place = some node := by
  unfold openNode
  cases hplace : fs.place? path with
  | error e => simp [bind, Except.bind]
  | ok p =>
    cases hnode : fs.get? p with
    | none =>
      simp only [bind, Except.bind, hnode, throw, throwThe, MonadExceptOf.throw, reduceCtorEq,
        Except.ok.injEq, false_iff, not_and]
      rintro rfl
      simp [hnode]
    | some n =>
      simp only [bind, Except.bind, hnode, pure, Except.pure, Except.ok.injEq, Prod.mk.injEq]
      constructor
      · rintro ⟨rfl, rfl⟩
        exact ⟨rfl, hnode⟩
      · rintro ⟨rfl, hn⟩
        exact ⟨rfl, Option.some.inj (hnode.symm.trans hn)⟩

/-- A path is open for writing just if it leads to a place where no directory is. -/
theorem writable_eq_ok_iff {fs : FileSystem} {path : String} {place : Place} :
    fs.writable path = .ok place ↔
      fs.place? path = .ok place ∧ fs.get? place ≠ some .directory := by
  unfold writable
  cases hplace : fs.place? path with
  | error e => simp [bind, Except.bind]
  | ok p =>
    simp only [bind, Except.bind, Except.ok.injEq]
    split
    · next hdir =>
      simp only [throw, throwThe, MonadExceptOf.throw, reduceCtorEq, false_iff, not_and]
      rintro rfl hfile
      exact hfile hdir
    · next hfile =>
      simp only [pure, Except.pure, Except.ok.injEq]
      constructor
      · rintro rfl
        exact ⟨rfl, fun hd => hfile hd⟩
      · exact fun h => h.1

/-- The root cannot be written. -/
theorem ne_nil_of_writable {fs : FileSystem} {path : String} {place : Place}
    (h : fs.writable path = .ok place) : place ≠ [] := by
  rintro rfl
  exact (writable_eq_ok_iff.1 h).2 (get?_nil fs)

/-- A file written at a path is the one that opening the path gives. -/
theorem openNode_put {fs : FileSystem} {path : String} {place : Place} (bytes : List UInt8)
    (h : fs.writable path = .ok place) :
    (fs.put place (.file bytes)).openNode path = .ok (place, .file bytes) := by
  obtain ⟨hplace, hfile⟩ := writable_eq_ok_iff.1 h
  exact openNode_eq_ok_iff.2
    ⟨place?_put _ hfile hplace, get?_put_self (ne_nil_of_writable h) _ fs⟩

/-! ## Paths piece by piece -/

/-- The place that a path is followed from. -/
def start (fs : FileSystem) (path : List Char) : Place :=
  if path.head? = some '/' then [] else fs.workingDirectory

/-- Only the beginning of a path matters for where it is followed from. -/
theorem start_append (fs : FileSystem) {front : List Char} (h : front ≠ []) (back : List Char) :
    fs.start (front ++ back) = fs.start front := by
  obtain ⟨c, rest, rfl⟩ := List.exists_cons_of_ne_nil h
  rfl

/-- A path leads to a place if it is a path at all and its pieces lead there. -/
theorem place?_eq_ok_iff {fs : FileSystem} {path : String} {place : Place} :
    fs.place? path = .ok place ↔
      path ≠ "" ∧ '\x00' ∉ path.toList ∧
        fs.follow (fs.start path.toList) (Text.pieces '/' path.toList) = .ok place := by
  unfold place? start
  by_cases hnul : '\x00' ∈ path.toList
  · simp [hnul]
  · dsimp only
    rw [if_neg hnul]
    split
    · next hnil => simp [String.toList_eq_nil_iff.1 hnil]
    · next rest hroot =>
      have hempty : path ≠ "" := fun h => by simp [h] at hroot
      simp [hempty, hroot, hroot ▸ hnul]
    · next hnil hroot =>
      have hhead : path.toList.head? ≠ some '/' := fun h => by
        obtain ⟨rest, hrest⟩ := List.head?_eq_some_iff.1 h
        exact hroot rest hrest
      have hempty : path ≠ "" := fun h => hnil (congrArg String.toList h)
      simp [hempty, hnul, hhead]

/-- A path is followed piece by piece. -/
theorem follow_append (fs : FileSystem) (start : Place) (first second : List (List Char)) :
    fs.follow start (first ++ second) =
      (fs.follow start first).bind fun place => fs.follow place second := by
  induction first generalizing start with
  | nil => rfl
  | cons piece rest ih =>
    rw [List.cons_append, follow, follow]
    split
    · rfl
    · rfl
    · split
      · exact ih start
      · split
        · exact ih start.dropLast
        · exact ih (start ++ [String.ofList piece])

/-- A name leads from a directory to a place right in it. -/
theorem follow_name {fs : FileSystem} {place target : Place} {name : String} (hempty : name ≠ "")
    (hdot : name ≠ ".") (hdots : name ≠ "..") (h : fs.follow place [name.toList] = .ok target) :
    fs.get? place = some .directory ∧ target = place ++ [name] := by
  have hbusy : ¬ (name.toList = [] ∨ name.toList = ['.']) := not_or.2
    ⟨fun h => hempty (String.toList_injective h), fun h => hdot (String.toList_injective h)⟩
  have hdown : name.toList ≠ ['.', '.'] := fun h => hdots (String.toList_injective h)
  rw [follow] at h
  split at h
  · cases h
  · cases h
  · next hdirectory =>
    rw [if_neg hbusy, if_neg hdown, String.ofList_toList, follow] at h
    exact ⟨hdirectory, (Except.ok.inj h).symm⟩

/-- The place of a directory. The empty path is that of the working directory. -/
def directory? (fs : FileSystem) (path : String) : Except FileError Place :=
  if path = "" then .ok fs.workingDirectory else fs.place? path

end LayoutEngine.FileSystem
