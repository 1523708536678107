import LayoutEngine.AttributeSet
import LayoutEngine.Proofs.IdTable

/-!
# Sets of attributes, by name

A set of attributes is looked up by number, and numbers differ from session to session. What counts
is the name: under the number that a name has, in the table the set was made in or a later one,
the set holds the last of its attributes with that name (`get?_allocate`).
-/

namespace LayoutEngine.AttributeSet

variable {α : Type} {nameOf : α → String}

/-- Names are only added while attributes get their numbers. -/
theorem le_allocateFrom (attributes : List α) (entries : List (Int × α)) (t : IdTable) :
    t ≤ (allocateFrom nameOf entries attributes t).2 := by
  induction attributes generalizing entries t with
  | nil => exact le_refl t
  | cons a rest ih => exact (IdTable.le_intern (nameOf a) t).trans (ih _ _)

/-- The invariant of numbering attributes one by one: a name leads to the last attribute that has
it, and to what was there before if none has. -/
theorem get?_allocateFrom {u : IdTable} {name : String} {id : Int} (hid : u.get? name = some id)
    (attributes : List α) (entries : List (Int × α)) (t : IdTable)
    (hu : (allocateFrom nameOf entries attributes t).2 ≤ u) :
    Entries.get? id (allocateFrom nameOf entries attributes t).1 =
      (attributes.reverse.find? (nameOf · = name)).or (Entries.get? id entries) := by
  induction attributes generalizing entries t with
  | nil => rfl
  | cons a rest ih =>
    rw [allocateFrom] at hu ⊢
    dsimp only at hu ⊢
    rw [ih _ _ hu, List.reverse_cons, List.find?_append, Option.or_assoc]
    congr 1
    have ha : u.get? (nameOf a) = some (t.intern (nameOf a)).1 :=
      IdTable.get?_mono ((le_allocateFrom rest _ _).trans hu) (IdTable.get?_intern (nameOf a) t)
    by_cases hname : nameOf a = name
    · rw [hname, hid] at ha
      rw [hname, ← Option.some.inj ha, Entries.get?_put_self]
      simp [hname]
    · have hne : id ≠ (t.intern (nameOf a)).1 := by
        rintro rfl
        exact hname (IdTable.get?_inj ha hid)
      rw [Entries.get?_put_of_ne hne]
      simp [hname]

/-- Giving numbers to all attributes of a kind only adds names. -/
theorem le_allocate (attributes : List α) (t : IdTable) :
    t ≤ (allocate nameOf attributes t).2 := le_allocateFrom attributes [] t

/-- All names of a set have numbers. -/
theorem exists_get?_of_mem {attributes : List α} {a : α} (ha : a ∈ attributes)
    (entries : List (Int × α)) (t : IdTable) :
    ∃ i, (allocateFrom nameOf entries attributes t).2.get? (nameOf a) = some i := by
  induction attributes generalizing entries t with
  | nil => cases ha
  | cons first rest ih =>
    rcases List.mem_cons.1 ha with rfl | ha
    · exact ⟨_, IdTable.get?_mono (le_allocateFrom rest _ _) (IdTable.get?_intern (nameOf a) t)⟩
    · exact ih ha _ _

/-- Under the number of a name a set holds the last of its attributes with that name. -/
theorem get?_allocate {attributes : List α} {t u : IdTable}
    (hu : (allocate nameOf attributes t).2 ≤ u) {name : String} {id : Int}
    (hid : u.get? name = some id) :
    (allocate nameOf attributes t).1.get? id =
      attributes.reverse.find? (nameOf · = name) := by
  have h := get?_allocateFrom hid attributes [] t hu
  rwa [show Entries.get? id ([] : List (Int × α)) = none from rfl, Option.or_none] at h

end LayoutEngine.AttributeSet
