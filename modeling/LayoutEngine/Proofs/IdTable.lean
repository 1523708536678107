import LayoutEngine.IdTable
import Mathlib.Order.Defs.PartialOrder

/-!
# Growing tables of names

Numbering a name extends the table at its end, so one table comes before another (`t ≤ u`) if `u`
has all names of `t` under their numbers. A name and its number determine each other within a table
(`get?_eq_some_iff`), and what a table says of a name every later one says too (`get?_mono`).
-/

namespace LayoutEngine.IdTable

/-- A table is known by its names. -/
@[ext] theorem ext {t u : IdTable} (h : t.names = u.names) : t = u := by
  cases t; cases u; cases h; rfl

/-- A table comes before those that have further names after its own. -/
instance : PartialOrder IdTable where
  le t u := t.names <+: u.names
  le_refl t := List.prefix_refl t.names
  le_trans _ _ _ h₁ h₂ := h₁.trans h₂
  le_antisymm _ _ h₁ h₂ := ext (h₁.eq_of_length_le h₂.length_le)

/-! ## Names and numbers -/

/-- The numbers of names count from one, in the order in which the names came. -/
theorem nameOf?_eq_some_iff {t : IdTable} {id : Int} {name : String} :
    t.nameOf? id = some name ↔ ∃ i : Nat, id = i + 1 ∧ t.names[i]? = some name := by
  unfold nameOf?
  constructor
  · intro h
    split at h
    · next hpos => exact ⟨(id - 1).toNat, by omega, h⟩
    · cases h
  · rintro ⟨i, rfl, h⟩
    rw [if_pos (by omega), show ((i : Int) + 1 - 1).toNat = i by omega]
    exact h

/-- A name has a number exactly if the number has the name. -/
theorem get?_eq_some_iff {t : IdTable} {name : String} {id : Int} :
    t.get? name = some id ↔ t.nameOf? id = some name := by
  rw [nameOf?_eq_some_iff]
  unfold get?
  constructor
  · intro h
    split at h
    · next hmem =>
      cases h
      have hlt := List.idxOf_lt_length_iff.2 hmem
      refine ⟨t.names.idxOf name, rfl, ?_⟩
      rw [List.getElem?_eq_getElem hlt, List.getElem_idxOf hlt]
    · cases h
  · rintro ⟨i, rfl, h⟩
    obtain ⟨hlt, hi⟩ := List.getElem?_eq_some_iff.1 h
    subst hi
    rw [if_pos (List.getElem_mem hlt), t.nodup.idxOf_getElem i hlt]

/-- The number of a name is no other name's. -/
theorem get?_inj {t : IdTable} {a b : String} {id : Int} (ha : t.get? a = some id)
    (hb : t.get? b = some id) : a = b := by
  rw [get?_eq_some_iff] at ha hb
  exact Option.some.inj (ha.symm.trans hb)

/-- A number belongs to the same name in any later table. -/
theorem nameOf?_mono {t u : IdTable} (h : t ≤ u) {id : Int} {name : String}
    (hn : t.nameOf? id = some name) : u.nameOf? id = some name := by
  rw [nameOf?_eq_some_iff] at hn ⊢
  obtain ⟨i, hid, hi⟩ := hn
  obtain ⟨hlt, hi⟩ := List.getElem?_eq_some_iff.1 hi
  exact ⟨i, hid, hi ▸ List.prefix_iff_getElem?.1 h i hlt⟩

/-- A number once given stays. -/
theorem get?_mono {t u : IdTable} (h : t ≤ u) {name : String} {id : Int}
    (hn : t.get? name = some id) : u.get? name = some id :=
  get?_eq_some_iff.2 (nameOf?_mono h (get?_eq_some_iff.1 hn))

/-! ## Numbering a name -/

/-- Giving a name a number only adds names. -/
theorem le_intern (name : String) (t : IdTable) : t ≤ (t.intern name).2 := by
  unfold intern
  split
  · exact le_refl t
  · exact List.prefix_append t.names [name]

@[simp] theorem get?_intern (name : String) (t : IdTable) :
    (t.intern name).2.get? name = some (t.intern name).1 := by
  unfold intern
  split
  · next hmem => simp [get?, hmem]
  · next hnew =>
    rw [get?_eq_some_iff, nameOf?_eq_some_iff]
    exact ⟨t.names.length, rfl, List.getElem?_concat_length⟩

/-- A name that has a number gets no other. -/
theorem intern_of_get? {t : IdTable} {name : String} {id : Int} (h : t.get? name = some id) :
    t.intern name = (id, t) := by
  unfold get? at h
  split at h
  · next hmem =>
    cases h
    exact dif_pos hmem
  · cases h

/-- Numbering gives a name the number that it has in every later table. -/
theorem intern_eq_of_le {t u : IdTable} {name : String} (h : (t.intern name).2 ≤ u) :
    u.intern name = ((t.intern name).1, u) :=
  intern_of_get? (get?_mono h (get?_intern name t))

/-! ## Views -/

/-- What a number says of a view: it is the number of the view's key. -/
theorem viewNameOf?_eq_some_iff {t : IdTable} {id : Int} {name : String} :
    t.viewNameOf? id = some name ↔ t.get? (viewKey name) = some id := by
  rw [get?_eq_some_iff]
  unfold viewNameOf?
  cases hkey : t.nameOf? id with
  | none => simp
  | some key =>
    simp only [Option.bind_eq_bind, Option.bind_some, Option.pure_def, Option.bind_eq_some_iff,
      Option.some.injEq, Text.after?_eq_some_iff]
    constructor
    · rintro ⟨rest, hrest, rfl⟩
      apply String.toList_injective
      simp [viewKey, hrest]
    · rintro rfl
      exact ⟨name.toList, by simp [viewKey], by simp⟩

/-- A number reads back as a view's name if its own name starts like the key of a view. -/
theorem viewNameOf?_eq_none_iff {t : IdTable} {id : Int} {name : String}
    (h : t.get? name = some id) : t.viewNameOf? id = none ↔ ¬ viewLead <+: name.toList := by
  rw [Option.eq_none_iff_forall_ne_some, ← not_exists]
  refine not_congr ⟨?_, ?_⟩
  · rintro ⟨view, hview⟩
    rw [get?_inj h (viewNameOf?_eq_some_iff.1 hview), viewKey, String.toList_ofList]
    exact List.prefix_append viewLead view.toList
  · rintro ⟨rest, hrest⟩
    refine ⟨String.ofList rest, viewNameOf?_eq_some_iff.2 ?_⟩
    rw [viewKey, String.toList_ofList, hrest, String.ofList_toList]
    exact h

/-- A number belongs to the same view in any later table. -/
theorem viewNameOf?_mono {t u : IdTable} (h : t ≤ u) {id : Int} {name : String}
    (hn : t.viewNameOf? id = some name) : u.viewNameOf? id = some name :=
  viewNameOf?_eq_some_iff.2 (get?_mono h (viewNameOf?_eq_some_iff.1 hn))

/-- Two views are one exactly if they have one name. -/
theorem eq_iff_of_viewNameOf? {t : IdTable} {a b : Int} {name name' : String}
    (ha : t.viewNameOf? a = some name) (hb : t.viewNameOf? b = some name') :
    b = a ↔ name' = name := by
  constructor
  · rintro rfl
    exact Option.some.inj (hb.symm.trans ha)
  · rintro rfl
    rw [viewNameOf?_eq_some_iff] at ha hb
    exact Option.some.inj (hb.symm.trans ha)

/-- The number of a view is not the one that its name has as an attribute. -/
theorem get?_ne_of_viewNameOf? {t : IdTable} {id : Int} {name : String}
    (h : t.viewNameOf? id = some name) : t.get? name ≠ some id := by
  intro hname
  have hkey : viewKey name = name := get?_inj (viewNameOf?_eq_some_iff.1 h) hname
  have hlength := congrArg (fun key => key.toList.length) hkey
  have hlead : viewLead.length = 4 := rfl
  simp only [viewKey, String.toList_ofList, List.length_append] at hlength
  omega

/-- Giving a view a number only adds names. -/
theorem le_internView (name : String) (t : IdTable) : t ≤ (t.internView name).2 :=
  le_intern (viewKey name) t

@[simp] theorem viewNameOf?_internView (name : String) (t : IdTable) :
    (t.internView name).2.viewNameOf? (t.internView name).1 = some name :=
  viewNameOf?_eq_some_iff.2 (get?_intern (viewKey name) t)

end LayoutEngine.IdTable
