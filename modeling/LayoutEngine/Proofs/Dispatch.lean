import LayoutEngine.Proofs.AttributeSet
import LayoutEngine.Proofs.Numbering
import Mathlib.Data.Finset.Image

/-!
# Attributes by exact name

A set of attributes is made while the names of its attributes are being numbered, in a table that
may have some of them already. It comes to the same as numbering all names first and then putting
every attribute under the number that its name has (`allocate_eq`). Numbers never change, so in
every later table a set finds an attribute under a number exactly if the number is that of one of
its names (`allocate_dispatches`).
-/

namespace LayoutEngine

namespace AttributeSet

variable {α : Type} {nameOf : α → String} {attributes : List α} {t u : IdTable}

/-- The attributes of a list, each under the number that its name has in a table. -/
def numbered (nameOf : α → String) (u : IdTable) (attributes : List α) : List (Int × α) :=
  attributes.map fun a => ((u.intern (nameOf a)).1, a)

/-- Each attribute is entered under the number that its name has in the end, in order. -/
theorem allocateFrom_eq (entries : List (Int × α))
    (hu : t.internAll (attributes.map nameOf) ≤ u) :
    allocateFrom nameOf entries attributes t =
      ((numbered nameOf u attributes).foldl (fun entries pair => Entries.put pair.1 pair.2 entries)
        entries, t.internAll (attributes.map nameOf)) := by
  induction attributes generalizing entries t with
  | nil => rfl
  | cons a rest ih =>
    have hnumber : (u.intern (nameOf a)).1 = (t.intern (nameOf a)).1 := by
      rw [IdTable.intern_eq_of_le ((IdTable.le_internAll _ _).trans hu)]
    rw [allocateFrom]
    dsimp only
    rw [ih _ hu, numbered, numbered, List.map_cons, List.foldl_cons, hnumber]
    rfl

/-- A set holds its attributes under the numbers that their names have once all are numbered. -/
theorem allocate_eq (hu : t.internAll (attributes.map nameOf) ≤ u) :
    allocate nameOf attributes t =
      (⟨Entries.ofList (numbered nameOf u attributes)⟩,
        t.internAll (attributes.map nameOf)) := by
  rw [allocate, allocateFrom_eq [] hu]
  rfl

/-- The name of the attribute with a number. -/
def name? (nameOf : α → String) (id : Int) (set : AttributeSet α) : Option String :=
  (set.get? id).map nameOf

/-- In every later table a set has an attribute under a number exactly if the number is that of one
of its names. -/
theorem name?_allocate (hu : t.internAll (attributes.map nameOf) ≤ u) (id : Int) (name : String) :
    (allocate nameOf attributes t).1.name? nameOf id = some name ↔
      name ∈ attributes.map nameOf ∧ u.get? name = some id := by
  have hlater : (allocate nameOf attributes t).2 ≤ u := by
    rwa [allocate_eq hu]
  rw [name?, Option.map_eq_some_iff]
  constructor
  · rintro ⟨a, ha, rfl⟩
    rw [allocate_eq hu, get?, Entries.get?_ofList] at ha
    obtain ⟨a', hmem, heq⟩ := List.mem_map.1 (List.mem_reverse.1 (Entries.mem_of_get? ha))
    cases heq
    have hname : nameOf a ∈ attributes.map nameOf := List.mem_map_of_mem hmem
    exact ⟨hname, IdTable.get?_of_mem hname hu⟩
  · rintro ⟨hname, hid⟩
    obtain ⟨a, hmem, ha⟩ := List.mem_map.1 hname
    have hfound : (attributes.reverse.find? (nameOf · = name)).isSome = true :=
      List.find?_isSome.2 ⟨a, List.mem_reverse.2 hmem, decide_eq_true ha⟩
    obtain ⟨last, hlast⟩ := Option.isSome_iff_exists.1 hfound
    have hnamed := List.find?_some hlast
    exact ⟨last, (get?_allocate hlater hid).trans hlast, of_decide_eq_true hnamed⟩

/-- Attributes of one name are one in a set. -/
theorem size_allocate (attributes : List α) (t : IdTable) :
    (allocate nameOf attributes t).1.size = (attributes.map nameOf).toFinset.card := by
  let u := t.internAll (attributes.map nameOf)
  have hnumbers : Entries.keys (numbered nameOf u attributes) =
      (attributes.map nameOf).map fun name => (u.intern name).1 := by
    rw [Entries.keys, numbered, List.map_map, List.map_map]
    rfl
  have himage : ((attributes.map nameOf).map fun name => (u.intern name).1).toFinset =
      (attributes.map nameOf).toFinset.image fun name => (u.intern name).1 := by
    ext id
    simp
  rw [allocate_eq (le_refl u), size, Entries.length_ofList, hnumbers, himage]
  refine Finset.card_image_of_injOn fun a ha b hb hab => ?_
  have hnumber : ∀ {name}, name ∈ ((attributes.map nameOf).toFinset : Set String) →
      u.get? name = some (u.intern name).1 := by
    intro name hname
    exact IdTable.get?_of_mem (List.mem_toFinset.1 (Finset.mem_coe.1 hname)) (le_refl u)
  have hb' := hnumber hb
  rw [← hab] at hb'
  exact IdTable.get?_inj (hnumber ha) hb'

/-- Whatever names have numbers before, making a set numbers its new names, each once and in order.
The set has as many attributes as there are different names, and however many names are numbered
later, it has an attribute under a number exactly if that is the number of one of its names. So two
sets that are made one after the other have the names that they share under the same numbers. -/
theorem allocate_dispatches (nameOf : α → String) (attributes : List α) (t : IdTable) :
    ∃ set t', allocate nameOf attributes t = (set, t') ∧
      t'.names = t.names ++ (attributes.map nameOf).eraseDups.filter (· ∉ t.names) ∧
      set.size = (attributes.map nameOf).toFinset.card ∧
      (∀ later id name, set.name? nameOf id = some name ↔
        name ∈ attributes.map nameOf ∧ (t'.internAll later).get? name = some id) ∧
      ∀ (β : Type) (nameOf' : β → String) (attributes' : List β) (between : List String) id name,
        set.name? nameOf id = some name ∧ name ∈ attributes'.map nameOf' ↔
          (allocate nameOf' attributes' (t'.internAll between)).1.name? nameOf' id = some name ∧
            name ∈ attributes.map nameOf := by
  have hset := allocate_eq (le_refl (t.internAll (attributes.map nameOf)))
  have hname := fun {u} (hu : t.internAll (attributes.map nameOf) ≤ u) => name?_allocate hu
  have hsize := @size_allocate α nameOf attributes t
  rw [hset] at hname hsize
  refine ⟨_, _, hset, IdTable.names_internAll _ t, hsize, ?_, ?_⟩
  · exact fun later => hname (IdTable.le_internAll later _)
  · intro β nameOf' attributes' between id name
    -- Both sets are looked up in the table in which the names of both have numbers.
    have hle := (IdTable.le_internAll between (t.internAll (attributes.map nameOf))).trans
      (IdTable.le_internAll (attributes'.map nameOf') _)
    rw [hname hle, name?_allocate (le_refl _)]
    exact ⟨fun ⟨⟨hmem, hid⟩, hmem'⟩ => ⟨⟨hmem', hid⟩, hmem⟩,
      fun ⟨⟨hmem', hid⟩, hmem⟩ => ⟨⟨hmem, hid⟩, hmem'⟩⟩

/-- A name that has a number before keeps it, and one that comes twice is there once. -/
example :
    let set := (allocate id ["text", "hint", "text"] (IdTable.empty.internAll ["hint"])).1
    set.size = 2 ∧ set.name? id 1 = some "hint" ∧ set.name? id 2 = some "text" ∧
      set.name? id 3 = none := by
  decide

end AttributeSet

end LayoutEngine
