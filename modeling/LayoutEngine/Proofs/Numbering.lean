import LayoutEngine.Entries
import LayoutEngine.Proofs.IdTable
import Mathlib.Data.Finset.Card
import Mathlib.Data.List.Induction
import Mathlib.Data.List.Nodup

/-!
# Names numbered one after the other

Numbering names one by one (`internAll`) adds those that a table does not have, each once and in
the order of first use (`names_internAll`). So a table to which nothing but these names has been
added has as many numbers as there are different names (`size_internAll_empty`).
-/

namespace LayoutEngine

/-! ## First uses -/

section FirstUses

variable {α : Type} [DecidableEq α]

/-- A name that was there before adds nothing, a new one comes last. -/
theorem eraseDups_concat (l : List α) (a : α) :
    (l ++ [a]).eraseDups = if a ∈ l then l.eraseDups else l.eraseDups ++ [a] := by
  rw [List.eraseDups_append]
  split
  · next hmem => simp [List.removeAll, hmem]
  · next hnew => simp [List.removeAll, hnew, List.eraseDups_cons]

/-- Without repetitions the members of a list are in the order of their first places. -/
theorem pairwise_eraseDups (l : List α) :
    l.eraseDups.Pairwise fun a b => l.idxOf a < l.idxOf b := by
  induction l using List.reverseRecOn with
  | nil => exact .nil
  | append_singleton l x ih =>
    -- More at the end does not change a first place that there is already.
    have hold : l.eraseDups.Pairwise fun a b => (l ++ [x]).idxOf a < (l ++ [x]).idxOf b := by
      refine ih.imp_of_mem fun ha hb hlt => ?_
      rwa [List.idxOf_append_of_mem (List.mem_eraseDups.1 ha),
        List.idxOf_append_of_mem (List.mem_eraseDups.1 hb)]
    rw [eraseDups_concat]
    split
    · exact hold
    · next hnew =>
      refine List.pairwise_append.2 ⟨hold, List.pairwise_singleton _ _, fun a ha b hb => ?_⟩
      rw [List.mem_singleton.1 hb, List.idxOf_append_of_mem (List.mem_eraseDups.1 ha),
        List.idxOf_append_of_notMem hnew]
      have hlt := List.idxOf_lt_length_of_mem (List.mem_eraseDups.1 ha)
      omega

/-- What is left without repetitions has none. -/
theorem nodup_eraseDups (l : List α) : l.eraseDups.Nodup := by
  refine (pairwise_eraseDups l).imp fun hlt heq => ?_
  rw [heq] at hlt
  exact Nat.lt_irrefl _ hlt

/-- Without repetitions there are as many as in the set. -/
theorem length_eraseDups (l : List α) : l.eraseDups.length = l.toFinset.card := by
  rw [← List.toFinset_card_of_nodup (nodup_eraseDups l)]
  congr 1
  ext a
  simp

/-- Of two members the one comes first that has the earlier first place. -/
theorem lt_iff_idxOf_lt {l : List α} {a b : α} {i j : Nat} (ha : l.eraseDups[i]? = some a)
    (hb : l.eraseDups[j]? = some b) : i < j ↔ l.idxOf a < l.idxOf b := by
  obtain ⟨hi, rfl⟩ := List.getElem?_eq_some_iff.1 ha
  obtain ⟨hj, rfl⟩ := List.getElem?_eq_some_iff.1 hb
  have hordered := List.pairwise_iff_getElem.1 (pairwise_eraseDups l)
  refine ⟨hordered i j hi hj, fun hlt => ?_⟩
  rcases Nat.lt_trichotomy i j with hless | rfl | hmore
  · exact hless
  · exact absurd hlt (Nat.lt_irrefl _)
  · exact absurd (hordered j i hj hi hmore) (Nat.lt_asymm hlt)

end FirstUses

/-- A table that pairs have been put into has as many entries as there are different keys. -/
theorem Entries.length_ofList {α β : Type} [DecidableEq α] (pairs : List (α × β)) :
    (ofList pairs).length = (keys pairs).toFinset.card := by
  have hkeys : (keys (ofList pairs)).toFinset = (keys pairs).toFinset := by
    ext key
    simp only [List.mem_toFinset, mem_keys_ofList]
  rw [← hkeys, List.toFinset_card_of_nodup (nodup_keys_ofList pairs), keys, List.length_map]

namespace IdTable

variable {t u : IdTable} {name : String} {id : Int}

/-! ## Which names and which numbers -/

/-- A name without number is not in the table. -/
theorem get?_eq_none_iff : t.get? name = none ↔ name ∉ t.names := by
  unfold get?
  split <;> simp [*]

/-- A name with a number is in the table. -/
theorem exists_get?_iff : (∃ id, t.get? name = some id) ↔ name ∈ t.names := by
  rw [← Option.isSome_iff_exists, Option.isSome_iff_ne_none, Ne, get?_eq_none_iff, not_not]

/-- The numbers of a table are those from one to its size. -/
theorem exists_nameOf?_iff : (∃ name, t.nameOf? id = some name) ↔ 1 ≤ id ∧ id ≤ t.size := by
  simp only [nameOf?_eq_some_iff, size]
  constructor
  · rintro ⟨name, i, rfl, hi⟩
    obtain ⟨hlt, -⟩ := List.getElem?_eq_some_iff.1 hi
    omega
  · rintro ⟨hpos, hle⟩
    have hlt : (id - 1).toNat < t.names.length := by omega
    exact ⟨t.names[(id - 1).toNat], (id - 1).toNat, by omega, List.getElem?_eq_getElem hlt⟩

/-- A new name gets the number after all others. -/
theorem intern_of_notMem (h : name ∉ t.names) : (t.intern name).1 = t.size + 1 := by
  unfold intern
  rw [dif_neg h]
  rfl

/-- A later table is no shorter. -/
theorem size_mono (h : t ≤ u) : t.size ≤ u.size := List.IsPrefix.length_le h

/-- A name is added at the end unless it is there. -/
theorem names_intern (name : String) (t : IdTable) :
    (t.intern name).2.names = if name ∈ t.names then t.names else t.names ++ [name] := by
  unfold intern
  split <;> rfl

/-- Giving a name a number leaves the numbers of others. -/
theorem get?_intern_of_ne {other : String} (h : other ≠ name) :
    (t.intern name).2.get? other = t.get? other := by
  cases hother : t.get? other with
  | some id => exact get?_mono (le_intern name t) hother
  | none =>
    rw [get?_eq_none_iff] at hother ⊢
    rw [names_intern]
    split
    · exact hother
    · simp [hother, h]

/-! ## One name after the other -/

/-- The table after names have been numbered one by one. -/
def internAll (names : List String) (t : IdTable) : IdTable :=
  names.foldl (fun t name => (t.intern name).2) t

/-- Names in two parts are given numbers one part after the other. -/
theorem internAll_append (names more : List String) (t : IdTable) :
    t.internAll (names ++ more) = (t.internAll names).internAll more := by
  rw [internAll, List.foldl_append, ← internAll, ← internAll]

/-- A last name is given its number after the others. -/
theorem internAll_concat (names : List String) (name : String) (t : IdTable) :
    t.internAll (names ++ [name]) = ((t.internAll names).intern name).2 :=
  internAll_append names [name] t

/-- Giving names numbers only adds names. -/
theorem le_internAll (names : List String) (t : IdTable) : t ≤ t.internAll names := by
  induction names generalizing t with
  | nil => exact le_refl t
  | cons name rest ih => exact (le_intern name t).trans (ih _)

/-- Numbering names adds the new ones, each once, in the order of first use. -/
theorem names_internAll (names : List String) (t : IdTable) :
    (t.internAll names).names = t.names ++ names.eraseDups.filter (· ∉ t.names) := by
  induction names using List.reverseRecOn with
  | nil => simp [internAll]
  | append_singleton names name ih =>
    rw [internAll_concat, names_intern, ih, eraseDups_concat]
    by_cases hold : name ∈ t.names <;> by_cases hused : name ∈ names <;> simp [hold, hused]

/-- Of the names that have been numbered every later table has the number. -/
theorem get?_of_mem {names : List String} (hmem : name ∈ names) (hu : t.internAll names ≤ u) :
    u.get? name = some (u.intern name).1 := by
  have hnamed : name ∈ (t.internAll names).names := by
    rw [names_internAll]
    by_cases hold : name ∈ t.names <;> simp [hold, hmem]
  obtain ⟨id, hid⟩ := exists_get?_iff.2 hnamed
  rw [intern_of_get? (get?_mono hu hid)]
  exact get?_mono hu hid

/-- From an empty table on, the names are those that came, without repetitions. -/
theorem names_internAll_empty (names : List String) :
    (empty.internAll names).names = names.eraseDups := by
  rw [names_internAll]
  simp [empty]

/-- From an empty table on, there are as many names as different ones came. -/
theorem size_internAll_empty (names : List String) :
    (empty.internAll names).size = names.toFinset.card := by
  rw [size, names_internAll_empty, length_eraseDups]

end IdTable

end LayoutEngine
