/-!
# Entries in order of insertion

A table that remembers the order in which its keys came is a list of pairs with distinct keys. `put`
gives a key its value: in place where the key is known, at the end where it is new. `get?` reads
the first pair of a key, `erase` takes it out and keeps the order of the rest.

The lemmas say what `get?` and the list of keys become under each of them.
-/

namespace LayoutEngine.Entries

variable {α β : Type} [DecidableEq α]

/-- The value of a key. -/
def get? (key : α) : List (α × β) → Option β
  | [] => none
  | (k, v) :: rest => if k = key then some v else get? key rest

/-- The table in which the key has the value: in the key's place, or at the end. -/
def put (key : α) (value : β) : List (α × β) → List (α × β)
  | [] => [(key, value)]
  | (k, v) :: rest => if k = key then (key, value) :: rest else (k, v) :: put key value rest

/-- The table without the key. -/
def erase (key : α) : List (α × β) → List (α × β)
  | [] => []
  | (k, v) :: rest => if k = key then rest else (k, v) :: erase key rest

/-- The keys, in order. -/
def keys (entries : List (α × β)) : List α := entries.map Prod.fst

/-- There is an entry with a key. -/
def contains (key : α) (entries : List (α × β)) : Bool := (get? key entries).isSome

/-- The table after putting pairs one by one: a repeated key keeps its first place and its last
value. -/
def ofList (pairs : List (α × β)) : List (α × β) :=
  pairs.foldl (fun entries pair => put pair.1 pair.2 entries) []

@[simp] theorem get?_put_self (key : α) (value : β) (entries : List (α × β)) :
    get? key (put key value entries) = some value := by
  induction entries with
  | nil => simp [put, get?]
  | cons pair rest ih => by_cases h : pair.1 = key <;> simp [put, get?, h, ih]

/-- Putting an entry leaves the values of other keys alone. -/
theorem get?_put_of_ne {key other : α} (h : other ≠ key) (value : β) (entries : List (α × β)) :
    get? other (put key value entries) = get? other entries := by
  induction entries with
  | nil => simp [put, get?, h.symm]
  | cons pair rest ih =>
    by_cases hk : pair.1 = key
    · simp [put, get?, hk, h.symm]
    · simp [put, get?, hk, ih]

/-- Of two values put under one key the second stays. -/
theorem put_put (key : α) (old new : β) (entries : List (α × β)) :
    put key new (put key old entries) = put key new entries := by
  induction entries with
  | nil => simp [put]
  | cons pair rest ih => by_cases h : pair.1 = key <;> simp [put, h, ih]

/-- Erasing a key leaves the values of other keys alone. -/
theorem get?_erase_of_ne {key other : α} (h : other ≠ key) (entries : List (α × β)) :
    get? other (erase key entries) = get? other entries := by
  induction entries with
  | nil => rfl
  | cons pair rest ih =>
    by_cases hk : pair.1 = key
    · simp [erase, get?, hk, h.symm]
    · simp [erase, get?, hk, ih]

/-- Only what is no key has no value. -/
theorem get?_eq_none_iff {key : α} {entries : List (α × β)} :
    get? key entries = none ↔ key ∉ keys entries := by
  induction entries with
  | nil => simp [get?, keys]
  | cons pair rest ih =>
    by_cases hk : pair.1 = key
    · simp [get?, keys, hk]
    · simpa [get?, keys, hk, Ne.symm hk] using ih

/-- What is found is an entry. -/
theorem mem_of_get? {key : α} {value : β} {entries : List (α × β)}
    (h : get? key entries = some value) : (key, value) ∈ entries := by
  induction entries with
  | nil => cases h
  | cons pair rest ih =>
    rw [get?] at h
    split at h
    · next hkey =>
      cases h
      cases hkey
      exact List.mem_cons_self
    · exact List.mem_cons_of_mem _ (ih h)

/-- Erasing takes keys away and leaves the others in order. -/
theorem keys_erase_sublist (key : α) (entries : List (α × β)) :
    (keys (erase key entries)).Sublist (keys entries) := by
  induction entries with
  | nil => exact List.Sublist.refl _
  | cons pair rest ih =>
    by_cases hk : pair.1 = key
    · simp [erase, keys, hk]
    · simpa [erase, keys, hk] using ih

/-- Keys stay distinct. -/
theorem nodup_keys_erase {key : α} {entries : List (α × β)} (h : (keys entries).Nodup) :
    (keys (erase key entries)).Nodup := h.sublist (keys_erase_sublist key entries)

/-- Of distinct keys none is left of one that has been taken out. -/
theorem get?_erase_self {key : α} {entries : List (α × β)} (h : (keys entries).Nodup) :
    get? key (erase key entries) = none := by
  induction entries with
  | nil => rfl
  | cons pair rest ih =>
    obtain ⟨hpair, hrest⟩ := List.nodup_cons.1 h
    by_cases hk : pair.1 = key
    · rw [erase, if_pos hk]
      exact get?_eq_none_iff.2 (hk ▸ hpair)
    · rw [erase, if_neg hk, get?, if_neg hk]
      exact ih hrest

/-- A known key keeps its place, a new one comes last. -/
theorem keys_put (key : α) (value : β) (entries : List (α × β)) :
    keys (put key value entries) =
      if key ∈ keys entries then keys entries else keys entries ++ [key] := by
  induction entries with
  | nil => simp [put, keys]
  | cons pair rest ih =>
    by_cases hk : pair.1 = key
    · simp [put, keys, hk]
    · simp only [keys] at ih
      by_cases hm : key ∈ List.map Prod.fst rest <;> simp [put, keys, hk, Ne.symm hk, ih, hm]

/-- Keys stay distinct. -/
theorem nodup_keys_put {key : α} {value : β} {entries : List (α × β)}
    (h : (keys entries).Nodup) : (keys (put key value entries)).Nodup := by
  rw [keys_put]
  split
  · exact h
  · next hk => exact List.nodup_append.2 ⟨h, by simp, by grind⟩

/-- Entries that are made by putting one after the other have every key once. -/
theorem nodup_keys_ofList (pairs : List (α × β)) : (keys (ofList pairs)).Nodup := by
  suffices ∀ entries : List (α × β), (keys entries).Nodup →
      (keys (pairs.foldl (fun entries pair => put pair.1 pair.2 entries) entries)).Nodup from
    this [] (by simp [keys])
  induction pairs with
  | nil => exact fun _ h => h
  | cons pair rest ih => exact fun entries h => ih _ (nodup_keys_put h)

/-! ## Pairs with repeated keys -/

/-- Entries in front come first. -/
theorem get?_append (key : α) (front back : List (α × β)) :
    get? key (front ++ back) = (get? key front).or (get? key back) := by
  induction front with
  | nil => rfl
  | cons pair rest ih => by_cases h : pair.1 = key <;> simp [get?, h, ih]

/-- Of the pairs that are put into a table the last one of a key counts. -/
theorem get?_foldl_put (key : α) (pairs entries : List (α × β)) :
    get? key (pairs.foldl (fun entries pair => put pair.1 pair.2 entries) entries) =
      (get? key pairs.reverse).or (get? key entries) := by
  induction pairs generalizing entries with
  | nil => rfl
  | cons pair rest ih =>
    have hput : get? key (put pair.1 pair.2 entries) = (get? key [pair]).or (get? key entries) := by
      by_cases h : pair.1 = key
      · subst h
        simp [get?]
      · simp [get?, h, get?_put_of_ne (Ne.symm h)]
    rw [List.foldl_cons, ih, hput, List.reverse_cons, get?_append, Option.or_assoc]

/-- Of several pairs with one key the last one counts. -/
theorem get?_ofList (key : α) (pairs : List (α × β)) :
    get? key (ofList pairs) = get? key pairs.reverse := by
  rw [ofList, get?_foldl_put, get?, Option.or_none]

/-- A table has the keys of the pairs that have been put into it. -/
theorem mem_keys_ofList {key : α} {pairs : List (α × β)} :
    key ∈ keys (ofList pairs) ↔ key ∈ keys pairs := by
  rw [← Decidable.not_iff_not, ← get?_eq_none_iff, get?_ofList, get?_eq_none_iff, keys,
    List.map_reverse, List.mem_reverse, keys]

/-- Where keys are distinct, each has one pair, whichever end the search starts from. -/
theorem get?_reverse {entries : List (α × β)} (h : (keys entries).Nodup) (key : α) :
    get? key entries.reverse = get? key entries := by
  induction entries with
  | nil => rfl
  | cons pair rest ih =>
    obtain ⟨hpair, hrest⟩ := List.nodup_cons.1 h
    rw [List.reverse_cons, get?_append, ih hrest]
    by_cases hk : pair.1 = key
    · have hnone : get? key rest = none := get?_eq_none_iff.2 (hk ▸ hpair)
      simp [get?, hk, hnone]
    · simp [get?, hk]

end LayoutEngine.Entries
