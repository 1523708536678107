import LayoutEngine.TagTable
import Mathlib.Data.List.Induction
import Mathlib.Data.List.Nodup

/-!
# The descriptors of a widget as a list without repetitions

Whatever is recorded, set and removed, a widget's descriptors are a list without repetitions.
Recording leaves the first occurrences of what is given (`Descriptor.firstOccurrences_distinct`).
Setting a descriptor leaves it as the only one of its name, in the place of the first there was or
at the end, and all others in their order (`Descriptor.replaced_upsert`). Either concerns one widget
only (`TagTable.run_refines`).
-/

namespace LayoutEngine

namespace Descriptor

variable {d : Descriptor} {given kept old new : List Descriptor}

/-! ## First occurrences -/

/-- Each of the given descriptors is kept, in the order of their first places. -/
structure FirstOccurrences (given kept : List Descriptor) : Prop where
  mem_iff (d : Descriptor) : d ∈ kept ↔ d ∈ given
  ordered : kept.Pairwise fun d e => given.idxOf d < given.idxOf e

/-- First occurrences are different. -/
theorem FirstOccurrences.nodup (h : FirstOccurrences given kept) : kept.Nodup :=
  h.ordered.imp fun hlt heq => by
    rw [heq] at hlt
    exact Nat.lt_irrefl _ hlt

/-- Of two lists one after the other, the second adds what is not in the first. -/
theorem distinct_append (first rest : List Descriptor) :
    distinct (first ++ rest) = distinct first ++ (distinct rest).filter (· ∉ first) := by
  induction first with
  | nil => simp [distinct]
  | cons d first ih =>
    rw [List.cons_append, distinct, ih, distinct, List.filter_append, List.filter_filter]
    simp

/-- A last descriptor is left out if it has come before. -/
theorem distinct_concat (first : List Descriptor) (d : Descriptor) :
    distinct (first ++ [d]) = if d ∈ first then distinct first else distinct first ++ [d] := by
  rw [distinct_append]
  split
  · next hmem => simp [distinct, hmem]
  · next hmem => simp [distinct, hmem]

/-- What is left without repetitions are the first occurrences. -/
theorem firstOccurrences_distinct (given : List Descriptor) :
    FirstOccurrences given (distinct given) := by
  induction given using List.reverseRecOn with
  | nil => exact ⟨fun _ => Iff.rfl, .nil⟩
  | append_singleton first x ih =>
    -- Where a descriptor was before, more at the end does not change its first place.
    have hold : (distinct first).Pairwise
        fun d e => (first ++ [x]).idxOf d < (first ++ [x]).idxOf e := by
      refine ih.ordered.imp_of_mem fun hd he hlt => ?_
      rwa [List.idxOf_append_of_mem ((ih.mem_iff _).1 hd),
        List.idxOf_append_of_mem ((ih.mem_iff _).1 he)]
    rw [distinct_concat]
    split
    · next hmem =>
      refine ⟨fun d => ?_, hold⟩
      rw [ih.mem_iff, List.mem_append, List.mem_singleton]
      exact ⟨.inl, fun h => h.elim id (· ▸ hmem)⟩
    · next hmem =>
      refine ⟨fun d => by rw [List.mem_append, List.mem_append, ih.mem_iff], ?_⟩
      refine List.pairwise_append.2 ⟨hold, List.pairwise_singleton _ _, fun d hd e he => ?_⟩
      rw [List.mem_singleton.1 he, List.idxOf_append_of_mem ((ih.mem_iff d).1 hd),
        List.idxOf_append_of_notMem hmem]
      have hlt := List.idxOf_lt_length_of_mem ((ih.mem_iff d).1 hd)
      omega

/-! ## Setting a descriptor -/

/-- Setting a descriptor leaves it as the only one of its name. -/
theorem filter_upsert_self (d : Descriptor) (descriptors : List Descriptor) :
    (d.upsert descriptors).filter (·.name = d.name) = [d] := by
  induction descriptors with
  | nil => simp [upsert]
  | cons e rest ih =>
    rw [upsert]
    split
    · rw [List.filter_cons_of_pos (by simp), List.filter_filter]
      simp
    · next hne =>
      rw [List.filter_cons_of_neg (by simpa using hne), ih]

/-- Setting a descriptor does not concern those of other names. -/
theorem filter_upsert_of_ne {d : Descriptor} {name : String} (h : d.name ≠ name)
    (descriptors : List Descriptor) :
    (d.upsert descriptors).filter (·.name = name) = descriptors.filter (·.name = name) := by
  induction descriptors with
  | nil => simp [upsert, h]
  | cons e rest ih =>
    rw [upsert]
    split
    · next heq =>
      have he : e.name ≠ name := heq ▸ h
      rw [List.filter_cons_of_neg (by simpa using h), List.filter_cons_of_neg (by simpa using he),
        List.filter_filter]
      refine List.filter_congr ?_
      intro x _
      by_cases hx : x.name = name <;> simp [hx, Ne.symm h]
    · by_cases he : e.name = name <;> simp [he, ih]

/-- Setting a descriptor puts it in the place of the first of its name, or after all others. -/
theorem upsert_place (d : Descriptor) (descriptors : List Descriptor) :
    (∃ before first after, descriptors = before ++ first :: after ∧ first.name = d.name ∧
      (∀ e ∈ before, e.name ≠ d.name) ∧
      d.upsert descriptors = before ++ d :: after.filter (·.name ≠ d.name)) ∨
    (∀ e ∈ descriptors, e.name ≠ d.name) ∧ d.upsert descriptors = descriptors ++ [d] := by
  induction descriptors with
  | nil => exact .inr ⟨nofun, rfl⟩
  | cons e rest ih =>
    by_cases he : e.name = d.name
    · refine .inl ⟨[], e, rest, rfl, he, nofun, ?_⟩
      rw [upsert, if_pos he]
      rfl
    · rw [upsert, if_neg he]
      rcases ih with ⟨before, first, after, rfl, hfirst, hbefore, hupsert⟩ | ⟨hall, hupsert⟩
      · refine .inl ⟨e :: before, first, after, rfl, hfirst, ?_, ?_⟩
        · exact List.forall_mem_cons.2 ⟨he, hbefore⟩
        · rw [hupsert]
          rfl
      · refine .inr ⟨List.forall_mem_cons.2 ⟨he, hall⟩, ?_⟩
        rw [hupsert]
        rfl

/-- Setting a descriptor leaves those of other names, in order. -/
theorem filter_ne_upsert (d : Descriptor) (descriptors : List Descriptor) :
    (d.upsert descriptors).filter (·.name ≠ d.name) =
      descriptors.filter (·.name ≠ d.name) := by
  rcases d.upsert_place descriptors with ⟨before, first, after, rfl, hfirst, -, hupsert⟩ |
    ⟨-, hupsert⟩
  all_goals rw [hupsert]
  · simp [hfirst, List.filter_filter]
  · simp

/-- `d` is the only descriptor of its name, in the place of the first there was or at the end, and
those of other names are as they were. -/
structure Replaced (d : Descriptor) (old new : List Descriptor) : Prop where
  only : new.filter (·.name = d.name) = [d]
  place : new.findIdx (·.name = d.name) = old.findIdx (·.name = d.name)
  others : new.filter (·.name ≠ d.name) = old.filter (·.name ≠ d.name)

/-- Where a descriptor takes the place of one of its name, all are different still. -/
theorem Replaced.nodup (h : Replaced d old new) (hold : old.Nodup) : new.Nodup := by
  have hperm : (new.filter (·.name ≠ d.name) ++ new.filter (·.name = d.name)).Perm new := by
    simpa using List.filter_append_perm (fun e : Descriptor => e.name ≠ d.name) new
  rw [h.only, h.others] at hperm
  refine hperm.nodup_iff.1 (List.nodup_append.2 ⟨hold.filter _, List.nodup_singleton d, ?_⟩)
  rintro e he _ hd rfl
  rw [List.mem_singleton.1 hd] at he
  simp at he

/-- A descriptor that is upserted takes the place of one of its name, or comes last. -/
theorem replaced_upsert (d : Descriptor) (old : List Descriptor) :
    Replaced d old (d.upsert old) := by
  refine ⟨filter_upsert_self d old, ?_, filter_ne_upsert d old⟩
  induction old with
  | nil => simp [upsert]
  | cons e rest ih =>
    rw [upsert]
    split
    · next heq => simp [List.findIdx_cons, heq]
    · next hne => simp [List.findIdx_cons, hne, ih]

end Descriptor

/-! ## Sequences of operations -/

namespace TagTable

/-- What is done to the descriptors of a widget. -/
inductive Operation where
  | record (descriptors : List Descriptor)
  | upsert (descriptor : Descriptor)
  | remove

/-- The table after an operation on a widget. -/
def Operation.perform (widget : WidgetId) : Operation → TagTable → TagTable
  | record descriptors => TagTable.record widget descriptors
  | upsert descriptor => TagTable.upsert widget descriptor
  | remove => TagTable.remove widget

/-- The table after operations on widgets, one by one. -/
def run (operations : List (WidgetId × Operation)) : TagTable :=
  operations.foldl (fun table operation => operation.2.perform operation.1 table) empty

/-- What an operation makes of the descriptors of its widget, none if there is no entry. -/
inductive Operation.Leaves : Operation → Option (List Descriptor) → Option (List Descriptor) → Prop
  | record {given kept : List Descriptor} {old : Option (List Descriptor)}
      (h : Descriptor.FirstOccurrences given kept) : Leaves (record given) old (some kept)
  | upsert {d : Descriptor} {old : Option (List Descriptor)} {new : List Descriptor}
      (h : Descriptor.Replaced d (old.getD []) new) : Leaves (upsert d) old (some new)
  | remove {old : Option (List Descriptor)} : Leaves remove old none

/-- One entry for each widget that has any, and no descriptor twice in it. -/
structure Distinct (table : TagTable) : Prop where
  widgets : (Entries.keys table.entries).Nodup
  descriptors {widget : WidgetId} {entry : List Descriptor} (h : table.get? widget = some entry) :
    entry.Nodup

variable {table : TagTable} {widget other : WidgetId} {operation : Operation}

/-- An operation on one widget leaves the entries of others. -/
theorem get?_perform_of_ne (h : other ≠ widget) (operation : Operation) (table : TagTable) :
    (operation.perform widget table).get? other = table.get? other := by
  cases operation with
  | record descriptors => exact Entries.get?_put_of_ne h _ _
  | upsert descriptor => exact Entries.get?_put_of_ne h _ _
  | remove => exact Entries.get?_erase_of_ne h _

/-- What an operation leaves of its own widget's descriptors. -/
theorem Distinct.leaves (h : table.Distinct) (widget : WidgetId) (operation : Operation) :
    operation.Leaves (table.get? widget) ((operation.perform widget table).get? widget) := by
  cases operation with
  | record descriptors =>
    have hget : (table.record widget descriptors).get? widget = some _ := Entries.get?_put_self ..
    rw [Operation.perform, hget]
    exact .record (Descriptor.firstOccurrences_distinct descriptors)
  | upsert descriptor =>
    have hget : (table.upsert widget descriptor).get? widget = some _ := Entries.get?_put_self ..
    rw [Operation.perform, hget]
    exact .upsert (Descriptor.replaced_upsert descriptor _)
  | remove =>
    have hget : (table.remove widget).get? widget = none := Entries.get?_erase_self h.widgets
    rw [Operation.perform, hget]
    exact .remove

/-- After an operation the descriptors of an entry are different if they were. -/
theorem Operation.Leaves.nodup {old new : Option (List Descriptor)} (h : operation.Leaves old new)
    (hold : ∀ entry, old = some entry → entry.Nodup) : ∀ entry, new = some entry → entry.Nodup := by
  cases h with
  | record h =>
    rintro _ ⟨⟩
    exact h.nodup
  | @upsert d old new h =>
    rintro _ ⟨⟩
    refine h.nodup ?_
    cases old with
    | none => exact List.nodup_nil
    | some entry => exact hold entry rfl
  | remove => nofun

/-- No operation puts a descriptor twice. -/
theorem Distinct.perform (h : table.Distinct) (widget : WidgetId) (operation : Operation) :
    (operation.perform widget table).Distinct := by
  constructor
  · cases operation with
    | record descriptors => exact Entries.nodup_keys_put h.widgets
    | upsert descriptor => exact Entries.nodup_keys_put h.widgets
    | remove => exact Entries.nodup_keys_erase h.widgets
  · intro other entry hentry
    by_cases hother : other = widget
    · subst hother
      exact (h.leaves other operation).nodup (fun _ => h.descriptors) entry hentry
    · rw [get?_perform_of_ne hother] at hentry
      exact h.descriptors hentry

/-- After whatever operations the descriptors of each entry are different. -/
theorem distinct_run (operations : List (WidgetId × Operation)) : (run operations).Distinct := by
  induction operations using List.reverseRecOn with
  | nil => exact ⟨List.nodup_nil, nofun⟩
  | append_singleton operations last ih =>
    rw [run, List.foldl_concat]
    exact ih.perform last.1 last.2

/-- After any operations the descriptors of each widget are without repetitions, and the next one
leaves of its widget's what it should and all others as they are. -/
theorem run_refines (operations : List (WidgetId × Operation)) :
    (∀ widget entry, (run operations).get? widget = some entry → entry.Nodup) ∧
    ∀ widget (operation : Operation),
      operation.Leaves ((run operations).get? widget)
        ((operation.perform widget (run operations)).get? widget) ∧
      ∀ other, other ≠ widget →
        (operation.perform widget (run operations)).get? other = (run operations).get? other :=
  ⟨fun _ _ => (distinct_run operations).descriptors, fun widget operation =>
    ⟨(distinct_run operations).leaves widget operation, fun _ hother =>
      get?_perform_of_ne hother operation _⟩⟩

/-- A value that another descriptor of the name has already is there once. -/
example :
    (run [(⟨1⟩, .record [⟨"text", "a"⟩, ⟨"padding", "4"⟩, ⟨"text", "b"⟩]),
      (⟨1⟩, .upsert ⟨"text", "b"⟩)]).get? ⟨1⟩ = some [⟨"text", "b"⟩, ⟨"padding", "4"⟩] := by
  decide

end TagTable

end LayoutEngine
