import LayoutEngine.Proofs.Session
import LayoutEngine.Session.Tree

/-!
# Widgets that are held

The living widgets are the largest set of widgets each of which is held from outside or is a child
of one in the set: a set with that property is kept (`Session.mem_living`), and the living widgets
have it (`Session.held_of_mem_living`). So the children of a living widget live
(`Session.mem_living_of_child`).
-/

namespace LayoutEngine.Session

variable {s : Session} {held : List WidgetId}

/-- A widget is still held from outside or by another that is there. -/
theorem mem_stillHeld_iff {ids : List WidgetId} {id : WidgetId} :
    id ∈ s.stillHeld held ids ↔
      id ∈ ids ∧ (id ∈ held ∨ ∃ other ∈ ids, id ∈ s.childrenOf other) := by
  simp [stillHeld]

/-- Letting go keeps widgets that hold each other. -/
theorem mem_letGo {P : WidgetId → Prop}
    (h : ∀ id, P id → id ∈ held ∨ ∃ other, P other ∧ id ∈ s.childrenOf other) (fuel : Nat)
    {ids : List WidgetId} (hids : ∀ id, P id → id ∈ ids) {id : WidgetId} (hid : P id) :
    id ∈ s.letGo held fuel ids := by
  induction fuel generalizing ids with
  | zero => exact hids id hid
  | succ fuel ih =>
    rw [letGo]
    split
    · exact hids id hid
    · refine ih fun other hother => mem_stillHeld_iff.2 ⟨hids other hother, ?_⟩
      rcases h other hother with hheld | ⟨holder, hholder, hchild⟩
      · exact .inl hheld
      · exact .inr ⟨holder, hids holder hholder, hchild⟩

/-- After as many rounds as there are widgets none is left that is not held. -/
theorem held_of_mem_letGo {fuel : Nat} {ids : List WidgetId} (hfuel : ids.length ≤ fuel)
    {id : WidgetId} (h : id ∈ s.letGo held fuel ids) :
    id ∈ held ∨ ∃ other ∈ s.letGo held fuel ids, id ∈ s.childrenOf other := by
  induction fuel generalizing ids with
  | zero =>
    obtain rfl := List.length_eq_zero_iff.1 (Nat.le_zero.1 hfuel)
    cases h
  | succ fuel ih =>
    rw [letGo] at h ⊢
    split at h
    · next hlength =>
      rw [if_pos hlength]
      have hall := List.length_filter_eq_length_iff.1 hlength id h
      simpa using hall
    · next hlength =>
      rw [if_neg hlength]
      have hle : (s.stillHeld held ids).length ≤ ids.length := List.length_filter_le _ ids
      exact ih (by omega) h

/-- Widgets that hold each other live. -/
theorem mem_living {P : WidgetId → Prop} (hexists : ∀ id, P id → (s.widget? id).isSome = true)
    (h : ∀ id, P id → id ∈ held ∨ ∃ other, P other ∧ id ∈ s.childrenOf other) {id : WidgetId}
    (hid : P id) : id ∈ s.living held := by
  refine mem_letGo h _ (fun other hother => ?_) hid
  obtain ⟨w, hw⟩ := Option.isSome_iff_exists.1 (hexists other hother)
  obtain ⟨n, rfl, hn⟩ := widget?_eq_some_iff.1 hw
  obtain ⟨hlt, -⟩ := List.getElem?_eq_some_iff.1 hn
  exact List.mem_map.2 ⟨n, List.mem_range.2 hlt, rfl⟩

/-- A widget that lives is held from outside or by another that lives. -/
theorem held_of_mem_living {id : WidgetId} (h : id ∈ s.living held) :
    id ∈ held ∨ ∃ other ∈ s.living held, id ∈ s.childrenOf other :=
  held_of_mem_letGo (by simp) h

/-- Only what was there before is there once the rest has been let go. -/
theorem mem_of_mem_letGo {fuel : Nat} {ids : List WidgetId} {id : WidgetId}
    (h : id ∈ s.letGo held fuel ids) : id ∈ ids := by
  induction fuel generalizing ids with
  | zero => exact h
  | succ fuel ih =>
    rw [letGo] at h
    split at h
    · exact h
    · exact (mem_stillHeld_iff.1 (ih h)).1

/-- What lives is a widget. -/
theorem widget?_of_mem_living {id : WidgetId} (h : id ∈ s.living held) :
    (s.widget? id).isSome = true := by
  obtain ⟨n, hn, rfl⟩ := List.mem_map.1 (mem_of_mem_letGo h)
  simp [widget?, List.mem_range.1 hn]

/-- The children of a living widget live. -/
theorem mem_living_of_child {id child : WidgetId} (h : id ∈ s.living held)
    (hchild : child ∈ s.childrenOf id) (hexists : (s.widget? child).isSome = true) :
    child ∈ s.living held := by
  have hself : ∀ other, (other ∈ s.living held ∨ other = child) →
      other ∈ held ∨ ∃ holder, (holder ∈ s.living held ∨ holder = child) ∧
        other ∈ s.childrenOf holder := by
    rintro other (hother | rfl)
    · rcases held_of_mem_living hother with hheld | ⟨holder, hholder, hmem⟩
      · exact .inl hheld
      · exact .inr ⟨holder, .inl hholder, hmem⟩
    · exact .inr ⟨id, .inl h, hchild⟩
  refine mem_living ?_ hself (.inr rfl)
  rintro other (hother | rfl)
  · exact widget?_of_mem_living hother
  · exact hexists

end LayoutEngine.Session
