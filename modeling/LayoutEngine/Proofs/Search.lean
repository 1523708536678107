import LayoutEngine.Proofs.Inflation
import LayoutEngine.Proofs.Walk
import LayoutEngine.Session.Edit
import Mathlib.Data.List.Lex

/-!
# Searches in preorder

A position below a widget tells which child to go to at each step (`Session.widgetAt?`). A walk in
preorder comes by the widgets at all positions in lexicographic order, which puts a widget before
those below it and before those below its later siblings (`Session.Lists`). A search for the number
of a view goes from child to child and stops at the first widget that it is looking for; that is the
first one in the walk whose view has the number, whichever widgets share it
(`Session.findView?_first`).
-/

namespace LayoutEngine.Session

variable {s : Session} {view : Int} {root top id : WidgetId} {fuel depth : Nat}
  {walk : List (Nat × WidgetId)}

/-- A widget's view has a number at present. -/
def Carries (s : Session) (view : Int) (id : WidgetId) : Prop :=
  (s.widget? id).bind (·.view.id) = some view

instance (s : Session) (view : Int) : DecidablePred (s.Carries view) :=
  fun id => inferInstanceAs (Decidable ((s.widget? id).bind (·.view.id) = some view))

/-! ## Searches -/

/-- Where every search of a single widget has a result, the first that is found counts. -/
theorem firstFound_eq {search : WidgetId → Option (Option WidgetId)}
    {found : WidgetId → Option WidgetId} {ids : List WidgetId}
    (h : ∀ id ∈ ids, search id = some (found id)) :
    firstFound search ids = some (ids.findSome? found) := by
  induction ids with
  | nil => rfl
  | cons id rest ih =>
    obtain ⟨hid, hrest⟩ := List.forall_mem_cons.1 h
    rw [firstFound, hid, List.findSome?_cons]
    cases found id with
    | none => exact ih hrest
    | some first => rfl

/-- The search looks at a widget first, and then below each of its children. -/
theorem findViewWithin_succ (s : Session) (view : Int) (fuel : Nat) (top : WidgetId) :
    s.findViewWithin view (fuel + 1) top = if s.Carries view top then some (some top)
      else firstFound (s.findViewWithin view fuel) (s.childrenOf top) := rfl

/-- Where a walk comes to an end, the search goes the same way. -/
theorem findViewWithin_eq (h : s.preorderWithin fuel depth top = some walk) :
    s.findViewWithin view fuel top =
      some ((walk.map Prod.snd).find? fun id => s.Carries view id) := by
  induction fuel generalizing depth top walk with
  | zero => cases h
  | succ fuel ih =>
    obtain ⟨rfl, hchildren⟩ := preorderWithin_eq h
    have hfound : ∀ child ∈ s.childrenOf top, s.findViewWithin view fuel child =
        some ((((s.preorderWithin fuel (depth + 1) child).getD []).map Prod.snd).find?
          fun id => s.Carries view id) := by
      intro child hchild
      obtain ⟨below, hbelow⟩ := hchildren child hchild
      rw [ih hbelow, hbelow, Option.getD_some]
    rw [findViewWithin_succ, List.map_cons]
    by_cases htop : s.Carries view top
    · rw [if_pos htop, List.find?_cons_of_pos (by simpa using htop)]
    · rw [if_neg htop, List.find?_cons_of_neg (by simpa using htop), firstFound_eq hfound,
        preorderAll, List.map_flatMap, List.find?_flatMap]

/-! ## Positions -/

/-- The widget at a position below another one: the position tells the child to go to at each
step. -/
def widgetAt? (s : Session) : WidgetId → List Nat → Option WidgetId
  | id, [] => some id
  | id, i :: rest => (s.childrenOf id)[i]?.bind (s.widgetAt? · rest)

/-- The positions below a widget in the order of a walk, as far as the fuel allows. -/
def positionsWithin (s : Session) : Nat → WidgetId → List (List Nat)
  | 0, _ => []
  | fuel + 1, id =>
    [] :: (s.childrenOf id).zipIdx.flatMap fun (child, i) =>
      (s.positionsWithin fuel child).map (i :: ·)

/-- A walk lists the widgets at all positions below a widget, each with the length of its position,
in lexicographic order. -/
structure Lists (s : Session) (root : WidgetId) (walk : List (Nat × WidgetId))
    (positions : List (List Nat)) : Prop where
  ordered : positions.Pairwise (· < ·)
  complete (position : List Nat) :
    position ∈ positions ↔ (s.widgetAt? root position).isSome = true
  walk : positions.map (fun position => (s.widgetAt? root position).map (position.length, ·)) =
    walk.map some

/-- A walk goes through positions in lexicographic order. -/
theorem ordered_positionsWithin (s : Session) (fuel : Nat) (top : WidgetId) :
    (s.positionsWithin fuel top).Pairwise (· < ·) := by
  induction fuel generalizing top with
  | zero => exact .nil
  | succ fuel ih =>
    rw [positionsWithin, List.pairwise_cons, List.pairwise_flatMap]
    refine ⟨?_, ?_, ?_⟩
    · intro position hmem
      obtain ⟨⟨child, i⟩, -, hmem⟩ := List.mem_flatMap.1 hmem
      obtain ⟨rest, -, rfl⟩ := List.mem_map.1 hmem
      exact List.nil_lt_cons i rest
    · rintro ⟨child, i⟩ -
      refine List.pairwise_map.2 ((ih child).imp fun hlt => ?_)
      exact List.cons_lt_cons_iff.2 (.inr ⟨rfl, hlt⟩)
    · refine List.pairwise_iff_getElem.2 fun i j hi hj hlt => ?_
      simp only [List.getElem_zipIdx, List.mem_map]
      rintro _ ⟨rest, -, rfl⟩ _ ⟨rest', -, rfl⟩
      exact List.cons_lt_cons_iff.2 (.inl (by omega))

/-- A walk goes through just the positions at which there is a widget. -/
theorem mem_positionsWithin_iff (h : s.preorderWithin fuel depth top = some walk)
    (position : List Nat) :
    position ∈ s.positionsWithin fuel top ↔ (s.widgetAt? top position).isSome = true := by
  induction fuel generalizing depth top walk position with
  | zero => cases h
  | succ fuel ih =>
    obtain ⟨-, hchildren⟩ := preorderWithin_eq h
    cases position with
    | nil => simp [positionsWithin, widgetAt?]
    | cons i rest =>
      have hmem : i :: rest ∈ s.positionsWithin (fuel + 1) top ↔
          ∃ child, (s.childrenOf top)[i]? = some child ∧ rest ∈ s.positionsWithin fuel child := by
        simp [positionsWithin, List.mem_zipIdx_iff_getElem?]
      rw [hmem, widgetAt?]
      cases hi : (s.childrenOf top)[i]? with
      | none => simp
      | some child =>
        obtain ⟨below, hbelow⟩ := hchildren child (List.mem_of_getElem? hi)
        rw [Option.bind_some, ← ih hbelow]
        simp

/-- The places of a walk are those at the positions, in their order. -/
theorem map_positionsWithin (h : s.preorderWithin fuel depth top = some walk) :
    (s.positionsWithin fuel top).map
        (fun position => (s.widgetAt? top position).map (depth + position.length, ·)) =
      walk.map some := by
  induction fuel generalizing depth top walk with
  | zero => cases h
  | succ fuel ih =>
    obtain ⟨rfl, hchildren⟩ := preorderWithin_eq h
    have hchild : ∀ place ∈ (s.childrenOf top).zipIdx,
        ((s.positionsWithin fuel place.1).map (place.2 :: ·)).map
            (fun position => (s.widgetAt? top position).map (depth + position.length, ·)) =
          ((s.preorderWithin fuel (depth + 1) place.1).getD []).map some := by
      rintro ⟨child, i⟩ hplace
      have hi := List.mem_zipIdx_iff_getElem?.1 hplace
      obtain ⟨below, hbelow⟩ := hchildren child (List.mem_of_getElem? hi)
      rw [hbelow, Option.getD_some, ← ih hbelow, List.map_map]
      refine List.map_congr_left fun rest _ => ?_
      rw [Function.comp_apply, widgetAt?, hi, Option.bind_some, List.length_cons,
        Nat.add_right_comm, ← Nat.add_assoc]
    have hplain := List.flatMap_map Prod.fst
      (fun child => ((s.preorderWithin fuel (depth + 1) child).getD []).map some)
      (s.childrenOf top).zipIdx
    rw [List.zipIdx_map_fst] at hplain
    rw [positionsWithin, List.map_cons, List.map_flatMap, List.flatMap_congr hchild, ← hplain,
      preorderAll, List.map_cons, List.map_flatMap]
    rfl

/-- In a finite tree a search for the number of a view gives the first widget in preorder whose view
has it, and none exactly if no widget of the tree has such a view. The preorder is that of the
description: all positions of the tree in lexicographic order. -/
theorem findView?_first (hfinite : s.FiniteFrom root) (view : Int) :
    ∃ walk positions, s.preorder? root = some walk ∧ s.Lists root walk positions ∧
      s.describe? root = some (String.join (walk.map fun (depth, id) => s.describeLine depth id)) ∧
      s.findView? view root = some ((walk.map Prod.snd).find? fun id => s.Carries view id) ∧
      (s.findView? view root = some none ↔ ∀ id, s.Below id root → ¬s.Carries view id) := by
  obtain ⟨walk, hwalk⟩ := Option.isSome_iff_exists.1 hfinite.isSome_preorder?
  have hfound : s.findView? view root =
      some ((walk.map Prod.snd).find? fun id => s.Carries view id) := findViewWithin_eq hwalk
  refine ⟨walk, s.positionsWithin (s.widgets.length + 1) root, hwalk,
    ⟨s.ordered_positionsWithin _ root, mem_positionsWithin_iff hwalk, ?_⟩, ?_, hfound, ?_⟩
  · simpa using map_positionsWithin hwalk
  · rw [describe?, hwalk]
    rfl
  · rw [hfound, Option.some_inj, List.find?_eq_none]
    simp only [mem_preorderWithin_iff hwalk, decide_eq_true_eq]

open Context

/-- A text called `title` in a container, a second one behind it, and then the container is given
the same name: the first of them comes first, however deep it is. -/
theorem findView?_first_titles :
    ∃ l t' s s' view,
      LayoutSource.compile ⟨"relative-layout", [], [⟨"relative-layout", [],
        [⟨"text", [⟨"id", .string "@+id/title"⟩], []⟩]⟩,
        ⟨"text", [⟨"id", .string "title"⟩], []⟩]⟩ ownIds = (.ok l, t') ∧
      own.inflate l [] none noDataIndex (.ofIds t') = (.ok ⟨1⟩, s) ∧
      own.edit ⟨2⟩ "id" (.string "title") s = (.ok (), s') ∧
      s'.ids.viewId? "title" = some view ∧ s'.FiniteFrom ⟨1⟩ ∧
      s'.preorder? ⟨1⟩ = some [(0, ⟨1⟩), (1, ⟨2⟩), (2, ⟨3⟩), (1, ⟨4⟩)] ∧
      s.findView? view ⟨1⟩ = some (some ⟨3⟩) ∧ s'.findView? view ⟨1⟩ = some (some ⟨2⟩) ∧
      s'.findView? view ⟨1⟩ =
        some ([⟨1⟩, ⟨2⟩, ⟨3⟩, ⟨4⟩].find? fun id => s'.Carries view id) := by
  have hrun : Fallible.gives (LayoutSource.compile ⟨"relative-layout", [], [⟨"relative-layout", [],
      [⟨"text", [⟨"id", .string "@+id/title"⟩], []⟩]⟩,
      ⟨"text", [⟨"id", .string "title"⟩], []⟩]⟩) ownIds (fun l t' =>
        Fallible.gives (own.inflate l [] none noDataIndex) (.ofIds t') fun root s =>
          Fallible.gives (own.edit ⟨2⟩ "id" (.string "title")) s fun _ s' =>
            (s'.ids.viewId? "title").any fun view =>
              decide (root = ⟨1⟩ ∧
                s'.preorder? ⟨1⟩ = some [(0, ⟨1⟩), (1, ⟨2⟩), (2, ⟨3⟩), (1, ⟨4⟩)] ∧
                s.findView? view ⟨1⟩ = some (some ⟨3⟩) ∧
                s'.findView? view ⟨1⟩ = some (some ⟨2⟩))) = true := by
    decide +kernel
  obtain ⟨l, t', hcompile, hrun⟩ := Fallible.exists_of_gives hrun
  obtain ⟨root, s, hinflate, hrun⟩ := Fallible.exists_of_gives hrun
  obtain ⟨_, s', hedit, hrun⟩ := Fallible.exists_of_gives hrun
  obtain ⟨view, hview, hrun⟩ := (Option.any_eq_true _ _).1 hrun
  obtain ⟨rfl, hpreorder, hfirst, hlater⟩ := of_decide_eq_true hrun
  have hfinite : s'.FiniteFrom ⟨1⟩ :=
    finiteFrom_iff_preorder?.2 (Option.isSome_of_eq_some hpreorder)
  obtain ⟨walk, positions, hwalk, -, -, hfound, -⟩ := findView?_first hfinite view
  obtain rfl := Option.some.inj (hwalk.symm.trans hpreorder)
  exact ⟨l, t', s, s', view, hcompile, hinflate, hedit, hview, hfinite, hpreorder, hfirst, hlater,
    hfound⟩

end LayoutEngine.Session
