import LayoutEngine.Proofs.Shape
import LayoutEngine.Session.Tree
import Mathlib.Data.Finset.Card
import Mathlib.Logic.Relation

/-!
# Walks that end

Descriptions, searches and updates walk from widgets to their children and keep no account of where
they have been. They end from every widget if no widget is below one of its own children
(`Session.Acyclic`), and from one widget if none of those below it is (`Session.FiniteFrom`): such a
widget has fewer widgets at or below each of its children than it has itself (`countBelow_lt`). The
other way round, a walk in preorder that ends shows that there is no such widget on its way
(`finiteFrom_iff_preorder?`, `acyclic_iff_preorder?`), so a walk is given up only where it would not
have ended.
-/

namespace LayoutEngine

namespace Session

variable {s s' : Session} {id child other root : WidgetId}

/-- A widget is another one or somewhere below it. -/
def Below (s : Session) (id top : WidgetId) : Prop :=
  Relation.ReflTransGen (fun holder child => child ∈ s.childrenOf holder) top id

/-- No widget is below one of its own children. -/
def Acyclic (s : Session) : Prop :=
  ∀ id child, child ∈ s.childrenOf id → ¬s.Below id child

/-- The widgets at or below a widget are a finite tree: none of them is below one of its own
children. -/
def FiniteFrom (s : Session) (root : WidgetId) : Prop :=
  ∀ id child, s.Below id root → child ∈ s.childrenOf id → ¬s.Below id child

/-- Where no widget is below itself, all walks come to an end. -/
theorem Acyclic.finiteFrom (h : s.Acyclic) (root : WidgetId) : s.FiniteFrom root :=
  fun id child _ => h id child

/-- Widgets are in order if each comes before its children. -/
theorem acyclic_of_lt {α : Type} [Preorder α] (place : WidgetId → α)
    (h : ∀ id child, child ∈ s.childrenOf id → place child < place id) : s.Acyclic := by
  have hle : ∀ {other top}, s.Below other top → place other ≤ place top := by
    intro other top hbelow
    induction hbelow with
    | refl => exact le_rfl
    | tail _ hchild ih => exact (h _ _ hchild).le.trans ih
  intro id child hchild hbelow
  exact absurd (h id child hchild) (hle hbelow).not_gt

/-- A widget with a child is there. -/
theorem exists_widget_of_child (h : child ∈ s.childrenOf id) : ∃ w, s.widget? id = some w := by
  cases hw : s.widget? id with
  | some w => exact ⟨w, rfl⟩
  | none =>
    rw [childrenOf, hw] at h
    cases h

/-! ## Fewer widgets at every step -/

section Counting

open Classical

/-- How many of some widgets are a widget or somewhere below it. -/
noncomputable def countBelow (s : Session) (ids : List WidgetId) (id : WidgetId) : Nat :=
  (ids.toFinset.filter (s.Below · id)).card

/-- Among some widgets no more are below one than there are. -/
theorem countBelow_le (s : Session) (ids : List WidgetId) (id : WidgetId) :
    s.countBelow ids id ≤ ids.length :=
  (Finset.card_filter_le _ _).trans ids.toFinset_card_le

/-- A widget among them is below itself. -/
theorem countBelow_pos {ids : List WidgetId} (hid : id ∈ ids) : 0 < s.countBelow ids id :=
  Finset.card_pos.2 ⟨id, Finset.mem_filter.2 ⟨List.mem_toFinset.2 hid, .refl⟩⟩

/-- Fewer widgets are at or below a child than at or below the widget whose child it is, if that
widget is not below the child. -/
theorem countBelow_lt (hnot : ¬s.Below id child) (hchild : child ∈ s.childrenOf id)
    {ids : List WidgetId} (hid : id ∈ ids) : s.countBelow ids child < s.countBelow ids id := by
  refine Finset.card_lt_card (Finset.ssubset_iff_of_subset ?_ |>.2 ⟨id, ?_, ?_⟩)
  · intro other hother
    obtain ⟨hmem, hbelow⟩ := Finset.mem_filter.1 hother
    exact Finset.mem_filter.2 ⟨hmem, hbelow.head hchild⟩
  · exact Finset.mem_filter.2 ⟨List.mem_toFinset.2 hid, .refl⟩
  · intro hmem
    exact hnot (Finset.mem_filter.1 hmem).2

end Counting

/-! ## Walks through widgets -/

/-- A list is mapped if each of its items is. -/
theorem isSome_mapM_iff {α β : Type} {f : α → Option β} {l : List α} :
    (l.mapM f).isSome = true ↔ ∀ x ∈ l, (f x).isSome = true := by
  induction l with
  | nil => simp
  | cons x rest ih =>
    rw [List.forall_mem_cons, ← ih, List.mapM_cons]
    cases f x <;> cases rest.mapM f <;> simp

/-- A walk from a widget has a result if it may go on and those from the children have. -/
theorem isSome_preorderWithin_iff {fuel depth : Nat} :
    (s.preorderWithin fuel depth id).isSome = true ↔
      ∃ less, fuel = less + 1 ∧
        ∀ child ∈ s.childrenOf id, (s.preorderWithin less (depth + 1) child).isSome = true := by
  cases fuel with
  | zero => exact ⟨nofun, fun ⟨_, h, _⟩ => by cases h⟩
  | succ fuel =>
    simp only [preorderWithin, Nat.succ.injEq, exists_eq_left', ← isSome_mapM_iff]
    cases (s.childrenOf id).mapM (s.preorderWithin fuel (depth + 1)) <;> simp

/-- The walks in preorder from widgets one after the other. -/
def preorderAll (s : Session) (fuel depth : Nat) (ids : List WidgetId) : List (Nat × WidgetId) :=
  ids.flatMap fun id => (s.preorderWithin fuel depth id).getD []

/-- A walk over several widgets goes below one after the other. -/
theorem preorderAll_cons (s : Session) (fuel depth : Nat) (id : WidgetId) (rest : List WidgetId) :
    s.preorderAll fuel depth (id :: rest) =
      (s.preorderWithin fuel depth id).getD [] ++ s.preorderAll fuel depth rest := rfl

/-- A walk comes by a widget and then goes through its children. -/
theorem preorderWithin_eq {fuel depth : Nat} {top : WidgetId} {walk : List (Nat × WidgetId)}
    (h : s.preorderWithin (fuel + 1) depth top = some walk) :
    walk = (depth, top) :: s.preorderAll fuel (depth + 1) (s.childrenOf top) ∧
      ∀ child ∈ s.childrenOf top,
        ∃ below, s.preorderWithin fuel (depth + 1) child = some below := by
  have hmapM : ∀ {children : List WidgetId} {walks : List (List (Nat × WidgetId))},
      children.mapM (s.preorderWithin fuel (depth + 1)) = some walks →
      walks.flatten = s.preorderAll fuel (depth + 1) children := by
    intro children
    induction children with
    | nil =>
      intro walks hwalks
      cases hwalks
      rfl
    | cons child rest ih =>
      intro walks hwalks
      rw [List.mapM_cons] at hwalks
      obtain ⟨first, hfirst, hwalks⟩ := Option.bind_eq_some_iff.1 hwalks
      obtain ⟨more, hmore, hwalks⟩ := Option.bind_eq_some_iff.1 hwalks
      cases hwalks
      rw [List.flatten_cons, ih hmore, preorderAll, preorderAll, List.flatMap_cons, hfirst]
      rfl
  refine ⟨?_, fun child hchild => ?_⟩
  · obtain ⟨walks, hwalks, hwalk⟩ := Option.bind_eq_some_iff.1 h
    cases hwalk
    rw [hmapM hwalks]
  · obtain ⟨less, hless, hbelow⟩ := isSome_preorderWithin_iff.1 (Option.isSome_of_eq_some h)
    cases hless
    exact Option.isSome_iff_exists.1 (hbelow child hchild)

/-- A walk in preorder comes by the widgets at or below the one where it starts. -/
theorem mem_preorderWithin_iff {fuel depth : Nat} {top id : WidgetId}
    {walk : List (Nat × WidgetId)} (h : s.preorderWithin fuel depth top = some walk) :
    id ∈ walk.map Prod.snd ↔ s.Below id top := by
  induction fuel generalizing depth top walk with
  | zero => cases h
  | succ fuel ih =>
    obtain ⟨rfl, hchildren⟩ := preorderWithin_eq h
    simp only [preorderAll, List.map_cons, List.mem_cons, List.map_flatMap, List.mem_flatMap]
    constructor
    · rintro (rfl | ⟨child, hchild, hmem⟩)
      · exact .refl
      · obtain ⟨below, hbelow⟩ := hchildren child hchild
        rw [hbelow, Option.getD_some] at hmem
        exact ((ih hbelow).1 hmem).head hchild
    · intro hid
      rcases hid.cases_head with rfl | ⟨child, hchild, hid⟩
      · exact .inl rfl
      · obtain ⟨below, hbelow⟩ := hchildren child hchild
        refine .inr ⟨child, hchild, ?_⟩
        rw [hbelow, Option.getD_some]
        exact (ih hbelow).2 hid

/-- A search below several widgets comes to an end if it does below each. -/
theorem isSome_firstFound {search : WidgetId → Option (Option WidgetId)} {children : List WidgetId}
    (h : ∀ child ∈ children, (search child).isSome = true) :
    (firstFound search children).isSome = true := by
  induction children with
  | nil => rfl
  | cons child rest ih =>
    obtain ⟨hchild, hrest⟩ := List.forall_mem_cons.1 h
    rw [firstFound]
    split
    · exact ih hrest
    · exact hchild

/-- The widgets that are there. -/
def present (s : Session) : List WidgetId := (List.range s.widgets.length).map fun n => ⟨n + 1⟩

/-- A widget that has children is there. -/
theorem mem_present_of_child (h : child ∈ s.childrenOf id) : id ∈ s.present := by
  obtain ⟨w, hw⟩ := exists_widget_of_child h
  obtain ⟨n, rfl, hn⟩ := widget?_eq_some_iff.1 hw
  obtain ⟨hlt, -⟩ := List.getElem?_eq_some_iff.1 hn
  exact List.mem_map.2 ⟨n, List.mem_range.2 hlt, rfl⟩

namespace FiniteFrom

/-- Fuel that is more than the widgets at or below a widget is enough for a walk. -/
theorem induction_on_fuel (h : s.FiniteFrom root) {P : Nat → WidgetId → Prop}
    (step : ∀ fuel id, (∀ child ∈ s.childrenOf id, P fuel child) → P (fuel + 1) id) :
    P (s.widgets.length + 1) root := by
  have hall : ∀ fuel id, s.Below id root → s.countBelow s.present id < fuel → P fuel id := by
    intro fuel
    induction fuel with
    | zero => exact fun _ _ hlt => absurd hlt (Nat.not_lt_zero _)
    | succ fuel ih =>
      intro id hid hlt
      refine step fuel id fun child hchild => ih child (hid.tail hchild) ?_
      exact (countBelow_lt (h id child hid hchild) hchild (mem_present_of_child hchild)).trans_le
        (Nat.le_of_lt_succ hlt)
  refine hall _ root .refl (Nat.lt_succ_of_le ((s.countBelow_le s.present root).trans_eq ?_))
  rw [present, List.length_map, List.length_range]

/-- Where walks come to an end, there is one. -/
theorem isSome_preorder? (h : s.FiniteFrom root) : (s.preorder? root).isSome = true := by
  have hall : ∀ depth, (s.preorderWithin (s.widgets.length + 1) depth root).isSome = true := by
    refine h.induction_on_fuel (P := fun fuel id =>
      ∀ depth, (s.preorderWithin fuel depth id).isSome = true) ?_
    intro fuel id ih depth
    exact isSome_preorderWithin_iff.2 ⟨fuel, rfl, fun child hchild => ih child hchild (depth + 1)⟩
  exact hall 0

/-- Describing a widget and those below it comes to an end. -/
theorem isSome_describe? (h : s.FiniteFrom root) : (s.describe? root).isSome = true := by
  obtain ⟨widgets, hwidgets⟩ := Option.isSome_iff_exists.1 h.isSome_preorder?
  rw [describe?, hwidgets]
  rfl

/-- So does searching them. -/
theorem isSome_findView? (h : s.FiniteFrom root) (view : Int) :
    (s.findView? view root).isSome = true := by
  refine h.induction_on_fuel (P := fun fuel id => (s.findViewWithin view fuel id).isSome = true) ?_
  intro fuel id ih
  rw [findViewWithin]
  split
  · rfl
  · exact isSome_firstFound ih

end FiniteFrom

namespace Acyclic

/-- Where no widget is below itself, there is a walk from any widget. -/
theorem isSome_preorder? (h : s.Acyclic) (root : WidgetId) : (s.preorder? root).isSome = true :=
  (h.finiteFrom root).isSome_preorder?

/-- So any widget can be described. -/
theorem isSome_describe? (h : s.Acyclic) (root : WidgetId) : (s.describe? root).isSome = true :=
  (h.finiteFrom root).isSome_describe?

/-- So any widget can be searched below. -/
theorem isSome_findView? (h : s.Acyclic) (view : Int) (root : WidgetId) :
    (s.findView? view root).isSome = true := (h.finiteFrom root).isSome_findView? view

end Acyclic

/-- A walk in preorder comes to an end if and only if the widgets that it comes by are a finite
tree. -/
theorem finiteFrom_iff_preorder? : s.FiniteFrom root ↔ (s.preorder? root).isSome = true := by
  refine ⟨fun h => h.isSome_preorder?, ?_⟩
  intro h id child hroot hchild hbelow
  have hnone : ∀ fuel depth top, s.Below id top →
      (s.preorderWithin fuel depth top).isSome = false := by
    intro fuel
    induction fuel with
    | zero => exact fun _ _ _ => rfl
    | succ fuel ih =>
      intro depth top htop
      obtain ⟨below, hmem, hid⟩ : ∃ below ∈ s.childrenOf top, s.Below id below := by
        rcases htop.cases_head with rfl | ⟨below, hmem, hid⟩
        · exact ⟨child, hchild, hbelow⟩
        · exact ⟨below, hmem, hid⟩
      rw [Bool.eq_false_iff]
      intro hsome
      obtain ⟨less, hless, hbelow⟩ := isSome_preorderWithin_iff.1 hsome
      cases hless
      have hnot := ih (depth + 1) below hid
      rw [hbelow below hmem] at hnot
      cases hnot
  rw [preorder?, hnone _ 0 root hroot] at h
  cases h

/-- Walks in preorder come to an end from every widget if and only if none is below its children. -/
theorem acyclic_iff_preorder? :
    s.Acyclic ↔ ∀ root, (s.preorder? root).isSome = true :=
  ⟨fun h => h.isSome_preorder?,
    fun h id child => finiteFrom_iff_preorder?.2 (h id) id child .refl⟩

end Session

/-! ## Updates -/

namespace Context

open Session

variable {context : Context} {alive : WidgetId → Bool} {data : Fields} {s : Session}

/-- Managers that are updated one after the other come to an end if each does, wherever the session
has got to. -/
theorem sumUpdates_returns {update : ManagerId → Engine Nat}
    (hshape : ∀ mid s, Engine.Leads (SameShape True) (update mid) s fun _ _ => True)
    {children : List WidgetId}
    (hreturns : ∀ child ∈ children, ∀ s' mid, s.SameShape True s' →
      (s.widget? child).bind (·.manager) = some mid → ∃ n, (update mid s').1 = .ok n)
    {s' : Session} (hs' : s.SameShape True s') :
    ∃ n, (sumUpdates update children s').1 = .ok n := by
  induction children generalizing s' with
  | nil => exact ⟨0, rfl⟩
  | cons child rest ih =>
    obtain ⟨hchild, hrest⟩ := List.forall_mem_cons.1 hreturns
    have hadd : ∀ {x : Engine Nat}, (∃ n, (x s').1 = .ok n) →
        Engine.Leads (SameShape True) x s' (fun _ _ => True) →
        ∃ n, ((do
          let accepted ← x
          let more ← sumUpdates update rest
          return accepted + more : Engine Nat) s').1 = .ok n := by
      intro x hx hleads
      refine Engine.returns_bind hx fun n s₁ hfirst => ?_
      have halong := hleads.along
      rw [hfirst] at halong
      exact Engine.returns_bind (ih hrest (hs'.trans halong)) fun more s₂ _ => ⟨n + more, rfl⟩
    rw [sumUpdates, Fallible.bind_run_ok (Engine.look_run _ s')]
    cases hmid : (s'.widget? child).bind (·.manager) with
    | none => exact hadd ⟨0, rfl⟩ (.pure trivial)
    | some mid => exact hadd (hchild s' mid hs' (hs'.manager child ▸ hmid)) (hshape mid s')

variable (howned : ∀ {id w mid}, s.widget? id = some w → w.manager = some mid →
  ∃ m, s.manager? mid = some m ∧ m.widget = id)
include howned

/-- An update comes to an end that has more fuel than there are managers of widgets at or below the
one where it starts. -/
theorem updateWithin_returns (h : s.Acyclic) {fuel : Nat} (hpos : 0 < fuel) {mid : ManagerId}
    (hfuel : ∀ m, s.manager? mid = some m →
      s.countBelow (s.managers.map (·.widget)) m.widget < fuel)
    {s' : Session} (hs' : s.SameShape True s') :
    ∃ n, (context.updateWithinBy context.host alive data fuel mid s').1 = .ok n := by
  induction fuel generalizing mid s' with
  | zero => exact absurd hpos (Nat.lt_irrefl 0)
  | succ fuel ih =>
    have hset := hs'.trans (sameShape_setData mid data s')
    rw [updateWithinBy, Fallible.bind_run_ok (Engine.change_run _ s'),
      Fallible.bind_run_ok (Engine.look_run _ _)]
    cases hm' : (s'.setData mid data).manager? mid with
    | none => exact ⟨0, rfl⟩
    | some m' =>
      dsimp only
      split
      · obtain ⟨own, s₁, hrun, hown⟩ := context.applyBound_shape True m'.parser m'.widget
          m'.layout.attributes (s'.setData mid data)
        have hs₁ := hset.trans hown
        obtain ⟨data', hm⟩ := hset.symm.manager? hm'
        have hmem : m'.widget ∈ s.managers.map (·.widget) :=
          List.mem_map.2 ⟨_, List.mem_of_getElem? hm, rfl⟩
        have hle := Nat.le_of_lt_succ (hfuel _ hm)
        rw [Fallible.bind_run_ok hrun, Fallible.bind_run_ok (Engine.look_run _ s₁)]
        refine Engine.returns_bind (sumUpdates_returns
          (fun mid s => context.updateWithin_shape alive data _ mid s) ?_ hs₁)
          fun more s₂ _ => ⟨own + more, rfl⟩
        intro child hchild s'' mid' hs'' hmid'
        refine ih ((countBelow_pos hmem).trans_le hle) (fun c hc => ?_) hs''
        obtain ⟨w, hw, hmanager⟩ := Option.bind_eq_some_iff.1 hmid'
        obtain ⟨c', hc', hwidget⟩ := howned hw hmanager
        rw [hc] at hc'
        cases hc'
        rw [hs₁.childrenOf] at hchild
        rw [hwidget]
        exact (countBelow_lt (h _ _ hchild) hchild hmem).trans_le hle
      · exact ⟨0, rfl⟩

/-- Every update of a session comes to an end in which no widget is below its children. -/
theorem update_returns_of_acyclic (h : s.Acyclic) (mid : ManagerId) :
    ∃ n, (context.update alive mid data s).1 = .ok n := by
  rw [update, updateBy, Fallible.bind_run_ok (Engine.look_run _ s)]
  refine context.updateWithin_returns howned h (Nat.succ_pos _) ?_ (.refl True s)
  intro m _
  exact Nat.lt_succ_of_le ((s.countBelow_le _ m.widget).trans_eq (List.length_map _))

end Context

end LayoutEngine
