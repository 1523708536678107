import LayoutEngine.Proofs.Request
import LayoutEngine.Proofs.Walk
import Mathlib.Data.Prod.Lex

/-!
# Graded layouts

A parser that gives out one widget again and again can be made to give it out below itself: a layout
of its type within a layout of its type is enough. This cannot happen where the layouts of a session
are graded (`Grading`): a layout is never of a higher level than one it goes right under or is
inflated in place of, and of a lower level if that one's widget is kept. No widget of such a session
is below one of its own children, and so every walk comes to an end (`Context.walks_end`).
-/

namespace LayoutEngine

open Session

/-- The layouts that may go right under the widget of a layout. -/
def Supply.Under (supply : Supply) (l l' : Layout) : Prop := supply.free l' ∨ l' ∈ l.nested

/-- A supply of layouts in levels. A layout that goes right under another one is of no higher level,
and of a lower one if the other's widget is kept; nor is one of a higher level that the host has
inflated in place of another; layouts that share their widget share their level. -/
structure Grading (context : Context) extends Supply where
  covers : toSupply.Covers context
  level : Layout → Nat
  le : ∀ {l l'}, layouts l → toSupply.Under l l' → level l' ≤ level l
  lt : ∀ {l l'}, layouts l → toSupply.Under l l' → (context.registry.place? l).isSome = true →
    level l' < level l
  replaced : ∀ {l l'}, layouts l → context.Replaces l l' → level l' ≤ level l
  shared : ∀ {l l'}, layouts l → layouts l' → context.registry.Shares l l' → level l = level l'

namespace Grading

variable {context : Context} (grading : Grading context)

/-- The rank of a widget: above all that of lower levels, and for one that is kept below the others
of its level. -/
def rank (s : Session) (id : WidgetId) : Nat :=
  match s.managerOf? id with
  | some m => 2 * grading.level m.layout + if m.parser.place? = none then 1 else 0
  | none => 0

/-- What the host has inflated in the end in place of a layout is of no higher level. -/
theorem replaced_all {l l' : Layout} (hl : grading.layouts l)
    (h : Relation.ReflTransGen context.Replaces l l') :
    grading.layouts l' ∧ grading.level l' ≤ grading.level l := by
  induction h with
  | refl => exact ⟨hl, Nat.le_refl _⟩
  | tail _ hreplaces ih =>
    exact ⟨grading.covers.replaced ih.1 hreplaces,
      (grading.replaced ih.1 hreplaces).trans ih.2⟩

/-- Where every parser makes new widgets and the host gives out none that was there before, all
layouts may be of one level. -/
def flat (hnew : context.registry.MakesNew) (hcovers : Supply.all.Covers context) :
    Grading context where
  toSupply := .all
  covers := hcovers
  level _ := 0
  le _ _ := Nat.le_refl 0
  lt {l _} _ _ hkept := by
    obtain ⟨place, hplace⟩ := Option.isSome_iff_exists.1 hkept
    obtain ⟨parser, hget, hown⟩ := Option.bind_eq_some_iff.1 hplace
    rw [hnew _ _ hget] at hown
    cases hown
  replaced _ _ := Nat.le_refl 0
  shared _ _ _ := rfl

end Grading

namespace Manager

/-- What a widget takes goes right under a layout that may share the widget. -/
theorem Takes.exists_under {context : Context} {supply : Supply} {m : Manager} {l : Layout}
    (h : m.Takes context supply l) (hm : supply.layouts m.layout) :
    ∃ l₀, supply.layouts l₀ ∧ context.registry.Shares m.layout l₀ ∧ supply.Under l₀ l := by
  rcases h with hfree | ⟨l₀, hl₀, hshares, hmem⟩
  · exact ⟨m.layout, hm, .inl rfl, .inl hfree⟩
  · exact ⟨l₀, hl₀, hshares, .inr hmem⟩

end Manager

namespace Session

variable {context : Context} {grading : Grading context} {s : Session} {id child : WidgetId}

/-- What a widget adopts is of lower rank, or of the same one and newer. -/
theorem Tracked.rank_of_adopts (ht : s.Tracked context grading.toSupply)
    (h : s.Adopts context grading.toSupply id child) :
    grading.rank s child < grading.rank s id ∨
      grading.rank s child = grading.rank s id ∧ id.number < child.number := by
  obtain ⟨m, l, hm, htakes, hbecomes⟩ := h
  have hlayout := (ht.parserOf hm).2 grading.covers
  obtain ⟨l₀, hl₀, hshares, hunder⟩ := htakes.exists_under hlayout
  have hlevel := grading.shared hlayout hl₀ hshares
  have hle := grading.le hl₀ hunder
  have hlt : m.parser.place? ≠ none → grading.level l < grading.level l₀ := by
    intro hkept
    refine grading.lt hl₀ hunder ?_
    rw [← ht.place?_layout hm] at hkept
    rcases hshares with heq | ⟨place, -, hplace⟩
    · exact heq ▸ Option.isSome_iff_ne_none.2 hkept
    · rw [hplace]
      rfl
  unfold Grading.rank
  rw [hm]
  cases hbecomes with
  | bare _ hw hmid hnumber =>
    have hnone : s.managerOf? child = none := by
      rw [managerOf?, hw, Option.bind_eq_bind, Option.bind_some, hmid]
      rfl
    rw [hnone]
    dsimp only
    omega
  | @managed c hc hcomes hnewer =>
    obtain ⟨l', hchain, hsame⟩ := hcomes.shares
    obtain ⟨hl', hchain⟩ := grading.replaced_all htakes.layouts hchain
    have hbelow := grading.shared ((ht.parserOf hc).2 grading.covers) hl' hsame
    rw [hc]
    dsimp only
    -- A new child is newer than what adopts it. One that is kept may be older, but ranks lower.
    split
    · next hfresh =>
      have hnumber := hnewer ⟨c, hc, hfresh⟩
      split
      · omega
      · next hkept =>
        have hless := hlt hkept
        omega
    · split
      · omega
      · next hkept =>
        have hless := hlt hkept
        omega

/-- By the grades no widget is below itself. -/
theorem Tracked.acyclic (ht : s.Tracked context grading.toSupply) : s.Acyclic := by
  refine acyclic_of_lt
    (fun id => toLex (grading.rank s id, OrderDual.toDual id.number)) fun id child hchild => ?_
  rw [Prod.Lex.toLex_lt_toLex]
  exact ht.rank_of_adopts ((ht.woven grading.covers id).adopts child hchild)

end Session

namespace Context

/-- Where every parser makes new widgets and the host gives out none that was there before, no
widget is below one of its own children, however layouts are nested. -/
theorem acyclic_of_makesNew {context : Context} {s : Session}
    (hserved : context.Served .all s) (hnew : context.registry.MakesNew)
    (hcovers : Supply.all.Covers context) : s.Acyclic := by
  have ht : s.Tracked context (Grading.flat hnew hcovers).toSupply := hserved.tracked
  exact ht.acyclic

/-- Where layouts are graded, no widget is below one of its own children, after whatever requests.
So descriptions, searches and updates come to an end wherever they start. -/
theorem walks_end {context : Context} {grading : Grading context} {s : Session}
    (hserved : context.Served grading.toSupply s) :
    s.Acyclic ∧
    (∀ root, (s.describe? root).isSome = true) ∧
    (∀ view root, (s.findView? view root).isSome = true) ∧
    ∀ alive mid data, ∃ n, (context.update alive mid data s).1 = .ok n := by
  have ht := hserved.tracked
  have hacyclic := ht.acyclic
  exact ⟨hacyclic, hacyclic.isSome_describe?, hacyclic.isSome_findView?, fun alive mid data =>
    update_returns_of_acyclic ht.owned hacyclic mid⟩

/-- A text without attributes. -/
def plainText : Layout := ⟨"text", [], none⟩

/-- A reused container with such a text, as its handler numbers children. -/
def reusedPanel : Layout := ⟨"reused", [⟨23, .array [.layout plainText]⟩], none⟩

/-- The container and its text, which may go anywhere. -/
def reusedSupply : Supply where
  layouts l := l = reusedPanel ∨ l = plainText
  free l := l = plainText
  closed := by
    rintro l (rfl | rfl) l' hl'
    · exact .inr (List.mem_singleton.1 hl')
    · cases hl'
  layouts_of_free := .inr

/-- Nothing stands in the reused panel but the plain text. -/
theorem eq_plainText_of_under {l l' : Layout} (hl : reusedSupply.layouts l)
    (h : reusedSupply.Under l l') : l' = plainText := by
  rcases h with rfl | hmem
  · rfl
  · rcases hl with rfl | rfl
    · exact List.mem_singleton.1 hmem
    · cases hmem

/-- Only the container is kept. -/
theorem place?_plainText : reusing.registry.place? plainText = none := by decide +kernel

/-- The container is of a higher level than its text. -/
def reusedGrading : Grading reusing where
  toSupply := reusedSupply
  covers := reusedSupply.covers_of_no_fallback rfl
  level l := if l.viewType = "reused" then 1 else 0
  le hl hunder := by
    rw [eq_plainText_of_under hl hunder]
    exact Nat.zero_le _
  lt {l l'} hl hunder hkept := by
    rw [eq_plainText_of_under hl hunder]
    rcases hl with rfl | rfl
    · exact Nat.zero_lt_one
    · rw [place?_plainText] at hkept
      cases hkept
  replaced _ hreplaces := by
    obtain ⟨answer, name, hanswer, -⟩ := hreplaces
    cases hanswer
  shared {l l'} hl hl' hshares := by
    rcases hshares with rfl | ⟨place, hplace, hplace'⟩
    · rfl
    · rcases hl with rfl | rfl
      · rcases hl' with rfl | rfl
        · rfl
        · rw [place?_plainText] at hplace'
          cases hplace'
      · rw [place?_plainText] at hplace
        cases hplace

/-- The container is inflated a second time, as if under its own child. Walks from it still come to
an end. -/
theorem walks_end_reusedPanel :
    ∃ s₁ s₂,
      reusing.inflate reusedPanel [] none noDataIndex (.ofIds ownIds) = (.ok ⟨1⟩, s₁) ∧
      reusing.inflate reusedPanel formData (some ⟨2⟩) 3 s₁ = (.ok ⟨1⟩, s₂) ∧
      s₁.childrenOf ⟨1⟩ = [⟨2⟩] ∧ s₂.childrenOf ⟨1⟩ = [⟨3⟩] ∧ s₂.Acyclic ∧
      (s₂.describe? ⟨1⟩).isSome = true ∧
      ∃ n, (reusing.update (s₂.living [⟨1⟩]).contains ⟨0⟩ laterData s₂).1 = .ok n := by
  have hrun : Fallible.gives (reusing.inflate reusedPanel [] none noDataIndex) (.ofIds ownIds)
      (fun root s₁ =>
        Fallible.gives (reusing.inflate reusedPanel formData (some ⟨2⟩) 3) s₁ fun again s₂ =>
        decide (root = ⟨1⟩ ∧ again = ⟨1⟩ ∧ s₁.childrenOf ⟨1⟩ = [⟨2⟩] ∧
          s₂.childrenOf ⟨1⟩ = [⟨3⟩])) = true := by
    decide +kernel
  obtain ⟨root, s₁, hfirst, hrun⟩ := Fallible.exists_of_gives hrun
  obtain ⟨again, s₂, hagain, hrun⟩ := Fallible.exists_of_gives hrun
  obtain ⟨rfl, rfl, hchildren₁, hchildren₂⟩ := of_decide_eq_true hrun
  have hserved : reusing.Served reusedGrading.toSupply s₂ :=
    ((Served.ofIds reusing reusedGrading.toSupply ownIds).inflate (.inl rfl) hfirst).inflate
      (.inl rfl) hagain
  obtain ⟨hacyclic, hdescribe, -, hupdate⟩ := walks_end hserved
  exact ⟨s₁, s₂, hfirst, hagain, hchildren₁, hchildren₂, hacyclic, hdescribe ⟨1⟩,
    hupdate _ ⟨0⟩ laterData⟩

/-- A reused container within a reused container is its own child. Neither a description nor a
search nor an update of it comes to an end. -/
theorem reused_below_itself :
    ∃ l t' s,
      LayoutSource.compile ⟨"reused", [], [⟨"reused", [], []⟩]⟩ ownIds = (.ok l, t') ∧
      reusing.inflate l [] none noDataIndex (.ofIds t') = (.ok ⟨1⟩, s) ∧
      reusing.Served .all s ∧ s.childrenOf ⟨1⟩ = [⟨1⟩] ∧ ¬s.Acyclic ∧
      s.describe? ⟨1⟩ = none ∧ s.findView? 7 ⟨1⟩ = none ∧
      (reusing.update (s.living [⟨1⟩]).contains ⟨0⟩ laterData s).1 = .error .endless := by
  have hrun : Fallible.gives (LayoutSource.compile ⟨"reused", [], [⟨"reused", [], []⟩]⟩) ownIds
      (fun l t' => Fallible.gives (reusing.inflate l [] none noDataIndex) (.ofIds t') fun root s =>
        Fallible.failsWith (reusing.update (s.living [⟨1⟩]).contains ⟨0⟩ laterData) s fun e _ =>
          decide (root = ⟨1⟩ ∧ s.childrenOf ⟨1⟩ = [⟨1⟩] ∧ s.describe? ⟨1⟩ = none ∧
            s.findView? 7 ⟨1⟩ = none ∧ e = .endless)) = true := by
    decide +kernel
  obtain ⟨l, t', hcompile, hrun⟩ := Fallible.exists_of_gives hrun
  obtain ⟨root, s, hinflate, hrun⟩ := Fallible.exists_of_gives hrun
  obtain ⟨e, s', hupdate, hrun⟩ := Fallible.exists_of_failsWith hrun
  obtain ⟨rfl, hchildren, hdescribe, hfind, rfl⟩ := of_decide_eq_true hrun
  have hserved : reusing.Served .all s := (Served.ofIds reusing .all t').inflate trivial hinflate
  have hcyclic : ¬s.Acyclic := fun hacyclic =>
    hacyclic ⟨1⟩ ⟨1⟩ (hchildren ▸ List.mem_singleton_self _) .refl
  exact ⟨l, t', s, hcompile, hinflate, hserved, hchildren, hcyclic, hdescribe, hfind,
    congrArg Prod.fst hupdate⟩

end Context

end LayoutEngine
