import LayoutEngine.Layout.Store
import LayoutEngine.Proofs.Faithful

/-!
# Compiled documents

A document that is compiled gives each of its names the layout that the name's source is compiled to
(`LayoutStore.rel_get?_of_compileAll`). Whether it can be compiled, and why it cannot, does not
depend on the numbers of names (`LayoutStore.fails_compileText`). In either case names are only
added (`LayoutStore.adds_compileText`).
-/

namespace LayoutEngine

namespace Entries

variable {α β γ : Type} [DecidableEq α] {R : β → γ → Prop}

/-- Two tables have the same keys in the same order, and related values under them. -/
def Rel (R : β → γ → Prop) : List (α × β) → List (α × γ) → Prop :=
  List.Forall₂ fun p q => p.1 = q.1 ∧ R p.2 q.2

/-- Entries that are related have related values under the same key. -/
theorem Rel.get? {entries : List (α × β)} {entries' : List (α × γ)} (h : Rel R entries entries')
    (key : α) : Option.Rel R (Entries.get? key entries) (Entries.get? key entries') := by
  induction h with
  | nil => exact .none
  | @cons p q rest rest' hpq _ ih =>
    obtain ⟨k, v⟩ := p
    obtain ⟨k', v'⟩ := q
    obtain ⟨rfl, hv⟩ := hpq
    by_cases hk : k = key
    · simp only [Entries.get?, if_pos hk]
      exact .some hv
    · simp only [Entries.get?, if_neg hk]
      exact ih

/-- They stay related when related values are put under the same key. -/
theorem Rel.put {entries : List (α × β)} {entries' : List (α × γ)} (h : Rel R entries entries')
    (key : α) {v : β} {v' : γ} (hv : R v v') :
    Rel R (Entries.put key v entries) (Entries.put key v' entries') := by
  induction h with
  | nil => exact .cons ⟨rfl, hv⟩ .nil
  | @cons p q rest rest' hpq hrest ih =>
    obtain ⟨k, u⟩ := p
    obtain ⟨k', u'⟩ := q
    obtain ⟨rfl, hu⟩ := hpq
    by_cases hk : k = key
    · simp only [Entries.put, if_pos hk]
      exact .cons ⟨rfl, hv⟩ hrest
    · simp only [Entries.put, if_neg hk]
      exact .cons ⟨rfl, hu⟩ ih

/-- Pairs put into tables one by one leave them related. -/
theorem Rel.ofList {pairs : List (α × β)} {pairs' : List (α × γ)} (h : Rel R pairs pairs') :
    Rel R (Entries.ofList pairs) (Entries.ofList pairs') := by
  have hfold : ∀ {entries : List (α × β)} {entries' : List (α × γ)}, Rel R entries entries' →
      Rel R (pairs.foldl (fun entries pair => Entries.put pair.1 pair.2 entries) entries)
        (pairs'.foldl (fun entries pair => Entries.put pair.1 pair.2 entries) entries') := by
    induction h with
    | nil => exact fun hentries => hentries
    | @cons p q rest rest' hpq _ ih =>
      intro entries entries' hentries
      obtain ⟨k, v⟩ := p
      obtain ⟨k', v'⟩ := q
      obtain ⟨rfl, hv⟩ := hpq
      exact ih (hentries.put k hv)
  exact hfold .nil

end Entries

namespace LayoutStore

open Compiler LayoutSource

/-- Layouts are inserted one after the other. -/
theorem layouts_insertAll (named : List (String × Layout)) (store : LayoutStore) :
    (store.insertAll named).layouts =
      named.foldl (fun entries pair => Entries.put pair.1 pair.2 entries) store.layouts := by
  induction named generalizing store with
  | nil => rfl
  | cons p rest ih => exact ih (store.insert p.1 p.2)

/-- Once all names have numbers, sources are compiled as before. -/
theorem stable_compileAll (sources : List (String × LayoutSource)) :
    (compileAll sources).Stable := by
  induction sources with
  | nil => exact stable_pure []
  | cons p rest ih =>
    exact (stable_compile p.2).bind fun _ => ih.bind fun _ => stable_pure _

/-- The first source that is refused says why all of them are. -/
theorem fails_compileAll (sources : List (String × LayoutSource)) :
    (compileAll sources).Fails
      (sources.findSome? fun p => p.2.preorder.findSome? offence?) := by
  induction sources with
  | nil => exact fails_pure []
  | cons p rest ih =>
    have h : (compileAll (p :: rest)).Fails _ :=
      (fails_compile p.2).bind fun _ => ih.bind fun _ => fails_pure _
    rw [Option.or_none] at h
    rw [List.findSome?_cons]
    cases hp : p.2.preorder.findSome? offence? with
    | none => rwa [hp, Option.none_or] at h
    | some e => rwa [hp, Option.some_or] at h

/-- Why a document of named layouts cannot be loaded, if it cannot: it is no such document, or there
is a node that is refused in the last source of a name. -/
def refusal? (text : String) : Option LayoutError :=
  match namedOfText? text with
  | none => some .invalidJson
  | some sources => sources.findSome? fun p => p.2.preorder.findSome? offence?

/-- A document of layouts fails to load for what is wrong with it. -/
theorem fails_compileText (text : String) : (compileText text).Fails (refusal? text) := by
  unfold compileText refusal?
  cases namedOfText? text with
  | none => exact fails_throw .invalidJson
  | some sources => exact fails_compileAll sources

/-- Whether a document can be loaded, and why it cannot, does not depend on the numbers of names. -/
theorem exists_fails_compileText (text : String) :
    ∃ reason, (compileText text).Fails reason := ⟨_, fails_compileText text⟩

/-- Compiling sources only adds names. -/
theorem adds_compileAll (sources : List (String × LayoutSource)) : (compileAll sources).Adds := by
  induction sources with
  | nil => exact composes_adds.pure []
  | cons p rest ih =>
    exact (adds_compile p.2).bind fun _ => ih.bind fun _ => composes_adds.pure _

/-- Compiling a document only adds names, also if it fails. -/
theorem adds_compileText (text : String) : (compileText text).Adds := by
  unfold compileText
  cases namedOfText? text with
  | none => exact composes_adds.throw .invalidJson
  | some sources => exact adds_compileAll sources

/-- Loading a document compiles the sources that it names. -/
theorem exists_of_compileText {text : String} {t t' : IdTable} {named : List (String × Layout)}
    (h : compileText text t = (.ok named, t')) :
    ∃ sources, LayoutSource.namedOfText? text = some sources ∧
      compileAll sources t = (.ok named, t') := by
  unfold compileText at h
  cases htext : LayoutSource.namedOfText? text with
  | none =>
    rw [htext] at h
    cases h
  | some sources =>
    rw [htext] at h
    exact ⟨sources, rfl, h⟩

/-- Loading a document only adds names. -/
theorem le_of_compileText {text : String} {t t' : IdTable} {named : List (String × Layout)}
    (h : compileText text t = (.ok named, t')) : t ≤ t' := by
  have hle := adds_compileText text t
  rwa [h] at hle

/-- A source is compiled to a layout on the way from one table of names to another. -/
def CompilesWithin (t t' : IdTable) (source : LayoutSource) (l : Layout) : Prop :=
  ∃ u u', t ≤ u ∧ source.compile u = (.ok l, u') ∧ u' ≤ t'

/-- Sources that are compiled one after the other are compiled each on the way. -/
theorem compilesWithin_of_compileAll {sources : List (String × LayoutSource)} {t t' : IdTable}
    {named : List (String × Layout)} (h : compileAll sources t = (.ok named, t')) :
    Entries.Rel (CompilesWithin t t') sources named := by
  induction sources generalizing t named with
  | nil =>
    cases h
    exact .nil
  | cons p rest ih =>
    obtain ⟨l, u, hl, h⟩ := Fallible.exists_of_bind_run_ok h
    obtain ⟨more, u', hmore, h⟩ := Fallible.exists_of_bind_run_ok h
    cases h
    have hu : t ≤ u := (stable_compile p.2 hl).1
    have hu' : u ≤ t' := (stable_compileAll rest hmore).1
    refine .cons ⟨rfl, t, u, le_refl t, hl, hu'⟩ ((ih hmore).imp fun q r hqr => ?_)
    obtain ⟨hname, v, v', hv, hrun, hv'⟩ := hqr
    exact ⟨hname, v, v', hu.trans hv, hrun, hv'⟩

/-- The store of named sources that have been compiled has, under each name, what the name's source
is compiled to in every later table. -/
theorem rel_get?_of_compileAll {sources : List (String × LayoutSource)} {t t' u : IdTable}
    {named : List (String × Layout)} (h : compileAll sources t = (.ok named, t')) (hu : t' ≤ u)
    (name : String) :
    Option.Rel (fun source l => LayoutSource.compile source u = (.ok l, u))
      (Entries.get? name (Entries.ofList sources)) ((empty.insertAll named).get? name) := by
  have hrel : Entries.Rel (fun source l => source.compile u = (.ok l, u)) sources named := by
    refine (compilesWithin_of_compileAll h).imp fun p q hpq => ?_
    obtain ⟨hname, v, v', -, hrun, hv'⟩ := hpq
    exact ⟨hname, compile_of_le hrun (hv'.trans hu)⟩
  rw [LayoutStore.get?, layouts_insertAll]
  exact hrel.ofList.get? name

end LayoutStore

end LayoutEngine
