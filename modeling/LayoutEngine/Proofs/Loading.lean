import LayoutEngine.Proofs.Numbering
import LayoutEngine.Proofs.Store

/-!
# Loading layouts

A document of named layouts is loaded as a whole or not at all (`Loader.load_all_or_nothing`). All
its layouts are compiled before the first one is added, so that a failure at any of them comes while
the store is still as it was (`Loader.load_run`); names that have been numbered until then stay
numbered (`LayoutStore.adds_compileText`). Of a name that the document repeats only the last source
is compiled.
-/

namespace LayoutEngine

namespace LayoutStore

/-! ## Adding layouts -/

/-- Of the layouts that are inserted under one name the last one is found, and otherwise what was
there before. -/
theorem get?_insertAll (name : String) (named : List (String × Layout)) (store : LayoutStore) :
    (store.insertAll named).get? name = (Entries.get? name named.reverse).or (store.get? name) := by
  rw [get?, layouts_insertAll, Entries.get?_foldl_put, get?]

/-- Layouts of a document's sources that are added stand under the names of these sources, of a
repeated name the layout of the last one; all other names stand for what they stood for. -/
theorem get?_insertAll_of_rel {R : LayoutSource → Layout → Prop}
    {document : List (String × LayoutSource)} {named : List (String × Layout)}
    (h : Entries.Rel R (Entries.ofList document) named) (store : LayoutStore) :
    (∀ name source, Entries.get? name document.reverse = some source →
      ∃ l, R source l ∧ (store.insertAll named).get? name = some l) ∧
    ∀ name, name ∉ Entries.keys document →
      (store.insertAll named).get? name = store.get? name := by
  have hrel (name : String) : Option.Rel R (Entries.get? name document.reverse)
      (Entries.get? name named.reverse) := by
    have hreverse : Entries.Rel R (Entries.ofList document).reverse named.reverse :=
      List.rel_reverse h
    rw [← Entries.get?_ofList, ← Entries.get?_reverse (Entries.nodup_keys_ofList document)]
    exact hreverse.get? name
  simp only [get?_insertAll]
  refine ⟨fun name source hsource => ?_, fun name hname => ?_⟩
  · have hfound := hrel name
    rw [hsource] at hfound
    generalize Entries.get? name named.reverse = found at hfound ⊢
    cases hfound with
    | some hR => exact ⟨_, hR, rfl⟩
  · have hmissing := hrel name
    rw [← Entries.get?_ofList,
      Entries.get?_eq_none_iff.2 (mt Entries.mem_keys_ofList.1 hname)] at hmissing
    generalize Entries.get? name named.reverse = found at hmissing ⊢
    cases hmissing
    exact Option.none_or

end LayoutStore

namespace Loader

open LayoutStore

/-! ## Loading -/

/-- Adding layouts does not fail; each is told of. -/
theorem addAll_run (named : List (String × Layout)) (w : Loading) :
    addAll named w = (.ok (), ⟨w.store.insertAll named, w.ids,
      w.log ++ named.map fun (name, l) => .layoutLoaded name l.viewType⟩) := by
  induction named generalizing w with
  | nil =>
    rw [List.map_nil, List.append_nil]
    rfl
  | cons p rest ih =>
    refine (ih _).trans ?_
    rw [List.append_assoc]
    rfl

/-- The store and the log change only when all layouts have been compiled. -/
theorem load_run (text : String) (w : Loading) :
    load text w = match compileText text w.ids with
      | (.ok named, ids) => (.ok named.length, ⟨w.store.insertAll named, ids,
          w.log ++ named.map fun (name, l) => .layoutLoaded name l.viewType⟩)
      | (.error e, ids) => (.error e, ⟨w.store, ids, w.log⟩) := by
  unfold load
  rw [Fallible.bind_run, compiling]
  rcases compileText text w.ids with ⟨e | named, ids⟩
  · rfl
  · dsimp only
    rw [Fallible.bind_run, addAll_run]
    rfl

/-- Loading a document is all or nothing, in any store and with any names numbered before. If the
text is a document of named layouts and no node of the last source of any name is refused, then the
number of its names is given, each of them stands for what its last source has been compiled to,
and every other name for what it stood for. Otherwise the first refusal is given, and the store and
the log are what they were. In both cases names have been added to those that have numbers, and
these have kept theirs. -/
theorem load_all_or_nothing (text : String) (w : Loading) :
    ∃ ids, w.ids ≤ ids ∧ (∀ name id, w.ids.get? name = some id → ids.get? name = some id) ∧
      ((∃ document store log, LayoutSource.entriesOfText? text = some document ∧
          refusal? text = none ∧
          load text w = (.ok (Entries.keys document).toFinset.card, ⟨store, ids, log⟩) ∧
          (∀ name source, Entries.get? name document.reverse = some source →
            ∃ l, CompilesWithin w.ids ids source l ∧ store.get? name = some l) ∧
          ∀ name, name ∉ Entries.keys document → store.get? name = w.store.get? name) ∨
        ∃ e, refusal? text = some e ∧ load text w = (.error e, ⟨w.store, ids, w.log⟩)) := by
  have hfails := fails_compileText text
  have hadds := adds_compileText text w.ids
  rcases hrun : compileText text w.ids with ⟨e | named, ids⟩
  all_goals
    rw [hrun] at hadds
    refine ⟨ids, hadds, fun name id => IdTable.get?_mono hadds, ?_⟩
  · refine .inr ⟨e, (hfails.error_iff w.ids e).1 ⟨ids, hrun⟩, ?_⟩
    rw [load_run, hrun]
  · obtain ⟨sources, htext, hall⟩ := exists_of_compileText hrun
    obtain ⟨document, hdocument, rfl⟩ := Option.map_eq_some_iff.1 htext
    have hrel := compilesWithin_of_compileAll hall
    have hload := load_run text w
    rw [hrun] at hload
    dsimp only at hload
    rw [← hrel.length_eq, Entries.length_ofList] at hload
    exact .inl ⟨document, _, _, hdocument, (hfails.ok_iff w.ids).1 ⟨named, ids, hrun⟩, hload,
      get?_insertAll_of_rel hrel w.store⟩

-- The first layout can be compiled and is not added, but the name of its attribute stays numbered.
example : Fallible.failsWith
    (load ("\x7b\"line\": \x7b\"type\": \"text\", \"attributes\": " ++
        "[\x7b\"id\": \"tag\", \"value\": 1\x7d]\x7d, " ++
      "\"rest\": \x7b\"type\": \" \"\x7d\x7d"))
    ⟨.empty, .empty, []⟩
    (fun e w => e = .emptyType && w.store.size = 0 && w.ids.size = 1) = true := by
  decide +kernel

end Loader

end LayoutEngine
