import LayoutEngine.Proofs.Alike
import LayoutEngine.Proofs.Forecast
import LayoutEngine.Proofs.Store

/-!
# Inflation depends on names, not on their numbers

Two sessions may number names in different orders: because a document was loaded before the parsers
were registered in one and after it in the other, or because of anything that has been numbered
before. Loading one document in both and inflating one of its layouts comes to the same
(`Context.inflateNamed_parallel`): both fail in the same way or neither does, attributes are
accepted in one as in the other, the trees are the same widget by widget, and where the widgets are
numbered alike the descriptions of the trees are one text (`Engine.Parallel`).
-/

namespace LayoutEngine

open Session

/-! ## Descriptions -/

/-- The same views are described in the same way. -/
theorem SameView.describeView_eq {t u : IdTable} {a b : Int} (h : SameView t u a b) :
    t.describeView a = u.describeView b := by
  obtain ⟨name, ha, hb⟩ := h
  rw [IdTable.describeView, IdTable.describeView, ha, hb]
  rfl

namespace Session

variable {s s' : Session} {data : Fields} {index : Int}

/-- A node that stands in two sessions with one look has one description. -/
theorem describeLine_eq_of_stands {node : Node} {look : Kind → Look}
    (h : node.Stands s data index look) (h' : node.Stands s' data index look) (depth : Nat) :
    s.describeLine depth node.id = s'.describeLine depth node.id := by
  obtain ⟨k, mid, l, parser, w, h⟩ := h
  obtain ⟨k', mid', l', parser', w', h'⟩ := h'
  obtain rfl : k = k' := Option.some.inj (h.type.symm.trans h'.type)
  have hitem := h.managed.shows.item_eq h'.managed.shows
  have hview := h.managed.shows.view_alike h'.managed.shows
  have hname : (w.view.id.map fun id => "id=" ++ s.ids.describeView id) =
      w'.view.id.map fun id => "id=" ++ s'.ids.describeView id := by
    have hid := hview.id
    generalize w.view.id = a at hid ⊢
    generalize w'.view.id = b at hid ⊢
    cases hid with
    | none => rfl
    | some hsame => rw [Option.map_some, Option.map_some, hsame.describeView_eq]
  have hmanager : w.manager.bind s.manager? =
      some ⟨node.id, l, parser, node.parent, index, data⟩ := by
    rw [h.managed.manager]
    exact h.managed.managed
  have hmanager' : w'.manager.bind s'.manager? =
      some ⟨node.id, l', parser', node.parent, index, data⟩ := by
    rw [h'.managed.manager]
    exact h'.managed.managed
  have hparts : s.descriptionParts node.id w = s'.descriptionParts node.id w' := by
    rw [descriptionParts, descriptionParts, hname, hmanager, hmanager', hitem, hview.visibility]
  rw [describeLine, describeLine, h.managed.widget, h'.managed.widget]
  dsimp only
  rw [hparts]

/-- Where the nodes of a source stand in two sessions with the looks of the same data, their tree
has one description. -/
theorem describe?_eq_of_stands {source : LayoutSource} {parent : Option WidgetId} {n : Nat}
    (hlength : s.widgets.length = s'.widgets.length) (hextent : source.extent ≤ s.widgets.length)
    (h : ∀ node ∈ source.nodes parent n, node.Stands s data index (node.look data index))
    (h' : ∀ node ∈ source.nodes parent n, node.Stands s' data index (node.look data index)) :
    ∃ text, s.describe? ⟨n⟩ = some text ∧ s'.describe? ⟨n⟩ = some text := by
  obtain ⟨walk, hids, hwalk⟩ := exists_walk parent n 0 (Nat.le_succ_of_le hextent)
  have hrun : s.preorder? ⟨n⟩ = some walk := hwalk s fun node hnode => (h node hnode).childrenOf
  have hrun' : s'.preorder? ⟨n⟩ = some walk := by
    rw [preorder?, ← hlength]
    exact hwalk s' fun node hnode => (h' node hnode).childrenOf
  have hlines : (walk.map fun line => s.describeLine line.1 line.2) =
      walk.map fun line => s'.describeLine line.1 line.2 := by
    refine List.map_congr_left ?_
    rintro ⟨depth, id⟩ hmem
    have hid : id ∈ walk.map (·.2) := List.mem_map_of_mem hmem
    rw [hids] at hid
    obtain ⟨node, hnode, rfl⟩ := List.mem_map.1 hid
    exact describeLine_eq_of_stands (h node hnode) (h' node hnode) depth
  refine ⟨String.join (walk.map fun line => s.describeLine line.1 line.2), ?_, ?_⟩
  · rw [describe?, hrun]
    rfl
  · rw [describe?, hrun', hlines]
    rfl

end Session

/-! ## Two inflations -/

/-- Two inflations, each in a session of its own, come to the same but for the numbers of names and
of widgets: whether they fail, and why; how each attribute has fared, as far as it is told; the
trees; and, if the widgets are numbered alike, the descriptions of the trees. -/
structure Engine.Parallel (x y : Engine WidgetId) (verbose verbose' : Bool) (s t : Session) :
    Prop where
  failure? : x.failure? s = y.failure? t
  outcomes : ∃ told : List Outcome,
    (verbose = true → s.Tells (told.map (·.after s.widgets.length)) (x s).2) ∧
    (verbose' = true → t.Tells (told.map (·.after t.widgets.length)) (y t).2)
  trees : ∀ {a b : WidgetId} {s' t' : Session}, x s = (.ok a, s') → y t = (.ok b, t') →
    s'.Alike t' none none a b ∧
    (s.widgets.length = t.widgets.length →
      a = b ∧ ∃ text, s'.describe? a = some text ∧ t'.describe? b = some text)

namespace Context

variable {context context' : Context} {s s' : Session}

/-- What one source is compiled to in two sessions inflates in parallel. -/
theorem inflate_parallel (hcontext : context.HasOwnParsers s.ids)
    (hcontext' : context'.HasOwnParsers s'.ids) {source : LayoutSource} {l l' : Layout}
    (hcompiled : source.compile s.ids = (.ok l, s.ids))
    (hcompiled' : source.compile s'.ids = (.ok l', s'.ids)) (data : Fields) (index : Int) :
    (context.inflate l data none index).Parallel (context'.inflate l' data none index)
      context.verbose context'.verbose s s' := by
  have hmeets := inflate_meets hcontext hcompiled data none index
  have hmeets' := inflate_meets hcontext' hcompiled' data none index
  refine ⟨hmeets.failure?.trans hmeets'.failure?.symm, ⟨_, hmeets.tells, hmeets'.tells⟩, ?_⟩
  intro a b s₁ s₁' hrun hrun'
  obtain ⟨-, rfl, hbuilt⟩ := built_of_inflate hcontext hcompiled hrun
  obtain ⟨-, rfl, hbuilt'⟩ := built_of_inflate hcontext' hcompiled' hrun'
  refine ⟨alike_of_stands hbuilt.stands hbuilt'.stands rfl, ?_⟩
  intro hlength
  have hextent : source.extent ≤ s₁.widgets.length := by
    rw [hbuilt.length, LayoutSource.length_nodes]
    exact Nat.le_add_left ..
  have hlength₁ : s₁.widgets.length = s₁'.widgets.length := by
    rw [hbuilt.length, hbuilt'.length, hlength]
  have hstands := hbuilt'.stands
  rw [← hlength] at hstands ⊢
  exact ⟨rfl, describe?_eq_of_stands hlength₁ hextent hbuilt.stands hstands⟩

/-- The engine's own parsers are there, and the layouts of a document that had been loaded when at
most the names of a table had numbers. -/
structure HasLoaded (context : Context) (named : List (String × Layout)) (t : IdTable)
    (s : Session) : Prop where
  own : context.HasOwnParsers s.ids
  layouts : context.layouts = LayoutStore.empty.insertAll named
  ids : t ≤ s.ids

/-- What has been loaded from a document, beside the engine's own parsers. -/
def loaded (registry : Registry) (named : List (String × Layout)) (verbose : Bool) : Context :=
  ⟨registry, LayoutStore.empty.insertAll named, none, verbose⟩

section

variable {registry : Registry} {t u u' : IdTable} {named : List (String × Layout)}

/-- The document may be loaded before the parsers are registered. -/
theorem hasLoaded_before (hregister : Registry.withBuiltins t = (registry, u)) (verbose : Bool) :
    (loaded registry named verbose).HasLoaded named t (.ofIds u) := by
  have hregistry := congrArg Prod.fst hregister
  have hids := congrArg Prod.snd hregister
  exact ⟨⟨⟨t, hregistry.symm, hids.le⟩, rfl⟩, rfl, (Registry.le_withBuiltins t).trans hids.le⟩

/-- The document may be loaded after the parsers have been registered. -/
theorem hasLoaded_after (hregister : Registry.withBuiltins t = (registry, u)) {text : String}
    (hload : LayoutStore.compileText text u = (.ok named, u')) (verbose : Bool) :
    (loaded registry named verbose).HasLoaded named u' (.ofIds u') := by
  have hregistry := congrArg Prod.fst hregister
  have hids := congrArg Prod.snd hregister
  exact ⟨⟨⟨t, hregistry.symm, hids.le.trans (LayoutStore.le_of_compileText hload)⟩, rfl⟩, rfl,
    le_refl u'⟩

end

/-- Whichever names have numbers, a document can be loaded or not in the same way; and if it is, a
layout of it inflates in parallel in any two sessions with the engine's own parsers. -/
theorem inflateNamed_parallel (text : String) (t u : IdTable) :
    (∃ e t' u', LayoutStore.compileText text t = (.error e, t') ∧
      LayoutStore.compileText text u = (.error e, u')) ∨
    ∃ named t' named' u', LayoutStore.compileText text t = (.ok named, t') ∧
      LayoutStore.compileText text u = (.ok named', u') ∧
      ∀ {context context' : Context} {s s' : Session}, context.HasLoaded named t' s →
        context'.HasLoaded named' u' s' → ∀ (name : String) (data : Fields) (index : Int),
        (context.inflateNamed name data none index).Parallel
          (context'.inflateNamed name data none index) context.verbose context'.verbose s s' := by
  obtain ⟨reason, hfails⟩ := LayoutStore.exists_fails_compileText text
  rcases hfails.run t u with hfailed | ⟨named, t', named', u', hload, hload'⟩
  · exact .inl hfailed
  refine .inr ⟨named, t', named', u', hload, hload', ?_⟩
  intro context context' s s' hcontext hcontext' name data index
  obtain ⟨sources, htext, hall⟩ := LayoutStore.exists_of_compileText hload
  obtain ⟨sources', htext', hall'⟩ := LayoutStore.exists_of_compileText hload'
  obtain rfl : sources = sources' := Option.some.inj (htext.symm.trans htext')
  have hget := LayoutStore.rel_get?_of_compileAll hall hcontext.ids name
  have hget' := LayoutStore.rel_get?_of_compileAll hall' hcontext'.ids name
  rw [← hcontext.layouts] at hget
  rw [← hcontext'.layouts] at hget'
  rw [inflateNamed_eq, inflateNamed_eq]
  generalize Entries.get? name (Entries.ofList sources) = source? at hget hget'
  generalize context.layouts.get? name = l? at hget ⊢
  generalize context'.layouts.get? name = l'? at hget' ⊢
  cases hget with
  | none =>
    cases hget'
    exact ⟨rfl, ⟨[], fun _ => .refl s, fun _ => .refl s'⟩, fun hrun => by cases hrun⟩
  | some hcompiled =>
    cases hget' with
    | some hcompiled' =>
      exact inflate_parallel hcontext.own hcontext'.own hcompiled hcompiled' data index

/-- A form with a title and a view below it. -/
def titleDocument : String :=
  "\x7b\"form\": \x7b\"type\": \"relative-layout\", \"children\": [" ++
    "\x7b\"type\": \"text\", \"attributes\": [\x7b\"id\": \"id\", \"value\": \"title\"\x7d, " ++
      "\x7b\"id\": \"text\", \"value\": \"@\x7btitle\x7d\"\x7d]\x7d, " ++
    "\x7b\"type\": \"view\", \"attributes\": [" ++
      "\x7b\"id\": \"layout_below\", \"value\": \"title\"\x7d]\x7d]\x7d\x7d"

/-- The form is the same whether its document has been loaded before the parsers were registered or
after that. -/
theorem inflateNamed_parallel_titleDocument :
    ∃ named t registry u named' u' s s' text,
      LayoutStore.compileText titleDocument .empty = (.ok named, t) ∧
      Registry.withBuiltins t = (registry, u) ∧
      LayoutStore.compileText titleDocument ownIds = (.ok named', u') ∧
      (loaded registry named true).inflateNamed "form" [("title", .string "Hi")] none 3
        (.ofIds u) = (.ok ⟨1⟩, s) ∧
      (loaded own.registry named' true).inflateNamed "form" [("title", .string "Hi")] none 3
        (.ofIds u') = (.ok ⟨1⟩, s') ∧
      s.Alike s' none none ⟨1⟩ ⟨1⟩ ∧
      s.describe? ⟨1⟩ = some text ∧ s'.describe? ⟨1⟩ = some text := by
  have hrun : Fallible.gives (LayoutStore.compileText titleDocument) .empty (fun named t =>
      Fallible.gives (LayoutStore.compileText titleDocument) ownIds fun named' u' =>
        Fallible.gives ((loaded (Registry.withBuiltins t).1 named true).inflateNamed "form"
            [("title", .string "Hi")] none 3) (.ofIds (Registry.withBuiltins t).2) fun root _ =>
          Fallible.gives ((loaded own.registry named' true).inflateNamed "form"
              [("title", .string "Hi")] none 3) (.ofIds u') fun root' _ =>
            decide (root = ⟨1⟩ ∧ root' = ⟨1⟩)) = true := by
    decide +kernel
  obtain ⟨named, t, hload, hrun⟩ := Fallible.exists_of_gives hrun
  obtain ⟨named', u', hload', hrun⟩ := Fallible.exists_of_gives hrun
  have hown : Registry.withBuiltins .empty = (own.registry, ownIds) := Prod.mk.eta.symm
  rcases hregister : Registry.withBuiltins t with ⟨registry, u⟩
  rw [hregister] at hrun
  obtain ⟨root, s, hinflate, hrun⟩ := Fallible.exists_of_gives hrun
  obtain ⟨root', s', hinflate', hrun⟩ := Fallible.exists_of_gives hrun
  obtain ⟨rfl, rfl⟩ := of_decide_eq_true hrun
  rcases inflateNamed_parallel titleDocument .empty ownIds with
    ⟨e, t, u', herror, -⟩ | ⟨_, _, _, _, hload₁, hload₂, hparallel⟩
  · rw [hload] at herror
    cases herror
  · rw [hload] at hload₁
    rw [hload'] at hload₂
    cases hload₁
    cases hload₂
    obtain ⟨halike, hdescribe⟩ := (hparallel (hasLoaded_before hregister true)
      (hasLoaded_after hown hload' true) "form" [("title", .string "Hi")] 3).trees hinflate
        hinflate'
    obtain ⟨-, text, htext, htext'⟩ := hdescribe rfl
    exact ⟨named, t, registry, u, named', u', s, s', text, hload, hregister, hload', hinflate,
      hinflate', halike, htext, htext'⟩

end Context

end LayoutEngine
