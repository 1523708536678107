import LayoutEngine.Preview.Run
import LayoutEngine.Proofs.Concur
import LayoutEngine.Proofs.Grading
import LayoutEngine.Proofs.Outcome
import LayoutEngine.Proofs.Store

/-!
# Placeholders

A preview asks for placeholders where types have no parser. Without them it fails there, so what it
shows otherwise is what it shows with them, word for word and notice for notice. With them it shows
every layout that its document names (`Preview.run_placeholders`). The two runs go together as far
as the first one gets (`Context.concurs_of_no_fallback`); the second one does not stop at any type
(`LayoutSource.comesOut`), and comes to widgets of which none is below its own children, so that
describing them comes to an end.
-/

namespace LayoutEngine

/-! ## Names in a store -/

/-- Under each of its names a store that has been filled has a layout. -/
theorem LayoutStore.exists_get?_insertAll {named : List (String × Layout)} {name : String}
    (h : name ∈ Entries.keys named) : ∃ l, (empty.insertAll named).get? name = some l := by
  have hkeys : name ∈ Entries.keys (Entries.ofList named) := Entries.mem_keys_ofList.2 h
  rw [get?, layouts_insertAll]
  refine Option.ne_none_iff_exists'.1 fun hnone => ?_
  exact Entries.get?_eq_none_iff.1 hnone hkeys

/-! ## Descriptions without data -/

namespace Session

/-- A tree has nothing to do with data of managers. -/
theorem preorder?_bare (s : Session) (root : WidgetId) :
    s.bare.preorder? root = s.preorder? root := by
  have hwithin : ∀ fuel, s.bare.preorderWithin fuel = s.preorderWithin fuel := by
    intro fuel
    induction fuel with
    | zero => rfl
    | succ fuel ih =>
      funext depth id
      rw [preorderWithin, preorderWithin, ih]
      rfl
  rw [preorder?, hwithin]
  rfl

/-- Nor has what a widget is described by. -/
theorem descriptionParts_bare (s : Session) (id : WidgetId) (w : Widget) :
    s.bare.descriptionParts id w = s.descriptionParts id w := by
  have hmanager : w.manager.bind s.bare.manager? =
      (w.manager.bind s.manager?).map Manager.bare := by
    cases w.manager with
    | none => rfl
    | some mid => exact List.getElem?_map
  rw [descriptionParts, descriptionParts, hmanager]
  cases w.manager.bind s.manager? <;> rfl

/-- A description does not tell of data. -/
theorem describe?_bare (s : Session) (root : WidgetId) :
    s.bare.describe? root = s.describe? root := by
  have hline : s.bare.describeLine = s.describeLine := by
    funext depth id
    rw [describeLine, describeLine]
    have hwidget : s.bare.widget? id = s.widget? id := rfl
    rw [hwidget]
    cases s.widget? id with
    | none => rfl
    | some w =>
      dsimp only
      rw [descriptionParts_bare]
  rw [describe?, describe?, preorder?_bare, hline]

end Session

namespace Context

variable {context : Context}

/-- A named layout is inflated just if it is there and is inflated. -/
theorem inflateNamed_eq_ok_iff {name : String} {data : Fields} {parent : Option WidgetId}
    {index : Int} {s s' : Session} {root : WidgetId} :
    context.inflateNamed name data parent index s = (.ok root, s') ↔
      ∃ l, context.layouts.get? name = some l ∧
        context.inflate l data parent index s = (.ok root, s') := by
  rw [inflateNamed_eq]
  cases context.layouts.get? name with
  | none =>
    constructor
    · intro h
      cases h
    · rintro ⟨l, h, -⟩
      cases h
  | some l => simp

/-! ## Hosts -/

/-- What is inflated without a host to ask is inflated alike with one, whatever that answers. -/
theorem inflate_of_host (hnew : context.registry.MakesNew) (hnone : context.fallback = none)
    (fallback : Option (String → FallbackAnswer)) {l : Layout} {data : Fields}
    {parent : Option WidgetId} {index : Int} {s s' : Session} {root : WidgetId}
    (h : context.inflate l data parent index s = (.ok root, s')) :
    ∃ s'', { context with fallback := fallback }.inflate l data parent index s = (.ok root, s'') ∧
      s'.bare = s''.bare := by
  have hregistry : { context with fallback := fallback }.registry = context.registry := rfl
  have hconcurs : Concurs True context { context with fallback := fallback }
      (context.unknown context.layouts.size)
      ({ context with fallback := fallback }.unknown context.layouts.size) :=
    concurs_of_no_fallback hregistry rfl hnew hnone (.inl trivial) _ _
  have hconcur := l.inflate_concurs hconcurs (Layout.agrees_refl data index l) parent
    (Eq.refl s.bare)
  rw [inflate] at h
  rw [h] at hconcur
  exact hconcur.of_ok

/-- No type is refused. -/
theorem refusal?_of_placeholder (h : context.fallback = some fun _ => .placeholder)
    (viewType : String) : context.refusal? viewType = none := by
  rw [refusal?, UnknownType.refusal?, UnknownType.denial?, failure?_unknown h, ite_self]

/-- The host gives out no widgets that were there before. -/
theorem covers_of_placeholder (h : context.fallback = some fun _ => .placeholder) :
    Supply.all.Covers context := by
  refine ⟨fun _ _ hanswer id => ?_, fun _ _ => trivial⟩
  rw [h] at hanswer
  cases hanswer
  exact nofun

/-- Every compiled layout is inflated, to widgets that can be described. -/
theorem inflate_of_placeholder (h : context.fallback = some fun _ => .placeholder) {t : IdTable}
    (hprovides : context.registry.Provides t) {source : LayoutSource} {l : Layout}
    (hcompiled : source.compile t = (.ok l, t)) (data : Fields) (index : Int) :
    ∃ root s tree, context.inflate l data none index (.ofIds t) = (.ok root, s) ∧
      s.describe? root = some tree := by
  have hcomesOut : source.ComesOut context (context.unknown context.layouts.size) context.Denies
      data index := LayoutSource.comesOut (unknown_answersByType hprovides.makesNew) source
  have hprovides' : context.registry.Provides (Session.ofIds t).ids := hprovides
  rcases @hcomesOut _ _ none _ hprovides' (Nat.le_refl _) hcompiled with
    ⟨-, root, s, hrun, -⟩ | ⟨e, s, -, hstops⟩
  · have hserved : context.Served .all s := (Served.ofIds context .all t).inflate trivial hrun
    have hacyclic := acyclic_of_makesNew hserved hprovides.makesNew (covers_of_placeholder h)
    obtain ⟨tree, htree⟩ := Option.isSome_iff_exists.1 (hacyclic.isSome_describe? root)
    exact ⟨root, s, tree, hrun, htree⟩
  · obtain ⟨node, -, hrefused⟩ := hstops.exists_refused
    cases (refusal?_of_placeholder h node.viewType).symm.trans hrefused

end Context

/-! ## Previews -/

namespace Preview

variable {read : FileReader} {environment : Option String} {args : Arguments} {config : Config}
  {data : Fields} {named : List (String × Layout)} {ids : IdTable} {tree : String}
  {log : List Notice}

namespace Arguments

/-- What the layout is inflated in. -/
def context (args : Arguments) (config : Config) (named : List (String × Layout))
    (registry : Registry) : Context :=
  ⟨registry, LayoutStore.empty.insertAll named, args.fallback, config.verbose⟩

/-- Placeholders make the only difference to what the layout is inflated in. -/
theorem context_placeholders (args : Arguments) (config : Config) (named : List (String × Layout))
    (registry : Registry) :
    { args with placeholders := true }.context config named registry =
      { { args with placeholders := false }.context config named registry with
        fallback := some fun _ => .placeholder } := rfl

/-- The preview shows the widgets that its layout is inflated to. -/
theorem inflate_eq_ok_iff :
    args.inflate config data named ids = (.ok tree, log) ↔ ∃ registry t root s,
      Registry.withBuiltins ids = (registry, t) ∧
      (args.context config named registry).inflateNamed args.layout data none args.index
        (.ofIds t) = (.ok root, s) ∧
      s.describe? root = some tree ∧ s.log = log := by
  unfold inflate context
  rcases Registry.withBuiltins ids with ⟨registry, t⟩
  dsimp only [ExceptT.run]
  constructor
  · intro h
    split at h
    · cases h
    · next root s hrun =>
      split at h
      · next tree' hdescribe =>
        cases h
        exact ⟨registry, t, root, s, rfl, hrun, hdescribe, rfl⟩
      · cases h
  · rintro ⟨registry', t', root, s, hregister, hrun, hdescribe, rfl⟩
    cases hregister
    rw [hrun]
    dsimp only
    rw [hdescribe]

/-- What is shown without placeholders is shown with them. -/
theorem inflate_placeholders
    (h : { args with placeholders := false }.inflate config data named ids = (.ok tree, log)) :
    { args with placeholders := true }.inflate config data named ids = (.ok tree, log) := by
  obtain ⟨registry, t, root, s, hregister, hrun, hdescribe, rfl⟩ := inflate_eq_ok_iff.1 h
  obtain ⟨l, hget, hinflate⟩ := Context.inflateNamed_eq_ok_iff.1 hrun
  have hprovides := (Registry.offers_withBuiltins ids).provides
  rw [hregister] at hprovides
  obtain ⟨s', hinflate', hbare⟩ :=
    Context.inflate_of_host hprovides.makesNew rfl (some fun _ => .placeholder) hinflate
  refine inflate_eq_ok_iff.2 ⟨registry, t, root, s', hregister, ?_, ?_, ?_⟩
  · rw [context_placeholders]
    exact Context.inflateNamed_eq_ok_iff.2 ⟨l, hget, hinflate'⟩
  · rw [← Session.describe?_bare, ← hbare, Session.describe?_bare]
    exact hdescribe
  · have hlog : s'.bare.log = s.bare.log := congrArg Session.log hbare.symm
    exact hlog

/-- With placeholders every layout is shown that the document names. -/
theorem exists_inflate_placeholders {text : String}
    (hload : LayoutStore.compileText text .empty = (.ok named, ids))
    (hname : args.layout ∈ Entries.keys named) (config : Config) (data : Fields) :
    ∃ tree log,
      { args with placeholders := true }.inflate config data named ids = (.ok tree, log) := by
  obtain ⟨sources, -, hall⟩ := LayoutStore.exists_of_compileText hload
  obtain ⟨l, hget⟩ := LayoutStore.exists_get?_insertAll hname
  have hprovides := (Registry.offers_withBuiltins ids).provides
  have hids := Registry.le_withBuiltins ids
  rcases hregister : Registry.withBuiltins ids with ⟨registry, t⟩
  rw [hregister] at hprovides hids
  have hcompiled := LayoutStore.rel_get?_of_compileAll hall hids args.layout
  rw [hget] at hcompiled
  obtain ⟨source, hsource⟩ : ∃ source : LayoutSource, source.compile t = (.ok l, t) := by
    generalize Entries.get? args.layout (Entries.ofList sources) = source? at hcompiled
    cases hcompiled with
    | some h => exact ⟨_, h⟩
  have hfallback : ({ args with placeholders := true }.context config named registry).fallback =
      some fun _ => .placeholder := rfl
  obtain ⟨root, s, tree, hinflate, hdescribe⟩ :=
    Context.inflate_of_placeholder hfallback hprovides hsource data args.index
  exact ⟨tree, s.log, inflate_eq_ok_iff.2 ⟨registry, t, root, s, hregister,
    Context.inflateNamed_eq_ok_iff.2 ⟨l, hget, hinflate⟩, hdescribe, rfl⟩⟩

end Arguments

/-- A preview shows widgets if all that is asked for can be read and the layout be inflated. -/
theorem run_eq_ok_iff :
    run read environment args = (.ok tree, log) ↔ ∃ config notices data named ids log',
      args.configuration read environment = .ok (config, notices) ∧
      args.readData read = .ok data ∧ args.readLayouts read = .ok (named, ids) ∧
      args.inflate config data named ids = (.ok tree, log') ∧
      log = notices ++ args.layoutNotices named ++ log' := by
  constructor
  · intro h
    unfold run at h
    split at h
    · cases h
    · next config notices hconfig =>
      split at h
      · cases h
      · next data hdata =>
        split at h
        · cases h
        · next named ids hlayouts =>
          rcases hinflate : args.inflate config data named ids with ⟨result, log'⟩
          rw [hinflate] at h
          cases h
          exact ⟨config, notices, data, named, ids, log', hconfig, hdata, hlayouts, hinflate, rfl⟩
  · rintro ⟨config, notices, data, named, ids, log', hconfig, hdata, hlayouts, hinflate, rfl⟩
    simp only [run, hconfig, hdata, hlayouts, hinflate]

/-- The layouts of a preview are those of a document. -/
theorem exists_of_readLayouts (h : args.readLayouts read = .ok (named, ids)) :
    ∃ text, LayoutStore.compileText text .empty = (.ok named, ids) := by
  unfold Arguments.readLayouts at h
  cases hread : (read args.layouts).mapError (PreviewError.layoutsFile args.layouts) with
  | error e =>
    rw [hread] at h
    cases h
  | ok text =>
    rw [hread] at h
    dsimp only [bind, Except.bind] at h
    refine ⟨text, ?_⟩
    split at h
    · next named' ids' hload =>
      cases h
      exact hload
    · cases h

/-- A preview that succeeds without placeholders shows the same with them, and gives the same
notices on the way. With them a preview for which the configuration, the data and the layouts can be
read shows every layout that is named. -/
theorem run_placeholders (read : FileReader) (environment : Option String) (args : Arguments) :
    (∀ tree log, run read environment { args with placeholders := false } = (.ok tree, log) →
      run read environment { args with placeholders := true } = (.ok tree, log)) ∧
    ∀ config notices data named ids, args.configuration read environment = .ok (config, notices) →
      args.readData read = .ok data → args.readLayouts read = .ok (named, ids) →
      args.layout ∈ Entries.keys named → ∃ tree log,
        run read environment { args with placeholders := true } = (.ok tree, log) := by
  refine ⟨fun tree log h => ?_, ?_⟩
  · obtain ⟨config, notices, data, named, ids, log', hconfig, hdata, hlayouts, hinflate, hlog⟩ :=
      run_eq_ok_iff.1 h
    exact run_eq_ok_iff.2 ⟨config, notices, data, named, ids, log', hconfig, hdata, hlayouts,
      Arguments.inflate_placeholders hinflate, hlog⟩
  · intro config notices data named ids hconfig hdata hlayouts hname
    obtain ⟨text, hload⟩ := exists_of_readLayouts hlayouts
    obtain ⟨tree, log, hinflate⟩ :=
      Arguments.exists_inflate_placeholders hload hname config data
    exact ⟨tree, _, run_eq_ok_iff.2 ⟨config, notices, data, named, ids, log, hconfig, hdata,
      hlayouts, hinflate, rfl⟩⟩

/-- A row of a text. -/
def labelDocument : String :=
  "\x7b\"row\": \x7b\"type\": \"relative-layout\", \"children\": [" ++
    "\x7b\"type\": \"text\", \"attributes\": [" ++
    "\x7b\"id\": \"text\", \"value\": \"Hi\"\x7d]\x7d]\x7d\x7d"

/-- A row of a text and a chart. -/
def rowDocument : String :=
  "\x7b\"row\": \x7b\"type\": \"relative-layout\", \"children\": [" ++
    "\x7b\"type\": \"text\"\x7d, \x7b\"type\": \"chart\"\x7d]\x7d\x7d"

/-- The row is to be shown, without placeholders. -/
def rowArguments : Arguments := ⟨"layouts.json", "row", none, noDataIndex, none, false, 0⟩

/-- A row of a text is shown, and placeholders make no difference to it. Without them the row with
the chart is not shown; with them it is. -/
theorem run_placeholders_row :
    (∃ log,
      run (fun _ => .ok labelDocument) none rowArguments =
        (.ok "relative-layout #1\n  text #2 \"Hi\"\n", log) ∧
      run (fun _ => .ok labelDocument) none { rowArguments with placeholders := true } =
        (.ok "relative-layout #1\n  text #2 \"Hi\"\n", log)) ∧
    (run (fun _ => .ok rowDocument) none rowArguments).1.toOption = none ∧ ∃ tree log,
      run (fun _ => .ok rowDocument) none { rowArguments with placeholders := true } =
        (.ok tree, log) := by
  refine ⟨?_, by decide +kernel, ?_⟩
  · have hshown : (run (fun _ => .ok labelDocument) none rowArguments).1.toOption =
        some "relative-layout #1\n  text #2 \"Hi\"\n" := by
      decide +kernel
    rcases hrun : run (fun _ => .ok labelDocument) none rowArguments with ⟨e | tree, log⟩
    all_goals rw [hrun] at hshown
    · cases hshown
    · obtain rfl := Option.some.inj hshown
      exact ⟨log, rfl, (run_placeholders _ none rowArguments).1 _ log hrun⟩
  · have hnamed : ((rowArguments.readLayouts fun _ => .ok rowDocument).toOption.any fun loaded =>
        decide ("row" ∈ Entries.keys loaded.1)) = true := by
      decide +kernel
    cases hlayouts : rowArguments.readLayouts fun _ => .ok rowDocument with
    | error e =>
      rw [hlayouts] at hnamed
      cases hnamed
    | ok loaded =>
      rw [hlayouts] at hnamed
      exact (run_placeholders _ none rowArguments).2 .default [] [] loaded.1 loaded.2 rfl rfl
        hlayouts (of_decide_eq_true hnamed)

end Preview

end LayoutEngine
