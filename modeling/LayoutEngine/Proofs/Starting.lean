import LayoutEngine.Proofs.Carry

/-!
# The layouts that an inflation starts

A layout starts when its type has a parser: it gets a widget, the widget a manager unless it has
one, and what the layout declares is recorded. `Layout.started` lists the layouts that inflating a
layout starts, each with its widget, in order: the layout itself, then those below it, child after
child as its attributes are applied. It goes through the same sessions as the inflation and ends
where that fails. So what an inflation leaves behind is what starting these layouts leaves, and
changes that start none (`Layout.started_inflate`).
-/

namespace LayoutEngine

open Session Engine

/-! ## Layouts that start between two sessions -/

/-- Layouts with the widgets they have been started for, by the session to start from. -/
abbrev StartedFrom := Session → List (WidgetId × Layout)

/-- What is started by a step and then by what comes after it. After a failure nothing comes. -/
def Engine.startedThen {α : Type} (x : Engine α) (first : StartedFrom)
    (next : α → StartedFrom) : StartedFrom :=
  fun s => first s ++
    match x s with
    | (.ok a, s') => next a s'
    | (.error _, _) => []

namespace Session

/-- Between two sessions widgets have been started for layouts, in order. Anything else that has
happened made no managers and left the declared attributes alone. -/
inductive Started (context : Context) : Session → List (WidgetId × Layout) → Session → Prop
  | still {s s' : Session} (tags : s'.tags = s.tags) (managers : s'.managers = s.managers)
    (widgets : s.widgets.length ≤ s'.widgets.length) : Started context s [] s'
  | start {l : Layout} {parser : ViewParser}
    (parser? : context.registry.get? l.viewType = some parser)
    (verbose : Bool) (data : Fields) (parent : Option WidgetId) (index : Int) (s : Session) :
    Started context s [((parser.start verbose l data parent index s).1, l)]
      (parser.start verbose l data parent index s).2
  | trans {s s' s'' : Session} {started more : List (WidgetId × Layout)}
    (first : Started context s started s') (then_ : Started context s' more s'') :
    Started context s (started ++ more) s''

namespace Started

variable {context : Context} {s s' s'' : Session} {started : List (WidgetId × Layout)}

/-- Without any step nothing has started. -/
theorem refl (context : Context) (s : Session) : s.Started context [] s :=
  .still rfl rfl (Nat.le_refl _)

/-- What starts no layout may come before. -/
theorem after (h : s'.Started context started s'') (hstill : s.Started context [] s') :
    s.Started context started s'' :=
  .trans hstill h

/-- What starts no layout may come after. -/
theorem before (h : s.Started context started s') (hstill : s'.Started context [] s'') :
    s.Started context started s'' := by
  have hboth := h.trans hstill
  rwa [List.append_nil] at hboth

/-- Telling something starts nothing. -/
theorem told (context : Context) (s : Session) (log : List Notice) (calls : List HostCall) :
    s.Started context [] { s with log := log, calls := calls } :=
  .still rfl rfl (Nat.le_refl _)

/-- Nor does telling one notice. -/
theorem note (context : Context) (s : Session) (notice : Notice) :
    s.Started context [] (s.note notice) :=
  .still rfl rfl (Nat.le_refl _)

/-- Nor does telling how an attribute fared. -/
theorem noteOutcome (context : Context) (s : Session) (id : WidgetId) (viewType : String) (a : Int)
    (value : Value) (accepted : Bool) :
    s.Started context [] (s.noteOutcome id viewType a value accepted) := by
  unfold Session.noteOutcome
  dsimp only
  split <;> exact note context s _

/-- Nor does making a widget alone. -/
theorem create (context : Context) (item : Item) (s : Session) :
    s.Started context [] (s.create item).2 :=
  .still rfl rfl (by simp [Session.create])

/-- Nor does setting a property. -/
theorem applyProperty (context : Context) (id : WidgetId) (p : Property) (value : Value)
    (s : Session) : s.Started context [] (s.applyProperty id p value).2 := by
  have htouches := touches_applyProperty id p value s
  exact .still htouches.tags htouches.managers (Nat.le_of_eq htouches.length.symm)

/-- Nor does giving a widget other children. -/
theorem replaceChildren (context : Context) (id : WidgetId) (children : List WidgetId)
    (s : Session) : s.Started context [] (s.replaceChildren id children) := by
  have hset : s.Started context [] (s.setChildren id children) :=
    .still (tags_changeWidget id _ s) (managers_changeWidget id _ s)
      (Nat.le_of_eq (length_changeWidget id _ s).symm)
  unfold Session.replaceChildren
  dsimp only
  split
  · exact hset
  · exact hset.before (note context _ _)

/-- A step and what comes after it, unless it fails. -/
theorem bind {α β : Type} {x : Engine α} {f : α → Engine β} {first : StartedFrom}
    {next : α → StartedFrom} (hx : s.Started context (first s) (x s).2)
    (hf : ∀ a s', x s = (.ok a, s') → s'.Started context (next a s') (f a s').2) :
    s.Started context (Engine.startedThen x first next s) ((x >>= f) s).2 := by
  rcases hrun : x s with ⟨e | a, s'⟩
  all_goals rw [hrun] at hx
  · rw [Fallible.bind_run_error hrun, Engine.startedThen, hrun, List.append_nil]
    exact hx
  · rw [Fallible.bind_run_ok hrun, Engine.startedThen, hrun]
    exact .trans hx (hf a s' hrun)

/-- What comes after a step may start no layout. -/
theorem bind_still {α β : Type} {x : Engine α} {f : α → Engine β}
    (hx : s.Started context started (x s).2)
    (hf : ∀ a s', x s = (.ok a, s') → s'.Started context [] (f a s').2) :
    s.Started context started ((x >>= f) s).2 := by
  rcases hrun : x s with ⟨e | a, s'⟩
  all_goals rw [hrun] at hx
  · rw [Fallible.bind_run_error hrun]
    exact hx
  · rw [Fallible.bind_run_ok hrun]
    exact hx.before (hf a s' hrun)

/-- Telling the observers of an attribute starts no layout. -/
theorem observe {handle : Engine Bool} (h : s.Started context started (handle s).2)
    (parser : ViewParser) (a : Int) (value : Value) :
    s.Started context started (parser.observe a value handle s).2 := by
  have hreport : ∀ result s', Started context s' [] (parser.reportHandled a value result s') := by
    intro result s'
    obtain ⟨calls, hreport⟩ := parser.reportHandled_eq a value result s'
    rw [hreport]
    exact told context s' s'.log calls
  simp only [ViewParser.observe, ExceptT.mk]
  rcases hrun : handle s with ⟨e | accepted, s'⟩
  all_goals
    rw [hrun] at h
    exact h.before (hreport _ s')

/-- Where all parsers make new widgets, layouts are started for new ones. -/
theorem newer (h : s.Started context started s') (hnew : context.registry.MakesNew) :
    s.widgets.length ≤ s'.widgets.length ∧ ∀ p ∈ started, s.widgets.length < p.1.number := by
  induction h with
  | still _ _ widgets => exact ⟨widgets, nofun⟩
  | @start l parser hget verbose data parent index s =>
    obtain ⟨hid, hborn⟩ :=
      ViewParser.start_of_new (hnew l.viewType parser hget) verbose l data parent index s
    refine ⟨(hborn.grows True).length, ?_⟩
    intro p hp
    obtain rfl := List.mem_singleton.1 hp
    simp [hid]
  | trans _ _ ih ih' =>
    refine ⟨Nat.le_trans ih.1 ih'.1, ?_⟩
    intro p hp
    rcases List.mem_append.1 hp with hp | hp
    · exact ih.2 p hp
    · exact Nat.lt_of_le_of_lt ih.1 (ih'.2 p hp)

/-- The managers that are new are those of the started layouts. -/
theorem managers_eq (h : s.Started context started s')
    (hnew : context.registry.MakesNew) :
    ∃ more, s'.managers = s.managers ++ more ∧
      more.map (fun m => (m.widget, m.layout)) = started := by
  induction h with
  | still _ managers _ => exact ⟨[], by rw [managers, List.append_nil], rfl⟩
  | @start l parser hget verbose data parent index s =>
    obtain ⟨hid, hborn⟩ :=
      ViewParser.start_of_new (hnew l.viewType parser hget) verbose l data parent index s
    exact ⟨_, hborn.managers, by rw [hid]; rfl⟩
  | trans _ _ ih ih' =>
    obtain ⟨more, hmore, hfirst⟩ := ih
    obtain ⟨more', hmore', hrest⟩ := ih'
    refine ⟨more ++ more', ?_, ?_⟩
    · rw [hmore', hmore, List.append_assoc]
    · rw [List.map_append, hfirst, hrest]

end Started

end Session

/-! ## Layouts that an inflation starts -/

mutual

/-- The layouts that inflating a layout starts. What is done about a type without parser starts
those that `below` lists. -/
def Layout.started (context : Context) (unknown : UnknownType)
    (below : Layout → Fields → Int → StartedFrom) (data : Fields) (parent : Option WidgetId)
    (index : Int) : Layout → StartedFrom
  | ⟨viewType, attributes, tags⟩ => fun s =>
    match context.registry.get? viewType with
    | none => below ⟨viewType, attributes, tags⟩ data index (s.note (.noParser viewType))
    | some parser =>
      let l : Layout := ⟨viewType, attributes, tags⟩
      let (id, s) := parser.start context.verbose l data parent index s
      (id, l) :: Layout.startedByAttributes context unknown below parser viewType id attributes s
termination_by structural l => l

/-- The layouts that applying attributes in order starts. -/
def Layout.startedByAttributes (context : Context) (unknown : UnknownType)
    (below : Layout → Fields → Int → StartedFrom) (parser : ViewParser) (viewType : String)
    (id : WidgetId) : List Attribute → StartedFrom
  | [] => fun _ => []
  | ⟨a, value⟩ :: rest =>
    (value.apply context unknown parser id a).startedThen
      (Value.started context unknown below parser id a value) fun accepted s =>
        Layout.startedByAttributes context unknown below parser viewType id rest
          (if context.verbose then s.noteOutcome id viewType a value accepted else s)
termination_by structural attributes => attributes

/-- The layouts that applying an attribute starts: those of the children of a widget that has a
manager. -/
def Value.started (context : Context) (unknown : UnknownType)
    (below : Layout → Fields → Int → StartedFrom) (parser : ViewParser) (id : WidgetId) (a : Int) :
    Value → StartedFrom
  | .array items => fun s =>
    match parser.handler.route a, s.managerOf? id with
    | .children, some manager =>
      if items.all Value.isLayout then
        Value.startedAll context unknown below manager.data id manager.index items s
      else []
    | _, _ => []
  | _ => fun _ => []
termination_by structural value => value

/-- The layouts that inflating the layouts among values in order starts. -/
def Value.startedAll (context : Context) (unknown : UnknownType)
    (below : Layout → Fields → Int → StartedFrom) (data : Fields) (parent : WidgetId)
    (index : Int) : List Value → StartedFrom
  | [] => fun _ => []
  | .layout l :: rest =>
    (l.inflate context unknown data (some parent) index).startedThen
      (Layout.started context unknown below data (some parent) index l) fun _ =>
        Value.startedAll context unknown below data parent index rest
  | _ :: rest => Value.startedAll context unknown below data parent index rest
termination_by structural items => items

end

section

variable {context : Context} {unknown : UnknownType} {below : Layout → Fields → Int → StartedFrom}

/-- What is done about types without parser starts the layouts that `below` lists. -/
def UnknownType.StartsBelow (context : Context) (unknown : UnknownType)
    (below : Layout → Fields → Int → StartedFrom) : Prop :=
  ∀ l data index (s : Session),
    s.Started context (below l data index s) (unknown l data index s).2

/-- A layout starts if its type has a parser, and its attributes are applied. -/
theorem Layout.started_inflate_of_attributes (hunknown : unknown.StartsBelow context below)
    (data : Fields) (parent : Option WidgetId) (index : Int) (l : Layout) (s : Session)
    (hattributes : ∀ parser id s, Session.Started context s
      (startedByAttributes context unknown below parser l.viewType id l.attributes s)
      (applyAttributes context unknown parser l.viewType id l.attributes s).2) :
    s.Started context (l.started context unknown below data parent index s)
      (l.inflate context unknown data parent index s).2 := by
  obtain ⟨viewType, attributes, tags⟩ := l
  cases hget : context.registry.get? viewType with
  | none =>
    rw [inflate_of_none unknown data parent index hget]
    simp only [started, hget]
    exact (hunknown _ data index _).after (.note context s _)
  | some parser =>
    rw [inflate_eq_start unknown data parent index hget]
    simp only [started, hget]
    refine .trans (.start hget context.verbose data parent index s) ?_
    exact (hattributes parser _ _).bind_still fun _ s' _ => .refl context s'

/-- Children are inflated where an attribute holds them and its widget has a manager. Other
attributes start no layout. -/
theorem Value.started_apply_of_all (parser : ViewParser) (id : WidgetId) (a : Int) (value : Value)
    (s : Session)
    (hall : ∀ items, value = .array items → ∀ data index, s.Started context
      (startedAll context unknown below data id index items s)
      (inflateAll context unknown data id index items s).2) :
    s.Started context (value.started context unknown below parser id a s)
      (value.apply context unknown parser id a s).2 := by
  -- Wherever nothing is inflated the list is empty, and there nothing is started either.
  have hnone : (∀ items, value = .array items → parser.handler.route a ≠ .children) →
      value.started context unknown below parser id a s = [] := by
    intro hroute
    cases value with
    | array items =>
      have hne := hroute items rfl
      simp only [started]
      cases hto : parser.handler.route a with
      | children => exact absurd hto hne
      | property p | presence | unknown => rfl
    | null | bool | int | float | string | object | binding | layout => rfl
  cases hroute : parser.handler.route a with
  | property p =>
    rw [hnone fun _ _ => by simp [hroute], apply_of_property hroute]
    exact (Started.applyProperty context id p value s).observe parser a value
  | children =>
    by_cases harray : ∃ items, value = .array items
    · obtain ⟨items, rfl⟩ := harray
      rw [apply_of_children hroute]
      refine Started.observe ?_ parser a _
      rw [Fallible.bind_run_ok (look_run _ s)]
      simp only [started, hroute]
      cases hm : s.managerOf? id with
      | none => exact .note context s _
      | some m =>
        dsimp only
        split
        · exact (hall items rfl m.data m.index).bind_still
            fun children s' _ => .replaceChildren context id children s'
        · exact .note context s _
    · have hnot : ∀ items, value ≠ .array items := fun items hitems => harray ⟨items, hitems⟩
      rw [hnone fun items hitems => absurd hitems (hnot items), apply_of_not_array hroute hnot]
      exact (Started.refl context s).observe parser a value
  | presence =>
    rw [hnone fun _ _ => by simp [hroute], apply_of_presence hroute]
    exact (Started.refl context s).observe parser a value
  | unknown =>
    rw [hnone fun _ _ => by simp [hroute], apply_of_unknown hroute]
    exact (Started.refl context s).observe parser a value

mutual

/-- What inflating a layout leaves behind is what starting the listed layouts leaves. -/
theorem Layout.started_inflate (hunknown : unknown.StartsBelow context below) (data : Fields)
    (parent : Option WidgetId) (index : Int) :
    ∀ (l : Layout) (s : Session), s.Started context
      (l.started context unknown below data parent index s)
      (l.inflate context unknown data parent index s).2
  | ⟨viewType, attributes, tags⟩, s =>
    Layout.started_inflate_of_attributes hunknown data parent index ⟨viewType, attributes, tags⟩ s
      fun parser id s => Layout.started_applyAttributes hunknown parser viewType id attributes s
termination_by structural l => l

/-- So is what applying attributes leaves behind. -/
theorem Layout.started_applyAttributes (hunknown : unknown.StartsBelow context below)
    (parser : ViewParser) (viewType : String) (id : WidgetId) :
    ∀ (attributes : List Attribute) (s : Session), s.Started context
      (Layout.startedByAttributes context unknown below parser viewType id attributes s)
      (Layout.applyAttributes context unknown parser viewType id attributes s).2
  | [], s => .refl context s
  | ⟨a, value⟩ :: rest, s => by
    rw [Layout.applyAttributes_of_cons, Layout.startedByAttributes]
    refine Started.bind (Value.started_apply hunknown parser id a value s) fun accepted s' _ => ?_
    have hrest := Layout.started_applyAttributes hunknown parser viewType id rest
    split
    · exact (hrest _).after (.noteOutcome context s' id viewType a value accepted)
    · exact hrest s'
termination_by structural attributes => attributes

/-- Applying an attribute starts what is listed for it. -/
theorem Value.started_apply (hunknown : unknown.StartsBelow context below)
    (parser : ViewParser) (id : WidgetId) (a : Int) :
    ∀ (value : Value) (s : Session), s.Started context
      (value.started context unknown below parser id a s)
      (value.apply context unknown parser id a s).2
  | .array items, s =>
    Value.started_apply_of_all parser id a (.array items) s fun items' hitems data index => by
      cases hitems
      exact Value.started_inflateAll hunknown data id index items s
  | .null, s | .bool _, s | .int _, s | .float _, s | .string _, s | .object _, s
  | .binding _, s | .layout _, s => Value.started_apply_of_all parser id a _ s nofun
termination_by structural value => value

/-- Inflating layouts one after the other starts what is listed for them. -/
theorem Value.started_inflateAll (hunknown : unknown.StartsBelow context below)
    (data : Fields) (parent : WidgetId) (index : Int) :
    ∀ (items : List Value) (s : Session), s.Started context
      (Value.startedAll context unknown below data parent index items s)
      (Value.inflateAll context unknown data parent index items s).2
  | [], s => .refl context s
  | .layout l :: rest, s => by
    rw [Value.inflateAll_of_layout, Value.startedAll]
    refine Started.bind (Layout.started_inflate hunknown data (some parent) index l s) ?_
    intro id s' _
    exact (Value.started_inflateAll hunknown data parent index rest s').bind_still
      fun _ s'' _ => .refl context s''
  | .null :: rest, s | .bool _ :: rest, s | .int _ :: rest, s | .float _ :: rest, s
  | .string _ :: rest, s | .object _ :: rest, s | .binding _ :: rest, s | .array _ :: rest, s =>
    Value.started_inflateAll hunknown data parent index rest s
termination_by structural items => items

end

end

/-! ## Inflations in a context -/

/-- A layout is inflated, given or by name. -/
inductive Inflation where
  | given (l : Layout) (data : Fields) (parent : Option WidgetId) (index : Int)
  | named (name : String) (data : Fields) (parent : Option WidgetId) (index : Int)

namespace Context

/-- The layouts that are started in place of one of a type without parser: those that inflating a
named layout starts, if the host has that done. -/
def startedInPlace (context : Context) : Nat → Layout → Fields → Int → StartedFrom
  | budget, l, data, index => fun s =>
    match context.fallback with
    | none => []
    | some answer =>
      match answer l.viewType with
      | .layout name =>
        match context.layouts.get? name, budget with
        | some named, budget + 1 =>
          named.started context (context.unknown budget) (startedInPlace context budget) data none
            index (s.tell (.unknown l.viewType l.attributes.length data.length index))
        | _, _ => []
      | _ => []

/-- What a context has done about unknown types starts what is listed for it. -/
theorem unknown_startsBelow (context : Context) (budget : Nat) :
    (context.unknown budget).StartsBelow context (context.startedInPlace budget) := by
  induction budget using Nat.strongRecOn with
  | ind budget ih =>
    intro l data index s
    rw [startedInPlace, unknown]
    cases hfallback : context.fallback with
    | none => exact .refl context s
    | some answer =>
      dsimp only
      rw [Fallible.bind_run_ok (change_run _ s)]
      have htell : s.Started context []
          (s.tell (.unknown l.viewType l.attributes.length data.length index)) :=
        .told context s s.log _
      cases hanswer : answer l.viewType with
      | nothing => exact htell
      | newView => exact .after (.create context .view _) htell
      | placeholder =>
        exact .after (.after (.create context .view _) (.note context _ (.placeholder l.viewType)))
          htell
      | widget id => exact htell
      | layout name =>
        dsimp only
        cases context.layouts.get? name with
        | none => exact htell
        | some named =>
          cases budget with
          | zero => exact htell
          | succ budget =>
            refine .after ?_ htell
            have hstarted := named.started_inflate (ih budget (Nat.lt_succ_self budget)) data none
              index (s.tell (.unknown l.viewType l.attributes.length data.length index))
            dsimp only
            rw [Fallible.tryCatch_run]
            split
            · next hrun =>
              rw [hrun] at hstarted
              exact hstarted
            · next hrun =>
              rw [hrun] at hstarted
              split <;> exact hstarted

/-- The layouts that inflating a layout starts. -/
def started (context : Context) (l : Layout) (data : Fields) (parent : Option WidgetId)
    (index : Int) : StartedFrom :=
  l.started context (context.unknown context.layouts.size)
    (context.startedInPlace context.layouts.size) data parent index

/-- Inflating a layout starts what is listed for it. -/
theorem started_inflate (context : Context) (l : Layout) (data : Fields)
    (parent : Option WidgetId) (index : Int) (s : Session) :
    s.Started context (context.started l data parent index s)
      (context.inflate l data parent index s).2 :=
  l.started_inflate (context.unknown_startsBelow context.layouts.size) data parent index s

end Context

namespace Inflation

/-- Inflates the layout. -/
def run (context : Context) : Inflation → Engine WidgetId
  | .given l data parent index => context.inflate l data parent index
  | .named name data parent index => context.inflateNamed name data parent index

/-- The layouts that this starts, in order, each with its widget. There are no more after a
failure. -/
def started (context : Context) : Inflation → StartedFrom
  | .given l data parent index => context.started l data parent index
  | .named name data parent index => fun s =>
    match context.layouts.get? name with
    | none => []
    | some l => context.started l data parent index s

/-- What an inflation leaves behind, whether or not it fails, is what starting the listed layouts
leaves. -/
theorem started_run (inflation : Inflation) (context : Context) (s : Session) :
    s.Started context (inflation.started context s) (inflation.run context s).2 := by
  cases inflation with
  | given l data parent index => exact context.started_inflate l data parent index s
  | named name data parent index =>
    simp only [run, started, Context.inflateNamed_eq]
    cases context.layouts.get? name with
    | none => exact .refl context s
    | some l => exact context.started_inflate l data parent index s

end Inflation

end LayoutEngine
