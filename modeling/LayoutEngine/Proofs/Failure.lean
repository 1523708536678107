import LayoutEngine.Proofs.Carry

/-!
# Why an inflation fails

Where all parsers make new widgets, whether inflating a layout fails, and why, depends on the layout
alone: not on the session, the data, the parent or the place in a repeated collection. A rejected
attribute is no failure, so all that counts is which layouts are come to and what the host answers
for those whose types have no parser (`Layout.exists_failure`). The host answers by type, and what
it answers comes to the same in every session (`Context.exists_unknown_failure`), even if it has
another layout inflated.
-/

namespace LayoutEngine

open Session

namespace Engine

variable {α β : Type} {x : Engine α} {f : α → Engine β} {s : Session} {r r' : Option InflateError}

/-- Why a step fails in a session, if it does. -/
def failure? (x : Engine α) (s : Session) : Option InflateError :=
  match (x s).1 with
  | .ok _ => none
  | .error e => some e

/-- What has a result does not fail. -/
theorem failure?_of_ok {a : α} {s' : Session} (h : x s = (.ok a, s')) : x.failure? s = none := by
  rw [failure?, h]

/-- What fails has its failure. -/
theorem failure?_of_error {e : InflateError} {s' : Session} (h : x s = (.error e, s')) :
    x.failure? s = some e := by
  rw [failure?, h]

@[simp] theorem failure?_pure (a : α) (s : Session) : (pure a : Engine α).failure? s = none := rfl

@[simp] theorem failure?_act (step : Session → α × Session) (s : Session) :
    (act step).failure? s = none := rfl

/-- A step after another fails as the other one does, or as it does itself. -/
theorem failure?_bind (hx : x.failure? s = r)
    (hf : ∀ a s', x s = (.ok a, s') → (f a).failure? s' = r') :
    (x >>= f).failure? s = r.or r' := by
  rcases hrun : x s with ⟨e | a, s'⟩
  · rw [failure?_of_error hrun] at hx
    rw [failure?, Fallible.bind_run_error hrun, ← hx]
    rfl
  · rw [failure?_of_ok hrun] at hx
    rw [failure?, Fallible.bind_run_ok hrun, ← hx]
    exact hf a s' hrun

/-- A change does not fail by itself. -/
theorem failure?_change_bind {step : Session → Session} {f : Unit → Engine β}
    (h : (f ()).failure? (step s) = r) : (change step >>= f).failure? s = r := by
  rw [failure?, Fallible.bind_run_ok (change_run step s)]
  exact h

/-- Nor does a look at the session. -/
theorem failure?_look_bind (read : Session → α) (f : α → Engine β) (s : Session) :
    (look read >>= f).failure? s = (f (read s)).failure? s := by
  rw [failure?, Fallible.bind_run_ok (look_run read s), ← failure?]

/-- Telling the observers does not change what has come of an attribute. -/
theorem failure?_observe (parser : ViewParser) (a : Int) (value : Value) (handle : Engine Bool)
    (s : Session) : (parser.observe a value handle).failure? s = handle.failure? s := by
  simp only [failure?, ViewParser.observe, ExceptT.mk]
  rcases handle s with ⟨e | accepted, s'⟩ <;> rfl

/-- A failure that is caught for another is that other. -/
theorem failure?_tryCatch {handle : InflateError → Engine α}
    {answer : InflateError → InflateError} (h : ∀ e s, (handle e).failure? s = some (answer e))
    (s : Session) : (tryCatch x handle).failure? s = (x.failure? s).map answer := by
  rw [failure?, Fallible.tryCatch_run]
  rcases hrun : x s with ⟨e | a, s'⟩
  · rw [failure?_of_error hrun]
    exact h e s'
  · rw [failure?_of_ok hrun]
    rfl

end Engine

/-! ## Layouts -/

/-- Whether what is done about a type without parser fails, and why, is told by the type; and no
widget loses its manager. -/
structure UnknownType.FailsByType (unknown : UnknownType) (reason : String → Option InflateError) :
    Prop where
  failure? : ∀ l data index s, (unknown l data index).failure? s = reason l.viewType
  grows : ∀ l data index s, Grows True s (unknown l data index s).2

namespace UnknownType

/-- Why there is no widget for a type, if there is none: what asking for one comes to where nothing
has been made yet. -/
def denial? (unknown : UnknownType) (viewType : String) : Option InflateError :=
  (unknown ⟨viewType, [], none⟩ [] noDataIndex).failure? (.ofIds .empty)

/-- Why a layout of a type becomes no widget, if it does not: the type has no parser, and nobody has
a widget for it either. -/
def refusal? (registry : Registry) (unknown : UnknownType) (viewType : String) :
    Option InflateError :=
  if registry.contains viewType then none else unknown.denial? viewType

/-- Asking for a widget comes to the same everywhere. -/
theorem FailsByType.failure?_eq_denial? {unknown : UnknownType}
    {reason : String → Option InflateError} (h : unknown.FailsByType reason) (l : Layout)
    (data : Fields) (index : Int) (s : Session) :
    (unknown l data index).failure? s = unknown.denial? l.viewType := by
  rw [denial?, h.failure?, h.failure?]

end UnknownType

instance (updates : Prop) : IsPreorder Session (Grows updates) where
  refl s := .refl updates s
  trans _ _ _ h₁ h₂ := h₁.trans h₂

/-- A widget that has a manager keeps it, whatever is inflated. -/
theorem Context.carries_grows {context : Context} (updates : Prop)
    (hnew : context.registry.MakesNew) :
    context.Carries (fun _ => True) (fun _ => True) (Grows updates) where
  told _ _ _ := ⟨Nat.le_refl _, fun hw => ⟨_, hw, rfl⟩, fun hm => ⟨_, hm, fun _ => rfl⟩⟩
  create item s := grows_create updates item s
  start {l parser} hget verbose data parent index s _ :=
    ⟨trivial, (ViewParser.start_of_new (hnew l.viewType parser hget) verbose l data parent index
      s).2.grows updates⟩
  property {id} _ p value s := (sameShape_applyProperty updates id p value s).grows
  children {id} _ children s := grows_setChildren updates id children s
  still _ _ := trivial

section

variable {context : Context} {unknown : UnknownType} {reason : String → Option InflateError}

/-- A layout fails if there is no widget for its type, or applying its attributes fails. -/
theorem Layout.failure?_inflate_of_attributes (hnew : context.registry.MakesNew)
    (hreason : unknown.FailsByType reason) {l : Layout}
    (hattributes : ∀ parser, ∃ r, ∀ {id : WidgetId} {s : Session}, (s.managerOf? id).isSome = true →
      (applyAttributes context unknown parser l.viewType id l.attributes).failure? s = r) :
    ∃ r, ∀ data parent index s,
      (l.inflate context unknown data parent index).failure? s = r := by
  cases hget : context.registry.get? l.viewType with
  | none =>
    refine ⟨reason l.viewType, fun data parent index s => ?_⟩
    rw [Engine.failure?, inflate_of_none unknown data parent index hget s, ← Engine.failure?]
    exact hreason.failure? _ _ _ _
  | some parser =>
    obtain ⟨r, hr⟩ := hattributes parser
    refine ⟨r, fun data parent index s => ?_⟩
    obtain ⟨hid, hborn⟩ :=
      ViewParser.start_of_new (hnew _ _ hget) context.verbose l data parent index s
    have hmanaged : (((parser.start context.verbose l data parent index s).2).managerOf?
        (parser.start context.verbose l data parent index s).1).isSome = true := by
      rw [hid, hborn.managerOf?]
      rfl
    have hfailure := Engine.failure?_bind (hr hmanaged) fun _ s' _ =>
      Engine.failure?_pure (parser.start context.verbose l data parent index s).1 s'
    rw [Option.or_none] at hfailure
    rw [← hfailure, Engine.failure?, inflate_eq_start unknown data parent index hget]
    rfl

/-- Attributes fail as the first one does, or as the others do. -/
theorem Layout.failure?_applyAttributes_cons {parser : ViewParser} {a : Int} {value : Value}
    {rest : List Attribute} (viewType : String)
    (hkept : ∀ {id : WidgetId} {s : Session},
      Grows True s (value.apply context unknown parser id a s).2)
    (hvalue : ∃ r, ∀ {id : WidgetId} {s : Session}, (s.managerOf? id).isSome = true →
      (value.apply context unknown parser id a).failure? s = r)
    (hrest : ∃ r, ∀ {id : WidgetId} {s : Session}, (s.managerOf? id).isSome = true →
      (applyAttributes context unknown parser viewType id rest).failure? s = r) :
    ∃ r, ∀ {id : WidgetId} {s : Session}, (s.managerOf? id).isSome = true →
      (applyAttributes context unknown parser viewType id (⟨a, value⟩ :: rest)).failure? s = r := by
  obtain ⟨r, hr⟩ := hvalue
  obtain ⟨r', hr'⟩ := hrest
  refine ⟨r.or r', ?_⟩
  intro id s hs
  rw [applyAttributes_of_cons]
  refine Engine.failure?_bind (hr hs) ?_
  intro accepted s₁ hrun
  obtain ⟨m, hm⟩ := Option.isSome_iff_exists.1 hs
  have hgrows : Grows True s s₁ := by
    have hkept := @hkept id s
    rwa [hrun] at hkept
  obtain ⟨data, hm₁⟩ := hgrows.managerOf? hm
  have hs₁ : (s₁.managerOf? id).isSome = true := Option.isSome_iff_exists.2 ⟨_, hm₁⟩
  dsimp only
  split
  · refine Engine.failure?_change_bind (hr' ?_)
    unfold noteOutcome
    dsimp only
    split <;> exact hs₁
  · exact hr' hs₁

/-- An attribute fails only if it brings layouts that fail. -/
theorem Value.failure?_apply_of_inflateAll (parser : ViewParser) (a : Int) (value : Value)
    (hall : ∀ items, value = .array items → ∃ r, ∀ data parent index s,
      (inflateAll context unknown data parent index items).failure? s = r) :
    ∃ r, ∀ {id : WidgetId} {s : Session}, (s.managerOf? id).isSome = true →
      (value.apply context unknown parser id a).failure? s = r := by
  cases hroute : parser.handler.route a with
  | property p =>
    refine ⟨none, fun {id s} _ => ?_⟩
    rw [apply_of_property hroute, Engine.failure?_observe, Engine.failure?_act]
  | children =>
    by_cases harray : ∃ items, value = .array items
    · obtain ⟨items, rfl⟩ := harray
      obtain ⟨r, hr⟩ := hall items rfl
      cases hlayouts : items.all isLayout with
      | true =>
        refine ⟨r, fun {id s} hs => ?_⟩
        obtain ⟨m, hm⟩ := Option.isSome_iff_exists.1 hs
        rw [apply_of_children hroute, Engine.failure?_observe, Engine.failure?_look_bind, hm]
        dsimp only
        rw [if_pos hlayouts, ← Option.or_none (o := r)]
        exact Engine.failure?_bind (hr m.data id m.index s) fun _ _ _ => rfl
      | false =>
        refine ⟨none, fun {id s} hs => ?_⟩
        obtain ⟨m, hm⟩ := Option.isSome_iff_exists.1 hs
        rw [apply_of_children hroute, Engine.failure?_observe, Engine.failure?_look_bind, hm]
        dsimp only
        rw [hlayouts]
        rfl
    · refine ⟨none, fun {id s} _ => ?_⟩
      rw [apply_of_not_array hroute fun items hitems => harray ⟨items, hitems⟩,
        Engine.failure?_observe, Engine.failure?_pure]
  | presence =>
    refine ⟨none, fun {id s} _ => ?_⟩
    rw [apply_of_presence hroute, Engine.failure?_observe, Engine.failure?_pure]
  | unknown =>
    refine ⟨none, fun {id s} _ => ?_⟩
    rw [apply_of_unknown hroute, Engine.failure?_observe, Engine.failure?_pure]

/-- Layouts fail as the first one does, or as the others do. -/
theorem Value.failure?_inflateAll_cons {l : Layout} {rest : List Value}
    (hl : ∃ r, ∀ data parent index s,
      (l.inflate context unknown data parent index).failure? s = r)
    (hrest : ∃ r, ∀ data parent index s,
      (inflateAll context unknown data parent index rest).failure? s = r) :
    ∃ r, ∀ data parent index s,
      (inflateAll context unknown data parent index (.layout l :: rest)).failure? s = r := by
  obtain ⟨r, hr⟩ := hl
  obtain ⟨r', hr'⟩ := hrest
  refine ⟨r.or (r'.or none), ?_⟩
  intro data parent index s
  rw [inflateAll_of_layout]
  exact Engine.failure?_bind (hr data (some parent) index s) fun _ s₁ _ =>
    Engine.failure?_bind (hr' data parent index s₁) fun _ _ _ => rfl

end

section

variable {context : Context} {unknown : UnknownType} {reason : String → Option InflateError}

mutual

/-- Inflating a layout fails for the same reason, or not at all, in every session. -/
theorem Layout.exists_failure (hnew : context.registry.MakesNew)
    (hreason : unknown.FailsByType reason) :
    ∀ l : Layout, ∃ r, ∀ data parent index s,
      (l.inflate context unknown data parent index).failure? s = r
  | ⟨_, attributes, _⟩ =>
    Layout.failure?_inflate_of_attributes hnew hreason fun parser =>
      Layout.exists_failure_applyAttributes hnew hreason parser _ attributes
termination_by structural l => l

/-- So does applying attributes to a widget that has a manager. -/
theorem Layout.exists_failure_applyAttributes (hnew : context.registry.MakesNew)
    (hreason : unknown.FailsByType reason) (parser : ViewParser) (viewType : String) :
    ∀ attributes : List Attribute, ∃ r, ∀ {id : WidgetId} {s : Session},
      (s.managerOf? id).isSome = true →
        (Layout.applyAttributes context unknown parser viewType id attributes).failure? s = r
  | [] => ⟨none, fun _ => rfl⟩
  | ⟨a, value⟩ :: rest =>
    Layout.failure?_applyAttributes_cons viewType
      (fun {_ _} => (Value.apply_carries (Context.carries_grows True hnew)
        (fun l _ data index s _ => ⟨hreason.grows l data index s, fun _ _ => trivial⟩)
        parser trivial a value trivial).along)
      (Value.exists_failure_apply hnew hreason parser a value)
      (Layout.exists_failure_applyAttributes hnew hreason parser viewType rest)
termination_by structural attributes => attributes

/-- Whether applying an attribute fails, and why, depends on the attribute alone. -/
theorem Value.exists_failure_apply (hnew : context.registry.MakesNew)
    (hreason : unknown.FailsByType reason) (parser : ViewParser) (a : Int) :
    ∀ value : Value, ∃ r, ∀ {id : WidgetId} {s : Session}, (s.managerOf? id).isSome = true →
      (value.apply context unknown parser id a).failure? s = r
  | .array items =>
    Value.failure?_apply_of_inflateAll parser a (.array items) fun items' hitems => by
      cases hitems
      exact Value.exists_failure_inflateAll hnew hreason items
  | .null | .bool _ | .int _ | .float _ | .string _ | .object _ | .binding _ | .layout _ =>
    Value.failure?_apply_of_inflateAll parser a _ nofun
termination_by structural value => value

/-- Whether inflating layouts in order fails, and why, depends on them alone. -/
theorem Value.exists_failure_inflateAll (hnew : context.registry.MakesNew)
    (hreason : unknown.FailsByType reason) :
    ∀ items : List Value, ∃ r, ∀ data parent index s,
      (Value.inflateAll context unknown data parent index items).failure? s = r
  | [] => ⟨none, fun _ _ _ _ => rfl⟩
  | .layout l :: rest =>
    Value.failure?_inflateAll_cons (Layout.exists_failure hnew hreason l)
      (Value.exists_failure_inflateAll hnew hreason rest)
  | .null :: rest | .bool _ :: rest | .int _ :: rest | .float _ :: rest | .string _ :: rest
  | .object _ :: rest | .binding _ :: rest | .array _ :: rest =>
    Value.exists_failure_inflateAll hnew hreason rest
termination_by structural items => items

end

end

/-! ## Hosts -/

/-- What a host makes of a failure of the layout that it has inflated for a type. -/
def InflateError.ofHost (viewType : String) : InflateError → InflateError
  | .endless => .endless
  | _ => .callbackReturnedNothing viewType

namespace Context

variable {context : Context}

/-- A host has no widget if it says so, or if it would have a layout inflated that is not there or
fails. -/
theorem failure?_unknown {answer : String → FallbackAnswer}
    (hfallback : context.fallback = some answer) (budget : Nat) (l : Layout) (data : Fields)
    (index : Int) (s : Session) :
    (context.unknown budget l data index).failure? s =
      match answer l.viewType with
      | .nothing => some (.callbackReturnedNothing l.viewType)
      | .newView | .placeholder | .widget _ => none
      | .layout name =>
        match context.layouts.get? name, budget with
        | none, _ => some (.callbackReturnedNothing l.viewType)
        | some _, 0 => some .endless
        | some named, budget + 1 =>
          ((named.inflate context (context.unknown budget) data none index).failure?
            (s.tell (.unknown l.viewType l.attributes.length data.length index))).map
              (InflateError.ofHost l.viewType) := by
  rw [unknown, hfallback]
  refine Engine.failure?_change_bind ?_
  cases answer l.viewType with
  | nothing | newView | placeholder | widget => rfl
  | layout name =>
    dsimp only
    cases context.layouts.get? name with
    | none => rfl
    | some named =>
      cases budget with
      | zero => rfl
      | succ budget =>
        refine Engine.failure?_tryCatch ?_ _
        intro e s'
        cases e <;> rfl

/-- What a host answers comes to the same in every session, by type. -/
theorem exists_unknown_failure (hnew : context.registry.MakesNew) (budget : Nat) :
    ∃ reason, (context.unknown budget).FailsByType reason := by
  induction budget using Nat.strongRecOn with
  | ind budget ih =>
    have hreason : ∀ viewType, ∃ r, ∀ l data index s, l.viewType = viewType →
        (context.unknown budget l data index).failure? s = r := by
      intro viewType
      cases hfallback : context.fallback with
      | none =>
        refine ⟨some (.unresolvedType viewType), ?_⟩
        rintro l data index s rfl
        exact Engine.failure?_of_error (unknown_of_no_fallback hfallback budget l data index s)
      | some answer =>
        simp only [failure?_unknown hfallback]
        cases hanswer : answer viewType with
        | layout name =>
          cases hnamed : context.layouts.get? name with
          | none =>
            refine ⟨some (.callbackReturnedNothing viewType), ?_⟩
            rintro l data index s rfl
            simp only [hanswer, hnamed]
          | some named =>
            cases budget with
            | zero =>
              refine ⟨some .endless, ?_⟩
              rintro l data index s rfl
              simp only [hanswer, hnamed]
            | succ budget =>
              obtain ⟨reason, hreason⟩ := ih budget (Nat.lt_succ_self budget)
              obtain ⟨r, hr⟩ := Layout.exists_failure hnew hreason named
              refine ⟨r.map (InflateError.ofHost viewType), ?_⟩
              rintro l data index s rfl
              simp only [hanswer, hnamed, hr]
        | nothing =>
          refine ⟨some (.callbackReturnedNothing viewType), ?_⟩
          rintro l data index s rfl
          simp only [hanswer]
        | newView | placeholder | widget =>
          refine ⟨none, ?_⟩
          rintro l data index s rfl
          simp only [hanswer]
    choose reason hreason using hreason
    refine ⟨reason, fun l data index s => hreason l.viewType l data index s rfl, ?_⟩
    intro l data index s
    exact (unknown_carries (carries_grows True hnew) budget l data index s trivial).along

variable (context) in
/-- Why the host has no widget for a type, if it has none: what asking it comes to where nothing has
been made yet. -/
def denial? (viewType : String) : Option InflateError :=
  (context.unknown context.layouts.size).denial? viewType

variable (context) in
/-- Why a layout of a type becomes no widget, if it does not: the type has no parser, and the host
has no widget for it either. -/
def refusal? (viewType : String) : Option InflateError :=
  (context.unknown context.layouts.size).refusal? context.registry viewType

/-- How it is told that there is no widget for a type: there is no host, or the host has given none,
or the host would have layouts inflated that stand for each other for ever. -/
inductive Denies (context : Context) (viewType : String) : InflateError → Prop
  | unasked (host : context.fallback = none) : Denies context viewType (.unresolvedType viewType)
  | nothing {answer : String → FallbackAnswer} (host : context.fallback = some answer) :
    Denies context viewType (.callbackReturnedNothing viewType)
  | endless {answer : String → FallbackAnswer} {name : String}
    (host : context.fallback = some answer) (layout : answer viewType = .layout name) :
    Denies context viewType .endless

/-- What the host denies by its answer it denies in the sense of the words. -/
theorem denies_of_denial? {viewType : String} {e : InflateError}
    (h : context.denial? viewType = some e) : context.Denies viewType e := by
  cases hfallback : context.fallback with
  | none =>
    have hrun := unknown_of_no_fallback hfallback context.layouts.size ⟨viewType, [], none⟩ []
      noDataIndex (.ofIds .empty)
    rw [denial?, UnknownType.denial?, Engine.failure?_of_error hrun] at h
    cases h
    exact .unasked hfallback
  | some answer =>
    rw [denial?, UnknownType.denial?, failure?_unknown hfallback] at h
    dsimp only at h
    split at h
    · cases h
      exact .nothing hfallback
    · cases h
    · cases h
    · cases h
    · next name hanswer =>
      split at h
      · cases h
        exact .nothing hfallback
      · cases h
        exact .endless hfallback hanswer
      · obtain ⟨e', -, rfl⟩ := Option.map_eq_some_iff.1 h
        cases e' with
        | endless => exact .endless hfallback hanswer
        | _ => exact .nothing hfallback

end Context

end LayoutEngine
