import LayoutEngine.Proofs.Failure

/-!
# What an inflation comes to, read off the source

Where the parsers are the engine's own and there is no host to ask, the source, the data and the
place in a repeated collection tell how each attribute of each node will fare, in order, and at
which type the inflation fails, if it does (`LayoutSource.forecast`). No number of a name has a part
in that. What a source is compiled to meets the forecast in every session
(`Context.inflate_meets`).
-/

namespace LayoutEngine

open Session

/-! ## Forecasts -/

/-- What will be told of attributes, and why something will fail, if it does. -/
structure Forecast where
  outcomes : List Outcome
  failure? : Option InflateError

namespace Forecast

/-- Something does not fail. -/
def succeeds (outcomes : List Outcome) : Forecast := ⟨outcomes, none⟩

/-- One thing after another, which is not come to if the first one fails. -/
def andThen (first next : Forecast) : Forecast :=
  match first.failure? with
  | none => ⟨first.outcomes ++ next.outcomes, next.failure?⟩
  | some e => ⟨first.outcomes, some e⟩

/-- After what does not fail, what comes next. -/
theorem andThen_of_none {first : Forecast} (h : first.failure? = none) (next : Forecast) :
    first.andThen next = ⟨first.outcomes ++ next.outcomes, next.failure?⟩ := by
  rw [andThen, h]

/-- After a failure nothing comes. -/
theorem andThen_of_some {first : Forecast} {e : InflateError} (h : first.failure? = some e)
    (next : Forecast) : first.andThen next = first := by
  obtain ⟨outcomes, failure?⟩ := first
  cases h
  rfl

@[simp] theorem andThen_nothing (f : Forecast) : f.andThen (succeeds []) = f := by
  cases hf : f.failure? with
  | none =>
    obtain ⟨outcomes, failure?⟩ := f
    cases hf
    rw [andThen_of_none rfl]
    simp [succeeds]
  | some e => exact andThen_of_some hf _

@[simp] theorem nothing_andThen (f : Forecast) : (succeeds []).andThen f = f := rfl

end Forecast

namespace LayoutSource

/-- How the children of a node fare, as the value of its last attribute: containers take them. -/
def childrenOutcomes (k : Kind) (id : WidgetId) (viewType : String) (children : List LayoutSource) :
    List Outcome :=
  match children with
  | [] => []
  | _ :: _ =>
    let value := Value.array (children.map fun child => .layout ⟨child.viewType, [], none⟩)
    [⟨id, viewType, Layout.childrenName, value.text, k = .container⟩]

mutual

/-- What inflating a source comes to, the first widget having the number `n`. -/
def forecast (data : Fields) (index : Int) (n : Nat) : LayoutSource → Forecast
  | ⟨viewType, attributes, children⟩ =>
    match Kind.ofType? viewType with
    | none => ⟨[], some (.unresolvedType viewType)⟩
    | some k =>
      let own := (declared ⟨viewType, attributes, children⟩).map (k.outcome data index ⟨n⟩ viewType)
      let below :=
        if k = .container then forecastAll data index (n + 1) children else .succeeds []
      (Forecast.succeeds own).andThen
        (below.andThen (.succeeds (childrenOutcomes k ⟨n⟩ viewType children)))
termination_by structural source => source

/-- What inflating children one after the other comes to. -/
def forecastAll (data : Fields) (index : Int) (n : Nat) : List LayoutSource → Forecast
  | [] => .succeeds []
  | child :: rest =>
    (forecast data index n child).andThen (forecastAll data index (n + child.extent) rest)
termination_by structural children => children

end

variable {data : Fields} {index : Int} {source : LayoutSource}

/-- A source of an unknown type fails at once. -/
theorem forecast_of_none (h : Kind.ofType? source.viewType = none) (n : Nat) :
    source.forecast data index n = ⟨[], some (.unresolvedType source.viewType)⟩ := by
  obtain ⟨viewType, attributes, children⟩ := source
  rw [forecast, h]

/-- A source of a known type has its attributes handled in order, and a container then its children.
-/
theorem forecast_of_some {k : Kind} (h : Kind.ofType? source.viewType = some k) (n : Nat) :
    source.forecast data index n =
      (Forecast.succeeds (source.declared.map (k.outcome data index ⟨n⟩ source.viewType))).andThen
        ((if k = .container then forecastAll data index (n + 1) source.children
          else .succeeds []).andThen
          (.succeeds (childrenOutcomes k ⟨n⟩ source.viewType source.children))) := by
  obtain ⟨viewType, attributes, children⟩ := source
  rw [forecast, h]

end LayoutSource

/-! ## Meeting a forecast -/

namespace Engine

variable {α β : Type} {verbose : Bool} {base : Nat} {f f' : Forecast} {s s' : Session}
  {x y : Engine α} {g : α → Engine β}

/-- A step in a session comes to what is forecast, the widgets numbered on from `base`; attributes
are told of if the engine is verbose. -/
structure Meets (x : Engine α) (verbose : Bool) (base : Nat) (s : Session) (f : Forecast) :
    Prop where
  failure? : x.failure? s = f.failure?
  tells : verbose = true → s.Tells (f.outcomes.map (·.after base)) (x s).2

namespace Meets

/-- A run with a result that tells the outcomes meets a forecast without failure. -/
theorem of_ok {a : α} {outcomes : List Outcome} (hrun : x s = (.ok a, s'))
    (htells : verbose = true → s.Tells (outcomes.map (·.after base)) s') :
    x.Meets verbose base s (.succeeds outcomes) := by
  refine ⟨failure?_of_ok hrun, ?_⟩
  rw [hrun]
  exact htells

/-- Forecasts are met or missed by what a run does. -/
theorem of_eq (hrun : x s = y s) (h : y.Meets verbose base s f) : x.Meets verbose base s f := by
  refine ⟨?_, ?_⟩
  · rw [Engine.failure?, hrun]
    exact h.failure?
  · rw [hrun]
    exact h.tells

/-- A step that does what another does from where the session has got to. -/
theorem of_run {outcomes : List Outcome} (hrun : x s = y s')
    (htells : verbose = true → s.Tells (outcomes.map (·.after base)) s')
    (h : y.Meets verbose base s' f) :
    x.Meets verbose base s ((Forecast.succeeds outcomes).andThen f) := by
  refine ⟨?_, ?_⟩
  · rw [Engine.failure?, hrun]
    exact h.failure?
  · intro hverbose
    rw [hrun]
    have hboth := (htells hverbose).trans (h.tells hverbose)
    rwa [← List.map_append] at hboth

/-- Steps one after the other meet the forecasts one after the other. -/
theorem bind (h : x.Meets verbose base s f)
    (hg : ∀ a s', x s = (.ok a, s') → (g a).Meets verbose base s' f') :
    (x >>= g).Meets verbose base s (f.andThen f') := by
  have hfailure := h.failure?
  have htells := h.tells
  rcases hrun : x s with ⟨e | a, s'⟩
  all_goals rw [hrun] at htells
  · rw [failure?_of_error hrun] at hfailure
    rw [Forecast.andThen_of_some hfailure.symm]
    refine ⟨?_, ?_⟩
    · rw [failure?_of_error (Fallible.bind_run_error hrun), hfailure]
    · rw [Fallible.bind_run_error hrun]
      exact htells
  · rw [failure?_of_ok hrun] at hfailure
    obtain ⟨outcomes, failure?⟩ := f
    cases hfailure
    exact .of_run (Fallible.bind_run_ok hrun) htells (hg a s' hrun)

/-- What is returned in the end is of no matter. -/
theorem bind_pure (h : x.Meets verbose base s f) (g : α → β) :
    (x >>= fun a => pure (g a)).Meets verbose base s f := by
  have hpure : ∀ a s', (pure (g a) : Engine β).Meets verbose base s' (.succeeds []) := fun a s' =>
    of_ok (Fallible.pure_run (g a) s') fun _ => .refl s'
  have hbind := h.bind fun a s' _ => hpure a s'
  rwa [Forecast.andThen_nothing] at hbind

end Meets

end Engine

/-! ## Sources -/

namespace Value

/-- Arrays of items that read alike read alike. -/
theorem itemsText_eq_of_forall₂ {items items' : List Value}
    (h : List.Forall₂ (fun item item' => item.text = item'.text) items items') :
    itemsText items = itemsText items' := by
  induction h with
  | nil => rfl
  | @cons item item' rest rest' hitem hrest ih =>
    cases hrest with
    | nil => simp only [itemsText, hitem]
    | cons hnext hmore => simp only [itemsText, hitem] at ih ⊢; rw [ih]

end Value

namespace LayoutSource

variable {context : Context} {unknown : UnknownType} {data : Fields} {index : Int} {s : Session}
  {source : LayoutSource}

/-- The children of a compiled layout are told of by their types alone. -/
theorem childrenOutcomes_eq {t : IdTable} {children : List LayoutSource} {below : List Layout}
    (hbelow : List.Forall₂ (fun child l => child.compile t = (.ok l, t)) children below) (k : Kind)
    (id : WidgetId) (viewType : String) :
    childrenOutcomes k id viewType children = (Layout.asChildren below).map fun named =>
      ⟨id, viewType, named.1, named.2.text, k = .container⟩ := by
  cases hbelow with
  | nil => rfl
  | @cons child l rest more hl hmore =>
    have htext : Value.text (.array ((child :: rest).map fun child =>
        .layout ⟨child.viewType, [], none⟩)) = Value.text (.array ((l :: more).map .layout)) := by
      rw [Value.text, Value.text, Value.itemsText_eq_of_forall₂]
      have htypes : ∀ child l, LayoutSource.compile child t = (.ok l, t) →
          (Value.layout ⟨child.viewType, [], none⟩).text = (Value.layout l).text := by
        intro child l hcompiled
        obtain ⟨_, hdescribes⟩ := describes_of_compile hcompiled
        rw [Value.text, Value.text, hdescribes.viewType]
      rw [List.forall₂_map_left_iff, List.forall₂_map_right_iff]
      exact .cons (htypes child l hl) (hmore.imp htypes)
    rw [childrenOutcomes, htext]
    rfl

/-- What a source is compiled to meets the forecast in every session with the engine's own
parsers. -/
def MeetsForecast (context : Context) (unknown : UnknownType) (data : Fields) (index : Int)
    (source : LayoutSource) : Prop :=
  ∀ ⦃s : Session⦄ ⦃l : Layout⦄ ⦃parent : Option WidgetId⦄ ⦃base n : Nat⦄,
    s.widgets.length = base + n → context.registry.Offers s.ids →
    source.compile s.ids = (.ok l, s.ids) →
    (l.inflate context unknown data parent index).Meets context.verbose base s
      (source.forecast data index (n + 1))

section

variable
  (hunknown : ∀ l data index s, unknown l data index s = (.error (.unresolvedType l.viewType), s))
include hunknown

/-- Children meet their forecasts one after the other. -/
theorem inflateAll_meets (parent : WidgetId) {base n : Nat} {children : List LayoutSource}
    {ls : List Layout} (hn : s.widgets.length = base + n) (hoffers : context.registry.Offers s.ids)
    (h : ∀ child ∈ children, child.MeetsForecast context unknown data index)
    (hcompiled : List.Forall₂ (fun child l => child.compile s.ids = (.ok l, s.ids)) children ls) :
    (Value.inflateAll context unknown data parent index (ls.map Value.layout)).Meets
      context.verbose base s (forecastAll data index (n + 1) children) := by
  induction children generalizing s n ls with
  | nil =>
    cases hcompiled
    exact .of_ok (Fallible.pure_run [] s) fun _ => .refl s
  | cons child rest ih =>
    cases hcompiled with
    | @cons _ l _ ls hl hls =>
    rw [List.map_cons, Value.inflateAll_of_layout, forecastAll]
    refine (h child (by simp) hn hoffers hl).bind ?_
    intro id s₁ hrun
    refine Engine.Meets.bind_pure ?_ fun more => id :: more
    rcases inflates (fun l data index s => ⟨_, _, hunknown l data index s⟩) child hoffers hl with
      ⟨-, s₂, hok, hbuilt⟩ | ⟨-, e, s₂, herror⟩
    · rw [hrun] at hok
      cases hok
      have hlength : s₁.widgets.length = base + (n + child.extent) := by
        rw [hbuilt.length, length_nodes, hn, Nat.add_assoc]
      have hrest := ih hlength (hoffers.mono hbuilt.frame.ids)
        (fun c hc => h c (List.mem_cons_of_mem child hc))
        (hls.imp fun _ _ hc => compile_of_le hc hbuilt.frame.ids)
      rwa [Nat.add_right_comm] at hrest
    · rw [hrun] at herror
      cases herror

/-- What is left once the declared attributes have been applied to the newest widget are the
children. -/
theorem applyAttributes_meets {base n : Nat} {children : List LayoutSource}
    {below : List Layout} {id : WidgetId} {mid : ManagerId} {m : Manager} {k : Kind} {w : Widget}
    {look : Look} (viewType : String)
    (hid : id = ⟨base + (n + 1)⟩) (hn : s.widgets.length = base + (n + 1))
    (hm : s.Managed id mid m k w look) (hdata : m.data = data) (hindex : m.index = index)
    (hoffers : context.registry.Offers s.ids)
    (hcompiled : List.Forall₂ (fun child l => child.compile s.ids = (.ok l, s.ids)) children below)
    {last : List Attribute}
    (hlast : List.Forall₂ (Attribute.Bears s.ids) (Layout.asChildren below) last)
    (ih : ∀ child ∈ children, child.MeetsForecast context unknown data index) :
    (Layout.applyAttributes context unknown m.parser viewType id last).Meets context.verbose base s
      ((if k = .container then forecastAll data index (n + 2) children
        else .succeeds []).andThen
        (.succeeds (childrenOutcomes k ⟨n + 1⟩ viewType children))) := by
  have houtcomes : (childrenOutcomes k ⟨n + 1⟩ viewType children).map (·.after base) =
      (Layout.asChildren below).map fun named =>
        ⟨id, viewType, named.1, named.2.text, k = .container⟩ := by
    rw [childrenOutcomes_eq hcompiled, List.map_map, hid]
    rfl
  by_cases hnone : k ≠ .container ∨ below = []
  · obtain ⟨log, hrun, htells⟩ := applyAttributes_ignored context unknown hnone hm hlast viewType
    have hbelow : (if k = .container then forecastAll data index (n + 2) children
        else .succeeds []) = Forecast.succeeds [] := by
      rcases hnone with hne | rfl
      · rw [if_neg hne]
      · rw [List.forall₂_nil_right_iff.1 hcompiled, forecastAll, ite_self]
    rw [hbelow, Forecast.nothing_andThen]
    refine .of_ok hrun fun hverbose => ?_
    rw [houtcomes]
    rcases hnone with hne | rfl
    · simpa [hne] using htells hverbose
    · exact htells hverbose
  · obtain ⟨hcontainer, hbelow⟩ := not_or.1 hnone
    obtain rfl : k = .container := not_not.1 hcontainer
    obtain ⟨l', more, rfl⟩ := List.exists_cons_of_ne_nil hbelow
    obtain ⟨a, ha, rfl⟩ := Layout.exists_of_bears_asChildren hlast
    have happly := hm.applyChildren_eq context unknown (l' :: more) ha rfl
    subst hdata hindex
    have hall := inflateAll_meets hunknown id hn hoffers ih hcompiled
    have hreplace : ∀ ids s₁, Engine.Meets (do
        Engine.change (·.replaceChildren id ids)
        return true : Engine Bool) context.verbose base s₁ (.succeeds []) := fun ids s₁ =>
      .of_ok rfl fun _ => tells_replaceChildren id ids s₁
    have hreplaced := hall.bind fun ids s₁ _ => hreplace ids s₁
    rw [Forecast.andThen_nothing] at hreplaced
    have hvalue : Engine.Meets ((Value.array ((l' :: more).map .layout)).apply context unknown
        m.parser id a) context.verbose base s (forecastAll m.data m.index (n + 2) children) :=
      .of_eq happly hreplaced
    rw [if_pos rfl, Layout.applyAttributes_of_cons]
    refine hvalue.bind ?_
    intro accepted s₂ hrun
    rw [happly] at hrun
    obtain ⟨ids, s₁, hrun₁, hrun⟩ := Fallible.exists_of_bind_run_ok hrun
    cases hrun
    -- That the forecast held does not yet say which widgets the children have become.
    rcases inflateAll_run id hoffers (fun child _ =>
      inflates (fun l data index s => ⟨_, _, hunknown l data index s⟩) child) hcompiled with
      ⟨-, s₂, hok, hbuilt⟩ | ⟨-, e, s₂, herror⟩
    · rw [hrun₁] at hok
      cases hok
      have hc := (hm.frame hbuilt.frame (fun hno => hno) fun hno => hno).replaceChildren_changes
        (childIds (s.widgets.length + 1) children)
      have hname := attributeName_of_get?
        (IdTable.get?_mono (hbuilt.frame.ids.trans hc.touches.ids) ha)
      have htold := tells_noteOutcome id viewType a (.array ((l' :: more).map .layout)) true
        (s₁.replaceChildren id (childIds (s.widgets.length + 1) children))
      rw [hname] at htold
      cases hverbose : context.verbose with
      | true => exact .of_ok rfl fun _ => houtcomes ▸ htold
      | false => exact .of_ok rfl fun h => absurd h Bool.false_ne_true
    · rw [hrun₁] at herror
      cases herror

/-- A node whose children meet their forecasts meets its own. -/
theorem meetsForecast_of_children
    (ih : ∀ child ∈ source.children, child.MeetsForecast context unknown data index) :
    source.MeetsForecast context unknown data index := by
  intro s l parent base n hn hoffers hcompiled
  obtain ⟨below, hdescribes⟩ := describes_of_compile hcompiled
  have htype := hoffers source.viewType
  cases hk : Kind.ofType? source.viewType with
  | none =>
    rw [hk] at htype
    have hrun := Layout.inflate_of_none unknown data parent index (hdescribes.viewType ▸ htype) s
    rw [hunknown, hdescribes.viewType] at hrun
    rw [forecast_of_none hk]
    refine ⟨Engine.failure?_of_error hrun, ?_⟩
    rw [hrun]
    exact fun _ => s.tells_note _
  | some k =>
    rw [hk] at htype
    obtain ⟨parser, hget, hserves⟩ := htype
    obtain ⟨s₁, w₁, s₂, w, last, hrun, hstarts, hc, hm, -, -, hlast, htells⟩ :=
      inflate_started context unknown data index parent hget hserves hdescribes
    have hids : s.ids ≤ s₂.ids := (hstarts.frame_of_changes hc).ids
    have hid : s.widgets.length + 1 = base + (n + 1) := by omega
    have hlength : s₂.widgets.length = base + (n + 1) :=
      (hc.touches.length.trans hstarts.length).trans hid
    have hmeets := applyAttributes_meets hunknown l.viewType (congrArg WidgetId.mk hid) hlength hm
      rfl rfl (hoffers.mono hids) (hdescribes.children.imp fun _ _ hc => compile_of_le hc hids)
      hlast ih
    rw [forecast_of_some hk, ← hdescribes.viewType]
    refine .of_run hrun ?_ (hmeets.bind_pure _)
    intro hverbose
    rw [List.map_map]
    rw [hid] at htells
    exact htells hverbose

/-- Where there is no host to ask, every source meets its forecast. -/
theorem meetsForecast (source : LayoutSource) :
    source.MeetsForecast context unknown data index := by
  induction source using induction with
  | step source ih => exact meetsForecast_of_children hunknown ih

end

end LayoutSource

/-- Where the parsers are the engine's own and there is no host to ask, inflating what a source is
compiled to comes to what is forecast of the source. -/
theorem Context.inflate_meets {context : Context} {s : Session}
    (hcontext : context.HasOwnParsers s.ids) {source : LayoutSource} {l : Layout}
    (hcompiled : source.compile s.ids = (.ok l, s.ids)) (data : Fields)
    (parent : Option WidgetId) (index : Int) :
    (context.inflate l data parent index).Meets context.verbose s.widgets.length s
      (source.forecast data index 1) :=
  source.meetsForecast
    (fun l data index s => unknown_of_no_fallback hcontext.fallback _ l data index s) rfl
    hcontext.offers hcompiled

end LayoutEngine
