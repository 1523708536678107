import LayoutEngine.Proofs.Inflation
import LayoutEngine.Proofs.Weaving

/-!
# What inflating carries along

Whatever inflating a layout does to a session, it does by a few kinds of steps: something is told, a
widget is made, a widget is given out for a layout and starts as its own, a property of a started
widget is set, or a started widget is given other children. A relation between sessions that all of
these keep (`Context.Carries`) is kept by inflating any layout and by applying any attribute,
whether or not it fails (`Layout.inflate_carries`, `Value.apply_carries`).

A `Provision` says which layouts, data and values come up at all. A relation need only be kept by
the steps that these lead to (`Context.CarriesFrom`), and is then kept by inflating the layouts
(`Layout.inflate_carriesFrom`); `Context.Carries` is the case in which anything may come up.
-/

namespace LayoutEngine

open Session Engine

/-- A widget is given out for a layout, gets a manager unless it has one, and what the layout
declares is recorded. -/
def ViewParser.start (parser : ViewParser) (verbose : Bool) (l : Layout) (data : Fields)
    (parent : Option WidgetId) (index : Int) (s : Session) : WidgetId × Session :=
  let (id, s) := parser.giveOut l.viewType index s
  (id, (parser.attach verbose l data parent index id s).recordTags id l)

/-- Where the parser makes a new widget every time, that is the next one, and it gets a manager. -/
theorem ViewParser.start_of_new {parser : ViewParser} (hnew : parser.place? = none)
    (verbose : Bool) (l : Layout) (data : Fields) (parent : Option WidgetId) (index : Int)
    (s : Session) :
    (parser.start verbose l data parent index s).1 = ⟨s.widgets.length + 1⟩ ∧
      s.Born (parser.start verbose l data parent index s).2
        ⟨⟨s.widgets.length + 1⟩, l, parser, parent, index, data⟩ := by
  rcases parser.giveOut_run l.viewType index s with
    ⟨id, place, s₁, -, -, hplace, -⟩ | ⟨item, s₁, hgive, hmakes⟩
  · rw [hnew] at hplace
    cases hplace
  · simp only [start, hgive]
    exact ⟨trivial, (hmakes.attach verbose l data parent index).recordTags _ l⟩

/-- What comes up in a session: layouts and the data and places that they are inflated with, the
values that are set for a property, the items of widgets that are made, and edits. -/
structure Provision where
  layouts : Layout → Prop
  data : Fields → Prop
  places : Int → Prop
  allows : Property → Value → Prop
  items : Item → Prop
  edits : String → Json → Prop

namespace Provision

/-- Anything may come up. -/
def everything : Provision where
  layouts _ := True
  data _ := True
  places _ := True
  allows _ _ := True
  items _ := True
  edits _ _ := True

/-- An attribute that a parser handles only sets what is allowed, and the layouts in its value may
come up. -/
structure Offers (provision : Provision) (parser : ViewParser) (a : Attribute) : Prop where
  allows : ∀ p, parser.handler.route a.id = .property p → provision.allows p a.value
  layouts : ∀ l ∈ a.value.layouts, provision.layouts l

/-- What a parser makes a widget and its manager from may come up. -/
structure Equips (provision : Provision) (l : Layout) (parser : ViewParser) (data : Fields)
    (index : Int) : Prop where
  data : provision.data data
  place : provision.places index
  offers : ∀ a ∈ l.attributes, provision.Offers parser a

/-- What layouts lead to, among them the named ones, comes up as well. -/
structure Closed (provision : Provision) (context : Context) : Prop where
  offers : ∀ {l : Layout} {parser : ViewParser}, provision.layouts l →
    context.registry.get? l.viewType = some parser → ∀ a ∈ l.attributes, provision.Offers parser a
  named : ∀ {name : String} {l : Layout}, context.layouts.get? name = some l → provision.layouts l
  view : provision.items .view

/-- Anything may be offered where everything may come up. -/
theorem offers_everything (parser : ViewParser) (a : Attribute) : everything.Offers parser a :=
  ⟨fun _ _ => trivial, fun _ _ => trivial⟩

/-- What may come up is closed if everything may. -/
theorem closed_everything (context : Context) : everything.Closed context :=
  ⟨fun _ _ _ _ => offers_everything _ _, fun _ => trivial, trivial⟩

end Provision

/-- A relation between sessions is kept by all that inflating comes down to as long as nothing comes
up but what is provided, in sessions of which something holds and for widgets of which something
holds. It does hold of a widget that starts, and managers have been made from what is provided. -/
structure Context.CarriesFrom (context : Context) (provision : Provision) (holds : Session → Prop)
    (of : WidgetId → Prop) (R : Session → Session → Prop) : Prop where
  told : ∀ (s : Session) log calls, R s { s with log := log, calls := calls }
  create : ∀ {item : Item}, provision.items item → ∀ s : Session, R s (s.create item).2
  start : ∀ {l : Layout} {parser : ViewParser}, context.registry.get? l.viewType = some parser →
    ∀ {data index}, provision.Equips l parser data index → ∀ verbose parent s, holds s →
      of (parser.start verbose l data parent index s).1 ∧
        R s (parser.start verbose l data parent index s).2
  property : ∀ {id : WidgetId}, of id → ∀ {p value}, provision.allows p value →
    ∀ s, holds s → R s (s.applyProperty id p value).2
  children : ∀ {id : WidgetId}, of id → ∀ children s, R s (s.setChildren id children)
  still : ∀ {s s' : Session}, R s s' → holds s → holds s'
  managed : ∀ {s : Session} {mid m}, holds s → s.manager? mid = some m →
    provision.Equips m.layout m.parser m.data m.index

/-- A relation between sessions is kept by all that inflating comes down to, in sessions of which
something holds and for widgets of which something holds. It does hold of a widget that starts. -/
structure Context.Carries (context : Context) (holds : Session → Prop) (of : WidgetId → Prop)
    (R : Session → Session → Prop) : Prop where
  told : ∀ (s : Session) log calls, R s { s with log := log, calls := calls }
  create : ∀ (item : Item) (s : Session), R s (s.create item).2
  start : ∀ {l : Layout} {parser : ViewParser}, context.registry.get? l.viewType = some parser →
    ∀ verbose data parent index s, holds s →
      of (parser.start verbose l data parent index s).1 ∧
        R s (parser.start verbose l data parent index s).2
  property : ∀ {id : WidgetId}, of id → ∀ p value s, R s (s.applyProperty id p value).2
  children : ∀ {id : WidgetId}, of id → ∀ children s, R s (s.setChildren id children)
  still : ∀ {s s' : Session}, R s s' → holds s → holds s'

/-- What is done about unknown types keeps a relation as long as nothing comes up but what is
provided, in sessions of which something holds. -/
def UnknownType.CarriesFrom (registry : Registry) (provision : Provision) (holds : Session → Prop)
    (R : Session → Session → Prop) (unknown : UnknownType) : Prop :=
  ∀ ⦃l : Layout⦄, registry.get? l.viewType = none → ∀ ⦃data index⦄, provision.data data →
    provision.places index → ∀ ⦃s : Session⦄, holds s →
    Engine.Leads R (unknown l data index) s fun _ _ => True

/-- What is done about unknown types keeps a relation in sessions of which something holds. -/
def UnknownType.Carries (registry : Registry) (holds : Session → Prop)
    (R : Session → Session → Prop) (unknown : UnknownType) : Prop :=
  ∀ ⦃l : Layout⦄, registry.get? l.viewType = none → ∀ data index ⦃s : Session⦄, holds s →
    Engine.Leads R (unknown l data index) s fun _ _ => True

/-- What keeps a relation whatever comes up keeps it for what a provision lets come up. -/
theorem UnknownType.Carries.carriesFrom {registry : Registry} {provision : Provision}
    {holds : Session → Prop} {R : Session → Session → Prop} {unknown : UnknownType}
    (h : unknown.Carries registry holds R) : unknown.CarriesFrom registry provision holds R :=
  fun _ hget data index _ _ _ hs => h hget data index hs

/-- A relation that all steps keep is kept by those that a provision leads to. -/
theorem Context.Carries.carriesFrom {context : Context} {holds : Session → Prop}
    {of : WidgetId → Prop} {R : Session → Session → Prop} (h : context.Carries holds of R) :
    context.CarriesFrom .everything holds of R where
  told := h.told
  create _ := h.create _
  start hget _ _ _ verbose parent s hs := h.start hget verbose _ parent _ s hs
  property hid _ _ _ s _ := h.property hid _ _ s
  children := h.children
  still := h.still
  managed _ _ := ⟨trivial, trivial, fun _ _ => Provision.offers_everything _ _⟩

section

variable {context : Context} {unknown : UnknownType} {provision : Provision}
  {holds : Session → Prop} {of : WidgetId → Prop} {R : Session → Session → Prop} {s s' : Session}

/-- The start of an inflation, as one step. -/
theorem Layout.inflate_eq_start (unknown : UnknownType) (data : Fields)
    (parent : Option WidgetId) (index : Int) {l : Layout} {parser : ViewParser}
    (hget : context.registry.get? l.viewType = some parser) (s : Session) :
    l.inflate context unknown data parent index s =
      (do
        applyAttributes context unknown parser l.viewType
          (parser.start context.verbose l data parent index s).1 l.attributes
        return (parser.start context.verbose l data parent index s).1 : Engine WidgetId)
      (parser.start context.verbose l data parent index s).2 :=
  inflate_eq unknown data parent index hget s

variable (hcarries : context.CarriesFrom provision holds of R)
include hcarries

namespace Context.CarriesFrom

/-- Telling something is kept. -/
theorem note (notice : Notice) (s : Session) : R s (s.note notice) :=
  hcarries.told s (s.log ++ [notice]) s.calls

/-- Telling how an attribute fared is kept. -/
theorem noteOutcome (id : WidgetId) (viewType : String) (a : Int) (value : Value) (accepted : Bool)
    (s : Session) : R s (s.noteOutcome id viewType a value accepted) := by
  unfold Session.noteOutcome
  dsimp only
  split <;> exact hcarries.note _ s

/-- Telling the observers is kept. -/
theorem reportHandled (parser : ViewParser) (a : Int) (value : Value) (result : Option Bool)
    (s : Session) : R s (parser.reportHandled a value result s) := by
  obtain ⟨calls, hreport⟩ := parser.reportHandled_eq a value result s
  rw [hreport]
  exact hcarries.told s s.log calls

/-- A widget's manager has been made from what is provided. -/
theorem equips {id : WidgetId} {m : Manager} (hs : holds s) (hm : s.managerOf? id = some m) :
    provision.Equips m.layout m.parser m.data m.index := by
  obtain ⟨_, _, _, _, hmanager⟩ := managerOf?_eq_some_iff.1 hm
  exact hcarries.managed hs hmanager

end Context.CarriesFrom

variable [IsPreorder Session R]

/-- Giving a started widget other children is kept. -/
theorem Context.CarriesFrom.replaceChildren {id : WidgetId} (hid : of id)
    (children : List WidgetId) (s : Session) : R s (s.replaceChildren id children) := by
  unfold Session.replaceChildren
  dsimp only
  split
  · exact hcarries.children hid children s
  · exact trans_of R (hcarries.children hid children s) (hcarries.note _ _)

variable (hclosed : provision.Closed context)

include hclosed in
/-- A layout whose type has a parser starts, and its attributes are applied. -/
theorem Layout.inflate_carriesFrom_of_attributes
    (hunknown : unknown.CarriesFrom context.registry provision holds R)
    {data : Fields} (hdata : provision.data data) (parent : Option WidgetId) {index : Int}
    (hindex : provision.places index) {l : Layout} (hl : provision.layouts l) (hs : holds s)
    (hattributes : ∀ {s : Session} (parser : ViewParser) (id : WidgetId), of id →
      (∀ a ∈ l.attributes, provision.Offers parser a) → holds s →
      Leads R (applyAttributes context unknown parser l.viewType id l.attributes) s
        fun _ _ => True) :
    Leads R (l.inflate context unknown data parent index) s fun _ _ => True := by
  cases hget : context.registry.get? l.viewType with
  | none =>
    have hrun := inflate_of_none unknown data parent index hget s
    have hnote := hcarries.note (.noParser l.viewType) s
    exact .of_run hrun hnote (hunknown hget hdata hindex (hcarries.still hnote hs))
  | some parser =>
    have hoffers := hclosed.offers hl hget
    obtain ⟨hid, hstart⟩ :=
      hcarries.start hget ⟨hdata, hindex, hoffers⟩ context.verbose parent s hs
    refine .of_run (inflate_eq_start unknown data parent index hget s) hstart ?_
    exact (hattributes parser _ hid hoffers (hcarries.still hstart hs)).bind
      fun _ _ _ _ => .pure trivial

/-- An attribute is told of once it has been handled, if at all. -/
theorem Layout.applyAttributes_carriesFrom_cons {parser : ViewParser} {viewType : String}
    {id : WidgetId} {a : Int} {value : Value} {rest : List Attribute} (hs : holds s)
    (hvalue : Leads R (value.apply context unknown parser id a) s fun _ _ => True)
    (hrest : ∀ {s : Session}, holds s →
      Leads R (applyAttributes context unknown parser viewType id rest) s fun _ _ => True) :
    Leads R (applyAttributes context unknown parser viewType id (⟨a, value⟩ :: rest)) s
      fun _ _ => True := by
  rw [applyAttributes_of_cons]
  refine hvalue.bind ?_
  intro accepted s₁ h₁ _
  have hs₁ := hcarries.still h₁ hs
  dsimp only
  split
  · have hnote := hcarries.noteOutcome id viewType a value accepted s₁
    exact .change_bind hnote (hrest (hcarries.still hnote hs₁))
  · exact hrest hs₁

/-- An attribute is left out, sets a property of its widget, or gives it other children. -/
theorem Value.apply_carriesFrom_of_inflateAll {parser : ViewParser} {id : WidgetId} {a : Int}
    {value : Value} (hoffers : provision.Offers parser ⟨a, value⟩) (hid : of id) (hs : holds s)
    (hall : ∀ items, value = .array items → ∀ {data index}, provision.data data →
      provision.places index →
      Leads R (inflateAll context unknown data id index items) s fun _ _ => True) :
    Leads R (value.apply context unknown parser id a) s fun _ _ => True := by
  have hreport := fun result s' => hcarries.reportHandled parser a value result s'
  cases hroute : parser.handler.route a with
  | property p =>
    have hp := hcarries.property hid (hoffers.allows p hroute) s hs
    rw [apply_of_property hroute]
    exact Leads.observe (.act hp trivial) parser a value hreport
  | children =>
    by_cases harray : ∃ items, value = .array items
    · obtain ⟨items, rfl⟩ := harray
      rw [apply_of_children hroute]
      refine Leads.observe (.look_bind ?_) parser a _ hreport
      cases hm : s.managerOf? id with
      | none => exact .change_bind (hcarries.note _ s) (.pure trivial)
      | some m =>
        have hequips := hcarries.equips hs hm
        dsimp only
        split
        · refine (hall items rfl hequips.data hequips.place).bind ?_
          intro children s₁ _ _
          exact .change_bind (hcarries.replaceChildren hid children s₁) (.pure trivial)
        · exact .change_bind (hcarries.note _ s) (.pure trivial)
    · rw [apply_of_not_array hroute fun items hitems => harray ⟨items, hitems⟩]
      exact Leads.observe (.pure trivial) parser a value hreport
  | presence =>
    rw [apply_of_presence hroute]
    exact Leads.observe (.pure trivial) parser a value hreport
  | unknown =>
    rw [apply_of_unknown hroute]
    exact Leads.observe (.pure trivial) parser a value hreport

/-- A layout among values is inflated, and then the other values are. -/
theorem Value.inflateAll_carriesFrom_cons {data : Fields} {parent : WidgetId} {index : Int}
    {l : Layout} {rest : List Value} (hs : holds s)
    (hl : Leads R (l.inflate context unknown data (some parent) index) s fun _ _ => True)
    (hrest : ∀ {s : Session}, holds s →
      Leads R (inflateAll context unknown data parent index rest) s fun _ _ => True) :
    Leads R (inflateAll context unknown data parent index (.layout l :: rest)) s
      fun _ _ => True := by
  rw [inflateAll_of_layout]
  refine hl.bind ?_
  intro _ s₁ h₁ _
  exact (hrest (hcarries.still h₁ hs)).bind fun _ _ _ _ => .pure trivial

omit hcarries

mutual

/-- Inflating a layout keeps a relation that the steps keep which it comes down to. -/
theorem Layout.inflate_carriesFrom (hcarries : context.CarriesFrom provision holds of R)
    (hclosed : provision.Closed context)
    (hunknown : unknown.CarriesFrom context.registry provision holds R)
    {data : Fields} (hdata : provision.data data) (parent : Option WidgetId) {index : Int}
    (hindex : provision.places index) :
    ∀ (l : Layout), provision.layouts l → ∀ {s : Session}, holds s →
      Leads R (l.inflate context unknown data parent index) s fun _ _ => True
  | ⟨viewType, attributes, tags⟩, hl, _, hs =>
    Layout.inflate_carriesFrom_of_attributes (l := ⟨viewType, attributes, tags⟩) hcarries hclosed
      hunknown hdata parent hindex hl hs fun parser _ hid hoffers hs =>
        Layout.applyAttributes_carriesFrom hcarries hclosed hunknown parser viewType hid attributes
          hoffers hs
termination_by structural l => l

/-- So does applying attributes to a widget. -/
theorem Layout.applyAttributes_carriesFrom (hcarries : context.CarriesFrom provision holds of R)
    (hclosed : provision.Closed context)
    (hunknown : unknown.CarriesFrom context.registry provision holds R)
    (parser : ViewParser) (viewType : String) {id : WidgetId} (hid : of id) :
    ∀ (attributes : List Attribute), (∀ a ∈ attributes, provision.Offers parser a) →
      ∀ {s : Session}, holds s →
      Leads R (Layout.applyAttributes context unknown parser viewType id attributes) s
        fun _ _ => True
  | [], _, _, _ => .pure trivial
  | ⟨a, value⟩ :: rest, hoffers, _, hs =>
    Layout.applyAttributes_carriesFrom_cons hcarries hs
      (Value.apply_carriesFrom hcarries hclosed hunknown parser hid a value
        (List.forall_mem_cons.1 hoffers).1 hs)
      (Layout.applyAttributes_carriesFrom hcarries hclosed hunknown parser viewType hid rest
        (List.forall_mem_cons.1 hoffers).2)
termination_by structural attributes => attributes

/-- Applying an attribute keeps what the steps keep that a provision leads to. -/
theorem Value.apply_carriesFrom (hcarries : context.CarriesFrom provision holds of R)
    (hclosed : provision.Closed context)
    (hunknown : unknown.CarriesFrom context.registry provision holds R)
    (parser : ViewParser) {id : WidgetId} (hid : of id) (a : Int) :
    ∀ (value : Value), provision.Offers parser ⟨a, value⟩ → ∀ {s : Session}, holds s →
      Leads R (value.apply context unknown parser id a) s fun _ _ => True
  | .array items, hoffers, _, hs =>
    Value.apply_carriesFrom_of_inflateAll hcarries hoffers hid hs
      fun items' hitems _ _ hdata hindex => by
        cases hitems
        exact Value.inflateAll_carriesFrom hcarries hclosed hunknown hdata id hindex items
          hoffers.layouts hs
  | .null, hoffers, _, hs | .bool _, hoffers, _, hs | .int _, hoffers, _, hs
  | .float _, hoffers, _, hs | .string _, hoffers, _, hs | .object _, hoffers, _, hs
  | .binding _, hoffers, _, hs | .layout _, hoffers, _, hs =>
    Value.apply_carriesFrom_of_inflateAll hcarries hoffers hid hs nofun
termination_by structural value => value

/-- Inflating layouts one after the other keeps what the steps keep that a provision leads to. -/
theorem Value.inflateAll_carriesFrom (hcarries : context.CarriesFrom provision holds of R)
    (hclosed : provision.Closed context)
    (hunknown : unknown.CarriesFrom context.registry provision holds R)
    {data : Fields} (hdata : provision.data data) (parent : WidgetId) {index : Int}
    (hindex : provision.places index) :
    ∀ (items : List Value), (∀ l ∈ items.filterMap Value.layout?, provision.layouts l) →
      ∀ {s : Session}, holds s →
      Leads R (Value.inflateAll context unknown data parent index items) s fun _ _ => True
  | [], _, _, _ => .pure trivial
  | .layout l :: rest, hall, _, hs =>
    Value.inflateAll_carriesFrom_cons hcarries hs
      (Layout.inflate_carriesFrom hcarries hclosed hunknown hdata (some parent) hindex l
        (List.forall_mem_cons.1 hall).1 hs)
      (Value.inflateAll_carriesFrom hcarries hclosed hunknown hdata parent hindex rest
        (List.forall_mem_cons.1 hall).2)
  | .null :: rest, hall, _, hs | .bool _ :: rest, hall, _, hs | .int _ :: rest, hall, _, hs
  | .float _ :: rest, hall, _, hs | .string _ :: rest, hall, _, hs
  | .object _ :: rest, hall, _, hs | .binding _ :: rest, hall, _, hs
  | .array _ :: rest, hall, _, hs =>
    Value.inflateAll_carriesFrom hcarries hclosed hunknown hdata parent hindex rest hall hs
termination_by structural items => items

end

end

namespace Context

variable {context : Context} {provision : Provision} {holds : Session → Prop}
  {of : WidgetId → Prop} {R : Session → Session → Prop} [IsPreorder Session R] {s : Session}

/-- So does what is done about a type without parser. -/
theorem unknown_carriesFrom (hcarries : context.CarriesFrom provision holds of R)
    (hclosed : provision.Closed context) (budget : Nat) (l : Layout) {data : Fields} {index : Int}
    (s : Session) (hdata : provision.data data) (hindex : provision.places index) (hs : holds s) :
    Leads R (context.unknown budget l data index) s fun _ _ => True := by
  induction budget using Nat.strongRecOn generalizing l data index s with
  | ind budget ih =>
    cases hfallback : context.fallback with
    | none =>
      have hrun : context.unknown budget l data index = throw (.unresolvedType l.viewType) := by
        cases budget <;> simp only [unknown, hfallback]
      rw [hrun]
      exact .throw _
    | some answer =>
      have htell := hcarries.told s s.log
        (s.calls ++ [.unknown l.viewType l.attributes.length data.length index])
      have hcreate := hcarries.create hclosed.view
      rw [unknown, hfallback]
      refine .change_bind htell ?_
      cases answer l.viewType with
      | nothing => exact .throw _
      | newView => exact .act (hcreate _) trivial
      | placeholder => exact .change_bind (hcarries.note _ _) (.act (hcreate _) trivial)
      | widget id => exact .pure trivial
      | layout name =>
        dsimp only
        cases hname : context.layouts.get? name with
        | none => exact .throw _
        | some named =>
          cases budget with
          | zero => exact .throw _
          | succ budget =>
            have hinflate := named.inflate_carriesFrom hcarries hclosed
              (fun l _ _ _ hdata hindex s hs =>
                ih budget (Nat.lt_succ_self budget) l s hdata hindex hs)
              hdata none hindex (hclosed.named hname) (hcarries.still htell hs)
            refine hinflate.tryCatch fun e s' _ => ?_
            split <;> exact .throw _

/-- So does what a context has done about unknown types. -/
theorem carriesFrom_unknown (hcarries : context.CarriesFrom provision holds of R)
    (hclosed : provision.Closed context) (budget : Nat) :
    (context.unknown budget).CarriesFrom context.registry provision holds R :=
  fun l _ _ _ hdata hindex s hs =>
    unknown_carriesFrom hcarries hclosed budget l s hdata hindex hs

end Context

/-! ## Where anything may come up -/

section

variable {context : Context} {unknown : UnknownType} {holds : Session → Prop}
  {of : WidgetId → Prop} {R : Session → Session → Prop} {s : Session}

namespace Context.Carries

/-- Telling something is kept. -/
theorem note (hcarries : context.Carries holds of R) (notice : Notice) (s : Session) :
    R s (s.note notice) :=
  hcarries.carriesFrom.note notice s

/-- Telling how an attribute fared is kept. -/
theorem noteOutcome (hcarries : context.Carries holds of R) (id : WidgetId) (viewType : String)
    (a : Int) (value : Value) (accepted : Bool) (s : Session) :
    R s (s.noteOutcome id viewType a value accepted) :=
  hcarries.carriesFrom.noteOutcome id viewType a value accepted s

end Context.Carries

variable [IsPreorder Session R]

/-- Inflating a layout keeps a relation that the steps keep which it comes down to. -/
theorem Layout.inflate_carries (hcarries : context.Carries holds of R)
    (hunknown : unknown.Carries context.registry holds R)
    (data : Fields) (parent : Option WidgetId) (index : Int) (l : Layout) (hs : holds s) :
    Leads R (l.inflate context unknown data parent index) s fun _ _ => True :=
  l.inflate_carriesFrom hcarries.carriesFrom (Provision.closed_everything context)
    hunknown.carriesFrom trivial parent trivial trivial hs

/-- So does applying an attribute. -/
theorem Value.apply_carries (hcarries : context.Carries holds of R)
    (hunknown : unknown.Carries context.registry holds R)
    (parser : ViewParser) {id : WidgetId} (hid : of id) (a : Int) (value : Value) (hs : holds s) :
    Leads R (value.apply context unknown parser id a) s fun _ _ => True :=
  value.apply_carriesFrom hcarries.carriesFrom (Provision.closed_everything context)
    hunknown.carriesFrom parser hid a (Provision.offers_everything parser _) hs

namespace Context

/-- So does what is done about a type without parser. -/
theorem unknown_carries (hcarries : context.Carries holds of R) (budget : Nat) (l : Layout)
    (data : Fields) (index : Int) (s : Session) (hs : holds s) :
    Leads R (context.unknown budget l data index) s fun _ _ => True :=
  unknown_carriesFrom hcarries.carriesFrom (Provision.closed_everything context) budget l s trivial
    trivial hs

/-- What a context has done about unknown types keeps what all steps keep. -/
theorem carries_unknown (hcarries : context.Carries holds of R) (budget : Nat) :
    (context.unknown budget).Carries context.registry holds R :=
  fun l _ data index s hs => unknown_carries hcarries budget l data index s hs

end Context

end

/-! ## What inflating leaves alone -/

namespace Session

/-- Names, widgets and managers have been added, and only widgets after the first `n` changed. -/
structure Keeps (n : Nat) (s s' : Session) : Prop where
  frame : Frame (fun id => n < id.number) noWidget s s'
  length : s.widgets.length ≤ s'.widgets.length

instance (n : Nat) : IsPreorder Session (Keeps n) where
  refl s := ⟨.refl _ _ s, Nat.le_refl _⟩
  trans _ _ _ h₁ h₂ := ⟨h₁.frame.trans h₂.frame, Nat.le_trans h₁.length h₂.length⟩

/-- Changes of the widgets that are newer than all need not be mentioned. -/
theorem Keeps.forget {s s' : Session} (h : s.Keeps s.widgets.length s') :
    Frame noWidget noWidget s s' :=
  h.frame.forget fun id hid => by
    cases hw : s.widget? id with
    | none => exact .inr rfl
    | some w => exact absurd (number_le_of_widget? hw).2 (Nat.not_le_of_lt hid)

/-- Touching a widget that is not among the first ones leaves those alone. -/
theorem Touches.keeps {n : Nat} {id : WidgetId} {s s' : Session} (h : Touches id s s')
    (hid : n < id.number) : s.Keeps n s' := by
  refine ⟨?_, Nat.le_of_eq h.length.symm⟩
  refine h.frame.mono ?_ fun _ hno => hno
  rintro _ rfl
  exact hid

end Session

namespace Context

/-- The first widgets are none that start. -/
theorem carries_keeps (context : Context) (n : Nat) :
    context.Carries (fun s => n ≤ s.widgets.length ∧ context.registry.Provides s.ids)
      (fun id => n < id.number) (Session.Keeps n) where
  told s log calls := ⟨⟨le_refl s.ids, fun _ _ _ h => h, fun _ _ _ h => h, fun _ _ _ _ => rfl⟩,
    Nat.le_refl _⟩
  create item s := ⟨⟨le_refl s.ids, fun _ _ _ hw => widget?_create_of_some hw item,
    fun _ _ _ h => h, fun _ _ _ _ => rfl⟩, by simp [Session.create]⟩
  start {l parser} hget verbose data parent index s hs := by
    obtain ⟨k, hserves⟩ := hs.2 l.viewType parser hget
    have hstarts := (hserves.attach verbose l data parent index).recordTags l
    simp only [ViewParser.start, hserves.giveOut]
    refine ⟨Nat.lt_succ_of_le hs.1, hstarts.frame.mono (fun _ => False.elim) fun _ => id, ?_⟩
    exact Nat.le_trans (Nat.le_succ _) (Nat.le_of_eq hstarts.length.symm)
  property {id} hid p value s := (touches_applyProperty id p value s).keeps hid
  children {id} hid children s := (Touches.changeWidget id _ s).keeps hid
  still h hs := ⟨Nat.le_trans hs.1 h.length, hs.2.mono h.frame.ids⟩

end Context

/-- What is done about unknown types leaves all widgets alone that were there before. -/
def UnknownType.LeavesOld (registry : Registry) (unknown : UnknownType) : Prop :=
  ∀ n, unknown.Carries registry (fun s => n ≤ s.widgets.length ∧ registry.Provides s.ids)
    (Session.Keeps n)

namespace Context

/-- It is so for what a context has done. -/
theorem unknown_leavesOld (context : Context) (budget : Nat) :
    (context.unknown budget).LeavesOld context.registry :=
  fun n => carries_unknown (context.carries_keeps n) budget

variable {context : Context} {unknown : UnknownType} {s : Session}
  (hunknown : unknown.LeavesOld context.registry) (hprovides : context.registry.Provides s.ids)
include hunknown hprovides

/-- Inflating a layout leaves all widgets alone that were there before. -/
theorem inflate_keeps (data : Fields) (parent : Option WidgetId) (index : Int) (l : Layout) :
    s.Keeps s.widgets.length (l.inflate context unknown data parent index s).2 :=
  (Layout.inflate_carries (context.carries_keeps _) (hunknown _) data parent index l
    ⟨Nat.le_refl _, hprovides⟩).along

/-- So does inflating layouts one after the other. -/
theorem inflateAll_keeps (data : Fields) (parent : WidgetId) (index : Int) (items : List Value) :
    s.Keeps s.widgets.length (Value.inflateAll context unknown data parent index items s).2 :=
  (Value.inflateAll_carriesFrom (context.carries_keeps _).carriesFrom
    (Provision.closed_everything context) (hunknown _).carriesFrom trivial parent trivial items
    (fun _ _ => trivial) ⟨Nat.le_refl _, hprovides⟩).along

end Context

end LayoutEngine
