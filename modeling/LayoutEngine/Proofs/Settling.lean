import LayoutEngine.Proofs.Sound

/-!
# Looks after inflation

When an inflation has come to its end, every widget that it has made for a compiled layout looks as
the layout's declared attributes make it look one after the other (`Context.inflate_settles`),
whatever a host has done about unknown types in the meantime.
-/

namespace LayoutEngine

namespace Session

/-- The managers that one session has more than another are settled: if the layout of one has been
compiled from a source, its widget shows the look that the declared attributes give it. -/
def Settles (t : IdTable) (s s' : Session) : Prop :=
  ∀ ⦃mid m⦄, s.manager? mid = none → s'.manager? mid = some m →
    ∀ source : LayoutSource, source.compile t = (.ok m.layout, t) → ∃ k w,
      s'.Managed m.widget mid m k w
        ((Look.initial m.parent).settle k m.data m.index source.declared)

namespace Settles

variable {t : IdTable} {s s' s'' : Session} {alone : Prop} {T : WidgetId → Prop}

/-- Without new managers there is nothing to settle. -/
theorem of_managers (h : s'.managers = s.managers) : Settles t s s' := by
  intro mid m hnone hm
  rw [manager?, h, ← manager?, hnone] at hm
  cases hm

/-- What is settled stays so, if later steps only change widgets that were there before. -/
theorem trans (h₁ : Settles t s s') (h₂ : Settles t s' s'') (he : Evolves alone T s' s'')
    (hT : ∀ mid m, s'.manager? mid = some m → T m.widget → (s.manager? mid).isSome = true) :
    Settles t s s'' := by
  intro mid m hnone hm source hcompiled
  cases hm' : s'.manager? mid with
  | none => exact h₂ hm' hm source hcompiled
  | some m' =>
    obtain rfl : m' = m := Option.some.inj ((he.frame.manager? mid m' id hm').symm.trans hm)
    obtain ⟨k, w, h⟩ := h₁ hnone hm' source hcompiled
    refine ⟨k, w, h.frame he.frame (fun hchanged => ?_) id⟩
    have hthere := hT mid m' hm' hchanged
    rw [hnone] at hthere
    cases hthere

/-- So it does if later steps change one managed widget that was there before. -/
theorem trans_of_managed (h₁ : Settles t s s') (h₂ : Settles t s' s'') {mid : ManagerId}
    {m : Manager} (hm : s.manager? mid = some m) (hs' : s'.Sound)
    (hm' : s'.manager? mid = some m) (he : Evolves alone (· = m.widget) s' s'') :
    Settles t s s'' := by
  refine h₁.trans h₂ he fun mid' m' hother heq => ?_
  obtain ⟨k, w, look, h⟩ := hs'.managed hm'
  obtain ⟨rfl, rfl⟩ := hs'.eq_of_widget_eq h hother heq
  rw [hm]
  rfl

end Settles

end Session

open Session

/-- What is done about unknown types settles the managers that it adds, if it succeeds. -/
def UnknownType.Settles (registry : Registry) (t : IdTable) (unknown : UnknownType) : Prop :=
  ∀ (l : Layout) (data : Fields) (index : Int) {s : Session}, s.Sound → registry.Offers s.ids →
    t ≤ s.ids → ∀ {id s'}, unknown l data index s = (.ok id, s') → s.Settles t s'

section

variable {context : Context} {unknown : UnknownType} {alone : Prop} {t : IdTable}
  {s s' : Session}

/-- Children, which come last, change nothing about the look of their parent. -/
theorem Session.Managed.of_last (hunknown : unknown.Makes context.registry alone)
    (hs : s.Sound) (hoffers : context.registry.Offers s.ids) {id : WidgetId} {mid : ManagerId}
    {m : Manager} {k : Kind} {w : Widget} {look : Look} (h : s.Managed id mid m k w look)
    {below : List Layout} {last : List Attribute}
    (hlast : List.Forall₂ (Attribute.Bears s.ids) (Layout.asChildren below) last)
    {viewType : String}
    (hrun : Layout.applyAttributes context unknown m.parser viewType id last s = (.ok (), s')) :
    ∃ w', s'.Managed id mid m k w' look := by
  cases below with
  | nil =>
    cases hlast
    cases hrun
    exact ⟨w, h⟩
  | cons l more =>
    obtain ⟨a, hid, rfl⟩ := Layout.exists_of_bears_asChildren hlast
    by_cases hk : k = .container
    · have happly := h.applyChildren_eq context unknown (l :: more) hid hk
      have hmade := Value.inflatedAll hunknown m.data id m.index
        ((l :: more).map Value.layout) hs hoffers
      rcases hall : Value.inflateAll context unknown m.data id m.index
        ((l :: more).map Value.layout) s with ⟨e | children, s₁⟩
      · rw [Fallible.bind_run_error hall] at happly
        rw [Layout.applyAttributes_of_cons,
          Fallible.bind_run_error happly] at hrun
        cases hrun
      · rw [hall] at hmade
        rw [Fallible.bind_run_ok hall, Fallible.bind_run_ok (Engine.change_run _ s₁)] at happly
        obtain ⟨log, -, hlog⟩ := Layout.applyAttributes_cons viewType happly
        have hm₁ := h.frame hmade.evolves.frame (fun hno => hno) fun hno => hno
        have hc := (hm₁.replaceChildren_changes children).withLog log
        cases (hlog []).symm.trans hrun
        exact ⟨_, hm₁.changes hc ((hm₁.shows.mono hc.touches.ids).of_eq rfl rfl)⟩
    · obtain ⟨log, -, hlog⟩ := Layout.applyAttributes_cons viewType
        (h.applyChildren_of_ne context unknown (l :: more) hid hk)
      cases (hlog []).symm.trans hrun
      exact ⟨w, h.withLog log⟩

/-- A new widget is settled once the attributes of its compiled layout have been applied. -/
theorem Session.Managed.settled (hunknown : unknown.Makes context.registry alone)
    (hs : s.Sound) (hoffers : context.registry.Offers s.ids) (ht : t ≤ s.ids) {id : WidgetId}
    {mid : ManagerId} {m : Manager} {k : Kind} {w : Widget} {look : Look}
    (h : s.Managed id mid m k w look) (hchildren : w.children = []) {source : LayoutSource}
    (hcompiled : source.compile t = (.ok m.layout, t)) {viewType : String}
    (hrun : Layout.applyAttributes context unknown m.parser viewType id m.layout.attributes s =
      (.ok (), s')) :
    ∃ w', s'.Managed id mid m k w' (look.settle k m.data m.index source.declared) := by
  obtain ⟨below, hdescribes⟩ := LayoutSource.describes_of_compile hcompiled
  obtain ⟨s₁, w₁, last, hrun₁, hc, hshows, hchildren₁, hlast, -⟩ :=
    LayoutSource.applyAttributes_declared context unknown hdescribes ht h viewType
  have hnone : w₁.children = [] := by
    rw [hchildren₁, hchildren, ite_self]
  have hevolves : s.Evolves alone (· = id) s₁ := by
    refine .of_changes hs h hc hshows fun _ _ child hchild => ?_
    rw [hnone] at hchild
    cases hchild
  exact (h.changes hc hshows).of_last hunknown hevolves.sound (hoffers.mono hevolves.frame.ids)
    hlast (hrun₁.symm.trans hrun)

/-- A layout settles the widget that it becomes, if its attributes settle all others. -/
theorem Layout.settles_of_attributes (hunknown : unknown.Makes context.registry alone)
    (hsettles : unknown.Settles context.registry t) (data : Fields) (parent : Option WidgetId)
    (index : Int) (hs : s.Sound) (hoffers : context.registry.Offers s.ids) (ht : t ≤ s.ids)
    (l : Layout)
    (hattributes : ∀ {s : Session} {mid : ManagerId} {m : Manager}, s.Sound →
      context.registry.Offers s.ids → t ≤ s.ids → s.manager? mid = some m → ∀ {s'},
      applyAttributes context unknown m.parser l.viewType m.widget l.attributes s = (.ok (), s') →
      s.Settles t s')
    {id : WidgetId} (hrun : l.inflate context unknown data parent index s = (.ok id, s')) :
    s.Settles t s' := by
  cases hget : context.registry.get? l.viewType with
  | none =>
    have hnote : s.Evolves alone noWidget (s.note (.noParser l.viewType)) :=
      .of_eq hs (le_refl s.ids) rfl rfl fun _ _ _ _ => rfl
    rw [inflate_of_none unknown data parent index hget s] at hrun
    exact hsettles _ data index hnote.sound (hoffers.mono hnote.frame.ids) ht hrun
  | some parser =>
    have htype := hoffers l.viewType
    cases hk : Kind.ofType? l.viewType with
    | none =>
      rw [hk, hget] at htype
      cases htype
    | some k =>
      rw [hk] at htype
      obtain ⟨parser', hget', hserves⟩ := htype
      obtain rfl : parser = parser' := Option.some.inj (hget.symm.trans hget')
      obtain ⟨s₁, w, hstart, hstarts, hshows, -, hchildren, -⟩ :=
        inflate_start context unknown data parent index hget hserves
      have hevolves : s.Evolves alone noWidget s₁ :=
        .of_starts hs hstarts rfl hserves hshows hchildren
      have hoffers₁ := hoffers.mono hevolves.frame.ids
      have ht₁ := ht.trans hevolves.frame.ids
      rw [hstart] at hrun
      obtain ⟨⟨⟩, s₂, happly, hreturn⟩ := Fallible.exists_of_bind_run_ok hrun
      cases hreturn
      intro mid m hnone hm source hcompiled
      have happlied := Layout.applyAttributes_evolves hunknown l.viewType l.attributes
        hevolves.sound hoffers₁ hstarts.manager?
      rw [happly] at happlied
      -- The manager in question comes with something below, or is the one made here.
      cases hm₁ : s₁.manager? mid with
      | none =>
        exact hattributes hevolves.sound hoffers₁ ht₁ hstarts.manager? happly hm₁ hm source
          hcompiled
      | some m' =>
        rcases (manager?_append_iff hstarts.managers).1 hm₁ with hold | ⟨rfl, rfl⟩
        · rw [hnone] at hold
          cases hold
        · obtain rfl := Option.some.inj
            ((happlied.frame.manager? _ _ id hm₁).symm.trans hm)
          have hnew : s₁.Managed ⟨s.widgets.length + 1⟩ ⟨s.managers.length⟩
              ⟨⟨s.widgets.length + 1⟩, l, parser, parent, index, data⟩ k w (.initial parent) :=
            ⟨hstarts.widget?, hstarts.manager, hstarts.manager?, hserves.mono hstarts.frame.ids,
              hshows⟩
          obtain ⟨w', hsettled⟩ :=
            hnew.settled hunknown hevolves.sound hoffers₁ ht₁ hchildren hcompiled happly
          exact ⟨k, w', hsettled⟩

/-- An attribute is applied, and then the next ones are. -/
theorem Layout.applyAttributes_settles_cons (hunknown : unknown.Makes context.registry alone)
    {mid : ManagerId} {m : Manager} {a : Int} {value : Value} {rest : List Attribute}
    (viewType : String) (hs : s.Sound) (hoffers : context.registry.Offers s.ids) (ht : t ≤ s.ids)
    (hm : s.manager? mid = some m)
    (hvalue : ∀ {accepted s'},
      value.apply context unknown m.parser m.widget a s = (.ok accepted, s') → s.Settles t s')
    (hrest : ∀ {s : Session}, s.Sound → context.registry.Offers s.ids → t ≤ s.ids →
      s.manager? mid = some m → ∀ {s'},
      applyAttributes context unknown m.parser viewType m.widget rest s = (.ok (), s') →
      s.Settles t s')
    (hrun : applyAttributes context unknown m.parser viewType m.widget (⟨a, value⟩ :: rest) s =
      (.ok (), s')) :
    s.Settles t s' := by
  have hevolves := Value.apply_evolves hunknown a value hs hoffers hm
  rcases happly : value.apply context unknown m.parser m.widget a s with ⟨e | accepted, s₁⟩
  · rw [applyAttributes_of_cons, Fallible.bind_run_error happly] at hrun
    cases hrun
  · rw [happly] at hevolves
    obtain ⟨log, -, hnext⟩ := applyAttributes_cons viewType happly
    rw [hnext rest] at hrun
    have hlog : s₁.Evolves alone (· = m.widget) { s₁ with log := log } :=
      .of_eq hevolves.sound (le_refl s₁.ids) rfl rfl fun _ _ _ _ => rfl
    have hboth := hevolves.trans hlog
    have hoffers₂ := hoffers.mono hboth.frame.ids
    have hm₂ := hboth.frame.manager? mid m id hm
    have hlast := Layout.applyAttributes_evolves hunknown viewType rest hboth.sound hoffers₂ hm₂
    rw [hrun] at hlast
    have hfirst : s.Settles t { s₁ with log := log } :=
      (hvalue happly).trans_of_managed (.of_managers rfl) hm hevolves.sound
        (hevolves.frame.manager? mid m id hm) hlog
    exact hfirst.trans_of_managed (hrest hboth.sound hoffers₂ (ht.trans hboth.frame.ids) hm₂ hrun)
      hm hboth.sound hm₂ hlast

/-- An attribute that is no array of children leaves the managers alone. -/
theorem Value.apply_settles_of_inflateAll {mid : ManagerId} {m : Manager} (a : Int) (value : Value)
    (hs : s.Sound) (hm : s.manager? mid = some m)
    (hunknown : unknown.Makes context.registry alone) (hoffers : context.registry.Offers s.ids)
    (hall : ∀ items, value = .array items → ∀ {children s'},
      inflateAll context unknown m.data m.widget m.index items s = (.ok children, s') →
      s.Settles t s')
    {accepted : Bool}
    (hrun : value.apply context unknown m.parser m.widget a s = (.ok accepted, s')) :
    s.Settles t s' := by
  obtain ⟨k, w, look, h⟩ := hs.managed hm
  have hobserve := ViewParser.observe_of_nil h.serves.observers a value
  cases hroute : m.parser.handler.route a with
  | property p =>
    obtain ⟨s₁, w₁, happly, hc, -, -⟩ := h.applyProperty_of_has (h.serves.has hroute) value
    rw [apply_of_property hroute, hobserve, Engine.act_run, happly] at hrun
    cases hrun
    exact .of_managers hc.touches.managers
  | children =>
    by_cases harray : ∃ items, value = .array items
    · obtain ⟨items, rfl⟩ := harray
      rw [apply_of_children hroute, hobserve, Fallible.bind_run_ok (Engine.look_run _ s),
        h.managerOf?] at hrun
      dsimp only at hrun
      split at hrun
      · obtain ⟨children, s₁, hmade, hreplace⟩ := Fallible.exists_of_bind_run_ok hrun
        rw [Fallible.bind_run_ok (Engine.change_run _ s₁)] at hreplace
        cases hreplace
        have hevolves := (inflatedAll hunknown m.data m.widget m.index items hs hoffers).evolves
        rw [hmade] at hevolves
        have hm₁ := hevolves.frame.manager? mid m id hm
        have hreplaced : s₁.Evolves False (· = m.widget) (s₁.replaceChildren m.widget children) :=
          .of_replaceChildren hevolves.sound hm₁ False.elim
        exact (hall items rfl hmade).trans_of_managed
          (.of_managers ((h.frame hevolves.frame (fun hno => hno)
            fun hno => hno).replaceChildren_changes children).touches.managers)
          hm hevolves.sound hm₁ hreplaced
      · cases hrun
        exact .of_managers rfl
    · rw [apply_of_not_array hroute fun items hitems => harray ⟨items, hitems⟩, hobserve] at hrun
      cases hrun
      exact .of_managers rfl
  | presence =>
    rw [apply_of_presence hroute, hobserve] at hrun
    cases hrun
    exact .of_managers rfl
  | unknown =>
    rw [apply_of_unknown hroute, hobserve] at hrun
    cases hrun
    exact .of_managers rfl

/-- A layout among values is inflated, and then the other values are. -/
theorem Value.inflateAll_settles_cons (hunknown : unknown.Makes context.registry alone)
    {data : Fields} {parent : WidgetId} {index : Int} {l : Layout} {rest : List Value}
    (hs : s.Sound) (hoffers : context.registry.Offers s.ids) (ht : t ≤ s.ids)
    (hl : ∀ {id s'}, l.inflate context unknown data (some parent) index s = (.ok id, s') →
      s.Settles t s')
    (hrest : ∀ {s : Session}, s.Sound → context.registry.Offers s.ids → t ≤ s.ids →
      ∀ {children s'}, inflateAll context unknown data parent index rest s = (.ok children, s') →
      s.Settles t s')
    {children : List WidgetId}
    (hrun : inflateAll context unknown data parent index (.layout l :: rest) s =
      (.ok children, s')) :
    s.Settles t s' := by
  rw [inflateAll_of_layout] at hrun
  obtain ⟨id, s₁, hfirst, hrun⟩ := Fallible.exists_of_bind_run_ok hrun
  obtain ⟨more, s₂, hmore, hreturn⟩ := Fallible.exists_of_bind_run_ok hrun
  cases hreturn
  have hevolves := (l.inflated hunknown data (some parent) index hs hoffers).evolves
  rw [hfirst] at hevolves
  have hoffers₁ := hoffers.mono hevolves.frame.ids
  have hlast := (inflatedAll hunknown data parent index rest hevolves.sound hoffers₁).evolves
  rw [hmore] at hlast
  exact (hl hfirst).trans (hrest hevolves.sound hoffers₁ (ht.trans hevolves.frame.ids) hmore) hlast
    fun _ _ _ => False.elim

end

section

variable {context : Context} {unknown : UnknownType} {alone : Prop} {t : IdTable}

mutual

/-- Inflating a layout settles the managers that it adds. -/
theorem Layout.inflate_settles (hunknown : unknown.Makes context.registry alone)
    (hsettles : unknown.Settles context.registry t) (data : Fields) (parent : Option WidgetId)
    (index : Int) :
    ∀ (l : Layout) {s : Session}, s.Sound → context.registry.Offers s.ids → t ≤ s.ids →
      ∀ {id s'}, l.inflate context unknown data parent index s = (.ok id, s') → s.Settles t s'
  | ⟨viewType, attributes, tags⟩, _, hs, hoffers, ht, _, _, hrun =>
    Layout.settles_of_attributes hunknown hsettles data parent index hs hoffers ht
      ⟨viewType, attributes, tags⟩
      (fun hs hoffers ht hm _ hrun =>
        Layout.applyAttributes_settles hunknown hsettles viewType attributes hs hoffers ht hm hrun)
      hrun
termination_by structural l => l

/-- Applying attributes one after the other settles the managers that it adds. -/
theorem Layout.applyAttributes_settles (hunknown : unknown.Makes context.registry alone)
    (hsettles : unknown.Settles context.registry t) {mid : ManagerId} {m : Manager}
    (viewType : String) :
    ∀ (attributes : List Attribute) {s : Session}, s.Sound → context.registry.Offers s.ids →
      t ≤ s.ids → s.manager? mid = some m → ∀ {s'},
      Layout.applyAttributes context unknown m.parser viewType m.widget attributes s =
        (.ok (), s') → s.Settles t s'
  | [], _, _, _, _, _, _, hrun => by
    cases hrun
    exact .of_managers rfl
  | ⟨a, value⟩ :: rest, _, hs, hoffers, ht, hm, _, hrun =>
    Layout.applyAttributes_settles_cons hunknown viewType hs hoffers ht hm
      (fun hrun => Value.apply_settles hunknown hsettles a value hs hoffers ht hm hrun)
      (fun hs hoffers ht hm _ hrun =>
        Layout.applyAttributes_settles hunknown hsettles viewType rest hs hoffers ht hm hrun)
      hrun
termination_by structural attributes => attributes

/-- So does applying an attribute. -/
theorem Value.apply_settles (hunknown : unknown.Makes context.registry alone)
    (hsettles : unknown.Settles context.registry t) {mid : ManagerId} {m : Manager} (a : Int) :
    ∀ (value : Value) {s : Session}, s.Sound → context.registry.Offers s.ids → t ≤ s.ids →
      s.manager? mid = some m → ∀ {accepted s'},
      value.apply context unknown m.parser m.widget a s = (.ok accepted, s') → s.Settles t s'
  | .array items, _, hs, hoffers, ht, hm, _, _, hrun =>
    Value.apply_settles_of_inflateAll a (.array items) hs hm hunknown hoffers
      (fun items' hitems _ _ hrun => by
        cases hitems
        exact Value.inflateAll_settles hunknown hsettles m.data m.widget m.index items hs hoffers
          ht hrun)
      hrun
  | .null, _, hs, hoffers, _, hm, _, _, hrun | .bool _, _, hs, hoffers, _, hm, _, _, hrun
  | .int _, _, hs, hoffers, _, hm, _, _, hrun | .float _, _, hs, hoffers, _, hm, _, _, hrun
  | .string _, _, hs, hoffers, _, hm, _, _, hrun | .object _, _, hs, hoffers, _, hm, _, _, hrun
  | .binding _, _, hs, hoffers, _, hm, _, _, hrun
  | .layout _, _, hs, hoffers, _, hm, _, _, hrun =>
    Value.apply_settles_of_inflateAll a _ hs hm hunknown hoffers
      (fun _ hitems => by cases hitems) hrun
termination_by structural value => value

/-- So does inflating layouts one after the other. -/
theorem Value.inflateAll_settles (hunknown : unknown.Makes context.registry alone)
    (hsettles : unknown.Settles context.registry t) (data : Fields) (parent : WidgetId)
    (index : Int) :
    ∀ (items : List Value) {s : Session}, s.Sound → context.registry.Offers s.ids → t ≤ s.ids →
      ∀ {children s'},
      Value.inflateAll context unknown data parent index items s = (.ok children, s') →
      s.Settles t s'
  | [], _, _, _, _, _, _, hrun => by
    cases hrun
    exact .of_managers rfl
  | .layout l :: rest, _, hs, hoffers, ht, _, _, hrun =>
    Value.inflateAll_settles_cons hunknown hs hoffers ht
      (fun hrun => Layout.inflate_settles hunknown hsettles data (some parent) index l hs hoffers
        ht hrun)
      (fun hs hoffers ht _ _ hrun =>
        Value.inflateAll_settles hunknown hsettles data parent index rest hs hoffers ht hrun)
      hrun
  | .null :: rest, _, hs, hoffers, ht, _, _, hrun
  | .bool _ :: rest, _, hs, hoffers, ht, _, _, hrun
  | .int _ :: rest, _, hs, hoffers, ht, _, _, hrun
  | .float _ :: rest, _, hs, hoffers, ht, _, _, hrun
  | .string _ :: rest, _, hs, hoffers, ht, _, _, hrun
  | .object _ :: rest, _, hs, hoffers, ht, _, _, hrun
  | .binding _ :: rest, _, hs, hoffers, ht, _, _, hrun
  | .array _ :: rest, _, hs, hoffers, ht, _, _, hrun =>
    Value.inflateAll_settles hunknown hsettles data parent index rest hs hoffers ht hrun
termination_by structural items => items

end

end

namespace Context

variable {context : Context} {t : IdTable}

/-- A host settles the managers that it adds, which are those of the named layouts that it has
inflated. -/
theorem unknown_settles (budget : Nat) : (context.unknown budget).Settles context.registry t := by
  induction budget using Nat.strongRecOn with
  | ind budget ih =>
    intro l data index s hs hoffers ht id s' hrun
    cases hanswer : context.fallback with
    | none =>
      rw [unknown_of_no_fallback hanswer] at hrun
      cases hrun
    | some answer =>
      rw [unknown, hanswer] at hrun
      dsimp only at hrun
      rw [Fallible.bind_run_ok (Engine.change_run _ s)] at hrun
      cases hcase : answer l.viewType with
      | nothing =>
        rw [hcase] at hrun
        cases hrun
      | newView | placeholder | widget =>
        rw [hcase] at hrun
        cases hrun
        exact .of_managers rfl
      | layout name =>
        rw [hcase] at hrun
        dsimp only at hrun
        cases hname : context.layouts.get? name with
        | none =>
          rw [hname] at hrun
          cases hrun
        | some named =>
          rw [hname] at hrun
          cases budget with
          | zero => cases hrun
          | succ budget =>
            dsimp only at hrun
            rw [Fallible.tryCatch_run] at hrun
            split at hrun
            · next hinflate =>
              cases hrun
              have hcall : s.Evolves False noWidget
                  (s.tell (.unknown l.viewType l.attributes.length data.length index)) :=
                .of_eq hs (le_refl s.ids) rfl rfl fun _ _ _ _ => rfl
              have hmakes : (context.unknown budget).Makes context.registry False :=
                context.unknown_makes False.elim budget
              exact named.inflate_settles hmakes (ih budget (Nat.lt_succ_self budget)) data none
                index hcall.sound hoffers ht hinflate
            · next herror =>
              split at hrun <;> cases hrun

/-- An inflation that succeeds settles the managers that it adds. -/
theorem inflate_settles {s s' : Session} (hs : s.Sound)
    (hoffers : context.registry.Offers s.ids) {l : Layout} {data : Fields}
    {parent : Option WidgetId} {index : Int} {id : WidgetId}
    (hrun : context.inflate l data parent index s = (.ok id, s')) : s.Settles s.ids s' := by
  have hmakes : (context.unknown context.layouts.size).Makes context.registry False :=
    context.unknown_makes False.elim _
  exact l.inflate_settles hmakes (context.unknown_settles _) data parent index hs hoffers
    (le_refl s.ids) hrun

end Context

end LayoutEngine
