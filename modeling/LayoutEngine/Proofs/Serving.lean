import LayoutEngine.Proofs.Carry
import LayoutEngine.Proofs.Forest
import LayoutEngine.Proofs.Rebind

/-!
# What requests keep

A relation between sessions that inflating carries along is kept by every request, if new names,
other data of managers and records of edits keep it as well (`Context.serveAll_carries`). So names
are only ever added (`Context.le_serveAll`). Sessions are sound after whatever requests where all
parsers serve the engine's own kinds, be it under further names, and a host gives out no widget that
was there before (`Context.sound`).
-/

namespace LayoutEngine

open Session Engine

/-- A relation that inflating carries along is kept by the other changes that requests make. -/
structure Context.CarriesRequests (context : Context) (holds : Session → Prop)
    (R : Session → Session → Prop) : Prop extends
    Context.Carries context holds (fun _ => True) R where
  named : ∀ (s : Session) ids, s.ids ≤ ids → R s { s with ids := ids }
  given : ∀ (s : Session) mid data, R s (s.setData mid data)
  declared : ∀ (s : Session) tags, R s { s with tags := tags }

/-- A request brings up what is provided and nothing else. -/
def Request.From (provision : Provision) : Request → Prop
  | .act (.name _) | .compile _ => True
  | .act (.inflate l data _ index) =>
    provision.layouts l ∧ provision.data data ∧ provision.places index
  | .act (.edit _ name json) => provision.edits (Text.trimmed name) json
  | .act (.update _ _ data) => provision.data data
  | .create item => provision.items item
  | .inflateNamed _ data _ index => provision.data data ∧ provision.places index
  | .handle parser _ a value => provision.Offers parser ⟨a, value⟩

/-- Any request may come up where everything may. -/
theorem Request.from_everything (r : Request) : r.From .everything := by
  cases r with
  | act act => cases act <;> simp [From, Provision.everything]
  | create | compile => trivial
  | inflateNamed => exact ⟨trivial, trivial⟩
  | handle parser => exact Provision.offers_everything parser _

namespace Context

variable {context : Context} {unknown : UnknownType} {provision : Provision}
  {holds : Session → Prop} {R : Session → Session → Prop} [IsPreorder Session R] {s : Session}

section

variable (hcarries : context.CarriesFrom provision holds (fun _ => True) R)
  (hclosed : provision.Closed context)
  (hunknown : unknown.CarriesFrom context.registry provision holds R)

include hcarries hclosed hunknown

/-- Applying an attribute to any widget keeps the relation. -/
theorem apply_carriesFrom_of_offers (parser : ViewParser) (id : WidgetId) (a : Int) (value : Value)
    (hoffers : provision.Offers parser ⟨a, value⟩) (hs : holds s) :
    Leads R (value.apply context unknown parser id a) s fun _ _ => True := by
  have hid : (fun _ : WidgetId => True) id := True.intro
  exact value.apply_carriesFrom hcarries hclosed hunknown parser hid a hoffers hs

/-! ## Updates -/

/-- Having bound attributes handled keeps what the steps keep that a provision leads to. -/
theorem applyBoundBy_carriesFrom (parser : ViewParser) (id : WidgetId)
    (attributes : List Attribute) (hoffers : ∀ a ∈ attributes, provision.Offers parser a)
    (hs : holds s) :
    Leads R (context.applyBoundBy (.own unknown) parser id attributes) s
      fun _ _ => True := by
  induction attributes generalizing s with
  | nil => exact .pure True.intro
  | cons first rest ih =>
    obtain ⟨a, value⟩ := first
    obtain ⟨hfirst, hothers⟩ := List.forall_mem_cons.1 hoffers
    have hrest : ∀ accepted : Bool, ∀ s', R s s' → Leads R (do
        let more ← context.applyBoundBy (.own unknown) parser id rest
        return (if accepted then 1 else 0) + more : Engine Nat) s' fun _ _ => True :=
      fun _ _ h => (ih hothers (hcarries.still h hs)).bind fun _ _ _ _ => .pure True.intro
    rw [applyBoundBy_of_cons]
    split
    · have happly :=
        apply_carriesFrom_of_offers hcarries hclosed hunknown parser id a value hfirst hs
      exact happly.bind fun accepted s' h _ => hrest accepted s' h
    · exact hrest false s (refl_of R s)

variable (hgiven : ∀ {data}, provision.data data → ∀ s mid, R s (s.setData mid data))
include hgiven

/-- An update of a manager and those below it keeps what the steps keep that a provision leads to.
-/
theorem updateWithinBy_carriesFrom (alive : WidgetId → Bool) {data : Fields}
    (hdata : provision.data data) (fuel : Nat) (mid : ManagerId) (hs : holds s) :
    Leads R (context.updateWithinBy (.own unknown) alive data fuel mid) s
      fun _ _ => True := by
  induction fuel generalizing mid s with
  | zero => exact .throw _
  | succ fuel ih =>
    have hset := hgiven hdata s mid
    have hs' := hcarries.still hset hs
    rw [updateWithinBy]
    refine .change_bind hset (.look_bind ?_)
    cases hm : (s.setData mid data).manager? mid with
    | none => exact .pure True.intro
    | some m =>
      dsimp only
      split
      · refine (applyBoundBy_carriesFrom hcarries hclosed hunknown m.parser m.widget
          m.layout.attributes (hcarries.managed hs' hm).offers hs').bind ?_
        intro own s₁ h₁ _
        have hbelow : Leads R
            (sumUpdates (context.updateWithinBy (.own unknown) alive data fuel)
              (s₁.childrenOf m.widget)) s₁ fun _ _ => True :=
          sumUpdates_leads R holds hcarries.still trivial (fun _ _ => trivial)
            (fun _ hs _ _ mid _ => ih mid hs) (fun _ _ => trivial) (hcarries.still h₁ hs')
        exact .look_bind (hbelow.bind fun _ _ _ _ => .pure True.intro)
      · exact .change_bind (hcarries.note _ _) (.pure True.intro)

/-- So does an update. -/
theorem updateBy_carriesFrom (alive : WidgetId → Bool) (mid : ManagerId) {data : Fields}
    (hdata : provision.data data) (hs : holds s) :
    R s (context.updateBy (.own unknown) alive mid data s).2 := by
  rw [updateBy, Fallible.bind_run_ok (look_run _ s)]
  exact (updateWithinBy_carriesFrom hcarries hclosed hunknown hgiven alive hdata _ mid hs).along

/-! ## Requests -/

variable (hnamed : ∀ (s : Session) ids, s.ids ≤ ids → R s { s with ids := ids })
  (hrecorded : ∀ {id name json m s s'}, s.managerOf? id = some m → R s s' →
    R s' (s'.recordEdit id name json))
  (hedited : ∀ {id name json m s}, provision.edits name json → holds s →
    s.managerOf? id = some m → provision.Offers m.parser ⟨(s.intern name).1, .ofJson json⟩)
include hnamed hrecorded hedited

omit hgiven in
/-- So does an edit, whatever comes of it. -/
theorem editBy_carriesFrom (id : WidgetId) {name : String} {json : Json}
    (hedits : provision.edits (Text.trimmed name) json) (hs : holds s) :
    R s (context.editBy (.own unknown) id name json s).2 := by
  refine context.editBy_keeps id name json (fun m hm => ?_) fun m s' hm hboth => hrecorded hm hboth
  have hname : R s (s.intern (Text.trimmed name)).2 := hnamed s _ (IdTable.le_intern _ _)
  have happly := apply_carriesFrom_of_offers hcarries hclosed hunknown m.parser id _ _
    (hedited hedits hs hm) (hcarries.still hname hs)
  exact trans_of R hname happly.along

/-- A request that brings up what is provided keeps the relation, whether or not it fails. -/
theorem serveBy_carriesFrom {r : Request} (hr : r.From provision) (hs : holds s) :
    R s (context.serveBy (.own unknown) s r) := by
  cases r with
  | act act =>
    cases act with
    | name name => exact hnamed s _ (IdTable.le_intern name s.ids)
    | inflate l data parent index =>
      obtain ⟨hl, hdata, hindex⟩ := hr
      exact (l.inflate_carriesFrom hcarries hclosed hunknown hdata parent hindex hl hs).along
    | edit id name json =>
      exact editBy_carriesFrom hcarries hclosed hunknown hnamed hrecorded hedited id hr hs
    | update held mid data =>
      exact updateBy_carriesFrom hcarries hclosed hunknown hgiven _ mid hr hs
  | create item => exact hcarries.create hr s
  | compile source => exact hnamed s _ (LayoutSource.adds_compile source s.ids)
  | inflateNamed name data parent index =>
    obtain ⟨hdata, hindex⟩ := hr
    rw [serveBy, inflateNamedBy]
    cases hname : context.layouts.get? name with
    | none => exact refl_of R s
    | some l =>
      exact (l.inflate_carriesFrom hcarries hclosed hunknown hdata parent hindex
        (hclosed.named hname) hs).along
  | handle parser id a value =>
    exact (apply_carriesFrom_of_offers hcarries hclosed hunknown parser id a value hr hs).along

/-- So do requests one after the other. -/
theorem serveAllBy_carriesFrom {requests : List Request} (hr : ∀ r ∈ requests, r.From provision)
    (hs : holds s) : R s (context.serveAllBy (.own unknown) requests s) := by
  induction requests generalizing s with
  | nil => exact refl_of R s
  | cons r rest ih =>
    obtain ⟨hfirst, hrest⟩ := List.forall_mem_cons.1 hr
    have hserve :=
      serveBy_carriesFrom hcarries hclosed hunknown hgiven hnamed hrecorded hedited hfirst hs
    exact trans_of R hserve (ih hrest (hcarries.still hserve hs))

omit hunknown

/-- So do requests in a context as it is. -/
theorem serveAll_carriesFrom {requests : List Request} (hr : ∀ r ∈ requests, r.From provision)
    (hs : holds s) : R s (context.serveAll requests s) :=
  serveAllBy_carriesFrom hcarries hclosed (carriesFrom_unknown hcarries hclosed _) hgiven hnamed
    hrecorded hedited hr hs

end

/-- Where anything may come up, all requests keep a relation that inflating carries along. -/
theorem serveAll_carries (hcarries : context.Carries holds (fun _ => True) R)
    (hgiven : ∀ s mid data, R s (s.setData mid data))
    (hnamed : ∀ (s : Session) ids, s.ids ≤ ids → R s { s with ids := ids })
    (hrecorded : ∀ {id name json m s s'}, s.managerOf? id = some m → R s s' →
      R s' (s'.recordEdit id name json)) (requests : List Request) (hs : holds s) :
    R s (context.serveAll requests s) :=
  serveAll_carriesFrom hcarries.carriesFrom (Provision.closed_everything context)
    (fun _ s mid => hgiven s mid _) hnamed hrecorded
    (fun _ _ _ => Provision.offers_everything _ _) (fun r _ => r.from_everything) hs

/-- What a session declares does not matter to a relation that requests carry along, whatever is
done about unknown types that carries it along as well. -/
theorem CarriesRequests.serveAllBy (hcarries : context.CarriesRequests holds R)
    (hunknown : unknown.Carries context.registry holds R)
    (requests : List Request) (hs : holds s) :
    R s (context.serveAllBy (.own unknown) requests s) :=
  serveAllBy_carriesFrom hcarries.toCarries.carriesFrom (Provision.closed_everything context)
    hunknown.carriesFrom (fun _ s mid => hcarries.given s mid _) hcarries.named
    (fun {_ _ _ _ _ s'} _ _ => trans_of R (hcarries.note _ s') (hcarries.declared _ _))
    (fun _ _ _ => Provision.offers_everything _ _) (fun r _ => r.from_everything) hs

/-- What a session declares does not matter to a relation that requests carry along. -/
theorem CarriesRequests.serveAll (hcarries : context.CarriesRequests holds R)
    (requests : List Request) (hs : holds s) : R s (context.serveAll requests s) :=
  serveAll_carries hcarries.toCarries hcarries.given hcarries.named
    (fun {_ _ _ _ _ s'} _ _ => trans_of R (hcarries.note _ s') (hcarries.declared _ _)) requests hs

end Context

/-! ## Names -/

/-- The start of a layout numbers nothing. -/
theorem ViewParser.ids_start (parser : ViewParser) (verbose : Bool) (l : Layout) (data : Fields)
    (parent : Option WidgetId) (index : Int) (s : Session) :
    (parser.start verbose l data parent index s).2.ids = s.ids := by
  simp only [start, Session.recordTags]
  rw [attach_eq, giveOut_eq]
  split
  · rfl
  · cases l.tags <;> rfl

namespace Session

/-- The first session has no names but those of the second. -/
def NamesWithin (s s' : Session) : Prop := s.ids ≤ s'.ids

instance : IsPreorder Session NamesWithin where
  refl s := le_refl s.ids
  trans _ _ _ h₁ h₂ := LE.le.trans (α := IdTable) h₁ h₂

end Session

namespace Context

/-- Whatever requests do, the names that there are keep their numbers. -/
theorem carries_namesWithin (context : Context) :
    context.CarriesRequests (fun _ => True) NamesWithin where
  told s _ _ := le_refl s.ids
  create _ s := le_refl s.ids
  start {l parser} _ verbose data parent index s _ :=
    ⟨trivial, le_of_eq (parser.ids_start verbose l data parent index s).symm⟩
  property {id} _ p value s := (touches_applyProperty id p value s).ids
  children {id} _ _ s := le_of_eq (ids_changeWidget id _ s).symm
  still _ _ := trivial
  named _ _ hids := hids
  given s _ _ := le_refl s.ids
  declared s _ := le_refl s.ids

/-- Requests only add names. -/
theorem le_serveAll (context : Context) (requests : List Request) (s : Session) :
    s.ids ≤ (context.serveAll requests s).ids :=
  context.carries_namesWithin.serveAll requests trivial

end Context

/-! ## Managed widgets -/

namespace Session

variable {s s' : Session} {id : WidgetId} {mid : ManagerId} {m : Manager} {k : Kind} {w : Widget}
  {look : Look} {p : Property}

/-- A widget of another kind than a property's accepts nothing. -/
theorem applyProperty_of_not_has (hw : s.widget? id = some w) (hk : k.IsItem w.item)
    (hp : ¬k.Has p) (value : Value) :
    ∃ log, s.applyProperty id p value = (false, { s with log := log }) :=
  applyProperty_of_ineffective hw fun h => absurd ((Kind.has_iff_of_isItem hk).1 h) hp

/-- A managed widget stays one whatever property is applied to it. -/
theorem Managed.applyProperty (h : s.Managed id mid m k w look) (p : Property) (value : Value) :
    ∃ w' look', (s.applyProperty id p value).2.Managed id mid m k w' look' := by
  by_cases hp : k.Has p
  · obtain ⟨s', w', hrun, hc, hshows, -⟩ := h.applyProperty_of_has hp value
    rw [hrun]
    exact ⟨w', _, h.changes hc hshows⟩
  · obtain ⟨log, hrun⟩ := applyProperty_of_not_has h.widget h.shows.item hp value
    rw [hrun]
    exact ⟨w, look, h.withLog log⟩

/-- Names have been added, and managers are still those of their own widgets. -/
def StaysManned (s s' : Session) : Prop := s.ids ≤ s'.ids ∧ (s.Manned → s'.Manned)

instance : IsPreorder Session StaysManned where
  refl s := ⟨le_refl s.ids, fun h => h⟩
  trans _ _ _ h₁ h₂ := ⟨h₁.1.trans h₂.1, h₂.2 ∘ h₁.2⟩

/-- Managers stay those of their widgets while widgets and managers stay. -/
theorem StaysManned.of_eq (hids : s.ids ≤ s'.ids) (hwidgets : s'.widgets = s.widgets)
    (hmanagers : s'.managers = s.managers) : s.StaysManned s' :=
  ⟨hids, fun hs => hs.of_eq hids hwidgets hmanagers⟩

end Session

namespace Context

/-- Where all parsers serve the engine's own kinds, managers stay those of their own widgets. -/
theorem carries_staysManned (context : Context) :
    context.CarriesRequests (fun s => context.registry.Provides s.ids) StaysManned where
  told s log calls := .of_eq (le_refl s.ids) rfl rfl
  create item s := ⟨le_refl s.ids, fun hs => hs.create item⟩
  start {l parser} hget verbose data parent index s hs := by
    obtain ⟨k, hserves⟩ := hs l.viewType parser hget
    have hstarts := (hserves.attach verbose l data parent index).recordTags l
    have hshows := (Look.shows_initial k parent s.ids).mono hstarts.frame.ids
    simp only [ViewParser.start, hserves.giveOut]
    exact ⟨True.intro, hstarts.frame.ids, fun hmanned =>
      hmanned.of_starts hstarts rfl hserves (hshows.of_eq rfl rfl)⟩
  property {id} _ p value s := by
    have htouches := touches_applyProperty id p value s
    have hshape := sameShape_applyProperty True id p value s
    refine ⟨htouches.ids, fun hs => hs.of_touches htouches (hshape.manager id) fun h => ?_⟩
    obtain ⟨w', look', h'⟩ := h.applyProperty p value
    exact ⟨_, w', look', h'⟩
  children {id} _ children s := by
    have htouches := Touches.changeWidget id (fun w => { w with children := children }) s
    have hmanager : ((s.setChildren id children).widget? id).bind (·.manager) =
        (s.widget? id).bind (·.manager) := by
      rw [setChildren, widget?_changeWidget_self]
      cases s.widget? id <;> rfl
    refine ⟨htouches.ids, fun hs => hs.of_touches htouches hmanager fun {mid m k w look} h => ?_⟩
    refine ⟨k, { w with children := children }, look, ?_, h.manager,
      (htouches.manager? mid).trans h.managed, h.serves.mono htouches.ids,
      (h.shows.mono htouches.ids).of_eq rfl rfl⟩
    rw [setChildren, widget?_changeWidget_self, h.widget]
    rfl
  still h hs := hs.mono h.1
  named s ids hids := .of_eq hids rfl rfl
  given s mid data := ⟨le_refl s.ids, fun hs => hs.setData mid data⟩
  declared s tags := .of_eq (le_refl s.ids) rfl rfl

/-- Where all parsers serve the engine's own kinds, and a host gives out no widget that was there
before, a session is sound after whatever requests. -/
theorem sound {context : Context} {ids : IdTable} (hprovides : context.registry.Provides ids)
    (hcovers : Supply.all.Covers context) (requests : List Request) :
    (context.serveAll requests (.ofIds ids)).Sound := by
  have hserved : context.Served .all (context.serveAll requests (.ofIds ids)) :=
    ⟨ids, requests, fun r _ => r.within_all context, rfl⟩
  have hmanned := context.carries_staysManned.serveAll requests (s := .ofIds ids) hprovides
  refine ⟨hmanned.2 (manned_ofIds ids), ?_⟩
  intro id w hw hnone
  have hweaves := hserved.tracked.woven hcovers id
  cases hchildren : w.children with
  | nil => rfl
  | cons child rest =>
    have hchild : child ∈ (context.serveAll requests (.ofIds ids)).childrenOf id := by
      rw [childrenOf, hw, Option.map_some, Option.getD_some, hchildren]
      exact List.mem_cons_self
    obtain ⟨m, l, hm, -⟩ := hweaves.adopts child hchild
    obtain ⟨w', mid, hw', hmid, -⟩ := managerOf?_eq_some_iff.1 hm
    rw [hw] at hw'
    cases hw'
    rw [hnone] at hmid
    cases hmid

end Context

end LayoutEngine
