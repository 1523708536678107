import LayoutEngine.Proofs.Edit
import LayoutEngine.Proofs.Weaving

/-!
# Requests

All that a host asks of the engine: besides the acts, it makes widgets of its own, compiles sources,
inflates named layouts, and hands any value to any parser's handler for any widget. A session after
requests has come from the one before by steps (`Context.serveAll_steps`), whether or not requests
have failed.
-/

namespace LayoutEngine

open Session Engine

/-- What a host asks of the engine. -/
inductive Request where
  | act (act : Act)
  | create (item : Item)
  | compile (source : LayoutSource)
  | inflateNamed (name : String) (data : Fields) (parent : Option WidgetId) (index : Int)
  | handle (parser : ViewParser) (id : WidgetId) (a : Int) (value : Value)

namespace Request

/-- The request is an update. -/
def IsUpdate : Request → Prop
  | .act (.update ..) => True
  | _ => False

/-- The layouts that the request brings up are supplied, and those that it hands to a widget as
children are free. -/
def Within (context : Context) (supply : Supply) : Request → Prop
  | .act (.inflate l ..) => supply.layouts l
  | .inflateNamed name .. => ∀ l, context.layouts.get? name = some l → supply.layouts l
  | .handle _ _ _ value => ∀ l ∈ value.layouts, supply.free l
  | _ => True

end Request

/-- All layouts, each of which may go anywhere. -/
def Supply.all : Supply := ⟨fun _ => True, fun _ => True, fun _ _ _ => trivial, fun _ => trivial⟩

/-- Any request is within the supply of everything. -/
theorem Request.within_all (context : Context) (r : Request) : r.Within context .all := by
  cases r with
  | act act => cases act <;> trivial
  | create | compile => trivial
  | inflateNamed => exact fun _ _ => trivial
  | handle => exact fun _ _ => trivial

namespace Value

/-- Nothing that is read from JSON is a layout. -/
theorem layout?_ofJson (json : Json) : (ofJson json).layout? = none := by
  have h := isLayout_ofJson json
  cases hvalue : ofJson json with
  | layout l =>
    rw [hvalue] at h
    cases h
  | _ => rfl

/-- JSON has no layouts in it. -/
theorem layouts_ofJson (json : Json) : (ofJson json).layouts = [] := by
  have hitems : ∀ items : List Json, (itemsOfJson items).filterMap layout? = [] := by
    intro items
    induction items with
    | nil => rfl
    | cons item rest ih => rw [itemsOfJson, List.filterMap_cons, layout?_ofJson, ih]
  cases json with
  | array items => exact hitems items
  | int n =>
    simp only [ofJson, ofInteger]
    split <;> rfl
  | string s =>
    simp only [ofJson]
    split <;> rfl
  | _ => rfl

end Value

namespace Context

/-- The session after a request with a host, whether or not it has failed. -/
def serveBy (context : Context) (host : Host) (s : Session) : Request → Session
  | .act act => context.performBy host s act
  | .create item => (s.create item).2
  | .compile source => { s with ids := (source.compile s.ids).2 }
  | .inflateNamed name data parent index =>
    (context.inflateNamedBy host name data parent index s).2
  | .handle parser id a value => (value.applyBy context host parser id a s).2

/-- The session after requests with a host, one after the other. -/
def serveAllBy (context : Context) (host : Host) (requests : List Request) (s : Session) :
    Session :=
  requests.foldl (context.serveBy host) s

/-- The session after a request, whether or not it has failed. -/
def serve (context : Context) (s : Session) (r : Request) : Session :=
  context.serveBy context.host s r

/-- A request to inflate a layout leaves what inflating it leaves. -/
theorem serve_inflate (context : Context) (l : Layout) (data : Fields) (parent : Option WidgetId)
    (index : Int) (s : Session) :
    context.serve s (.act (.inflate l data parent index)) =
      (context.inflate l data parent index s).2 := rfl

/-- So does a request to inflate a named layout. -/
theorem serve_inflateNamed (context : Context) (name : String) (data : Fields)
    (parent : Option WidgetId) (index : Int) (s : Session) :
    context.serve s (.inflateNamed name data parent index) =
      (context.inflateNamed name data parent index s).2 := rfl

/-- The session after requests, one after the other. -/
def serveAll (context : Context) (requests : List Request) (s : Session) : Session :=
  requests.foldl context.serve s

variable {context : Context} {supply : Supply} {s : Session}

/-- An edit comes down to steps. -/
theorem edit_steps (ht : s.Tracked context supply) (id : WidgetId) (name : String) (json : Json) :
    s.Steps context supply False (context.edit id name json s).2 := by
  refine context.editBy_keeps id name json (fun m _ => ?_) fun _ _ _ _ =>
    .single (.shape (.of_eq rfl rfl rfl rfl rfl))
  have hintern : s.Steps context supply False (s.intern (Text.trimmed name)).2 :=
    .single (.shape (.of_eq rfl rfl rfl rfl rfl))
  have hnone : supply.Covers context → ∀ m',
      (s.intern (Text.trimmed name)).2.managerOf? id = some m' →
      ∀ l ∈ (Value.ofJson json).layouts, m'.Takes context supply l := by
    intro _ m' _ l hl
    rw [Value.layouts_ofJson] at hl
    cases hl
  exact hintern.trans (context.apply_leads (ht.steps hintern) m.parser id _ (.ofJson json)
    hnone).along

/-- A request comes down to steps, and only updates give managers other data. -/
theorem serve_steps (ht : s.Tracked context supply) {r : Request} (hr : r.Within context supply) :
    s.Steps context supply r.IsUpdate (context.serve s r) := by
  cases r with
  | act act =>
    cases act with
    | name name => exact .single (.shape (.of_eq rfl rfl rfl rfl rfl))
    | inflate l data parent index =>
      exact (context.inflate_leads ht l (fun _ => hr) data parent index).along
    | edit id name json => exact edit_steps ht id name json
    | update held manager data => exact .single (.shape (context.update_shape _ manager data s))
  | create item => exact .single (.create s item)
  | compile source => exact .single (.shape (.of_eq rfl rfl rfl rfl rfl))
  | inflateNamed name data parent index =>
    rw [serve_inflateNamed, inflateNamed_eq]
    cases hname : context.layouts.get? name with
    | none => exact .refl
    | some l => exact (context.inflate_leads ht l (fun _ => hr l hname) data parent index).along
  | handle parser id a value =>
    exact (context.apply_leads ht parser id a value fun _ _ _ l hl => .inl (hr l hl)).along

/-- So do requests one after the other. -/
theorem serveAll_steps (ht : s.Tracked context supply) {requests : List Request}
    (hr : ∀ r ∈ requests, r.Within context supply) :
    s.Steps context supply (∃ r ∈ requests, r.IsUpdate) (context.serveAll requests s) := by
  induction requests generalizing s with
  | nil => exact .refl
  | cons r rest ih =>
    obtain ⟨hfirst, hrest⟩ := List.forall_mem_cons.1 hr
    have hserve := serve_steps ht hfirst
    have hthen := ih (ht.steps hserve) hrest
    refine (Steps.mono ?_ hserve).trans (Steps.mono ?_ hthen)
    · exact fun hupdate => ⟨r, List.mem_cons_self, hupdate⟩
    · rintro ⟨r', hr', hupdate⟩
      exact ⟨r', List.mem_cons_of_mem r hr', hupdate⟩

/-- A session that requests within the supply have made. -/
def Served (context : Context) (supply : Supply) (s : Session) : Prop :=
  ∃ ids requests, (∀ r ∈ requests, r.Within context supply) ∧
    s = context.serveAll requests (.ofIds ids)

/-- No request has been served in a session that has only names. -/
theorem Served.ofIds (context : Context) (supply : Supply) (ids : IdTable) :
    context.Served supply (.ofIds ids) :=
  ⟨ids, [], fun _ hr => absurd hr List.not_mem_nil, rfl⟩

/-- A request more has been served. -/
theorem Served.serve (h : context.Served supply s) {r : Request} (hr : r.Within context supply) :
    context.Served supply (context.serve s r) := by
  obtain ⟨ids, requests, hrequests, rfl⟩ := h
  refine ⟨ids, requests ++ [r], ?_, ?_⟩
  · intro r' hr'
    rcases List.mem_append.1 hr' with hr' | hr'
    · exact hrequests r' hr'
    · obtain rfl := List.mem_singleton.1 hr'
      exact hr
  · rw [serveAll, serveAll, List.foldl_append, List.foldl_cons, List.foldl_nil]

/-- An inflation is a request, whether or not it succeeds. -/
theorem Served.inflate (h : context.Served supply s) {l : Layout} (hl : supply.layouts l)
    {data : Fields} {parent : Option WidgetId} {index : Int} {result : Except InflateError WidgetId}
    {s' : Session} (hrun : context.inflate l data parent index s = (result, s')) :
    context.Served supply s' := by
  have hserve := h.serve (r := .act (.inflate l data parent index)) hl
  rwa [serve_inflate, hrun] at hserve

/-- Widgets and managers belong together after whatever requests. -/
theorem Served.tracked (h : context.Served supply s) : s.Tracked context supply := by
  obtain ⟨ids, requests, hr, rfl⟩ := h
  have hstart := Tracked.ofIds context supply ids
  exact hstart.steps (serveAll_steps hstart hr)

/-- The engine's own parsers, and one of a host that gives out the same container every time. -/
def reusing : Context :=
  ⟨(Registry.withBuiltins .empty).1.registerHost
    ⟨"reused", .relativeLayout .initial, true, some "relative-layout"⟩, .empty, none, false⟩

end Context

end LayoutEngine
