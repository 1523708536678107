import LayoutEngine.Proofs.Compile
import LayoutEngine.Proofs.Serving

/-!
# Attributes and views under one numbering

The names of attributes and of views are numbered in one table, views under keys of their own. A
name that an attribute has gone by has a number from then on (`Event.Uses.exists_get?`), and in one
table different names have different numbers. So the number of an attribute is that of a view, and
reads back as a view's name, exactly if the attribute is called like the view's key
(`Session.attribute_apart_iff`): nothing but the name keeps the two apart.
-/

namespace LayoutEngine

namespace LayoutSource

/-- The names of the attributes of a source: those that its nodes declare, and the one under which
children travel. -/
inductive HasName : LayoutSource → String → Prop
  | declared {source : LayoutSource} {a : AttributeSource} (h : a ∈ source.attributes) :
      HasName source (Text.trimmed a.id)
  | children {source : LayoutSource} (h : source.children ≠ []) :
      HasName source Layout.childrenName
  | child {source child : LayoutSource} {name : String} (h : child ∈ source.children)
      (hname : HasName child name) : HasName source name

/-- A source that is compiled in a table of names has all its names there. -/
theorem exists_get?_of_compile {source : LayoutSource} {name : String} (hname : source.HasName name)
    {u : IdTable} {l : Layout} (h : source.compile u = (.ok l, u)) : ∃ i, u.get? name = some i := by
  induction hname generalizing l with
  | @declared source a ha =>
    obtain ⟨below, hdescribes⟩ := describes_of_compile h
    have hmem : (Text.trimmed a.id, Value.ofJson a.value) ∈
        source.declared ++ Layout.asChildren below :=
      List.mem_append_left _ (List.mem_map.2 ⟨a, ha, rfl⟩)
    obtain ⟨a, -, hbears⟩ := exists_of_mem_forall₂ hdescribes.attributes hmem
    exact ⟨a.id, hbears.1⟩
  | @children source hne =>
    obtain ⟨below, hdescribes⟩ := describes_of_compile h
    cases hbelow : below with
    | nil =>
      have hchildren := hdescribes.children
      rw [hbelow] at hchildren
      exact absurd (List.forall₂_nil_right_iff.1 hchildren) hne
    | cons first rest =>
      have hmem : (Layout.childrenName, Value.array ((first :: rest).map Value.layout)) ∈
          source.declared ++ Layout.asChildren below := by
        rw [hbelow]
        exact List.mem_append_right _ (List.mem_singleton.2 rfl)
      obtain ⟨a, -, hbears⟩ := exists_of_mem_forall₂ hdescribes.attributes hmem
      exact ⟨a.id, hbears.1⟩
  | child hchild _ ih =>
    obtain ⟨below, hdescribes⟩ := describes_of_compile h
    obtain ⟨l', -, hcompile⟩ := exists_of_mem_forall₂ hdescribes.children hchild
    exact ih hcompile

end LayoutSource

/-- An edit that finds its widget numbers the attribute, whatever becomes of it. -/
theorem Context.exists_get?_of_edit (context : Context) {s : Session} {id : WidgetId} {m : Manager}
    {name : String} (json : Json) (hm : s.managerOf? id = some m) (hname : Text.trimmed name ≠ "") :
    ∃ i, (context.edit id name json s).2.ids.get? (Text.trimmed name) = some i := by
  refine ⟨_, IdTable.get?_mono ?_ (IdTable.get?_intern (Text.trimmed name) s.ids)⟩
  have hle : (s.intern (Text.trimmed name)).2.ids ≤ (context.apply m.parser id
      (s.intern (Text.trimmed name)).1 (.ofJson json) (s.intern (Text.trimmed name)).2).2.ids :=
    context.le_serveAll [.handle m.parser id _ (.ofJson json)] _
  rw [context.edit_eq, hm]
  dsimp only
  rw [if_neg hname]
  rcases hrun : context.apply m.parser id (s.intern (Text.trimmed name)).1 (.ofJson json)
    (s.intern (Text.trimmed name)).2 with ⟨e | accepted, s'⟩
  all_goals rw [hrun] at hle
  · exact hle
  · cases accepted <;> exact hle

/-- What comes to the table of names of a session: a host's request, or a parser that is made, with
the names of its set of attributes. -/
inductive Event where
  | request (context : Context) (r : Request)
  | parser (names : List String)

namespace Event

/-- The session after an event. -/
def perform (s : Session) : Event → Session
  | .request context r => context.serve s r
  | .parser names => { s with ids := (AttributeSet.allocate id names s.ids).2 }

/-- An attribute goes by a name: of a source that is compiled, of a parser's set of attributes, or
of an edit of a widget that can be edited. -/
inductive Uses (s : Session) : Event → String → Prop
  | compiled {context : Context} {source : LayoutSource} {l : Layout} {t : IdTable} {name : String}
      (h : source.compile s.ids = (.ok l, t)) (hname : source.HasName name) :
      Uses s (.request context (.compile source)) name
  | listed {names : List String} {name : String} (h : name ∈ names) : Uses s (.parser names) name
  | edited {context : Context} {id : WidgetId} {m : Manager} {name : String} {json : Json}
      (hm : s.managerOf? id = some m) (hname : Text.trimmed name ≠ "") :
      Uses s (.request context (.act (.edit id name json))) (Text.trimmed name)

variable {s : Session} {event : Event} {name : String}

/-- An event only adds names. -/
theorem le_perform (s : Session) (event : Event) : s.ids ≤ (event.perform s).ids := by
  cases event with
  | request context r => exact context.le_serveAll [r] s
  | parser names => exact AttributeSet.le_allocate names s.ids

/-- A name that an event uses has a number then. -/
theorem Uses.exists_get? (h : event.Uses s name) :
    ∃ i, (event.perform s).ids.get? name = some i := by
  cases h with
  | @compiled context source l t _ h hname =>
    have hids : (perform s (.request context (.compile source))).ids = t := congrArg Prod.snd h
    rw [hids]
    exact LayoutSource.exists_get?_of_compile hname (LayoutSource.compile_of_le h (le_refl t))
  | @listed names _ hmem => exact AttributeSet.exists_get?_of_mem hmem [] s.ids
  | @edited context id m name json hm hname => exact context.exists_get?_of_edit json hm hname

end Event

/-- The session after events, one after the other, from a table of names on. -/
def Session.ofEvents (ids : IdTable) (events : List Event) : Session :=
  events.foldl Event.perform (.ofIds ids)

namespace Session

variable {ids : IdTable} {event : Event} {before after : List Event} {name : String} {s : Session}

/-- Events only add names. -/
theorem le_foldl_perform (s : Session) (events : List Event) :
    s.ids ≤ (events.foldl Event.perform s).ids := by
  induction events generalizing s with
  | nil => exact le_refl s.ids
  | cons event rest ih => exact (event.le_perform s).trans (ih _)

/-- Events in two parts happen one part after the other. -/
theorem ofEvents_append (ids : IdTable) (before after : List Event) :
    ofEvents ids (before ++ after) = after.foldl Event.perform (ofEvents ids before) := by
  rw [ofEvents, List.foldl_append, ofEvents]

/-- A name that an attribute has gone by has a number, which is that of the view with a name exactly
if it is the key of that view, and reads back as a view's name exactly if it starts like a key. -/
theorem attribute_apart_iff (hs : s = ofEvents ids (before ++ event :: after))
    (huses : event.Uses (ofEvents ids before) name) :
    ∃ i, s.ids.get? name = some i ∧
      (∀ view j, s.ids.viewId? view = some j → (i = j ↔ name = IdTable.viewKey view)) ∧
      (s.ids.viewNameOf? i = none ↔ ¬ IdTable.viewLead <+: name.toList) := by
  obtain ⟨i, hi⟩ := huses.exists_get?
  have hle : (event.perform (ofEvents ids before)).ids ≤ s.ids := by
    rw [hs, ofEvents_append, List.foldl_cons]
    exact le_foldl_perform _ after
  replace hi := IdTable.get?_mono hle hi
  refine ⟨i, hi, fun view j hj => ?_, ?_⟩
  · constructor
    · rintro rfl
      exact IdTable.get?_inj hi hj
    · rintro rfl
      exact Option.some.inj (hi.symm.trans hj)
  · exact IdTable.viewNameOf?_eq_none_iff hi

/-- A view whose one attribute has some name. -/
def viewWith (name : String) : LayoutSource := ⟨"view", [⟨name, .int 1⟩], []⟩

/-- A view called `title`, once the engine's own parsers have been made. -/
def titledView : Layout := ⟨"view", [⟨1, .string "title"⟩], none⟩

/-- A layout with an attribute of some name is compiled, and then a view called `title` is
inflated. -/
def titlingAfter (name : String) : List Event :=
  [.request Context.own (.compile (viewWith name)),
    .request Context.own (.act (.inflate titledView [] none 3))]

/-- Compiling a view with an attribute uses the name of the attribute. -/
theorem uses_viewWith {name : String} (hname : Text.trimmed name = name)
    (h : Fallible.gives (viewWith name).compile s.ids (fun _ _ => true) = true) :
    (Event.request Context.own (.compile (viewWith name))).Uses s name := by
  obtain ⟨l, t, hcompile, -⟩ := Fallible.exists_of_gives h
  have hmem : (⟨name, .int 1⟩ : AttributeSource) ∈ (viewWith name).attributes :=
    List.mem_cons_self
  have hdeclared := LayoutSource.HasName.declared hmem
  dsimp only at hdeclared
  rw [hname] at hdeclared
  exact .compiled hcompile hdeclared

/-- The attribute `title` and the view `title`. -/
theorem attribute_apart_title :
    ∃ s i j, s = ofEvents Context.ownIds (titlingAfter "title") ∧
      s.ids.get? "title" = some i ∧ s.ids.viewId? "title" = some j ∧
      (s.widget? ⟨1⟩).bind (·.view.id) = some j ∧ i ≠ j ∧ s.ids.viewNameOf? i = none := by
  have huses : (Event.request Context.own (.compile (viewWith "title"))).Uses
      (ofEvents Context.ownIds []) "title" :=
    uses_viewWith (by decide +kernel) (by decide +kernel)
  have hs : ofEvents Context.ownIds (titlingAfter "title") =
      ofEvents Context.ownIds ([] ++ .request Context.own (.compile (viewWith "title")) ::
        [.request Context.own (.act (.inflate titledView [] none 3))]) := by
    rw [titlingAfter, List.nil_append]
  obtain ⟨i, hi, hview, hnone⟩ := attribute_apart_iff hs huses
  have hj : (ofEvents Context.ownIds (titlingAfter "title")).ids.viewId? "title" = some 26 := by
    decide +kernel
  have hwidget : ((ofEvents Context.ownIds (titlingAfter "title")).widget? ⟨1⟩).bind
      (·.view.id) = some 26 := by
    decide +kernel
  refine ⟨_, i, 26, rfl, hi, hj, hwidget, ?_, hnone.2 (by decide)⟩
  exact mt (hview "title" 26 hj).1 (by decide)

/-- The attribute `@id/title` and the view `title`. -/
theorem attribute_meets_view :
    ∃ s i, s = ofEvents Context.ownIds (titlingAfter "@id/title") ∧
      (Event.request Context.own (.compile (viewWith "@id/title"))).Uses
        (ofEvents Context.ownIds []) "@id/title" ∧
      s.ids.get? "@id/title" = some i ∧ s.ids.viewId? "title" = some i ∧
      (s.widget? ⟨1⟩).bind (·.view.id) = some i ∧ s.ids.viewNameOf? i = some "title" :=
  ⟨_, 25, rfl, uses_viewWith (by decide +kernel) (by decide +kernel), by decide +kernel,
    by decide +kernel, by decide +kernel, by decide +kernel⟩

end Session

end LayoutEngine
