import LayoutEngine.Proofs.Faithful
import LayoutEngine.Proofs.Serving
import LayoutEngine.Proofs.TagTable
import LayoutEngine.Proofs.Tagging
import LayoutEngine.Session.Edit

/-!
# Attributes declared again

What is retained of the declared attributes of a widget is a list without repetitions, so a
declaration that repeats an earlier one leaves no trace in it. Which descriptor of a name comes last
is then decided by first occurrences (`Descriptor.getLast?_distinct_iff`), while of the declarations
themselves the last one is the last to be applied. After an inflation the editor's list says so
widget by widget (`Context.attributes_of_inflated`).
-/

namespace LayoutEngine

/-! ## First occurrences -/

namespace Descriptor

/-- It does not matter whether repetitions are dropped before or after others are left out. -/
theorem filter_distinct (keep : Descriptor → Bool) (descriptors : List Descriptor) :
    (distinct descriptors).filter keep = distinct (descriptors.filter keep) := by
  induction descriptors using List.reverseRecOn with
  | nil => rfl
  | append_singleton first d ih =>
    rw [distinct_concat, List.filter_append]
    cases hkeep : keep d with
    | false =>
      rw [List.filter_cons_of_neg (by simp [hkeep]), List.filter_nil, List.append_nil, ← ih]
      split
      · rfl
      · rw [List.filter_append, List.filter_cons_of_neg (by simp [hkeep]), List.filter_nil,
          List.append_nil]
    | true =>
      rw [List.filter_cons_of_pos hkeep, List.filter_nil, distinct_concat, ← ih]
      simp only [List.mem_filter, hkeep, and_true]
      split
      · rfl
      · rw [List.filter_append, List.filter_cons_of_pos hkeep, List.filter_nil]

/-- The last one without repetitions is the one whose first occurrence comes last. -/
theorem getLast?_distinct_iff {descriptors : List Descriptor} {d : Descriptor} :
    (distinct descriptors).getLast? = some d ↔
      d ∈ descriptors ∧ ∀ e ∈ descriptors, descriptors.idxOf e ≤ descriptors.idxOf d := by
  have hfirst := firstOccurrences_distinct descriptors
  have hordered := hfirst.ordered
  simp only [← hfirst.mem_iff]
  rcases List.eq_nil_or_concat (distinct descriptors) with hnil | ⟨front, last, hkept⟩
  · simp [hnil]
  · rw [hkept, List.concat_eq_append] at hordered ⊢
    obtain ⟨-, -, hbefore⟩ := List.pairwise_append.1 hordered
    replace hbefore := fun e he => hbefore e he last (List.mem_singleton_self last)
    rw [List.getLast?_concat, Option.some_inj]
    simp only [List.mem_append, List.mem_singleton]
    constructor
    · rintro rfl
      exact ⟨.inr rfl, fun e he => he.elim (fun he => (hbefore e he).le) fun he => he ▸ le_rfl⟩
    · rintro ⟨hd | rfl, hlatest⟩
      · exact absurd (hbefore d hd) (Nat.not_lt_of_le (hlatest last (.inr rfl)))
      · rfl

/-- A last one that is not there before stays the last. -/
theorem getLast?_distinct_of_notMem {descriptors : List Descriptor} {d : Descriptor}
    (hlast : descriptors.getLast? = some d) (hnew : d ∉ descriptors.dropLast) :
    (distinct descriptors).getLast? = some d := by
  have hconcat := List.dropLast_append_getLast? d hlast
  rw [← hconcat, distinct_concat, if_neg hnew, List.getLast?_concat]

end Descriptor

/-! ## What is recorded -/

namespace TagTable

/-- What one widget declares is not recorded for another. -/
theorem get?_declare_of_ne {id : WidgetId} {p : WidgetId × Layout} (h : id ≠ p.1)
    (table : TagTable) : (table.declare p).get? id = table.get? id := by
  unfold declare
  split
  · rfl
  · split
    · exact Entries.get?_put_of_ne h _ _
    · rfl

/-- What a widget declares is recorded without repetitions. -/
theorem get?_declare_self {p : WidgetId × Layout} (hattributes : p.2.attributes.isEmpty = false)
    {tags : List Descriptor} (htags : p.2.tags = some tags) (table : TagTable) :
    (table.declare p).get? p.1 = some (Descriptor.distinct tags) := by
  simp [declare, hattributes, htags, get?, record]

/-- Nothing is recorded of a widget if no layout that is started for it declares attributes. -/
theorem get?_foldl_declare {id : WidgetId} {started : List (WidgetId × Layout)}
    (h : ∀ p ∈ started, p.1 = id → ¬p.2.Declares) (table : TagTable) :
    (started.foldl declare table).get? id = table.get? id := by
  induction started generalizing table with
  | nil => rfl
  | cons p rest ih =>
    obtain ⟨hp, hrest⟩ := List.forall_mem_cons.1 h
    rw [List.foldl_cons, ih hrest]
    by_cases hid : p.1 = id
    · rw [declare_of_not_declares (hp hid)]
    · exact get?_declare_of_ne (Ne.symm hid) table

end TagTable

namespace Session

variable {context : Context} {s s' : Session} {id : WidgetId}
  {started : List (WidgetId × Layout)}

/-- Where all parsers make new widgets, each layout that is started gets the next one. -/
theorem Started.within (h : s.Started context started s') (hnew : context.registry.MakesNew) :
    ∀ p ∈ started, p.1.number ≤ s'.widgets.length := by
  induction h with
  | still _ _ _ => nofun
  | @start l parser hget verbose data parent index s =>
    obtain ⟨hid, hborn⟩ :=
      ViewParser.start_of_new (hnew l.viewType parser hget) verbose l data parent index s
    obtain ⟨w, hwidgets, -⟩ := hborn.widgets
    intro p hp
    obtain rfl := List.mem_singleton.1 hp
    simp [hid, hwidgets]
  | trans _ h' ih ih' =>
    intro p hp
    rcases List.mem_append.1 hp with hp | hp
    · exact (ih p hp).trans (h'.newer hnew).1
    · exact ih' p hp

/-- What was declared of widgets that were there is left alone. -/
theorem Started.get?_tags_of_old (h : s.Started context started s')
    (hnew : context.registry.MakesNew) {id : WidgetId} (hid : id.number ≤ s.widgets.length) :
    s'.tags.get? id = s.tags.get? id := by
  induction h with
  | still tags _ _ => rw [tags]
  | @start l parser hget verbose data parent index s =>
    obtain ⟨hstart, -⟩ :=
      ViewParser.start_of_new (hnew l.viewType parser hget) verbose l data parent index s
    rw [ViewParser.tags_start]
    refine TagTable.get?_declare_of_ne ?_ s.tags
    rintro rfl
    rw [hstart] at hid
    exact absurd hid (Nat.not_succ_le_self _)
  | trans h _ ih ih' => rw [ih' (hid.trans (h.newer hnew).1), ih hid]

/-- What a started layout declares is what is recorded of its widget. -/
theorem Started.get?_tags_of_mem (h : s.Started context started s')
    (hnew : context.registry.MakesNew) {p : WidgetId × Layout} (hp : p ∈ started)
    (hattributes : p.2.attributes.isEmpty = false) {tags : List Descriptor}
    (htags : p.2.tags = some tags) :
    s'.tags.get? p.1 = some (Descriptor.distinct tags) := by
  induction h with
  | still _ _ _ => cases hp
  | start hget verbose data parent index s =>
    obtain rfl := List.mem_singleton.1 hp
    rw [ViewParser.tags_start]
    exact TagTable.get?_declare_self hattributes htags s.tags
  | trans h h' ih ih' =>
    rcases List.mem_append.1 hp with hp | hp
    · rw [h'.get?_tags_of_old hnew (h.within hnew p hp), ih hp]
    · exact ih' hp

/-- Where all parsers make new widgets, attributes are declared of new widgets only. -/
theorem Started.get?_tags (h : s.Started context started s') (hnew : context.registry.MakesNew)
    (id : WidgetId) : s'.tags.get? id = s.tags.get? id ∨
      s.widget? id = none ∧ (s'.widget? id).isSome = true := by
  by_cases hstarted : ∀ p ∈ started, id ≠ p.1
  · rw [h.tags_eq]
    exact .inl (TagTable.get?_foldl_declare (fun p hp heq => absurd heq.symm (hstarted p hp)) _)
  · push Not at hstarted
    obtain ⟨p, hp, rfl⟩ := hstarted
    have hlt := (h.newer hnew).2 p hp
    refine .inr ⟨?_, isSome_widget?_iff.2 ⟨Nat.one_le_of_lt hlt, h.within hnew p hp⟩⟩
    refine Option.eq_none_iff_forall_not_mem.2 fun w hw => ?_
    exact absurd (number_le_of_widget? hw).2 (Nat.not_le_of_lt hlt)

/-- No widget has gone, and if only widgets that were there had declared attributes that is still
so. -/
def StaysOwn (s s' : Session) : Prop :=
  s.widgets.length ≤ s'.widgets.length ∧ (s.DeclaresOwn → s'.DeclaresOwn)

instance : IsPreorder Session StaysOwn where
  refl _ := ⟨Nat.le_refl _, fun h => h⟩
  trans _ _ _ h₁ h₂ := ⟨h₁.1.trans h₂.1, h₂.2 ∘ h₁.2⟩

/-- Widgets keep what they have declared if nothing is recorded. -/
theorem StaysOwn.of_tags (hlength : s.widgets.length ≤ s'.widgets.length)
    (htags : s'.tags = s.tags) : s.StaysOwn s' := by
  refine ⟨hlength, fun hown id hid => ?_⟩
  rw [htags] at hid
  exact (hown id hid).trans hlength

/-- They do so if new widgets are started. -/
theorem Started.staysOwn (h : s.Started context started s') (hnew : context.registry.MakesNew) :
    s.StaysOwn s' := by
  obtain ⟨hlength, -⟩ := h.newer hnew
  refine ⟨hlength, fun hown id hid => ?_⟩
  rcases h.get?_tags hnew id with hsame | ⟨-, hthere⟩
  · rw [TagTable.contains, hsame] at hid
    exact (hown id hid).trans hlength
  · exact (isSome_widget?_iff.1 hthere).2

/-- An edit is recorded of a widget that is there. -/
theorem staysOwn_recordEdit (hid : id.number ≤ s.widgets.length) (name : String) (json : Json) :
    s.StaysOwn (s.recordEdit id name json) := by
  refine ⟨Nat.le_refl _, fun hown other hother => ?_⟩
  by_cases heq : other = id
  · exact heq ▸ hid
  · refine hown other ?_
    have hget : (s.recordEdit id name json).tags.get? other = s.tags.get? other :=
      Entries.get?_put_of_ne heq _ _
    rwa [TagTable.contains, hget] at hother

/-- The manager of a new widget is that of a layout that has been started for the widget. -/
theorem Started.mem_of_managerOf? {supply : Supply} (h : s.Started context started s')
    (hnew : context.registry.MakesNew) (ht : s.Tracked context supply)
    (ht' : s'.Tracked context supply) {id : WidgetId} (hnone : s.widget? id = none) {m : Manager}
    (hm : s'.managerOf? id = some m) : (id, m.layout) ∈ started := by
  obtain ⟨more, hmanagers, rfl⟩ := h.managers_eq hnew
  obtain rfl := ht'.widget_eq hm
  obtain ⟨w, mid, -, -, hmid⟩ := managerOf?_eq_some_iff.1 hm
  have hmem : m ∈ s.managers ++ more := hmanagers ▸ List.mem_of_getElem? hmid
  rcases List.mem_append.1 hmem with hold | hmore
  · obtain ⟨n, hn⟩ := List.mem_iff_getElem?.1 hold
    obtain ⟨v, hv, -⟩ := ht.managed (show s.manager? ⟨n⟩ = some m from hn)
    rw [hnone] at hv
    cases hv
  · exact List.mem_map.2 ⟨m, hmore, rfl⟩

/-- A layout that has been started for a widget is that of the widget's manager. -/
theorem Started.layout_eq {supply : Supply} (h : s.Started context started s')
    (hnew : context.registry.MakesNew) (ht' : s'.Tracked context supply) {id : WidgetId}
    {l : Layout} (hl : (id, l) ∈ started) {m : Manager} (hm : s'.managerOf? id = some m) :
    l = m.layout := by
  obtain ⟨more, hmanagers, rfl⟩ := h.managers_eq hnew
  obtain ⟨m', hm', hpair⟩ := List.mem_map.1 hl
  obtain ⟨rfl, rfl⟩ := Prod.mk.inj hpair
  have hmem : m' ∈ s'.managers := hmanagers ▸ List.mem_append_right _ hm'
  obtain ⟨n, hn⟩ := List.mem_iff_getElem?.1 hmem
  have hown : s'.manager? ⟨n⟩ = some m' := hn
  obtain ⟨w, hw, hmid, -⟩ := ht'.managed hown
  rw [managerOf?_eq_some_iff.2 ⟨w, ⟨n⟩, hw, hmid, hown⟩] at hm
  exact congrArg Manager.layout (Option.some.inj hm)

end Session

namespace LayoutSource

/-- The declared attributes as text. -/
def texts (source : LayoutSource) : List Descriptor :=
  source.attributes.map fun a => .ofJson (Text.trimmed a.id) a.value

/-- A compiled layout declares what its source does. -/
theorem declares_of_compile {source : LayoutSource} {l : Layout} {t t' : IdTable}
    (h : source.compile t = (.ok l, t')) :
    (source.texts = [] ∧ ¬l.Declares) ∨
      (l.attributes.isEmpty = false ∧ l.tags = some source.texts) := by
  obtain ⟨rs, below, last, hrs, -, -, rfl⟩ := parts_of_compile (compile_of_le h (le_refl t'))
  have htexts : rs.map Prod.snd = source.texts := descriptors_of_compileAttributes hrs
  cases rs with
  | nil => exact .inl ⟨htexts.symm, fun hdeclares => absurd hdeclares.2 (by simp)⟩
  | cons r rest => exact .inr ⟨rfl, congrArg some htexts⟩

end LayoutSource

namespace Context

open Session

variable {context : Context} {supply : Supply} {s s' : Session}

/-- Inflating leaves declared attributes to widgets that are there. -/
theorem carries_staysOwn (hnew : context.registry.MakesNew) :
    context.Carries (fun _ => True) (fun _ => True) StaysOwn where
  told s log calls := .of_tags (Nat.le_refl _) rfl
  create item s := .of_tags (by simp [Session.create]) rfl
  start hget verbose data parent index s _ :=
    ⟨trivial, (Started.start hget verbose data parent index s).staysOwn hnew⟩
  property {id} _ p value s := by
    have htouches := touches_applyProperty id p value s
    exact .of_tags (Nat.le_of_eq htouches.length.symm) htouches.tags
  children {id} _ children s :=
    .of_tags (Nat.le_of_eq (length_changeWidget id _ s).symm) (tags_changeWidget id _ s)
  still _ _ := trivial

/-- Where all parsers make new widgets, only widgets that are there have declared attributes, after
whatever requests. -/
theorem Served.declaresOwn (h : context.Served supply s) (hnew : context.registry.MakesNew) :
    s.DeclaresOwn := by
  obtain ⟨ids, requests, -, rfl⟩ := h
  have hstays : (Session.ofIds ids).StaysOwn (context.serveAll requests (.ofIds ids)) := by
    refine serveAll_carries (carries_staysOwn hnew) (fun s mid data => ?_) (fun s ids _ => ?_)
      (fun {id name json m s s'} hm hstays => ?_) requests trivial
    · exact .of_tags (Nat.le_refl _) rfl
    · exact .of_tags (Nat.le_refl _) rfl
    · obtain ⟨w, -, hw, -⟩ := managerOf?_eq_some_iff.1 hm
      exact staysOwn_recordEdit ((number_le_of_widget? hw).2.trans hstays.1) name json
  exact hstays.2 fun id hid => by cases hid

/-- An inflation is a request, whether or not it succeeds. -/
theorem Served.run (hserved : context.Served .all s) (inflation : Inflation)
    {result : Except InflateError WidgetId} (hrun : inflation.run context s = (result, s')) :
    context.Served .all s' := by
  cases inflation with
  | given l data parent index => exact hserved.inflate trivial hrun
  | named name data parent index =>
    have hserve := hserved.serve (r := .inflateNamed name data parent index) fun _ _ => trivial
    rw [Inflation.run] at hrun
    rwa [serve_inflateNamed, hrun] at hserve

/-- What is recorded of a widget that an inflation has made: what the widget's layout declares,
and nothing if it declares nothing. -/
theorem Served.attributesOf_of_started (hserved : context.Served .all s)
    (hserved' : context.Served .all s') (hmakes : context.registry.MakesNew)
    {started : List (WidgetId × Layout)} (hstarted : s.Started context started s')
    {id : WidgetId} (hnew : s.widget? id = none) {m : Manager} (hm : s'.managerOf? id = some m)
    {source : LayoutSource} {u u' : IdTable} (hcompiled : source.compile u = (.ok m.layout, u')) :
    s'.attributesOf id = Descriptor.distinct source.texts := by
  rcases LayoutSource.declares_of_compile hcompiled with ⟨hnil, hnot⟩ | ⟨hattributes, htags⟩
  · -- Nothing was recorded of the widget before it was there, nor when it was started.
    have hbefore : s.tags.get? id = none := by
      by_contra hsome
      have hthere := hserved.declaresOwn hmakes id (Option.isSome_iff_ne_none.2 hsome)
      obtain ⟨w, mid, hw, -⟩ := Session.managerOf?_eq_some_iff.1 hm
      have hpos := (Session.number_le_of_widget? hw).1
      have hwas : (s.widget? id).isSome = true := Session.isSome_widget?_iff.2 ⟨hpos, hthere⟩
      rw [hnew] at hwas
      cases hwas
    have hafter : s'.tags.get? id = none := by
      rw [hstarted.tags_eq, TagTable.get?_foldl_declare ?_ s.tags, hbefore]
      rintro ⟨_, l⟩ hl rfl
      rw [hstarted.layout_eq hmakes hserved'.tracked hl hm]
      exact hnot
    rw [Session.attributesOf, hafter, hnil]
    rfl
  · have hmem := hstarted.mem_of_managerOf? hmakes hserved.tracked hserved'.tracked hnew hm
    rw [Session.attributesOf, hstarted.get?_tags_of_mem hmakes hmem hattributes htags]
    rfl

/-- What an editor sees of a widget that an inflation has made. After whatever requests, where all
parsers are the engine's own, perhaps under further names, a layout is inflated, given or by name,
whether or not that fails. The list of a new widget whose layout has been compiled is what was
declared, in order, without what repeats an earlier declaration of the same name and text; so it is
empty if nothing was. The last descriptor of a name is the one whose first declaration comes last.
It is that of the last declaration of the name if that repeats no earlier one. -/
theorem attributes_of_inflated {context : Context} {s : Session} (hserved : context.Served .all s)
    {aliases : List (String × String)} {t : IdTable}
    (hregistry : context.registry = Setup.registerAliases aliases (Registry.withBuiltins t).1)
    (inflation : Inflation) {result : Except InflateError WidgetId} {s' : Session}
    (hrun : inflation.run context s = (result, s'))
    {id : WidgetId} (hnew : s.widget? id = none) {m : Manager} (hm : s'.managerOf? id = some m)
    {source : LayoutSource} {u u' : IdTable}
    (hcompiled : source.compile u = (.ok m.layout, u')) :
    s'.attributesOf id = Descriptor.distinct source.texts ∧
    (∀ name d, ((s'.attributesOf id).filter (·.name = name)).getLast? = some d ↔
      d ∈ source.texts.filter (·.name = name) ∧
      ∀ e ∈ source.texts.filter (·.name = name),
        (source.texts.filter (·.name = name)).idxOf e ≤
          (source.texts.filter (·.name = name)).idxOf d) ∧
    ∀ name last, (source.texts.filter (·.name = name)).getLast? = some last →
      last ∉ (source.texts.filter (·.name = name)).dropLast →
      ((s'.attributesOf id).filter (·.name = name)).getLast? = some last := by
  have hmakes : context.registry.MakesNew := by
    rw [hregistry]
    exact Registry.makesNew_registerAliases aliases t
  have hserved' : context.Served .all s' := hserved.run inflation hrun
  have hstarted := inflation.started_run context s
  rw [hrun] at hstarted
  have hlist : s'.attributesOf id = Descriptor.distinct source.texts :=
    hserved.attributesOf_of_started hserved' hmakes hstarted hnew hm hcompiled
  refine ⟨hlist, ?_, ?_⟩
  · intro name d
    rw [hlist, Descriptor.filter_distinct]
    exact Descriptor.getLast?_distinct_iff
  · intro name last hlast hfirst
    rw [hlist, Descriptor.filter_distinct]
    exact Descriptor.getLast?_distinct_of_notMem hlast hfirst

/-- A text that is declared as A, as B and as A again. -/
def reletteredText : LayoutSource :=
  ⟨"text", [⟨"text", .string "A"⟩, ⟨"text", .string "B"⟩, ⟨"text", .string "A"⟩], []⟩

/-- A container with the text in it. -/
def reletteredForm : LayoutSource := ⟨"relative-layout", [], [reletteredText]⟩

/-- In a container the text has the list without the repeated declaration, and the container, which
declares nothing, has none. -/
theorem attributes_of_inflated_reletteredText :
    ∃ l t' s' root m,
      reletteredForm.compile ownIds = (.ok l, t') ∧
      own.inflate l [] none noDataIndex (.ofIds t') = (.ok ⟨1⟩, s') ∧
      s'.managerOf? ⟨1⟩ = some root ∧ reletteredForm.compile s'.ids = (.ok root.layout, s'.ids) ∧
      s'.attributesOf ⟨1⟩ = [] ∧
      s'.managerOf? ⟨2⟩ = some m ∧ reletteredText.compile s'.ids = (.ok m.layout, s'.ids) ∧
      s'.attributesOf ⟨2⟩ = [⟨"text", "A"⟩, ⟨"text", "B"⟩] ∧
      ((s'.attributesOf ⟨2⟩).filter (·.name = "text")).getLast? = some ⟨"text", "B"⟩ := by
  have hrun : Fallible.gives reletteredForm.compile ownIds (fun l t' =>
      Fallible.gives (own.inflate l [] none noDataIndex) (.ofIds t') fun root _ =>
        decide (root = ⟨1⟩)) = true := by
    decide +kernel
  have hregistry :
      own.registry = Setup.registerAliases [] (Registry.withBuiltins .empty).1 := rfl
  obtain ⟨l, t', hcompile, hrun⟩ := Fallible.exists_of_gives hrun
  obtain ⟨root, s', hinflate, hrun⟩ := Fallible.exists_of_gives hrun
  obtain rfl := of_decide_eq_true hrun
  have hcontext : own.HasOwnParsers (Session.ofIds t').ids :=
    own_hasOwnParsers (LayoutSource.stable_compile _ hcompile).1
  obtain ⟨-, -, hbuilt⟩ :=
    built_of_inflate hcontext (LayoutSource.compile_of_le hcompile (le_refl t')) hinflate
  obtain ⟨k₁, mid₁, top, parser₁, w₁, hstands₁⟩ :=
    hbuilt.stands ⟨reletteredForm, none, ⟨1⟩⟩ List.mem_cons_self
  obtain ⟨k, mid, child, parser, w, hstands⟩ := hbuilt.stands ⟨reletteredText, some ⟨1⟩, ⟨2⟩⟩
    (List.mem_cons_of_mem _ List.mem_cons_self)
  have hroot := hstands₁.managed.managerOf?
  have hm := hstands.managed.managerOf?
  obtain ⟨hempty, -⟩ := attributes_of_inflated (Served.ofIds own .all t') hregistry
    (.given l [] none noDataIndex) hinflate (Session.widget?_ofIds t' ⟨1⟩) hroot
    hstands₁.compiled
  obtain ⟨hlist, hiff, -⟩ := attributes_of_inflated (Served.ofIds own .all t') hregistry
    (.given l [] none noDataIndex) hinflate (Session.widget?_ofIds t' ⟨2⟩) hm hstands.compiled
  refine ⟨l, t', s', _, _, hcompile, hinflate, hroot, hstands₁.compiled, ?_, hm,
    hstands.compiled, ?_, ?_⟩
  · rw [hempty]
    rfl
  · rw [hlist]
    decide +kernel
  · exact (hiff "text" ⟨"text", "B"⟩).2 (by decide +kernel)

/-- The last descriptor of the text is not the text's last declaration. -/
theorem last_descriptor_reletteredText :
    ∃ l t' s',
      reletteredText.compile ownIds = (.ok l, t') ∧
      own.inflate l [] none noDataIndex (.ofIds t') = (.ok ⟨1⟩, s') ∧
      (reletteredText.texts.filter (·.name = "text")).getLast? = some ⟨"text", "A"⟩ ∧
      ((s'.attributesOf ⟨1⟩).filter (·.name = "text")).getLast? = some ⟨"text", "B"⟩ ∧
      (⟨"text", "A"⟩ : Descriptor) ≠ ⟨"text", "B"⟩ := by
  have hrun : Fallible.gives reletteredText.compile ownIds (fun l t' =>
      Fallible.gives (own.inflate l [] none noDataIndex) (.ofIds t') fun root s' =>
        decide (root = ⟨1⟩ ∧
          (reletteredText.texts.filter (·.name = "text")).getLast? = some ⟨"text", "A"⟩ ∧
          ((s'.attributesOf ⟨1⟩).filter (·.name = "text")).getLast? = some ⟨"text", "B"⟩)) =
      true := by
    decide +kernel
  obtain ⟨l, t', hcompile, hrun⟩ := Fallible.exists_of_gives hrun
  obtain ⟨root, s', hinflate, hrun⟩ := Fallible.exists_of_gives hrun
  obtain ⟨rfl, hlast, hlisted⟩ := of_decide_eq_true hrun
  exact ⟨l, t', s', hcompile, hinflate, hlast, hlisted, by decide⟩

end Context

end LayoutEngine
