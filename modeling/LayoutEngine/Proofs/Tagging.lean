import LayoutEngine.Proofs.Forest
import LayoutEngine.Proofs.Starting

/-!
# Declared attributes after an inflation

What a layout declares is recorded for its widget before its attributes are applied, and so before
its children are inflated. Nothing takes it back if one of them fails. So the table of declared
attributes after an inflation, failed or not, is what recording the layouts gives that the inflation
has started (`Session.Started.tags_eq`), and a failed inflation leaves it as it was exactly if none
of those declares attributes (`Context.tags_of_failed`).
-/

namespace LayoutEngine

/-! ## Recording -/

/-- The layout declares attributes. -/
def Layout.Declares (l : Layout) : Prop := l.attributes.isEmpty = false ∧ l.tags.isSome = true

instance (l : Layout) : Decidable l.Declares := inferInstanceAs (Decidable (_ ∧ _))

namespace TagTable

/-- The table after a widget has been started for a layout. -/
def declare (table : TagTable) (started : WidgetId × Layout) : TagTable :=
  if started.2.attributes.isEmpty then table
  else
    match started.2.tags with
    | some tags => table.record started.1 tags
    | none => table

variable {table : TagTable} {id : WidgetId} {started : List (WidgetId × Layout)}

/-- What declares nothing leaves the table. -/
theorem declare_of_not_declares {p : WidgetId × Layout} (h : ¬p.2.Declares) :
    table.declare p = table := by
  unfold declare
  cases hattributes : p.2.attributes.isEmpty with
  | true => rfl
  | false =>
    cases htags : p.2.tags with
    | none => rfl
    | some tags => exact absurd ⟨hattributes, by simp [htags]⟩ h

/-- What declares something is in the table. -/
theorem contains_declare_self {p : WidgetId × Layout} (h : p.2.Declares) :
    (table.declare p).contains p.1 = true := by
  obtain ⟨hattributes, htags⟩ := h
  obtain ⟨tags, htags⟩ := Option.isSome_iff_exists.1 htags
  simp [declare, hattributes, htags, contains, get?, record]

/-- What was in the table stays in it. -/
theorem contains_declare (h : table.contains id = true) (p : WidgetId × Layout) :
    (table.declare p).contains id = true := by
  by_cases hp : p.2.Declares
  · by_cases heq : id = p.1
    · exact heq ▸ contains_declare_self hp
    · obtain ⟨hattributes, htags⟩ := hp
      obtain ⟨tags, htags⟩ := Option.isSome_iff_exists.1 htags
      have hget := Entries.get?_put_of_ne heq (Descriptor.distinct tags) table.entries
      simp only [contains, get?] at h
      simp [declare, hattributes, htags, contains, get?, record, hget, h]
  · rw [declare_of_not_declares hp]
    exact h

/-- What has been declared of a widget stays declared. -/
theorem contains_foldl_declare (h : table.contains id = true)
    (started : List (WidgetId × Layout)) : (started.foldl declare table).contains id = true := by
  induction started generalizing table with
  | nil => exact h
  | cons p rest ih => exact ih (contains_declare h p)

/-- Where none declares anything the table stays. -/
theorem foldl_declare_of_forall (h : ∀ p ∈ started, ¬p.2.Declares) :
    started.foldl declare table = table := by
  induction started with
  | nil => rfl
  | cons p rest ih =>
    obtain ⟨hp, hrest⟩ := List.forall_mem_cons.1 h
    rw [List.foldl_cons, declare_of_not_declares hp, ih hrest]

/-- Once some layout declares attributes its widget is in the table. -/
theorem contains_of_mem {p : WidgetId × Layout} (hmem : p ∈ started) (h : p.2.Declares) :
    (started.foldl declare table).contains p.1 = true := by
  induction started generalizing table with
  | nil => cases hmem
  | cons q rest ih =>
    rcases List.mem_cons.1 hmem with rfl | hmem
    · exact contains_foldl_declare (contains_declare_self h) rest
    · exact ih hmem

/-- Where the widgets were not in the table, it stays as it was only if nothing is declared. -/
theorem foldl_declare_eq_self_iff (hnew : ∀ p ∈ started, table.contains p.1 = false) :
    started.foldl declare table = table ↔ ∀ p ∈ started, ¬p.2.Declares := by
  constructor
  · intro heq p hmem hp
    have hcontains : (started.foldl declare table).contains p.1 = true := contains_of_mem hmem hp
    rw [heq, hnew p hmem] at hcontains
    cases hcontains
  · exact foldl_declare_of_forall

end TagTable

/-! ## Recording what starts -/

namespace Session

/-- Only widgets that are there have declared attributes. -/
def DeclaresOwn (s : Session) : Prop :=
  ∀ id, s.tags.contains id = true → id.number ≤ s.widgets.length

end Session

namespace ViewParser

variable (parser : ViewParser) (verbose : Bool) (l : Layout) (data : Fields)
  (parent : Option WidgetId) (index : Int) (s : Session)

/-- The start of a layout records what it declares. -/
theorem tags_start :
    (parser.start verbose l data parent index s).2.tags =
      s.tags.declare ((parser.start verbose l data parent index s).1, l) := by
  simp only [start, Session.recordTags, TagTable.declare]
  rw [attach_eq, giveOut_eq]
  split
  · rfl
  · cases l.tags <;> rfl

end ViewParser

namespace Session

variable {context : Context} {s s' s'' : Session} {started : List (WidgetId × Layout)}

/-- The table is what recording the started layouts gives. -/
theorem Started.tags_eq (h : s.Started context started s') :
    s'.tags = started.foldl TagTable.declare s.tags := by
  induction h with
  | still tags _ _ => exact tags
  | start _ verbose data parent index s => exact ViewParser.tags_start ..
  | trans _ _ ih ih' => rw [List.foldl_append, ← ih, ih']

end Session

namespace Context

variable {context : Context}

/-- An inflation that fails has recorded what the layouts declare that it had started by then, and
takes nothing back. So the declared attributes are as they were if none of these declares any. Where
all parsers make new widgets, these are the layouts of the managers that are new, and if only
widgets that were there had declared attributes, those are as they were only then. -/
theorem tags_of_failed (inflation : Inflation) {s s' : Session} {e : InflateError}
    (hfailed : inflation.run context s = (.error e, s')) :
    s'.tags = (inflation.started context s).foldl TagTable.declare s.tags ∧
    ((∀ p ∈ inflation.started context s, ¬p.2.Declares) → s'.tags = s.tags) ∧
    (context.registry.MakesNew →
      (∃ more, s'.managers = s.managers ++ more ∧
        more.map (fun m => (m.widget, m.layout)) = inflation.started context s) ∧
      (s.DeclaresOwn →
        (s'.tags = s.tags ↔ ∀ p ∈ inflation.started context s, ¬p.2.Declares))) := by
  have hstarted := inflation.started_run context s
  rw [hfailed] at hstarted
  refine ⟨hstarted.tags_eq, ?_, fun hnew => ⟨hstarted.managers_eq hnew, fun howns => ?_⟩⟩
  · intro hnone
    rw [hstarted.tags_eq, TagTable.foldl_declare_of_forall hnone]
  · rw [hstarted.tags_eq]
    refine TagTable.foldl_declare_eq_self_iff fun p hp => ?_
    have hlt := (hstarted.newer hnew).2 p hp
    refine Bool.eq_false_iff.2 fun hcontains => ?_
    exact absurd (howns p.1 hcontains) (Nat.not_le_of_lt hlt)

/-- A container with a padding of its own, which has a child of a type that has no parser. -/
def brokenForm : LayoutSource :=
  ⟨"relative-layout", [⟨"padding", .int 4⟩], [⟨"view", [], []⟩, ⟨"carousel", [], []⟩]⟩

/-- The inflation of a broken form fails once the container and its first child have been made. -/
theorem exists_failed_brokenForm :
    ∃ l t' s',
      brokenForm.compile ownIds = (.ok l, t') ∧
      own.inflate l [] none noDataIndex (.ofIds t') =
        (.error (.unresolvedType "carousel"), s') ∧
      s'.tags.get? ⟨1⟩ = some [⟨"padding", "4"⟩] ∧ s'.widgets.length = 2 := by
  have hrun : Fallible.gives brokenForm.compile ownIds (fun l t' =>
      Fallible.failsWith (own.inflate l [] none noDataIndex) (.ofIds t') fun e s' =>
        decide (e = .unresolvedType "carousel" ∧
          s'.tags.get? ⟨1⟩ = some [⟨"padding", "4"⟩] ∧ s'.widgets.length = 2)) = true := by
    decide +kernel
  obtain ⟨l, t', hcompile, hrun⟩ := Fallible.exists_of_gives hrun
  obtain ⟨e, s', hinflate, hrun⟩ := Fallible.exists_of_failsWith hrun
  obtain ⟨rfl, htags, hlength⟩ := of_decide_eq_true hrun
  exact ⟨l, t', s', hcompile, hinflate, htags, hlength⟩

/-- A broken form has started the container and its first child. The container declares an
attribute, so it leaves that behind. -/
theorem tags_of_failed_brokenForm :
    ∃ l t' s' started,
      brokenForm.compile ownIds = (.ok l, t') ∧
      own.inflate l [] none noDataIndex (.ofIds t') =
        (.error (.unresolvedType "carousel"), s') ∧
      Inflation.started own (.given l [] none noDataIndex) (.ofIds t') = started ∧
      started.map (fun p => (p.1, p.2.viewType)) = [(⟨1⟩, "relative-layout"), (⟨2⟩, "view")] ∧
      s'.tags = started.foldl TagTable.declare (Session.ofIds t').tags ∧
      ∃ p ∈ started, p.2.Declares := by
  have hrun : Fallible.gives brokenForm.compile ownIds (fun l t' =>
      decide ((Inflation.started own (.given l [] none noDataIndex) (.ofIds t')).map
        (fun p => (p.1, p.2.viewType)) = [(⟨1⟩, "relative-layout"), (⟨2⟩, "view")])) = true := by
    decide +kernel
  obtain ⟨l, t', s', hcompile, hinflate, htags, -⟩ := exists_failed_brokenForm
  obtain ⟨l', t'', hcompile', hrun⟩ := Fallible.exists_of_gives hrun
  obtain ⟨hl, rfl⟩ := Prod.mk.inj (hcompile.symm.trans hcompile')
  obtain rfl := Except.ok.inj hl
  obtain ⟨hrecorded, -, hnew⟩ := tags_of_failed (.given l [] none noDataIndex) hinflate
  have hown : own.HasOwnParsers t' :=
    own_hasOwnParsers (LayoutSource.stable_compile brokenForm hcompile).1
  have hsame := (hnew hown.offers.provides.makesNew).2 fun id hcontains => by cases hcontains
  refine ⟨l, t', s', _, hcompile, hinflate, rfl, of_decide_eq_true hrun, hrecorded, ?_⟩
  by_contra hnone
  push Not at hnone
  rw [hsame.2 hnone] at htags
  cases htags

/-- The container of a broken form still has its declared attributes when the inflation has
failed. -/
theorem declared_after_failed_brokenForm :
    ∃ l t' s',
      brokenForm.compile ownIds = (.ok l, t') ∧
      own.inflate l [] none noDataIndex (.ofIds t') =
        (.error (.unresolvedType "carousel"), s') ∧
      s'.tags.get? ⟨1⟩ = some [⟨"padding", "4"⟩] ∧ s'.tags ≠ (Session.ofIds t').tags := by
  obtain ⟨l, t', s', hcompile, hinflate, htags, -⟩ := exists_failed_brokenForm
  refine ⟨l, t', s', hcompile, hinflate, htags, ?_⟩
  intro heq
  rw [heq] at htags
  cases htags

end Context

end LayoutEngine
