import LayoutEngine.Proofs.Forest
import LayoutEngine.Proofs.Grading
import LayoutEngine.Proofs.Single

/-!
# Outlines of widget trees

The description of a widget and those below it has a line for each, indented by depth, that starts
with the kind and the number of the widget. What follows them is texts between quotes, which have no
line feed in them, and words of the engine, but for the name of the view, which stands as it is. So
there is one line for each widget exactly if no name has a line feed in it, and then the tree can be
read back from the lines (`Context.describe?_outline`).
-/

namespace LayoutEngine

namespace Text

/-! ## Texts without line feeds -/

/-- How many line feeds a text has. -/
def breaks (s : String) : Nat := s.toList.count '\n'

/-- Line breaks are counted in two parts. -/
theorem breaks_append (s t : String) : breaks (s ++ t) = breaks s + breaks t := by
  simp [breaks]

/-- A text without line breaks has no line feed. -/
theorem breaks_eq_zero_iff {s : String} : breaks s = 0 ↔ '\n' ∉ s.toList := List.count_eq_zero

/-- No digit is a line feed. -/
theorem not_mem_toDigits_lf {base : Nat} (hbase : 1 < base) (n : Nat) :
    '\n' ∉ Nat.toDigits base n := by
  have hdigit : ∀ d, '\n' ≠ Nat.digitChar d := by
    intro d
    rcases Nat.lt_or_ge d 16 with hlt | hge
    · revert d
      decide
    · have hne : ∀ k < 16, d ≠ k := by omega
      simp [Nat.digitChar, hne]
  induction n using Nat.strongRecOn with
  | ind n ih =>
    rcases Nat.lt_or_ge n base with hlt | hge
    · rw [Nat.toDigits_of_lt_base hlt]
      simp [hdigit n]
    · rw [Nat.toDigits_of_base_le hbase hge]
      have hlt : n / base < n := Nat.div_lt_self (by omega) hbase
      simp [ih _ hlt, hdigit]

/-- A natural number is written in one line. -/
theorem breaks_repr (n : Nat) : breaks n.repr = 0 := by
  rw [breaks_eq_zero_iff, Nat.toList_repr]
  exact not_mem_toDigits_lf (by decide) n

/-- An integer is written in one line. -/
theorem breaks_toString (n : Int) : breaks (toString n) = 0 := by
  rw [Int.toString_eq_repr]
  cases n with
  | ofNat n => exact breaks_repr n
  | negSucc n => exact (breaks_append "-" _).trans (by rw [breaks_repr]; rfl)

/-- A line feed is escaped between quotes, and the escapes have none. -/
theorem not_mem_quoteChar_lf (c : Char) : '\n' ∉ quoteChar c := by
  by_cases hlf : c = '\n'
  · subst hlf
    decide
  · have hdigits := not_mem_toDigits_lf (by decide : 1 < 16) c.toNat
    unfold quoteChar codePointEscape
    repeat' split
    all_goals simp [hdigits, Ne.symm hlf]

/-- A quoted text stands in one line. -/
theorem breaks_quoted (s : String) : breaks (quoted s) = 0 := by
  rw [breaks_eq_zero_iff]
  simp [quoted, not_mem_quoteChar_lf]

/-- Joined in one line, parts have their own line breaks only. -/
theorem breaks_intercalate {sep : String} (hsep : breaks sep = 0) (parts : List String) :
    breaks (sep.intercalate parts) = (parts.map breaks).sum := by
  rw [breaks, String.toList_intercalate]
  induction parts with
  | nil => rfl
  | cons part rest ih =>
    cases rest with
    | nil => simp [breaks]
    | cons next rest =>
      rw [List.map_cons, List.map_cons, List.intercalate_cons_cons, ← List.map_cons,
        List.count_append, List.count_append, ih, List.map_cons, List.sum_cons]
      simp only [breaks] at hsep
      rw [hsep]
      rfl

end Text

open Text

/-! ## Lines -/

/-- A kind is a word. -/
theorem Item.kind_word (item : Item) :
    item.kind.toList ≠ [] ∧ ' ' ∉ item.kind.toList ∧ '\n' ∉ item.kind.toList := by
  cases item <;> simp [Item.kind]

/-- A kind is written in one line. -/
theorem Item.breaks_kind (item : Item) : breaks item.kind = 0 :=
  breaks_eq_zero_iff.2 item.kind_word.2.2

/-- So is a gravity. -/
theorem Gravity.breaks_word (g : Gravity) : breaks g.word = 0 := by
  cases g <;> rfl

/-- What a description tells about a widget's state is in one line, whatever its texts are. -/
theorem Item.breaks_summary (item : Item) : breaks item.summary = 0 := by
  cases item with
  | view | stub => rfl
  | text state => exact breaks_quoted state.text
  | editText state =>
    rw [Item.summary, EditTextState.summary]
    split
    · rw [breaks_append, breaks_append, breaks_quoted, breaks_quoted]
      rfl
    · exact breaks_quoted state.text
  | relativeLayout state =>
    rw [Item.summary, RelativeLayoutState.summary]
    split
    · rfl
    · rw [breaks_append, breaks_intercalate rfl, List.map_map]
      simp [Function.comp_def, Gravity.breaks_word]
      rfl

/-- So is a visibility. -/
theorem Visibility.breaks_word (v : Visibility) : breaks v.word = 0 := by
  cases v <;> rfl

/-- So is the number of a widget. -/
theorem WidgetId.breaks_text (id : WidgetId) : breaks id.text = 0 := by
  rw [WidgetId.text, breaks_append]
  exact congrArg _ (breaks_repr id.number)

namespace Session

variable (s : Session)

/-- The name with which a widget's description tells which view it has. -/
def describedName (w : Widget) : String := (w.view.id.map s.ids.describeView).getD ""

/-- The parts of a description that come behind the kind and the number. -/
def details (id : WidgetId) (w : Widget) : List String := (s.descriptionParts id w).drop 2

/-- A description starts with the kind and the number of the widget. -/
theorem descriptionParts_eq (id : WidgetId) (w : Widget) :
    s.descriptionParts id w = w.item.kind :: id.text :: s.details id w := rfl

/-- All line feeds in a description come from the name of the view. -/
theorem sum_breaks_descriptionParts (id : WidgetId) (w : Widget) :
    ((s.descriptionParts id w).map breaks).sum = breaks (s.describedName w) := by
  have hname : ((w.view.id.map fun id => "id=" ++ s.ids.describeView id).toList.map breaks).sum =
      breaks (s.describedName w) := by
    rw [describedName]
    cases w.view.id with
    | none => rfl
    | some number =>
      simp [breaks_append]
      rfl
  have hindex : ∀ m : Manager, ((if 0 ≤ m.index then ["index=" ++ toString m.index]
      else []).map breaks).sum = 0 := by
    intro m
    split
    · rw [List.map_singleton, List.sum_singleton, breaks_append, breaks_toString]
      rfl
    · rfl
  have hvisibility : ((if w.view.visibility = .visible then []
      else [w.view.visibility.word]).map breaks).sum = 0 := by
    split
    · rfl
    · simp [Visibility.breaks_word]
  have hsummary : ((if w.item.summary = "" then [] else [w.item.summary]).map breaks).sum = 0 := by
    split
    · rfl
    · simp [Item.breaks_summary]
  simp only [descriptionParts, List.map_append, List.sum_append, hname, hvisibility, hsummary,
    List.map_cons, List.map_nil, List.sum_cons, List.sum_nil, Item.breaks_kind,
    WidgetId.breaks_text, Nat.zero_add, Nat.add_zero, Nat.add_eq_left]
  split
  · exact hindex _
  · rfl

/-- The kind of a widget. -/
def kindOf (id : WidgetId) : String := ((s.widget? id).map (·.item.kind)).getD ""

/-- A widget's line in a description, without the line feed that ends it. -/
def lineOf (depth : Nat) (id : WidgetId) : List Char :=
  List.replicate (2 * depth) ' ' ++
    (" ".intercalate (((s.widget? id).map (s.descriptionParts id)).getD [])).toList

/-- The name in a widget's line. -/
def nameIn (id : WidgetId) : String := ((s.widget? id).map s.describedName).getD ""

variable {s} {id : WidgetId} {depth : Nat}

/-- What describes a widget is its line, and a line feed. -/
theorem toList_describeLine {w : Widget} (hw : s.widget? id = some w) (depth : Nat) :
    (s.describeLine depth id).toList = s.lineOf depth id ++ ['\n'] := by
  rw [describeLine, hw]
  simp [lineOf, hw]

/-- A line breaks where the name in it does. -/
theorem count_lineOf (s : Session) (depth : Nat) (id : WidgetId) :
    (s.lineOf depth id).count '\n' = breaks (s.nameIn id) := by
  rw [lineOf, nameIn]
  cases s.widget? id with
  | none => simp [breaks, List.count_replicate]
  | some w =>
    have hparts := breaks_intercalate (rfl : breaks " " = 0) (s.descriptionParts id w)
    rw [sum_breaks_descriptionParts] at hparts
    simp only [breaks] at hparts ⊢
    rw [Option.map_some, Option.map_some, Option.getD_some, Option.getD_some, ← hparts,
      List.count_append]
    simp [List.count_replicate]

/-- A word with others behind it. -/
theorem intercalate_blank (word : List Char) (rest : List (List Char)) :
    [' '].intercalate (word :: rest) = word ++ rest.flatMap (' ' :: ·) := by
  induction rest generalizing word with
  | nil => simp
  | cons next rest ih =>
    rw [List.intercalate_cons_cons, ih next, List.flatMap_cons]
    simp

/-- A line tells of a widget at a depth: it is indented by twice as many blanks, then come the kind
and the number, and then, each behind a blank, some details. -/
structure Describes (s : Session) (depth : Nat) (id : WidgetId) (line : List Char) : Prop where
  indentation : line.takeWhile (· = ' ') = List.replicate (2 * depth) ' '
  words : ∃ details : List (List Char), line.dropWhile (· = ' ') =
    (s.kindOf id).toList ++ (id.text.toList :: details).flatMap (' ' :: ·)

/-- The line of a widget describes it. -/
theorem describes_lineOf {w : Widget} (hw : s.widget? id = some w) (depth : Nat) :
    s.Describes depth id (s.lineOf depth id) := by
  have hwords : (" ".intercalate (s.descriptionParts id w)).toList = w.item.kind.toList ++
      (id.text.toList :: (s.details id w).map String.toList).flatMap (' ' :: ·) := by
    rw [descriptionParts_eq, String.toList_intercalate]
    exact intercalate_blank _ _
  obtain ⟨hne, hblankKind, -⟩ := w.item.kind_word
  obtain ⟨c, kind, hkind⟩ := List.exists_cons_of_ne_nil hne
  have hc : c ≠ ' ' := by
    rintro rfl
    exact hblankKind (hkind ▸ List.mem_cons_self)
  have hblank : ∀ c ∈ List.replicate (2 * depth) ' ', decide (c = ' ') = true := by
    simp
  rw [lineOf, hw, Option.map_some, Option.getD_some, hwords]
  constructor
  · rw [List.takeWhile_append_of_pos hblank, hkind, List.cons_append,
      List.takeWhile_cons_of_neg (by simpa using hc), List.append_nil]
  · refine ⟨(s.details id w).map String.toList, ?_⟩
    rw [List.dropWhile_append_of_pos hblank, kindOf, hw, Option.map_some, Option.getD_some, hkind,
      List.cons_append, List.dropWhile_cons_of_neg (by simpa using hc)]

end Session

/-! ## Reading outlines -/

namespace Outline

/-- What a line tells. -/
structure Line where
  depth : Nat
  kind : String
  number : Nat
deriving DecidableEq, Repr

/-- The depth, the kind and the number that a line starts with. -/
def readLine? (line : List Char) : Option Line :=
  match pieces ' ' (line.dropWhile (· = ' ')) with
  | kind :: reference :: _ =>
    (after? ['#'] reference).map fun digits =>
      ⟨(line.takeWhile (· = ' ')).length / 2, String.ofList kind, Nat.ofDigitChars 10 digits 0⟩
  | _ => none

/-- A widget with its children, by numbers. -/
structure Entry where
  kind : String
  number : Nat
  children : List Nat
deriving DecidableEq, Repr

/-- Takes in the line before others. Of the widgets that have no parent yet, each with its depth,
those that come first and are deeper are the children. -/
def collect (line : Line) (later : List (Nat × Nat) × List Entry) : List (Nat × Nat) × List Entry :=
  ((line.depth, line.number) :: later.1.dropWhile (line.depth < ·.1),
    ⟨line.kind, line.number, (later.1.takeWhile (line.depth < ·.1)).map Prod.snd⟩ :: later.2)

/-- The widgets that an outline shows, in order, if each of its lines can be read. -/
def read? (text : String) : Option (List Entry) :=
  ((pieces '\n' text.toList).dropLast.mapM readLine?).map fun lines =>
    (lines.foldr collect ([], [])).2

end Outline

namespace Session

open Outline

variable {s : Session} {id : WidgetId} {depth : Nat}

/-- There is no blank in the number of a widget. -/
theorem blank_not_mem_text (id : WidgetId) : ' ' ∉ id.text.toList := by
  have hdigits : ' ' ∉ Nat.toDigits 10 id.number := fun hmem =>
    absurd (Nat.isDigit_of_mem_toDigits (by decide) (by decide) hmem) (by decide)
  simpa [WidgetId.text] using hdigits

/-- A widget's line is read as it was meant. -/
theorem Describes.readLine? {line : List Char} (h : s.Describes depth id line)
    (hkind : ' ' ∉ (s.kindOf id).toList) :
    readLine? line = some ⟨depth, s.kindOf id, id.number⟩ := by
  obtain ⟨details, hwords⟩ := h.words
  obtain ⟨more, hmore⟩ : ∃ more, pieces ' ' (line.dropWhile (· = ' ')) =
      (s.kindOf id).toList :: id.text.toList :: more := by
    rw [hwords, List.flatMap_cons, List.cons_append, pieces_append, pieces_of_not_mem hkind]
    cases details with
    | nil => exact ⟨[], by simp [pieces_of_not_mem (blank_not_mem_text id)]⟩
    | cons detail details =>
      rw [List.flatMap_cons, List.singleton_append, List.cons_append, pieces_append,
        pieces_of_not_mem (blank_not_mem_text id)]
      exact ⟨_, rfl⟩
  have hnumber : Nat.ofDigitChars 10 (Nat.toDigits 10 id.number) 0 = id.number :=
    Nat.ofDigitChars_toDigits (by decide) (by decide)
  have htext : after? ['#'] id.text.toList = some (Nat.toDigits 10 id.number) :=
    after?_eq_some_iff.2 (by simp [WidgetId.text])
  rw [Outline.readLine?, hmore, h.indentation]
  simp [htext, hnumber]

/-- A widget as an outline shows it. -/
def entryOf (s : Session) (id : WidgetId) : Entry :=
  ⟨s.kindOf id, id.number, (s.childrenOf id).map (·.number)⟩

/-- What the line of a place in a walk tells. -/
def placeLine (s : Session) (place : Nat × WidgetId) : Line :=
  ⟨place.1, s.kindOf place.2, place.2.number⟩

/-- Widgets at a depth, as they are before their parent is read. -/
def pendingAt (depth : Nat) (ids : List WidgetId) : List (Nat × Nat) :=
  ids.map fun id => (depth, id.number)

/-- Taking in the lines of widgets with those below them leaves these widgets without parent, and
shows all of them with their children. -/
theorem collect_preorderAll {fuel depth : Nat} {ids : List WidgetId}
    (hwalk : ∀ {top walk}, top ∈ ids → s.preorderWithin fuel depth top = some walk →
      ∀ {pending entries}, (∀ p ∈ pending.head?, p.1 ≤ depth) →
        (walk.map s.placeLine).foldr collect (pending, entries) =
          (pendingAt depth [top] ++ pending, walk.map (s.entryOf ·.2) ++ entries))
    (hall : ∀ top ∈ ids, ∃ walk, s.preorderWithin fuel depth top = some walk)
    {pending : List (Nat × Nat)} (hpending : ∀ p ∈ pending.head?, p.1 ≤ depth)
    (entries : List Entry) :
    ((s.preorderAll fuel depth ids).map s.placeLine).foldr collect (pending, entries) =
      (pendingAt depth ids ++ pending,
        (s.preorderAll fuel depth ids).map (s.entryOf ·.2) ++ entries) := by
  induction ids with
  | nil => rfl
  | cons top rest ih =>
    obtain ⟨walk, htop⟩ := hall top List.mem_cons_self
    have hrest := ih (fun hmem => hwalk (List.mem_cons_of_mem _ hmem))
      fun top hmem => hall top (List.mem_cons_of_mem _ hmem)
    have hhead : ∀ p ∈ (pendingAt depth rest ++ pending).head?, p.1 ≤ depth := by
      cases rest with
      | nil => exact hpending
      | cons next rest => simp [pendingAt]
    rw [preorderAll, List.flatMap_cons, htop, Option.getD_some, ← preorderAll, List.map_append,
      List.foldr_append, hrest, hwalk List.mem_cons_self htop hhead, List.map_append,
      ← List.append_assoc, ← List.append_assoc, pendingAt, pendingAt, pendingAt, ← List.map_append,
      List.singleton_append]

/-- The lines of a walk are collected, from the last one on, to the widgets with their children. -/
theorem collect_preorderWithin {fuel depth : Nat} {top : WidgetId} {walk : List (Nat × WidgetId)}
    (h : s.preorderWithin fuel depth top = some walk) {pending : List (Nat × Nat)}
    (hpending : ∀ p ∈ pending.head?, p.1 ≤ depth) (entries : List Entry) :
    (walk.map s.placeLine).foldr collect (pending, entries) =
      (pendingAt depth [top] ++ pending, walk.map (s.entryOf ·.2) ++ entries) := by
  induction fuel generalizing depth top walk pending entries with
  | zero => cases h
  | succ fuel ih =>
    obtain ⟨rfl, hchildren⟩ := preorderWithin_eq h
    have hbelow := collect_preorderAll (fun _ hrun _ _ hp => ih hrun hp _) hchildren
      (fun p hp => Nat.le_succ_of_le (hpending p hp)) entries
    rw [List.map_cons, List.foldr_cons, hbelow]
    -- The children are deeper than the widget, and what was left before is not.
    have hdeeper : ∀ p ∈ pendingAt (depth + 1) (s.childrenOf top), decide (depth < p.1) = true := by
      simp [pendingAt]
    have hrest : pending.takeWhile (depth < ·.1) = [] ∧
        pending.dropWhile (depth < ·.1) = pending := by
      cases pending with
      | nil => exact ⟨rfl, rfl⟩
      | cons p pending =>
        have hp : ¬decide (depth < p.1) = true := by simpa using hpending p rfl
        exact ⟨List.takeWhile_cons_of_neg hp, List.dropWhile_cons_of_neg hp⟩
    rw [collect, placeLine]
    dsimp only
    rw [List.takeWhile_append_of_pos hdeeper, List.dropWhile_append_of_pos hdeeper, hrest.1,
      hrest.2]
    simp [pendingAt, entryOf, Function.comp_def]

/-! ## Descriptions -/

variable {context : Context} {supply : Supply}

/-- Where a host gives out no widget that was there before, all widgets below a widget are there. -/
theorem Tracked.exists_widget_of_below (ht : s.Tracked context supply)
    (hcovers : supply.Covers context) {root : WidgetId} {w : Widget}
    (hroot : s.widget? root = some w) (hbelow : s.Below id root) : ∃ w, s.widget? id = some w := by
  rcases hbelow.cases_tail with rfl | ⟨holder, -, hchild⟩
  · exact ⟨w, hroot⟩
  · obtain ⟨_, _, _, _, hbecomes⟩ := (ht.woven hcovers holder).adopts id hchild
    cases hbecomes with
    | managed hm =>
      obtain ⟨v, _, hv, -⟩ := managerOf?_eq_some_iff.1 hm
      exact ⟨v, hv⟩
    | bare _ hv => exact ⟨_, hv⟩

/-- The lines of a walk by widgets that are there, one after the other. -/
theorem toList_join_describeLine {walk : List (Nat × WidgetId)}
    (hwalk : ∀ place ∈ walk, ∃ w, s.widget? place.2 = some w) :
    (String.join (walk.map fun (depth, id) => s.describeLine depth id)).toList =
      walk.flatMap fun place => s.lineOf place.1 place.2 ++ ['\n'] := by
  rw [String.toList_join, List.flatMap_map]
  refine List.flatMap_congr fun place hplace => ?_
  obtain ⟨w, hw⟩ := hwalk place hplace
  exact toList_describeLine hw place.1

/-- The lines of a walk break at their ends and where names in them do. -/
theorem count_lines (s : Session) (walk : List (Nat × WidgetId)) :
    (walk.flatMap fun place => s.lineOf place.1 place.2 ++ ['\n']).count '\n' =
      walk.length + (walk.map fun place => breaks (s.nameIn place.2)).sum := by
  induction walk with
  | nil => rfl
  | cons place rest ih =>
    rw [List.flatMap_cons, List.count_append, List.count_append, count_lineOf, ih, List.map_cons,
      List.sum_cons, List.length_cons, List.count_singleton_self]
    omega

/-- Where no name breaks a line, the lines of a walk are those of its widgets. -/
theorem pieces_lines {walk : List (Nat × WidgetId)}
    (hnames : ∀ place ∈ walk, breaks (s.nameIn place.2) = 0) :
    pieces '\n' (walk.flatMap fun place => s.lineOf place.1 place.2 ++ ['\n']) =
      (walk.map fun place => s.lineOf place.1 place.2) ++ [[]] := by
  induction walk with
  | nil => rfl
  | cons place rest ih =>
    obtain ⟨hplace, hrest⟩ := List.forall_mem_cons.1 hnames
    rw [← count_lineOf s place.1, List.count_eq_zero] at hplace
    rw [List.flatMap_cons, List.append_assoc, List.singleton_append, pieces_append, ih hrest,
      pieces_of_not_mem hplace, List.map_cons]
    rfl

/-- The lines of a walk are read back. -/
theorem mapM_readLine? {walk : List (Nat × WidgetId)}
    (hwalk : ∀ place ∈ walk, ∃ w, s.widget? place.2 = some w) :
    (walk.map fun place => s.lineOf place.1 place.2).mapM readLine? =
      some (walk.map s.placeLine) := by
  induction walk with
  | nil => rfl
  | cons place rest ih =>
    obtain ⟨⟨w, hw⟩, hrest⟩ := List.forall_mem_cons.1 hwalk
    have hkind : ' ' ∉ (s.kindOf place.2).toList := by
      rw [kindOf, hw]
      exact w.item.kind_word.2.1
    rw [List.map_cons, List.mapM_cons, (describes_lineOf hw place.1).readLine? hkind, ih hrest]
    rfl

end Session

open Session in
/-- Where the parsers are the engine's own, perhaps under further names, and a host gives out no
widget that was there before, the description of a widget has one line for each widget of a walk in
preorder exactly if no name of a view among them has a line feed in it. The lines are then indented
by twice the depth and start with the kind and the number, and the tree can be read back from
them. -/
theorem Context.describe?_outline {context : Context} {s : Session}
    (hserved : context.Served .all s) {aliases : List (String × String)} {t : IdTable}
    (hregistry : context.registry = Setup.registerAliases aliases (Registry.withBuiltins t).1)
    (hcovers : Supply.all.Covers context) {root : WidgetId} {w : Widget}
    (hroot : s.widget? root = some w) :
    ∃ walk text, s.preorder? root = some walk ∧ s.describe? root = some text ∧
      (breaks text = walk.length ↔ ∀ place ∈ walk, breaks (s.nameIn place.2) = 0) ∧
      ((∀ place ∈ walk, breaks (s.nameIn place.2) = 0) →
        (∃ lines, pieces '\n' text.toList = lines ++ [[]] ∧
          List.Forall₂ (fun place line => s.Describes place.1 place.2 line) walk lines) ∧
        Outline.read? text = some (walk.map (s.entryOf ·.2))) := by
  have hnew : context.registry.MakesNew := by
    rw [hregistry]
    exact Registry.makesNew_registerAliases aliases t
  have hacyclic := acyclic_of_makesNew hserved hnew hcovers
  obtain ⟨walk, hwalk⟩ := Option.isSome_iff_exists.1 (hacyclic.isSome_preorder? root)
  have hpresent : ∀ place ∈ walk, ∃ w, s.widget? place.2 = some w := fun place hplace =>
    hserved.tracked.exists_widget_of_below hcovers hroot
      ((mem_preorderWithin_iff hwalk).1 (List.mem_map_of_mem hplace))
  have htext := toList_join_describeLine hpresent
  refine ⟨walk, _, hwalk, by rw [describe?, hwalk]; rfl, ?_, fun hnames => ⟨?_, ?_⟩⟩
  · rw [breaks, htext, count_lines, Nat.add_eq_left, List.sum_eq_zero_iff_forall_eq_nat,
      List.forall_mem_map]
  · refine ⟨_, by rw [htext, pieces_lines hnames], ?_⟩
    rw [List.forall₂_map_right_iff, List.forall₂_same]
    intro place hplace
    obtain ⟨v, hv⟩ := hpresent place hplace
    exact describes_lineOf hv place.1
  · have hnone : ∀ p ∈ ([] : List (Nat × Nat)).head?, p.1 ≤ 0 := by simp
    have hlines := collect_preorderWithin hwalk hnone []
    rw [Outline.read?, htext, pieces_lines hnames, List.dropLast_concat, mapM_readLine? hpresent,
      Option.map_some, hlines]
    simp

namespace Context

open Session

/-- A container and a text with a name and two lines, each on a line of its own. -/
theorem describe?_outline_titled :
    ∃ l t' s walk,
      LayoutSource.compile ⟨"relative-layout", [], [⟨"text",
        [⟨"id", .string "@+id/title"⟩, ⟨"text", .string "a\n  b"⟩], []⟩]⟩ ownIds = (.ok l, t') ∧
      own.inflate l [] none noDataIndex (.ofIds t') = (.ok ⟨1⟩, s) ∧
      s.preorder? ⟨1⟩ = some walk ∧ walk = [(0, ⟨1⟩), (1, ⟨2⟩)] ∧
      s.describe? ⟨1⟩ = some "relative-layout #1\n  text #2 id=title \"a\\n  b\"\n" ∧
      Outline.read? "relative-layout #1\n  text #2 id=title \"a\\n  b\"\n" =
        some (walk.map (s.entryOf ·.2)) := by
  have hrun : Fallible.gives (LayoutSource.compile ⟨"relative-layout", [], [⟨"text",
      [⟨"id", .string "@+id/title"⟩, ⟨"text", .string "a\n  b"⟩], []⟩]⟩) ownIds
      (fun l t' => Fallible.gives (own.inflate l [] none noDataIndex) (.ofIds t') fun root s =>
        decide (root = ⟨1⟩ ∧ (s.widget? ⟨1⟩).isSome = true ∧
          s.preorder? ⟨1⟩ = some [(0, ⟨1⟩), (1, ⟨2⟩)] ∧
          s.describe? ⟨1⟩ = some "relative-layout #1\n  text #2 id=title \"a\\n  b\"\n")) =
        true := by
    decide +kernel
  obtain ⟨l, t', hcompile, hrun⟩ := Fallible.exists_of_gives hrun
  obtain ⟨root, s, hinflate, hrun⟩ := Fallible.exists_of_gives hrun
  obtain ⟨rfl, hroot, hpreorder, hdescribe⟩ := of_decide_eq_true hrun
  obtain ⟨w, hw⟩ := Option.isSome_iff_exists.1 hroot
  have hserved : own.Served .all s := (Served.ofIds own .all t').inflate trivial hinflate
  have hregistry : own.registry = Setup.registerAliases [] (Registry.withBuiltins .empty).1 := rfl
  obtain ⟨walk, text, hwalk, htext, hiff, hread⟩ :=
    describe?_outline hserved hregistry (Supply.all.covers_of_no_fallback rfl) hw
  obtain rfl := Option.some.inj (hwalk.symm.trans hpreorder)
  obtain rfl := Option.some.inj (htext.symm.trans hdescribe)
  exact ⟨l, t', s, _, hcompile, hinflate, hwalk, rfl, htext, (hread (hiff.1 (by decide))).2⟩

/-- The name of a view with a line feed in it breaks the line of its widget, and so the description
has a line that looks like that of another widget. -/
theorem describe?_broken_name :
    ∃ l t' s,
      LayoutSource.compile ⟨"view", [⟨"id", .string "a\n  text #9"⟩], []⟩ ownIds = (.ok l, t') ∧
      own.inflate l [] none noDataIndex (.ofIds t') = (.ok ⟨1⟩, s) ∧
      s.preorder? ⟨1⟩ = some [(0, ⟨1⟩)] ∧
      s.describe? ⟨1⟩ = some "view #1 id=a\n  text #9\n" ∧
      breaks "view #1 id=a\n  text #9\n" ≠ [(0, (⟨1⟩ : WidgetId))].length ∧
      Outline.read? "view #1 id=a\n  text #9\n" = some [⟨"view", 1, [9]⟩, ⟨"text", 9, []⟩] := by
  have hrun : Fallible.gives (LayoutSource.compile
      ⟨"view", [⟨"id", .string "a\n  text #9"⟩], []⟩) ownIds
      (fun l t' => Fallible.gives (own.inflate l [] none noDataIndex) (.ofIds t') fun root s =>
        decide (root = ⟨1⟩ ∧ s.preorder? ⟨1⟩ = some [(0, ⟨1⟩)] ∧
          s.describe? ⟨1⟩ = some "view #1 id=a\n  text #9\n")) = true := by
    decide +kernel
  obtain ⟨l, t', hcompile, hrun⟩ := Fallible.exists_of_gives hrun
  obtain ⟨root, s, hinflate, hrun⟩ := Fallible.exists_of_gives hrun
  obtain ⟨rfl, hpreorder, hdescribe⟩ := of_decide_eq_true hrun
  exact ⟨l, t', s, hcompile, hinflate, hpreorder, hdescribe, by decide, by decide +kernel⟩

end Context

end LayoutEngine
