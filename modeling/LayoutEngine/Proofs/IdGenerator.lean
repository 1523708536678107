import LayoutEngine.IdGenerator
import LayoutEngine.Proofs.Numbering
import Mathlib.Data.Set.Function

/-!
# Numbering that stays in step

A generator keeps the same facts three times: the numbers by name, the names by number, and how many
there are. It represents a table of names (`IdGenerator.Represents`) if all three say what the table
says. Every call keeps it so, and there is no answer only where a new name comes when the counter is
at the greatest word (`Represents.intern?`, `Represents.intern?_eq_none`). So a generator answers
all calls exactly if they use fewer names than the greatest word (`IdGenerator.isSome_run?_iff`),
and then names and the numbers from one on determine each other (`IdGenerator.run?_numbers`).
-/

namespace LayoutEngine

namespace Word

variable {a b c : Int32} {n : Int}

/-- The integers of 32 bits are those in its range. -/
theorem exists_toInt_eq_iff :
    (∃ c : Int32, c.toInt = n) ↔ Int32.minValue.toInt ≤ n ∧ n ≤ Int32.maxValue.toInt := by
  constructor
  · rintro ⟨c, rfl⟩
    exact ⟨c.minValue_le_toInt, c.toInt_le⟩
  · rintro ⟨hle, hge⟩
    rw [Int32.toInt_minValue] at hle
    rw [Int32.toInt_maxValue] at hge
    exact ⟨.ofInt n, Int32.toInt_ofInt_of_le hle (by omega)⟩

/-- The numbers that fit are those of the words. -/
theorem fits_iff : Numeral.fitsSigned 32 n = true ↔ ∃ c : Int32, c.toInt = n := by
  rw [exists_toInt_eq_iff, Int32.toInt_minValue, Int32.toInt_maxValue]
  simp only [Numeral.fitsSigned, Bool.and_eq_true, decide_eq_true_eq]
  omega

/-- A sum that is a word is the sum of words. -/
theorem add?_eq_some_iff : add? a b = some c ↔ c.toInt = a.toInt + b.toInt := by
  have hsum : ∀ c : Int32, c.toInt = a.toInt + b.toInt → a + b = c := by
    intro c hc
    have hle := c.le_toInt
    have hlt := c.toInt_lt
    rw [← Int32.toInt_inj, Int32.toInt_add, ← hc, Int.bmod_eq_of_le (by omega) (by omega)]
  unfold add?
  split
  · next hfits =>
    obtain ⟨d, hd⟩ := fits_iff.1 hfits
    rw [Option.some_inj, hsum d hd, ← hd, Int32.toInt_inj, eq_comm]
  · next hover => exact ⟨nofun, fun hc => absurd (fits_iff.2 ⟨c, hc⟩) hover⟩

/-- A difference is the one of the integers, if it fits. -/
theorem sub?_eq_some_iff : sub? a b = some c ↔ c.toInt = a.toInt - b.toInt := by
  have hdifference : ∀ c : Int32, c.toInt = a.toInt - b.toInt → a - b = c := by
    intro c hc
    have hle := c.le_toInt
    have hlt := c.toInt_lt
    rw [← Int32.toInt_inj, Int32.toInt_sub, ← hc, Int.bmod_eq_of_le (by omega) (by omega)]
  unfold sub?
  split
  · next hfits =>
    obtain ⟨d, hd⟩ := fits_iff.1 hfits
    rw [Option.some_inj, hdifference d hd, ← hd, Int32.toInt_inj, eq_comm]
  · next hover => exact ⟨nofun, fun hc => absurd (fits_iff.2 ⟨c, hc⟩) hover⟩

end Word

namespace IdGenerator

variable {g g' : IdGenerator} {t u : IdTable} {name : String} {id next : Int32}

/-- A generator says of all names and numbers what a table says. -/
structure Represents (g : IdGenerator) (t : IdTable) : Prop where
  numbers : ∀ name, (g.get? name).map Int32.toInt = t.get? name
  names : g.names = t.names
  next : g.next.toInt = t.size + 1

/-- The first number is one. -/
theorem toInt_firstNumber : firstNumber.toInt = 1 := by decide

/-- Without names, generator and table are the same. -/
theorem represents_empty : empty.Represents .empty where
  numbers _ := (IdTable.get?_eq_none_iff.2 List.not_mem_nil).symm
  names := rfl
  next := toInt_firstNumber

namespace Represents

/-! ## Lookups -/

/-- A name has the number in the generator that it has in the table. -/
theorem get?_iff (h : g.Represents t) : g.get? name = some id ↔ t.get? name = some id.toInt := by
  rw [← h.numbers]
  cases g.get? name with
  | none => simp
  | some i => simp [Int32.toInt_inj]

/-- A word has the name that the table gives to it, whether it is one of the numbers or not. -/
theorem nameOf? (h : g.Represents t) (id : Int32) : g.nameOf? id = t.nameOf? id.toInt := by
  unfold IdGenerator.nameOf? IdTable.nameOf?
  cases hoffset : Word.sub? id firstNumber with
  | none =>
    -- Only the least word has none below it.
    have hlow : ¬ 1 ≤ id.toInt := by
      intro hpos
      have hle := id.toInt_le
      rw [Int32.toInt_maxValue] at hle
      obtain ⟨c, hc⟩ := (Word.exists_toInt_eq_iff (n := id.toInt - firstNumber.toInt)).2 (by
        rw [toInt_firstNumber, Int32.toInt_minValue, Int32.toInt_maxValue]
        omega)
      rw [Word.sub?_eq_some_iff.2 hc] at hoffset
      cases hoffset
    rw [if_neg hlow]
    rfl
  | some offset =>
    rw [Word.sub?_eq_some_iff, toInt_firstNumber] at hoffset
    rw [Option.bind_eq_bind, Option.bind_some, Word.place?, hoffset, h.names]
    by_cases hpos : 1 ≤ id.toInt
    · rw [if_pos (by omega), if_pos hpos]
      rfl
    · rw [if_neg (by omega), if_neg hpos]
      rfl

/-- The view of a number is the same in both. -/
theorem viewNameOf? (h : g.Represents t) (id : Int32) :
    g.viewNameOf? id = t.viewNameOf? id.toInt := by
  unfold IdGenerator.viewNameOf? IdTable.viewNameOf?
  rw [h.nameOf?]

/-- The counter is a word. -/
theorem size_lt (h : g.Represents t) : (t.size : Int) < Int32.maxValue.toInt := by
  have hle := g.next.toInt_le
  rw [h.next] at hle
  omega

/-! ## Calls -/

/-- A name without number in the generator has none in the table. -/
theorem notMem (h : g.Represents t) (hnew : g.get? name = none) : name ∉ t.names := by
  rw [← IdTable.get?_eq_none_iff, ← h.numbers, hnew]
  rfl

/-- A name without number makes the table longer by one. -/
theorem size_intern (h : g.Represents t) (hnew : g.get? name = none) :
    (t.intern name).2.size = t.size + 1 := by
  rw [IdTable.size, IdTable.names_intern, if_neg (h.notMem hnew), List.length_append]
  rfl

/-- A new name has its number, its place and a further counter; all else is as it was. -/
theorem put (h : g.Represents t) (hnew : g.get? name = none)
    (hnext : next.toInt = g.next.toInt + 1) :
    Represents ⟨Entries.put name g.next g.numbers, g.names ++ [name], next⟩
      (t.intern name).2 := by
  have hnames : (t.intern name).2.names = t.names ++ [name] := by
    rw [IdTable.names_intern, if_neg (h.notMem hnew)]
  refine ⟨fun other => ?_, by rw [hnames, ← h.names], ?_⟩
  · by_cases hother : other = name
    · subst hother
      rw [IdGenerator.get?, Entries.get?_put_self, IdTable.get?_intern,
        IdTable.intern_of_notMem (h.notMem hnew), Option.map_some, h.next]
    · rw [IdTable.get?_intern_of_ne hother, ← h.numbers, IdGenerator.get?,
        Entries.get?_put_of_ne hother, IdGenerator.get?]
  · rw [hnext, h.next, h.size_intern hnew]
    rfl

/-- Numbering a name stays in step with the table while there is a word for the counter. -/
theorem intern? (h : g.Represents t) (name : String)
    (hroom : ((t.intern name).2.size : Int) < Int32.maxValue.toInt) :
    ∃ id g', g.intern? name = some (id, g') ∧ g'.get? name = some id ∧
      g'.Represents (t.intern name).2 := by
  unfold IdGenerator.intern?
  cases hname : g.get? name with
  | some id =>
    have hold := IdTable.intern_of_get? (h.get?_iff.1 hname)
    exact ⟨id, g, rfl, hname, by rwa [hold]⟩
  | none =>
    rw [h.size_intern hname] at hroom
    obtain ⟨next, hnext⟩ := (Word.exists_toInt_eq_iff (n := g.next.toInt + 1)).2 (by
      rw [h.next, Int32.toInt_minValue]
      omega)
    rw [Word.add?_eq_some_iff.2 hnext]
    exact ⟨g.next, ⟨Entries.put name g.next g.numbers, g.names ++ [name], next⟩, rfl,
      Entries.get?_put_self name g.next g.numbers, h.put hname hnext⟩

/-- A new name has no answer where the counter is at the greatest word. -/
theorem intern?_eq_none (h : g.Represents t)
    (hfull : Int32.maxValue.toInt ≤ ((t.intern name).2.size : Int)) : g.intern? name = none := by
  unfold IdGenerator.intern?
  cases hname : g.get? name with
  | some id =>
    rw [IdTable.intern_of_get? (h.get?_iff.1 hname)] at hfull
    exact absurd h.size_lt (not_lt.2 hfull)
  | none =>
    have hadd : Word.add? g.next 1 = none := by
      refine Option.eq_none_iff_forall_ne_some.2 fun next hnext => ?_
      rw [Word.add?_eq_some_iff, Int32.toInt_one, h.next] at hnext
      have hle := next.toInt_le
      rw [h.size_intern hname] at hfull
      omega
    rw [hadd]
    rfl

end Represents

namespace Call

variable {call : Call} {answer : Answer}

/-- A call is answered, and then the generator is `g'`. A call that numbers no name changes
nothing; one that does is answered the number which the name then has. -/
structure Answered (call : Call) (g : IdGenerator) (answer : Answer) (g' : IdGenerator) :
    Prop where
  performs : call.perform g = some (answer, g')
  lookup : call.key? = none → g' = g
  number : ∀ name, call.key? = some name → ∃ id, answer = .number id ∧ g'.get? name = some id

/-- A call that is given a name answers with its number. -/
theorem perform_of_key? (hkey : call.key? = some name) (g : IdGenerator) :
    call.perform g = (g.intern? name).map fun (id, g) => (.number id, g) := by
  cases call <;> cases hkey <;> rfl

/-- Other calls change nothing. -/
theorem perform_of_no_key (hkey : call.key? = none) (g : IdGenerator) :
    ∃ answer, call.perform g = some (answer, g) := by
  cases call with
  | intern | internView => cases hkey
  | get | viewId | nameOf | viewNameOf | size => exact ⟨_, rfl⟩

/-- A call is answered while there is a word for the counter, and stays in step with the table in
which its name, if it has one, is numbered. -/
theorem exists_answered (h : g.Represents t) (call : Call)
    (hroom : ((t.internAll call.key?.toList).size : Int) < Int32.maxValue.toInt) :
    ∃ answer g', call.Answered g answer g' ∧ g'.Represents (t.internAll call.key?.toList) := by
  cases hkey : call.key? with
  | none =>
    obtain ⟨answer, hperform⟩ := perform_of_no_key hkey g
    refine ⟨answer, g, ⟨hperform, fun _ => rfl, fun name hname => ?_⟩, h⟩
    rw [hkey] at hname
    cases hname
  | some name =>
    rw [hkey] at hroom
    obtain ⟨id, g', hintern, hget, hstep⟩ := h.intern? name hroom
    have hperform := perform_of_key? hkey g
    rw [hintern] at hperform
    refine ⟨.number id, g', ⟨hperform, fun hnone => ?_, fun other hother => ?_⟩, hstep⟩
    · rw [hkey] at hnone
      cases hnone
    · rw [hkey] at hother
      cases hother
      exact ⟨id, rfl, hget⟩

/-- A call that is given a new name fails once all numbers are used up. -/
theorem perform_eq_none (h : g.Represents t)
    (hfull : Int32.maxValue.toInt ≤ ((t.internAll call.key?.toList).size : Int)) :
    call.perform g = none := by
  cases hkey : call.key? with
  | none =>
    rw [hkey] at hfull
    exact absurd h.size_lt (not_lt.2 hfull)
  | some name =>
    rw [hkey] at hfull
    rw [perform_of_key? hkey, h.intern?_eq_none hfull]
    rfl

end Call

/-! ## Histories -/

variable {calls : List Call}

/-- The names that calls number, in order. -/
def used (calls : List Call) : List String := calls.filterMap Call.key?

/-- The last call is run after the others. -/
theorem run?_concat (calls : List Call) (call : Call) :
    run? (calls ++ [call]) = (run? calls).bind fun g => (call.perform g).map Prod.snd := by
  rw [run?, List.foldlM_append, ← run?]
  simp

/-- The table in which the names that calls number have been numbered. -/
def tableOf (calls : List Call) : IdTable := IdTable.empty.internAll (used calls)

/-- Further calls add the names that they are given. -/
theorem tableOf_append (calls more : List Call) :
    tableOf (calls ++ more) = (tableOf calls).internAll (used more) := by
  rw [tableOf, used, List.filterMap_append, IdTable.internAll_append, ← used, ← used, ← tableOf]

/-- A further call adds the name that it is given, if it is given one. -/
theorem tableOf_concat (calls : List Call) (call : Call) :
    tableOf (calls ++ [call]) = (tableOf calls).internAll call.key?.toList := by
  rw [tableOf_append, used, List.filterMap_cons]
  cases call.key? <;> rfl

/-- Calls only add names. -/
theorem tableOf_le_append (calls more : List Call) : tableOf calls ≤ tableOf (calls ++ more) :=
  tableOf_append calls more ▸ IdTable.le_internAll _ _

/-- There are as many names as different ones have been given to the calls. -/
theorem size_tableOf (calls : List Call) : (tableOf calls).size = (used calls).toFinset.card :=
  IdTable.size_internAll_empty (used calls)

/-- Calls that use few names are all answered, and the generator is in step after them. -/
theorem exists_run? (hfew : ((tableOf calls).size : Int) < Int32.maxValue.toInt) :
    ∃ g, run? calls = some g ∧ g.Represents (tableOf calls) := by
  induction calls using List.reverseRecOn with
  | nil => exact ⟨empty, rfl, represents_empty⟩
  | append_singleton calls call ih =>
    have hsize := IdTable.size_mono (tableOf_le_append calls [call])
    obtain ⟨g, hrun, hrepresents⟩ := ih (by omega)
    rw [tableOf_concat] at hfew ⊢
    obtain ⟨answer, g', hanswered, hstep⟩ := Call.exists_answered hrepresents call hfew
    refine ⟨g', ?_, hstep⟩
    rw [run?_concat, hrun, Option.bind_some, hanswered.performs]
    rfl

/-- Calls that use more names lead the counter out of the words. -/
theorem run?_eq_none (hmany : Int32.maxValue.toInt ≤ ((tableOf calls).size : Int)) :
    run? calls = none := by
  induction calls using List.reverseRecOn with
  | nil => exact absurd hmany (by decide)
  | append_singleton calls call ih =>
    rw [run?_concat]
    rcases lt_or_ge ((tableOf calls).size : Int) Int32.maxValue.toInt with hfew | hmany'
    · obtain ⟨g, hrun, hrepresents⟩ := exists_run? hfew
      rw [tableOf_concat] at hmany
      rw [hrun, Option.bind_some, Call.perform_eq_none hrepresents hmany]
      rfl
    · rw [ih hmany']
      rfl

/-- The counter stays within the words exactly if the calls use fewer names than the greatest
word. -/
theorem isSome_run?_iff :
    (run? calls).isSome = true ↔ ((used calls).toFinset.card : Int) < Int32.maxValue.toInt := by
  rw [← size_tableOf]
  rcases lt_or_ge ((tableOf calls).size : Int) Int32.maxValue.toInt with hfew | hmany
  · obtain ⟨g, hrun, -⟩ := exists_run? hfew
    simp [hrun, hfew]
  · simp [run?_eq_none hmany, hmany]

/-- In a generator the names that have been used are numbered from one on, in the order of first
use. A name and its number determine each other, whichever word is asked for, and so do a view and
its number; and the counter stands at the number after the last. -/
structure Numbers (g : IdGenerator) (names : List String) : Prop where
  size : g.size = names.toFinset.card
  bijective : Set.BijOn (fun name => g.get? name) {name | name ∈ names}
    (some '' {id | 1 ≤ id.toInt ∧ id.toInt ≤ g.size})
  ordered {a b : String} {i j : Int32} (ha : g.get? a = some i) (hb : g.get? b = some j) :
    i < j ↔ names.idxOf a < names.idxOf b
  nameOf?_iff (id : Int32) (name : String) : g.nameOf? id = some name ↔ g.get? name = some id
  viewNameOf?_iff (id : Int32) (view : String) :
    g.viewNameOf? id = some view ↔ g.viewId? view = some id
  next : g.next.toInt = g.size + 1

/-- A generator that stands for names one after the other numbers them. -/
theorem Represents.numbers_of_internAll {names : List String}
    (h : g.Represents (IdTable.empty.internAll names)) : g.Numbers names := by
  have hnames := IdTable.names_internAll_empty names
  have hsize : g.size = (IdTable.empty.internAll names).size := congrArg List.length h.names
  have hname : ∀ id name, g.nameOf? id = some name ↔ g.get? name = some id := by
    intro id name
    rw [h.nameOf?, h.get?_iff, IdTable.get?_eq_some_iff]
  have hused : ∀ name, (∃ id, g.get? name = some id) ↔ name ∈ names := by
    intro name
    rw [← List.mem_eraseDups, ← hnames, ← IdTable.exists_get?_iff, ← h.numbers]
    simp
  have hplace : ∀ {a i}, g.get? a = some i →
      ∃ k : Nat, i.toInt = k + 1 ∧ names.eraseDups[k]? = some a := by
    intro a i ha
    rwa [h.get?_iff, IdTable.get?_eq_some_iff, IdTable.nameOf?_eq_some_iff, hnames] at ha
  refine ⟨hsize.trans (IdTable.size_internAll_empty names), ⟨?_, ?_, ?_⟩, ?_, hname, ?_, ?_⟩
  · intro name hmem
    obtain ⟨id, hid⟩ := (hused name).2 hmem
    have hrange :=
      IdTable.exists_nameOf?_iff.1 ⟨name, IdTable.get?_eq_some_iff.1 (h.get?_iff.1 hid)⟩
    exact ⟨id, hsize ▸ hrange, hid.symm⟩
  · intro a ha b _ hab
    obtain ⟨id, hid⟩ := (hused a).2 ha
    have hb : g.get? b = some id := hab.symm.trans hid
    exact IdTable.get?_inj (h.get?_iff.1 hid) (h.get?_iff.1 hb)
  · rintro _ ⟨id, hrange, rfl⟩
    obtain ⟨name, hid⟩ := IdTable.exists_nameOf?_iff.2 (hsize ▸ hrange)
    have hget : g.get? name = some id := h.get?_iff.2 (IdTable.get?_eq_some_iff.2 hid)
    exact ⟨name, (hused name).1 ⟨id, hget⟩, hget⟩
  · intro a b i j ha hb
    obtain ⟨k, hi, hk⟩ := hplace ha
    obtain ⟨l, hj, hl⟩ := hplace hb
    rw [Int32.lt_iff_toInt_lt, hi, hj, ← lt_iff_idxOf_lt hk hl]
    omega
  · intro id view
    rw [h.viewNameOf?, IdTable.viewNameOf?_eq_some_iff, viewId?, h.get?_iff]
  · rw [h.next, hsize]

/-- A number that was known after some calls is known after more. -/
theorem Represents.get?_mono (h : g.Represents t) (h' : g'.Represents u) (hle : t ≤ u)
    (hid : g.get? name = some id) : g'.get? name = some id :=
  h'.get?_iff.2 (IdTable.get?_mono hle (h.get?_iff.1 hid))

/-- After calls that use fewer names than the greatest word the counter is a word, and names and
numbers determine each other, as in the table in which the same names are numbered. Every call has
been answered, lookups have changed nothing, and whatever number a name had or was given at any time
is its number now. -/
theorem run?_numbers (hfew : ((used calls).toFinset.card : Int) < Int32.maxValue.toInt) :
    ∃ g, run? calls = some g ∧ g.Numbers (used calls) ∧ g.Represents (tableOf calls) ∧
      ∀ before call after, calls = before ++ call :: after →
        ∃ g₀ answer g₁, run? before = some g₀ ∧ call.Answered g₀ answer g₁ ∧
          ∀ name id, g₁.get? name = some id → g.get? name = some id := by
  rw [← size_tableOf] at hfew
  obtain ⟨g, hrun, hrepresents⟩ := exists_run? hfew
  refine ⟨g, hrun, hrepresents.numbers_of_internAll, hrepresents, ?_⟩
  intro before call after hcalls
  have hlater : tableOf (before ++ [call]) ≤ tableOf calls := by
    rw [hcalls, List.append_cons before call after]
    exact tableOf_le_append _ after
  have hsize := IdTable.size_mono hlater
  have hsize₀ := IdTable.size_mono (tableOf_le_append before [call])
  obtain ⟨g₀, hrun₀, h₀⟩ := @exists_run? before (by omega)
  rw [tableOf_concat] at hlater hsize
  obtain ⟨answer, g₁, hanswered, h₁⟩ := Call.exists_answered h₀ call (by omega)
  exact ⟨g₀, answer, g₁, hrun₀, hanswered, fun name id => h₁.get?_mono hrepresents hlater⟩

/-- An attribute and a view of one name, asked for again and among lookups. -/
def titleCalls : List Call :=
  [.internView "title", .get "title", .intern "title", .nameOf Int32.minValue, .internView "title"]

/-- Two names, of which one is a view's, have the first two numbers. -/
theorem run?_numbers_title :
    ((used titleCalls).toFinset.card : Int) < Int32.maxValue.toInt ∧
    ∃ g, run? titleCalls = some g ∧ g.Numbers (used titleCalls) ∧ g.size = 2 ∧
      g.viewNameOf? 1 = some "title" ∧ g.nameOf? 2 = some "title" ∧
      g.nameOf? Int32.minValue = none ∧ g.next = 3 := by
  have hfew : ((used titleCalls).toFinset.card : Int) < Int32.maxValue.toInt := by
    decide +kernel
  obtain ⟨g, hrun, hnumbers, -⟩ := run?_numbers hfew
  have hg : run? titleCalls =
      some ⟨[("@id/title", 1), ("title", 2)], ["@id/title", "title"], 3⟩ := by
    decide +kernel
  obtain rfl := Option.some.inj (hrun.symm.trans hg)
  exact ⟨hfew, _, hrun, hnumbers, by decide +kernel⟩

end IdGenerator

end LayoutEngine
