import LayoutEngine.Proofs.Numeral
import LayoutEngine.Value.Resolve

/-!
# Paths, one part after the other

A path is walked step by step: a step enters a part of a value, and where there is no such part it
comes to null, from which nothing leads on (`Value.Walks`). The value of a binding is got in this
way from the value of any first part of its path, whether or not that part is the data index
(`Binding.evaluate_append`).
-/

namespace LayoutEngine

/-- The part of a value that a step enters: the value under a key of an object, the item of an array
at the place that a key spells, or the item at the data index. -/
inductive Segment.Enters (index : Int) : Segment → Value → Value → Prop
  | field {name : String} {fields : Fields} {part : Value}
    (found : Entries.get? name fields = some part) : Enters index (.key name) (.object fields) part
  | item {name : String} {items : List Value} {place : Nat} {part : Value}
    (spells : Numeral.Spells name.toList place) (unsigned : '-' ∉ name.toList)
    (fits : place < 2 ^ 64) (found : items[place]? = some part) :
    Enters index (.key name) (.array items) part
  | indexed {items : List Value} {place : Nat} {part : Value} (same : index = place)
    (found : items[place]? = some part) : Enters index .dataIndex (.array items) part

/-- The value that a walk from a value on comes to. A step that enters no part comes to null. -/
inductive Value.Walks (index : Int) : List Segment → Value → Value → Prop
  | here (value : Value) : Walks index [] value value
  | enter {segment : Segment} {rest : List Segment} {value part last : Value}
    (enters : segment.Enters index value part) (walks : Walks index rest part last) :
    Walks index (segment :: rest) value last
  | lost {segment : Segment} {rest : List Segment} {value last : Value}
    (nowhere : ∀ part, ¬segment.Enters index value part) (walks : Walks index rest .null last) :
    Walks index (segment :: rest) value last

variable {index : Int}

/-! ## Steps -/

/-- An index stands for the item in its place. -/
theorem itemAt?_eq_some_iff {items : List Value} {part : Value} :
    itemAt? items index = some part ↔ ∃ place : Nat, index = place ∧ items[place]? = some part := by
  unfold itemAt?
  split
  · next h =>
    constructor
    · exact fun hpart => ⟨index.toNat, (Int.toNat_of_nonneg h).symm, hpart⟩
    · rintro ⟨place, rfl, hpart⟩
      exact hpart
  · next h =>
    refine ⟨nofun, ?_⟩
    rintro ⟨place, rfl, -⟩
    exact absurd (Int.natCast_nonneg place) h

namespace Segment

/-- A step is taken just where the segment enters. -/
theorem step?_eq_some_iff {segment : Segment} {value part : Value} :
    segment.step? index value = some part ↔ segment.Enters index value part := by
  constructor
  · intro h
    unfold step? at h
    split at h
    · exact .field h
    · obtain ⟨place, hplace, hfound⟩ := Option.bind_eq_some_iff.1 h
      obtain ⟨hspells, hunsigned, hfits⟩ := Numeral.unsigned?_eq_some_iff.1 hplace
      exact .item hspells hunsigned hfits hfound
    · obtain ⟨place, hsame, hfound⟩ := itemAt?_eq_some_iff.1 h
      exact .indexed hsame hfound
    · cases h
  · intro h
    cases h with
    | field found => exact found
    | item spells unsigned fits found =>
      exact Option.bind_eq_some_iff.2
        ⟨_, Numeral.unsigned?_eq_some_iff.2 ⟨spells, unsigned, fits⟩, found⟩
    | indexed same found => exact itemAt?_eq_some_iff.2 ⟨_, same, found⟩

/-- No step is taken just where the segment enters nothing. -/
theorem step?_eq_none_iff {segment : Segment} {value : Value} :
    segment.step? index value = none ↔ ∀ part, ¬segment.Enters index value part := by
  simp only [Option.eq_none_iff_forall_ne_some, ne_eq, step?_eq_some_iff]

end Segment

/-! ## Walks -/

namespace Value

/-- Without segments a path stays where it is. -/
theorem walks_nil_iff {value last : Value} : Walks index [] value last ↔ last = value := by
  constructor
  · rintro ⟨⟩
    rfl
  · rintro rfl
    exact .here last

/-- From null every walk comes to null. -/
theorem walks_null_iff {path : List Segment} {last : Value} :
    Walks index path .null last ↔ last = .null := by
  induction path with
  | nil => exact walks_nil_iff
  | cons segment rest ih =>
    constructor
    · intro h
      cases h with
      | enter enters => cases enters
      | lost _ walks => exact ih.1 walks
    · intro h
      exact .lost (fun _ => nofun) (ih.2 h)

/-- A walk whose first step enters no part comes to null. -/
theorem walks_iff_of_lost {segment : Segment} {rest : List Segment} {value last : Value}
    (hnowhere : ∀ part, ¬segment.Enters index value part) :
    Walks index (segment :: rest) value last ↔ last = .null := by
  constructor
  · intro h
    cases h with
    | enter enters => exact absurd enters (hnowhere _)
    | lost _ walks => exact walks_null_iff.1 walks
  · intro h
    exact .lost hnowhere (walks_null_iff.2 h)

/-- A path walks to what it comes to step by step, or to null once a step is missing. -/
theorem walks_iff {path : List Segment} {value last : Value} :
    Walks index path value last ↔ last = (walk? index path value).getD .null := by
  induction path generalizing value with
  | nil => exact walks_nil_iff
  | cons segment rest ih =>
    rw [walk?]
    cases hstep : segment.step? index value with
    | none => exact walks_iff_of_lost (Segment.step?_eq_none_iff.1 hstep)
    | some part =>
      rw [Option.bind_some, ← ih]
      have henters := Segment.step?_eq_some_iff.1 hstep
      constructor
      · intro h
        cases h with
        | enter enters walks =>
          rw [← Segment.step?_eq_some_iff, hstep] at enters
          cases enters
          exact walks
        | lost nowhere => exact absurd henters (nowhere part)
      · exact .enter henters

/-- A path in two parts is walked one part after the other. -/
theorem walk?_append (front back : List Segment) (value : Value) :
    walk? index (front ++ back) value =
      (walk? index front value).bind (walk? index back) := by
  induction front generalizing value with
  | nil => rfl
  | cons segment rest ih =>
    rw [List.cons_append, walk?, walk?]
    cases segment.step? index value with
    | none => rfl
    | some part => exact ih part

end Value

namespace Binding

variable {data : Fields} {front : List Segment}

/-- The place in the data is an integer. -/
theorem evaluate_dataIndex (text : String) :
    evaluate data index ⟨text, [.dataIndex]⟩ = .int index := rfl

/-- A path other than the data index alone is walked from the data. -/
theorem evaluate_of_ne (hne : front ≠ []) (hindex : front ≠ [.dataIndex]) (text : String) :
    evaluate data index ⟨text, front⟩ = (Value.walk? index front (.object data)).getD .null := by
  unfold evaluate
  split
  · next h => exact absurd h hne
  · next h => exact absurd h hindex
  · rfl

/-- A single key is looked up in the data. -/
theorem evaluate_key (name text : String) :
    evaluate data index ⟨text, [.key name]⟩ = (Entries.get? name data).getD .null := by
  rw [evaluate_of_ne (List.cons_ne_nil _ _) (by simp), Value.walk?, Segment.step?]
  cases Entries.get? name data <;> rfl

/-- The data, taken as an object, have no part at the data index. -/
theorem evaluate_dataIndex_cons (segment : Segment) (rest : List Segment) (text : String) :
    evaluate data index ⟨text, .dataIndex :: segment :: rest⟩ = .null := rfl

/-- A path of one key comes to the value under the key, and the data index alone to the index. A
longer path comes to what walking its second part comes to from the value of its first part. -/
theorem evaluate_append (hne : front ≠ []) (back : List Segment) (data : Fields) (index : Int)
    (text text' : String) :
    (∀ name, front = [.key name] →
      evaluate data index ⟨text, front⟩ = (Entries.get? name data).getD .null) ∧
    (front = [.dataIndex] → evaluate data index ⟨text, front⟩ = .int index) ∧
    ∀ last, evaluate data index ⟨text', front ++ back⟩ = last ↔
      Value.Walks index back (evaluate data index ⟨text, front⟩) last := by
  refine ⟨?_, ?_, fun last => ?_⟩
  · rintro name rfl
    exact evaluate_key name text
  · rintro rfl
    exact evaluate_dataIndex text
  rw [eq_comm]
  by_cases hindex : front = [.dataIndex]
  · subst hindex
    rw [evaluate_dataIndex]
    cases back with
    | nil => exact Value.walks_nil_iff.symm
    | cons segment rest =>
      have hnowhere : ∀ part, ¬segment.Enters index (.int index) part := fun _ => nofun
      rw [List.singleton_append, evaluate_dataIndex_cons, Value.walks_iff_of_lost hnowhere]
  · have hall : front ++ back ≠ [.dataIndex] := by
      intro h
      rcases List.append_eq_singleton_iff.1 h with ⟨hnil, -⟩ | ⟨hsame, -⟩
      · exact hne hnil
      · exact hindex hsame
    rw [evaluate_of_ne (List.append_ne_nil_of_left_ne_nil hne back) hall,
      evaluate_of_ne hne hindex, Value.walk?_append]
    cases Value.walk? index front (.object data) with
    | some part => exact Value.walks_iff.symm
    | none => exact Value.walks_null_iff.symm

/-- Rows of a table, with a title each. -/
def titledRows : Fields :=
  [("rows", .array [.object [("title", .string "first")], .object [("title", .string "second")]])]

/-- The title of the row at the data index is the title in what the row comes to. -/
theorem evaluate_append_titledRows :
    Value.Walks 1 [.key "title"]
        (evaluate titledRows 1 ⟨"@\x7brows[$index]\x7d", [.key "rows", .dataIndex]⟩)
        (.string "second") ∧
      evaluate titledRows 1
        ⟨"@\x7brows[$index].title\x7d", [.key "rows", .dataIndex, .key "title"]⟩ =
          .string "second" := by
  have hwhole : evaluate titledRows 1
      ⟨"@\x7brows[$index].title\x7d", [.key "rows", .dataIndex, .key "title"]⟩ =
        .string "second" := rfl
  have hne : [Segment.key "rows", .dataIndex] ≠ [] := List.cons_ne_nil _ _
  obtain ⟨-, -, hwalk⟩ := evaluate_append hne [.key "title"] titledRows 1
    "@\x7brows[$index]\x7d" "@\x7brows[$index].title\x7d"
  exact ⟨(hwalk _).1 hwhole, hwhole⟩

end Binding

end LayoutEngine
