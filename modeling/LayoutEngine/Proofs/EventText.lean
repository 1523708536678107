import LayoutEngine.Copy.Event
import LayoutEngine.Proofs.Saving

/-!
# Copy events read back from their text

An event is written as a record under the name of its kind, and the record holds only numbers, truth
values and strings, each of which is read back as what it was. So every event is read back from its
text (`CopyEvent.ofText?_text`). A text that is read as an event may be laid out in another way,
with its fields in another order or others besides; what is written for its event still means the
same.
-/

namespace LayoutEngine

open Json

/-- A natural number of 64 bits is read back below any bound that it is below. -/
theorem Json.natBelow?_document {bound n : Nat} (hn : n < bound) (hword : n < UInt64.size) :
    (Json.int n).document.natBelow? bound = some n := by
  have hread : (literal n).integer? = some n := integer?_literal ⟨by omega, by omega⟩
  rw [document, Document.natBelow?, hread]
  exact if_pos hn

namespace CopyEvent

/-- A number of 64 bits is read back. -/
theorem word?_document (n : UInt64) : word? (Json.int n.toNat).document = some n := by
  rw [word?, natBelow?_document n.toNat_lt n.toNat_lt, Option.map_some, UInt64.ofNat_toNat]

/-- A percentage is read back. -/
theorem byte?_document (n : UInt8) : byte? (Json.int n.toNat).document = some n := by
  have hword : n.toNat < UInt64.size := Nat.lt_trans n.toNat_lt (by decide)
  rw [byte?, natBelow?_document n.toNat_lt hword, Option.map_some, UInt8.ofNat_toNat]

/-- The text of a record under a kind is read as the event of that kind with these fields. -/
theorem ofText?_tagged {kind : String} {fields : List (String × Json)}
    (h : ∀ field ∈ fields, ∀ v ∈ field.2.values, v.ReadsBack) :
    ofText? (tagged kind fields).text = ofFields? kind (Json.object fields).document := by
  have hvalues : ∀ v ∈ (tagged kind fields).values, v.ReadsBack := by
    intro v hv
    rcases List.mem_cons.1 hv with rfl | hv
    · trivial
    obtain ⟨member, hmember, hv⟩ := mem_membersValues.1 hv
    cases List.mem_singleton.1 hmember
    rcases List.mem_cons.1 hv with rfl | hv
    · trivial
    obtain ⟨field, hfield, hv⟩ := mem_membersValues.1 hv
    exact h field hfield v hv
  rw [ofText?, Document.read?_text hvalues, Option.bind_eq_bind, Option.bind_some]
  show (unitText? _).bind _ = _
  rw [unitText?_units, Option.bind_some]

/-- The fields that an event has been written as are read as those of the event. -/
theorem ofFields?_document {event : CopyEvent} {kind : String} {fields : List (String × Json)}
    (h : event.json = tagged kind fields) :
    ofFields? kind (Json.object fields).document = some event := by
  cases event with
  | started id source =>
    cases h
    rw [ofFields?, if_pos rfl, fields?_document]
    show (word? _).bind (fun id => (Document.text? _).bind _) = _
    rw [word?_document, Option.bind_some, text?_document]
    rfl
  | progress id percent =>
    cases h
    rw [ofFields?, if_neg (by decide), if_pos rfl, fields?_document]
    show (word? _).bind (fun id => (byte? _).bind _) = _
    rw [word?_document, Option.bind_some, byte?_document]
    rfl
  | finished id path success detail =>
    cases h
    rw [ofFields?, if_neg (by decide), if_neg (by decide), if_pos rfl, fields?_document]
    show (word? _).bind (fun id => (Document.text? _).bind fun path =>
      (some success).bind fun success => (Document.text? _).bind _) = _
    rw [word?_document, Option.bind_some, text?_document, Option.bind_some, Option.bind_some,
      text?_document]
    rfl
  | cancelled id path bytes =>
    cases h
    rw [ofFields?, if_neg (by decide), if_neg (by decide), if_neg (by decide), if_pos rfl,
      fields?_document]
    show (word? _).bind (fun id => (Document.text? _).bind fun path => (word? _).bind _) = _
    rw [word?_document, Option.bind_some, text?_document, Option.bind_some, word?_document]
    rfl

/-- Every event is read back from its text. So the text that is written for an event which has been
read from some text is read as that text is. -/
theorem ofText?_text :
    (∀ event : CopyEvent, ofText? event.json.text = some event) ∧
      ∀ (text : String) (event : CopyEvent), ofText? text = some event →
        ofText? event.json.text = ofText? text := by
  have hback (event : CopyEvent) : ofText? event.json.text = some event := by
    cases event <;>
      exact (ofText?_tagged (by simp [Json.values, ReadsBack])).trans (ofFields?_document rfl)
  exact ⟨hback, fun text event h => (hback event).trans h.symm⟩

end CopyEvent

end LayoutEngine
