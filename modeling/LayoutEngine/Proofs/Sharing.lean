import LayoutEngine.Proofs.EventStream

/-!
# Copies that share a channel

Two copies may send their events into one channel, and whoever waits for them may drive first one
and then the other. Driving the first copy hands over all of its events, wherever the other's fall,
and takes the channel up to its last one. The other's events until then are dropped: of a stream
what is left is a part that it ends with, and driving the second copy hands over that part
(`CopyTask.drive_then_drive`).
-/

namespace LayoutEngine

open Copy

/-! ## Parts of streams -/

namespace IsStream

variable {task : CopyTask} {percents : List UInt8} {last : CopyEvent}
  {events early late : List CopyEvent}

/-- Only the last event of a stream is terminal. -/
theorem exists_append (h : IsStream task percents last events) :
    ∃ own, events = own ++ [last] ∧ ∀ event ∈ own, event.isTerminal = false := by
  refine ⟨_, h.events, ?_⟩
  intro event hevent
  rcases List.mem_cons.1 hevent with rfl | hevent
  · rfl
  · obtain ⟨p, -, rfl⟩ := List.mem_map.1 hevent
    rfl

/-- A part that a stream ends with is empty, or has the last event and is terminal only there. -/
theorem of_append (h : IsStream task percents last (early ++ late)) :
    late = [] ∨ ∃ own, late = own ++ [last] ∧ ∀ event ∈ own, event.isTerminal = false := by
  obtain ⟨own, hevents, hown⟩ := h.exists_append
  rcases List.append_eq_append_iff.1 hevents with ⟨more, rfl, hlate⟩ | ⟨more, -, hlast⟩
  · exact .inr ⟨more, hlate, fun event hevent => hown event (List.mem_append_right early hevent)⟩
  · rcases List.singleton_eq_append_iff.1 hlast with ⟨-, rfl⟩ | ⟨-, rfl⟩
    · exact .inr ⟨[], rfl, nofun⟩
    · exact .inl rfl

end IsStream

/-- A copy that has ended has sent a stream. -/
theorem CopyThread.exists_isStream {task : CopyTask} {fs : FileSystem} {turns : List Turn}
    {t : CopyThread} (hrun : (fresh fs).run? task turns = some t) (hended : t.stage = .ended) :
    ∃ percents last, IsStream task percents last t.sent := by
  have hs : Sound task fs True t := sound_of_run? (fun _ _ _ => trivial) hrun
  obtain ⟨percents, last, before, htold, hsent, hverdict⟩ := hs.of_ended hended
  exact ⟨percents, last, by rw [hsent, htold.sent], htold.rising, htold.bounded,
    htold.length_le, hverdict.isTerminal, hverdict.id_eq⟩

/-! ## Driving what is left -/

namespace CopyTask

/-- Where no event is of a copy, nothing is told of it. -/
theorem drive_of_forall_ne {id : UInt64} {channel : List CopyEvent}
    (h : ∀ event ∈ channel, event.id ≠ id) : drive id channel = ([], []) := by
  induction channel with
  | nil => rfl
  | cons event rest ih =>
    obtain ⟨hevent, hrest⟩ := List.forall_mem_cons.1 h
    rw [drive, if_pos hevent, ih hrest]

/-- Where a part is left that the stream of a copy ends with, driving the copy hands it over. -/
theorem drive_of_append {task : CopyTask} {percents : List UInt8} {last : CopyEvent}
    {early late channel : List CopyEvent} (h : IsStream task percents last (early ++ late))
    (hlate : channel.filter (·.id = task.id) = late) :
    (drive task.id channel).1 = late.map CopyCall.ofEvent := by
  rcases h.of_append with rfl | ⟨own, rfl, hown⟩
  · rw [drive_of_forall_ne fun event hevent => by
      simpa using List.filter_eq_nil_iff.1 hlate event hevent]
    rfl
  · obtain ⟨before, after, -, -, hdrive⟩ := drive_filter hown h.terminal hlate
    rw [hdrive]

/-- Driving a copy and then another one, with streams of both in one channel, hands over all of the
first one's events, up to its last, and of the second one's those that come after that. These are
all of them if none has come before, and the last of them is among them if it comes after. -/
theorem drive_then_drive {a b : CopyTask} {percents percents' : List UInt8}
    {last last' : CopyEvent} {sent sent' channel : List CopyEvent} (hids : a.id ≠ b.id)
    (ha : IsStream a percents last sent) (hb : IsStream b percents' last' sent')
    (hsent : channel.filter (·.id = a.id) = sent) (hsent' : channel.filter (·.id = b.id) = sent') :
    ∃ before after, channel = before ++ last :: after ∧
      drive a.id channel = (sent.map CopyCall.ofEvent, after) ∧
      (sent.map CopyCall.ofEvent).getLast? = some (.ofEvent last) ∧
      (drive b.id after).1 = (after.filter (·.id = b.id)).map CopyCall.ofEvent ∧
      ((drive b.id after).1 = sent'.map CopyCall.ofEvent ↔ ∀ event ∈ before, event.id ≠ b.id) ∧
      ((drive b.id after).1.getLast? = some (.ofEvent last') ↔ last' ∈ after) := by
  obtain ⟨own, rfl, hown⟩ := ha.exists_append
  obtain ⟨before, after, rfl, -, hdrive⟩ := drive_filter hown ha.terminal hsent
  -- The second stream is what of it came before the last event of the first one, and the rest.
  have hother : ¬last.id = b.id := ha.id ▸ hids
  rw [List.filter_append, List.filter_cons_of_neg (by simpa using hother)] at hsent'
  have hb' := hsent' ▸ hb
  have hdrive' := drive_of_append hb' rfl
  refine ⟨before, after, rfl, hdrive, by simp, hdrive', ?_, ?_⟩
  · rw [hdrive', ← hsent', List.map_append, List.self_eq_append_left, List.map_eq_nil_iff,
      List.filter_eq_nil_iff]
    simp
  · have hmem : last' ∈ after ↔ last' ∈ after.filter (·.id = b.id) := by simp [hb.id]
    rw [hdrive', hmem]
    rcases hb'.of_append with hnone | ⟨own', hlate, -⟩
    · simp [hnone]
    · simp [hlate]

/-- A copy of a file that is not there. -/
def missing (id : UInt64) : CopyTask := ⟨id, "/a", "/work"⟩

/-- It starts and fails. -/
def missingEvents (id : UInt64) : List CopyEvent :=
  [.started id "/a", .finished id "/work/a" false FileError.notFound.message]

/-- A copy of a missing file ends after three turns, and has told that it failed. -/
theorem exists_missing {id : UInt64} (hid : id = 1 ∨ id = 2) :
    ∃ t, (CopyThread.fresh .empty).run? (missing id) [.go 0, .go 0, .go 0] = some t ∧
      t.stage = .ended ∧ t.sent = missingEvents id := by
  rcases hid with rfl | rfl
  all_goals exact ⟨_, rfl, rfl, by decide +kernel⟩

/-- A second copy starts before the first one, and fails after it has. -/
def missingChannel : List CopyEvent :=
  [.started 2 "/a", .started 1 "/a", .finished 1 "/work/a" false FileError.notFound.message,
    .finished 2 "/work/a" false FileError.notFound.message]

/-- Of the second copy only the failure is told. -/
theorem drive_then_drive_missing :
    ∃ t t', (CopyThread.fresh .empty).run? (missing 1) [.go 0, .go 0, .go 0] = some t ∧
      t.stage = .ended ∧
      (CopyThread.fresh .empty).run? (missing 2) [.go 0, .go 0, .go 0] = some t' ∧
      t'.stage = .ended ∧
      missingChannel.filter (·.id = 1) = t.sent ∧ missingChannel.filter (·.id = 2) = t'.sent ∧
      ∃ after, drive 1 missingChannel = (t.sent.map CopyCall.ofEvent, after) ∧
        (drive 2 after).1 = [.finished "/work/a" false FileError.notFound.message] := by
  obtain ⟨t, hrun, hended, hsent⟩ := exists_missing (.inl rfl)
  obtain ⟨t', hrun', hended', hsent'⟩ := exists_missing (.inr rfl)
  obtain ⟨percents, last, hstream⟩ := CopyThread.exists_isStream hrun hended
  obtain ⟨percents', last', hstream'⟩ := CopyThread.exists_isStream hrun' hended'
  have hfirst : missingChannel.filter (·.id = 1) = t.sent := by
    rw [hsent]
    decide +kernel
  have hsecond : missingChannel.filter (·.id = 2) = t'.sent := by
    rw [hsent']
    decide +kernel
  obtain ⟨before, after, -, hdrive, -, hcalls, -, -⟩ :=
    drive_then_drive (by decide) hstream hstream' hfirst hsecond
  refine ⟨t, t', hrun, hended, hrun', hended', hfirst, hsecond, after, hdrive, ?_⟩
  have hafter : after = [.finished 2 "/work/a" false FileError.notFound.message] := by
    have hleft := congrArg Prod.snd hdrive
    exact hleft.symm.trans (by decide +kernel)
  show (drive (missing 2).id after).1 = _
  rw [hcalls, hafter]
  decide +kernel

/-- Where a second copy comes to its end before the first one, nothing is left of it to be told. -/
theorem drive_then_drive_drops_events :
    ∃ t t', (CopyThread.fresh .empty).run? (missing 1) [.go 0, .go 0, .go 0] = some t ∧
      t.stage = .ended ∧
      (CopyThread.fresh .empty).run? (missing 2) [.go 0, .go 0, .go 0] = some t' ∧
      t'.stage = .ended ∧
      (t'.sent ++ t.sent).filter (·.id = 1) = t.sent ∧
      (t'.sent ++ t.sent).filter (·.id = 2) = t'.sent ∧
      ∃ after, drive 1 (t'.sent ++ t.sent) = (t.sent.map CopyCall.ofEvent, after) ∧
        (drive 2 after).1 = [] ∧ (drive 2 after).1 ≠ t'.sent.map CopyCall.ofEvent := by
  obtain ⟨t, hrun, hended, hsent⟩ := exists_missing (.inl rfl)
  obtain ⟨t', hrun', hended', hsent'⟩ := exists_missing (.inr rfl)
  refine ⟨t, t', hrun, hended, hrun', hended', ?_⟩
  rw [hsent, hsent']
  exact ⟨by decide +kernel, by decide +kernel, [], by decide +kernel, rfl, by decide +kernel⟩

end CopyTask

end LayoutEngine
