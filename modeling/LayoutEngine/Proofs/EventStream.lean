import LayoutEngine.Proofs.Thread
import Mathlib.Data.List.Perm.Subperm

/-!
# The events of a copy

A copy sends that it starts, then rising percentages, then one last event, and after that nothing
(`IsStream`). It always gets there: it is never stuck before the end, and each of its steps brings
it nearer, since a round that looks, reads, writes and tells takes at least one byte of the source
(`Moves.effort_le`). Only an interrupted read sets it back, by a single step.

Whoever drives the copy is told just these events, however many of other copies come in between
(`CopyTask.drive_filter`).
-/

namespace LayoutEngine

open Copy

/-- The number of bytes that there are in a source to be copied. -/
def CopyTask.sourceLength (fs : FileSystem) (task : CopyTask) : Nat :=
  match task.names with
  | .error _ => 0
  | .ok (source, _) =>
    match fs.openNode source with
    | .error _ => 0
    | .ok (_, node) => node.bytes.length

/-- The events are those of a whole copy: the start, rising percentages, one last event. -/
structure IsStream (task : CopyTask) (percents : List UInt8) (last : CopyEvent)
    (events : List CopyEvent) : Prop where
  events : events = .started task.id task.source :: percents.map (.progress task.id) ++ [last]
  rising : percents.Pairwise (· < ·)
  bounded : ∀ p ∈ percents, p ≤ 100
  few : percents.length ≤ 101
  terminal : last.isTerminal = true
  id : last.id = task.id

namespace CopyThread

section

variable {task : CopyTask} {fs : FileSystem} {refused : Prop} {t t' : CopyThread} {job : Job}
  {node : FileNode} {percents : List UInt8} {turn : Turn} {turns : List Turn}

/-! ## Coming to an end -/

/-- How many steps a copy still takes at most, if no read is interrupted. -/
def effort (task : CopyTask) (fs : FileSystem) (t : CopyThread) : Nat :=
  match t.stage with
  | .starting => 4 * task.sourceLength fs + 6
  | .opening => 4 * task.sourceLength fs + 5
  | .creating _ _ _ size => 4 * size + 4
  | .looking job => 4 * (job.size - t.written.length) + 3
  | .reading job => 4 * (job.size - t.written.length) + 2
  | .writing job _ => 4 * (job.size - t.written.length) + 1
  | .telling job _ => 4 * (job.size - t.written.length) + 4
  | .ending _ => 1
  | .ended => 0

/-- The length of a source is that of what is read from it. -/
theorem sourceLength_eq {source name : String} {origin : Place}
    (hnames : task.names = .ok (source, name)) (hopen : fs.openNode source = .ok (origin, node)) :
    task.sourceLength fs = node.bytes.length := by
  simp only [CopyTask.sourceLength, hnames, hopen]

/-- A chunk that is to be written is not empty, and there is room for it in the size of the
source. -/
theorem Sound.chunk_fits {chunk : List UInt8} (hs : Sound task fs refused t)
    (hstage : t.stage = .writing job chunk) :
    0 < chunk.length ∧ t.written.length + chunk.length ≤ job.size := by
  obtain ⟨bytes, percents, hwork, -, hchunk, hpos, -⟩ := hs.of_writing hstage
  have hfew := (hwork.put hchunk).written.length_le
  rw [length_written_put] at hfew
  have hcontents : (job.contents (.file bytes)).length ≤ job.size := by
    rw [hwork.size, Job.contents]
    split
    · exact Nat.zero_le _
    · exact Nat.le_refl _
  exact ⟨List.length_pos_iff.2 hpos, Nat.le_trans hfew hcontents⟩

/-- A step of the copy brings it nearer to its end, and only an interrupted read sets it back. -/
theorem Moves.effort_le (h : Moves task t turn t') (hs : Sound task fs refused t) :
    effort task fs t' + (if turn.isStep then 1 else 0) ≤
      effort task fs t + (if turn.isInterrupt then 1 else 0) := by
  cases h with
  | cancel => exact Nat.le_refl _
  | start hstage | unnamed hstage | missing hstage | refusedOpen hstage | refusedCreate hstage
  | stop hstage | look hstage | unreadable hstage | done hstage | read hstage
  | interrupted hstage | refusedRead hstage | tell hstage | finish hstage =>
    simp [effort, hstage, send, fail, written, Turn.isStep, Turn.isInterrupt]
  | unwritable hstage => simp [effort, hstage, fail, Turn.isStep, Turn.isInterrupt]
  | @opened limit source name origin node hstage hnames hopen =>
    obtain ⟨hidle, -⟩ := hs.of_opening hstage
    rw [hidle.untouched.files] at hopen
    simp only [effort, hstage, sourceLength_eq hnames hopen, Turn.isStep, Turn.isInterrupt]
    exact Nat.le_refl _
  | @created limit name path origin place size hstage hplace =>
    have hsize : size - t.written.length ≤ size := Nat.sub_le _ _
    simp only [effort, hstage, Turn.isStep, Turn.isInterrupt, if_true]
    show 4 * (size - t.written.length) + 3 + 1 ≤ _
    omega
  | @write limit job chunk hstage hpercent =>
    obtain ⟨hpos, hfits⟩ := hs.chunk_fits hstage
    have hlength := length_written_put job chunk t
    simp only [effort, hstage, Turn.isStep, Turn.isInterrupt, if_true]
    show 4 * (job.size - (t.put job chunk).written.length) + 3 + 1 ≤ _
    omega
  | @writeNew limit job chunk percent hstage hpercent hnew =>
    obtain ⟨hpos, hfits⟩ := hs.chunk_fits hstage
    have hlength := length_written_put job chunk t
    simp only [effort, hstage, Turn.isStep, Turn.isInterrupt, if_true]
    show 4 * (job.size - (t.put job chunk).written.length) + 4 + 1 ≤ _
    omega
  | refusedWrite hstage hkept =>
    obtain ⟨hpos, hfits⟩ := hs.chunk_fits hstage
    simp only [effort, hstage, fail, Turn.isStep, Turn.isInterrupt, if_true]
    omega

/-- A copy takes only so many steps, and one more for each read that is interrupted. -/
theorem Sound.steps_le (hs : Sound task fs True t) (h : t.run? task turns = some t') :
    turns.countP Turn.isStep ≤ effort task fs t + turns.countP Turn.isInterrupt := by
  induction turns generalizing t with
  | nil => exact Nat.zero_le _
  | cons turn rest ih =>
    obtain ⟨next, hstep, hrest⟩ := Option.bind_eq_some_iff.1 h
    have hmoves := moves_of_step? hstep
    have hone := hmoves.effort_le hs
    have hmore := ih (hs.moves (fun _ => trivial) hmoves) hrest
    rw [List.countP_cons, List.countP_cons]
    omega

/-- Before its end a copy can take its next step. -/
theorem go?_of_not_ended (h : t.stage ≠ .ended) (limit : Nat) :
    ∃ t', t.step? task (.go limit) = some t' := by
  rw [step?, go?]
  split
  case h_9 hstage => exact absurd hstage h
  all_goals exact ⟨_, rfl⟩

/-! ## What the events are -/

/-- The last event ends a stream. -/
theorem Verdict.isTerminal {event : CopyEvent} (h : Verdict task fs refused t percents event) :
    event.isTerminal = true := by
  cases h <;> rfl

/-- The last event is of the copy that it ends. -/
theorem Verdict.id_eq {event : CopyEvent} (h : Verdict task fs refused t percents event) :
    event.id = task.id := by
  cases h <;> rfl

/-- Of an empty source no percentage is told. -/
theorem Verdict.percents_eq_nil {event : CopyEvent} {name path : String} {origin : Place}
    (h : Verdict task fs refused t percents event)
    (hempty : Opened task fs name path origin (.file [])) : percents = [] := by
  have hnone : ∀ {job : Job} {node : FileNode} {total : Nat}, Working task fs job node t →
      percents.getLast? = toldAt job.size total → percents = [] := by
    intro job node total hwork hlast
    obtain ⟨-, -, -, rfl⟩ := hwork.opened.unique hempty
    have hsize : job.size = 0 := hwork.size
    rw [toldAt, percentAt, if_pos hsize, ite_self] at hlast
    exact List.getLast?_eq_none_iff.1 hlast
  cases h with
  | unnamed hnames huntouched hasked => rfl
  | unmade hnames huntouched hasked hreason => rfl
  | broken hwork hlast hreason | cancelled hwork hlast | copied hwork hlast hall =>
    exact hnone hwork hlast

/-- All of a source is a hundred percent of it. -/
theorem Verdict.getLast?_percents {name path : String} {origin place : Place}
    {bytes : List UInt8}
    (h : Verdict task fs refused t percents (.finished task.id path true name))
    (hopened : Opened task fs name path origin (.file bytes))
    (hplace : fs.writable path = .ok place) (hapart : place ≠ origin) (hpos : 0 < bytes.length)
    (hfit : bytes.length ≤ (UInt64.size - 1) / 100) : percents.getLast? = some 100 := by
  cases h with
  | @copied job bytes' _ hwork hlast hall =>
    obtain ⟨-, -, rfl, hnode⟩ := hwork.opened.unique hopened
    cases hnode
    cases hplace.symm.trans hwork.place
    rw [Job.contents, if_neg hapart] at hall
    have hsize : job.size = bytes.length := hwork.size
    have hwritten : t.written.length = bytes.length := congrArg List.length hall
    rw [hlast, hwritten, hsize, toldAt_of_pos hpos, percentAt, if_neg (Nat.ne_of_gt hpos),
      percentOf_self hpos hfit]

/-- Rising percentages are few. -/
theorem Told.length_le {sent : List CopyEvent} (h : Told task percents sent) :
    percents.length ≤ 101 := by
  have hnodup : (percents.map UInt8.toNat).Nodup :=
    List.pairwise_map.2 (h.rising.imp fun hlt => Nat.ne_of_lt (UInt8.lt_iff_toNat_lt.1 hlt))
  have hrange : percents.map UInt8.toNat ⊆ List.range 101 := by
    intro n hn
    obtain ⟨p, hp, rfl⟩ := List.mem_map.1 hn
    exact List.mem_range.2 (Nat.lt_succ_of_le (UInt8.le_iff_toNat_le.1 (h.bounded p hp)))
  have hlength := (hnodup.subperm hrange).length_le
  rwa [List.length_map, List.length_range] at hlength

end

end CopyThread

/-! ## Who is told -/

/-- Whoever drives a copy takes its events from the channel up to the last one, and leaves what
comes after. -/
theorem CopyTask.drive_filter {id : UInt64} {own rest channel : List CopyEvent} {last : CopyEvent}
    (hown : ∀ event ∈ own, event.isTerminal = false) (hlast : last.isTerminal = true)
    (h : channel.filter (·.id = id) = own ++ last :: rest) :
    ∃ before after, channel = before ++ last :: after ∧ after.filter (·.id = id) = rest ∧
      drive id channel = ((own ++ [last]).map CopyCall.ofEvent, after) := by
  -- what comes first in the channel is of another copy, or is the first of this one's events
  induction channel generalizing own with
  | nil => cases own <;> cases h
  | cons event more ih =>
    by_cases hid : event.id = id
    · rw [List.filter_cons_of_pos (by simpa using hid)] at h
      cases own with
      | nil =>
        obtain ⟨rfl, hrest⟩ := List.cons.inj h
        refine ⟨[], more, rfl, hrest, ?_⟩
        rw [drive, if_neg (not_not_intro hid), if_pos hlast]
        rfl
      | cons first own =>
        obtain ⟨rfl, hmore⟩ := List.cons.inj h
        obtain ⟨hfirst, hown⟩ := List.forall_mem_cons.1 hown
        obtain ⟨before, after, hchannel, hrest, hdrive⟩ := ih hown hmore
        refine ⟨event :: before, after, congrArg (event :: ·) hchannel, hrest, ?_⟩
        rw [drive, if_neg (not_not_intro hid), if_neg (Bool.eq_false_iff.1 hfirst), hdrive]
        rfl
    · rw [List.filter_cons_of_neg (by simpa using hid)] at h
      obtain ⟨before, after, hchannel, hrest, hdrive⟩ := ih hown h
      refine ⟨event :: before, after, congrArg (event :: ·) hchannel, hrest, ?_⟩
      rw [drive, if_pos hid, hdrive]

namespace CopyThread

/-- **The events of a copy obey their protocol.** However the turns come, a copy takes only so many
steps and is never stuck before its end. When it has ended, it has sent its start, rising
percentages and one last event, and it sends nothing more. Of an empty source it tells no
percentage; of one that is copied as a whole to another place, and is not too large, the last
percentage is a hundred. Whoever drives the copy is told just this, up to the last event, however
many events of other copies are in the channel. -/
theorem event_stream_protocol {task : CopyTask} {fs : FileSystem} {turns : List Turn}
    {t : CopyThread} (hrun : (fresh fs).run? task turns = some t) :
    turns.countP Turn.isStep ≤
        4 * task.sourceLength fs + 6 + turns.countP Turn.isInterrupt ∧
    (t.stage ≠ .ended → ∀ limit, ∃ next, t.step? task (.go limit) = some next) ∧
    (t.stage = .ended →
      ∃ percents last, IsStream task percents last t.sent ∧
        (∀ name path origin, Opened task fs name path origin (.file []) → percents = []) ∧
        (∀ name path origin bytes place, last = .finished task.id path true name →
          Opened task fs name path origin (.file bytes) → fs.writable path = .ok place →
          place ≠ origin → 0 < bytes.length → bytes.length ≤ (UInt64.size - 1) / 100 →
          percents.getLast? = some 100) ∧
        (∀ more later, t.run? task more = some later → later.sent = t.sent) ∧
        (∀ channel : List CopyEvent, channel.filter (·.id = task.id) = t.sent →
          ∃ before after, channel = before ++ last :: after ∧
            CopyTask.drive task.id channel = (t.sent.map CopyCall.ofEvent, after))) := by
  refine ⟨sound_fresh.steps_le hrun, go?_of_not_ended, fun hended => ?_⟩
  have hs : Sound task fs True t := sound_of_run? (fun _ _ _ => trivial) hrun
  obtain ⟨percents, last, before, htold, hsent, hverdict⟩ := hs.of_ended hended
  refine ⟨percents, last, ?_, ?_, ?_, ?_, ?_⟩
  · exact ⟨by rw [hsent, htold.sent], htold.rising, htold.bounded, htold.length_le,
      hverdict.isTerminal, hverdict.id_eq⟩
  · exact fun name path origin hempty => hverdict.percents_eq_nil hempty
  · rintro name path origin bytes place rfl hopened hplace hapart hpos hfit
    exact hverdict.getLast?_percents hopened hplace hapart hpos hfit
  · intro more later hmore
    obtain ⟨stopped, rfl⟩ := run?_of_ended hmore hended
    rfl
  · intro channel hchannel
    rw [hsent] at hchannel ⊢
    obtain ⟨before, after, hcut, -, hdrive⟩ := CopyTask.drive_filter
      (fun event hevent => htold.isTerminal_eq_false hevent) hverdict.isTerminal hchannel
    exact ⟨before, after, hcut, hdrive⟩

/-- A copy of three bytes in two reads tells of a hundred percent last, and who drives it hears all
of it from a channel that another copy uses too. -/
theorem event_stream_of_three_bytes :
    let fs := FileSystem.empty.addFile ["work", "in", "a"] [7, 8, 9]
    let task : CopyTask := ⟨1, "/work/in/a", "/work"⟩
    ∃ t, (fresh fs).run? task [.go 0, .go 0, .go 0, .go 0, .go 2, .go 0, .go 0, .go 0, .go 8192,
        .go 0, .go 0, .go 0, .go 0, .go 0] = some t ∧ t.stage = .ended ∧
      (∃ percents last, IsStream task percents last t.sent ∧ percents.getLast? = some 100) ∧
      ∃ after, CopyTask.drive 1 (CopyEvent.started 2 "/b" :: t.sent ++ [.progress 2 7]) =
        (t.sent.map CopyCall.ofEvent, after) := by
  intro fs task
  have hrun : ∃ t, (fresh fs).run? task [.go 0, .go 0, .go 0, .go 0, .go 2, .go 0, .go 0, .go 0,
        .go 8192, .go 0, .go 0, .go 0, .go 0, .go 0] = some t ∧ t.stage = .ended ∧
      t.sent.getLast? = some (.finished 1 "/work/a" true "a") ∧
      (CopyEvent.started 2 "/b" :: t.sent ++ [CopyEvent.progress 2 7]).filter (·.id = 1) =
        t.sent := by
    dsimp only [fs, task]
    exact ⟨_, rfl, rfl, rfl, rfl⟩
  obtain ⟨t, hrun, hended, hlast, hfilter⟩ := hrun
  have hnames : CopyTask.names ⟨1, "/work/in/a", "/work"⟩ = .ok ("/work/in/a", "a") := rfl
  have hopened : Opened task fs "a" "/work/a" ["work", "in", "a"] (.file [7, 8, 9]) :=
    ⟨⟨"/work/in/a", hnames, rfl⟩, by decide⟩
  obtain ⟨-, -, hstream⟩ := event_stream_protocol hrun
  obtain ⟨percents, last, hstream, -, hfull, -, hdrive⟩ := hstream hended
  rw [hstream.events, List.getLast?_concat] at hlast
  obtain ⟨before, after, -, hcalls⟩ := hdrive _ hfilter
  refine ⟨t, hrun, hended, ⟨percents, last, hstream, ?_⟩, after, hcalls⟩
  exact hfull _ _ _ _ ["work", "a"] (Option.some.inj hlast) hopened rfl (by decide) (by decide)
    (by decide)

end CopyThread

end LayoutEngine
