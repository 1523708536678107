import LayoutEngine.Proofs.Thread

/-!
# Cancelled copies

The flag may be set between any two steps of a copy. From then on a chunk that has been read, or is
about to be, may still be written, but the next look ends the copy (`Lags`, `Halted`). So what a
cancelled copy leaves are the first bytes of its source, as many as it tells, and at most a chunk
more than when the flag was set (`cancelled_copy_is_prefix`).
-/

namespace LayoutEngine

open Copy

/-- The copy has looked at the flag and goes by what it saw. -/
def Copy.Stage.isBusy : Stage → Bool
  | .reading _ | .writing _ _ => true
  | _ => false

namespace CopyThread

section

variable {task : CopyTask} {fs : FileSystem} {refused : Prop} {t t' later : CopyThread}
  {turn : Turn} {turns more : List Turn} {writes : List (List UInt8)}

/-- The flag is set, and the thread will look at it before it writes anything else. -/
structure Halted (writes : List (List UInt8)) (t : CopyThread) : Prop where
  stopped : t.stopped = true
  idle : t.stage.isBusy = false
  writes : t.writes = writes

/-- What has been halted stays so, turn after turn. -/
theorem Halted.moves (h : Moves task t turn t') (hs : Halted writes t) : Halted writes t' := by
  have hidle := hs.idle
  cases h with
  | cancel => exact ⟨rfl, hs.idle, hs.writes⟩
  | start | unnamed | missing | opened | refusedOpen | unwritable | created | refusedCreate | stop
  | tell | finish => exact ⟨hs.stopped, rfl, hs.writes⟩
  | look hstage hgo => exact absurd hs.stopped (Bool.eq_false_iff.1 hgo)
  | unreadable hstage | done hstage | read hstage | interrupted hstage | refusedRead hstage
  | write hstage | writeNew hstage | refusedWrite hstage =>
    rw [hstage] at hidle
    cases hidle

/-- The flag is set, and since then a chunk has been written or nothing has. -/
def Lags (writes : List (List UInt8)) (t : CopyThread) : Prop :=
  (t.stopped = true ∧ t.writes = writes) ∨
    ∃ chunk, chunk.length ≤ chunkLimit ∧ Halted (writes ++ [chunk]) t

/-- What is about to be written is no more than one chunk. -/
theorem Sound.length_chunk_le {job : Job} {chunk : List UInt8} (hs : Sound task fs refused t)
    (hstage : t.stage = .writing job chunk) : chunk.length ≤ chunkLimit := by
  obtain ⟨bytes, percents, -, -, -, -, hlimit⟩ := hs.of_writing hstage
  exact hlimit

/-- Until the flag is looked at again, at most one more chunk is written, turn after turn. -/
theorem Lags.moves (h : Moves task t turn t') (hs : Sound task fs refused t)
    (hlags : Lags writes t) : Lags writes t' := by
  rcases hlags with ⟨hstop, rfl⟩ | ⟨chunk, hlimit, hhalted⟩
  · cases h with
    | cancel => exact .inl ⟨rfl, rfl⟩
    | start | unnamed | missing | opened | refusedOpen | unwritable | created | refusedCreate | stop
    | look | unreadable | done | read | interrupted | refusedRead | tell | finish =>
      exact .inl ⟨hstop, rfl⟩
    | write hstage | writeNew hstage =>
      -- the chunk that was on its way; from here on the copy looks before it writes
      exact .inr ⟨_, hs.length_chunk_le hstage, hstop, rfl, rfl⟩
    | refusedWrite hstage =>
      have hlimit := hs.length_chunk_le hstage
      exact .inr ⟨_, Nat.le_trans (List.length_take_le' _ _) hlimit, hstop, rfl, rfl⟩
  · exact .inr ⟨chunk, hlimit, hhalted.moves h⟩

/-- Nothing is read or written before the first look. -/
theorem unlooked_of_run? (h : (fresh fs).run? task turns = some t) :
    t.looks = 0 → t.writes = [] ∧ t.stage.isBusy = false := by
  refine run?_induction (p := fun t => t.looks = 0 → t.writes = [] ∧ t.stage.isBusy = false) ?_ h
    fun _ => ⟨rfl, rfl⟩
  intro turn _ t t' hmoves hs hlooks
  cases hmoves with
  | cancel => exact hs hlooks
  | start | unnamed | missing | opened | refusedOpen | unwritable | created | refusedCreate | tell
  | finish => exact ⟨(hs hlooks).1, rfl⟩
  | stop | look => cases hlooks
  | unreadable hstage | done hstage | read hstage | interrupted hstage | refusedRead hstage
  | write hstage | writeNew hstage | refusedWrite hstage =>
    have hidle := (hs hlooks).2
    rw [hstage] at hidle
    cases hidle

/-- A flag that has been set is set. -/
theorem stopped_of_mem (h : t.run? task turns = some t') (hmem : .cancel ∈ turns) :
    t'.stopped = true := by
  induction turns generalizing t with
  | nil => exact absurd hmem List.not_mem_nil
  | cons turn rest ih =>
    obtain ⟨next, hstep, hrest⟩ := Option.bind_eq_some_iff.1 h
    rcases List.mem_cons.1 hmem with rfl | hmem
    · cases hstep
      refine run?_induction (p := fun t => t.stopped = true) ?_ hrest rfl
      intro turn _ t t' hmoves hstop
      cases hmoves <;> first | rfl | exact hstop
    · exact ih hrest hmem

/-- Between two different files, what has been written are first bytes of the source, and the
destination holds just them. -/
theorem Working.get?_place {job : Job} {node : FileNode} (h : Working task fs job node t)
    (hapart : job.place ≠ job.origin) :
    t.written.length ≤ node.bytes.length ∧
      t.files.get? job.place = some (.file (node.bytes.take t.written.length)) := by
  have hfirst := h.written
  rw [Job.contents, if_neg hapart] at hfirst
  rw [h.files, FileSystem.get?_put_self h.place_ne_nil, ← List.prefix_iff_eq_take.1 hfirst]
  exact ⟨hfirst.length_le, rfl⟩

/-- After the flag has been set at most one more chunk is written. -/
theorem writes_of_cancel (hrun : (fresh fs).run? task turns = some t)
    (hmore : t.run? task more = some later) (hcancel : .cancel ∈ turns) :
    later.writes = t.writes ∨
      ∃ chunk, chunk.length ≤ chunkLimit ∧ later.writes = t.writes ++ [chunk] := by
  have hsound : Sound task fs True t := sound_of_run? (fun _ _ _ => trivial) hrun
  obtain ⟨-, hlags⟩ := run?_induction
    (p := fun later => Sound task fs True later ∧ Lags t.writes later)
    (fun turn _ t t' hmoves hs => ⟨hs.1.moves (fun _ => trivial) hmoves, hs.2.moves hmoves hs.1⟩)
    hmore ⟨hsound, .inl ⟨stopped_of_mem hrun hcancel, rfl⟩⟩
  rcases hlags with ⟨-, hsame⟩ | ⟨chunk, hlimit, hhalted⟩
  · exact .inl hsame
  · exact .inr ⟨chunk, hlimit, hhalted.writes⟩

/-- Where the flag has been set before the first look, nothing is ever written. -/
theorem writes_of_cancel_unlooked (hrun : (fresh fs).run? task turns = some t)
    (hmore : t.run? task more = some later) (hcancel : .cancel ∈ turns) (hlooks : t.looks = 0) :
    later.writes = [] := by
  obtain ⟨hnone, hidle⟩ := unlooked_of_run? hrun hlooks
  have hhalted : Halted [] t := ⟨stopped_of_mem hrun hcancel, hidle, hnone⟩
  exact (run?_induction (fun _ _ _ _ hmoves hs => hs.moves hmoves) hmore hhalted).writes

/-- **A cancelled copy is a prefix.** However the turns come, a destination that has been made holds
what has been written. Where a copy tells that it was cancelled after so many bytes, this is its
last event and nothing comes after it, and between two different files the destination holds just
so many first bytes of the source; where it tells that it succeeded the destination holds all of
them. Once the flag is set at most one more chunk is written, and none if the copy has not looked
at it yet. -/
theorem cancelled_copy_is_prefix (hrun : (fresh fs).run? task turns = some t)
    (hmore : t.run? task more = some later) :
    (∀ place, t.made = some place → t.files.get? place = some (.file t.written)) ∧
    (∀ path count, .cancelled task.id path count ∈ t.sent →
      t.sent.getLast? = some (.cancelled task.id path count) ∧
      later.sent = t.sent ∧ later.files = t.files ∧
      ∃ name origin node place, Opened task fs name path origin node ∧
        fs.writable path = .ok place ∧
        (place ≠ origin → ∃ n ≤ node.bytes.length,
          t.files.get? place = some (.file (node.bytes.take n)) ∧ count = UInt64.ofNat n ∧
          (node.bytes.length < UInt64.size → n = count.toNat))) ∧
    (∀ path name, .finished task.id path true name ∈ t.sent →
      ∃ origin bytes place, Opened task fs name path origin (.file bytes) ∧
        fs.writable path = .ok place ∧
        (place ≠ origin → t.files.get? place = some (.file bytes))) ∧
    (.cancel ∈ turns →
      (later.writes = t.writes ∨
        ∃ chunk, chunk.length ≤ chunkLimit ∧ later.writes = t.writes ++ [chunk]) ∧
      (t.looks = 0 → later.writes = [] ∧
        ∀ path count, .cancelled task.id path count ∈ later.sent → count = 0)) := by
  have hsound : Sound task fs True t := sound_of_run? (fun _ _ _ => trivial) hrun
  refine ⟨fun place hmade => hsound.get?_made hmade, ?_, ?_, ?_⟩
  · intro path count hmem
    obtain ⟨hended, percents, before, -, hsent, hverdict⟩ := hsound.of_terminal hmem rfl
    obtain ⟨stopped, rfl⟩ := run?_of_ended hmore hended
    refine ⟨by rw [hsent, List.getLast?_concat], rfl, rfl, ?_⟩
    cases hverdict with
    | @cancelled job node _ hwork =>
      refine ⟨job.name, job.origin, node, job.place, hwork.opened, hwork.place, fun hapart => ?_⟩
      obtain ⟨hlength, hholds⟩ := hwork.get?_place hapart
      refine ⟨_, hlength, hholds, rfl, fun hfit => ?_⟩
      exact (UInt64.toNat_ofNat_of_lt' (Nat.lt_of_le_of_lt hlength hfit)).symm
  · intro path name hmem
    obtain ⟨hended, percents, before, -, hsent, hverdict⟩ := hsound.of_terminal hmem rfl
    cases hverdict with
    | @copied job bytes _ hwork hlast hall =>
      refine ⟨job.origin, bytes, job.place, hwork.opened, hwork.place, fun hapart => ?_⟩
      have hholds := (hwork.get?_place hapart).2
      rw [hall, Job.contents, if_neg hapart] at hholds
      rw [hholds, List.take_length]
      rfl
  · intro hcancel
    refine ⟨writes_of_cancel hrun hmore hcancel, fun hlooks => ?_⟩
    have hnone := writes_of_cancel_unlooked hrun hmore hcancel hlooks
    refine ⟨hnone, fun path count hmem => ?_⟩
    have hsound : Sound task fs True later :=
      sound_of_run? (fun _ _ _ => trivial) (run?_append hrun ▸ hmore)
    obtain ⟨-, percents, before, -, -, hverdict⟩ := hsound.of_terminal hmem rfl
    cases hverdict with
    | cancelled hwork hlast => rw [written, hnone]; rfl

/-- A copy of three bytes that has read one of them when the flag is set: it writes this one still,
and ends with just the first byte in the destination. -/
theorem cancelled_copy_holds_first_byte :
    let fs := FileSystem.empty.addFile ["work", "in", "a"] [7, 8, 9]
    let task : CopyTask := ⟨1, "/work/in/a", "/work"⟩
    ∃ t later, (fresh fs).run? task [.go 0, .go 0, .go 0, .go 0, .go 1, .cancel] = some t ∧
      t.run? task [.go 0, .go 0, .go 0, .go 0] = some later ∧
      later.sent.getLast? = some (.cancelled 1 "/work/a" 1) ∧
      (∃ chunk, chunk.length ≤ chunkLimit ∧ later.writes = t.writes ++ [chunk]) ∧
      later.files.get? ["work", "a"] = some (.file [7]) := by
  intro fs task
  have hrun : ∃ t, (fresh fs).run? task [.go 0, .go 0, .go 0, .go 0, .go 1, .cancel] = some t ∧
      ∃ later, t.run? task [.go 0, .go 0, .go 0, .go 0] = some later ∧
        .cancelled 1 "/work/a" 1 ∈ later.sent ∧ later.made = some ["work", "a"] ∧
        t.writes = [] ∧ later.writes = [[7]] := by
    dsimp only [fs, task]
    exact ⟨_, rfl, _, rfl, by decide⟩
  obtain ⟨t, hrun, later, hmore, hmem, hmade, hbefore, hafter⟩ := hrun
  have hall := (run?_append hrun).trans hmore
  obtain ⟨-, -, -, hflag⟩ := cancelled_copy_is_prefix hrun hmore
  have hstays : later.run? task [] = some later := rfl
  obtain ⟨hplace, hcancelled, -, -⟩ := cancelled_copy_is_prefix hall hstays
  refine ⟨t, later, hrun, hmore, (hcancelled _ _ hmem).1, ?_, ?_⟩
  · rcases (hflag (by decide)).1 with hnone | hchunk
    · rw [hbefore, hafter] at hnone
      cases hnone
    · exact hchunk
  · rw [hplace _ hmade, written, hafter]
    rfl

end

end CopyThread

end LayoutEngine
