/-
# RollingRaft.Storage.SyncCoverage — which records a successful `Sync` has made durable.

A record is covered once an `fdatasync` of its segment follows the write of its bytes. `Sync` flushes
the buffer and syncs the active segment; a rotation flushes the old segment and closes it without a
sync, and no later call syncs it. So the records of a segment are covered when nothing is left
unsynced at the moment the segment is rotated out; the other way to lose one is a `Close` whose flush
fails, which drops the buffer.

The invariant `Tracked` follows each record from the buffer through the write to the sync. It also
says that the active segment is the last file of the directory, which is why a record written before
`Close` is still covered by a `Sync` after the next `Open`.
-/
import RollingRaft.Storage.SegmentIds
import RollingRaft.Storage.WireCodec

namespace RollingRaft

open Lib DenseIndex

/-! ## §1 — Covered records. -/

/-- The bytes of the record were written at its place. -/
def Placed.Written (r : Placed) (calls : List FsCall) : Prop :=
  ∃ offset data, FsCall.write r.segmentId offset data ∈ calls ∧ offset ≤ r.offset ∧
    r.bytes <+: data.drop (r.offset - offset)

/-- A sync of the record's segment that succeeded came after the record was written. -/
def Placed.Covered (r : Placed) (calls : List FsCall) : Prop :=
  ∃ before after, calls = before ++ FsCall.fdatasync r.segmentId true :: after ∧ r.Written before

/-- Every write to the segment was followed by a sync of it. -/
def NothingUnsynced (segmentId : Nat) (calls : List FsCall) : Prop :=
  ∀ before offset data after, calls = before ++ FsCall.write segmentId offset data :: after →
    FsCall.fdatasync segmentId true ∈ after

variable {r : Placed} {calls : List FsCall}

theorem Placed.Written.append (h : r.Written calls) (more : List FsCall) :
    r.Written (calls ++ more) := by
  obtain ⟨offset, data, hmem, hrest⟩ := h
  exact ⟨offset, data, List.mem_append_left more hmem, hrest⟩

theorem Placed.Covered.append (h : r.Covered calls) (more : List FsCall) :
    r.Covered (calls ++ more) := by
  obtain ⟨before, after, rfl, hwritten⟩ := h
  refine ⟨before, after ++ more, ?_, hwritten⟩
  rw [List.append_assoc, List.cons_append]

theorem Placed.Written.covered (h : r.Written calls) (hsynced : NothingUnsynced r.segmentId calls) :
    r.Covered calls := by
  obtain ⟨offset, data, hmem, hplace⟩ := h
  obtain ⟨before, after, rfl⟩ := List.append_of_mem hmem
  obtain ⟨mid, last, rfl⟩ := List.append_of_mem (hsynced before offset data after rfl)
  refine ⟨before ++ FsCall.write r.segmentId offset data :: mid, last, ?_, ?_⟩
  · rw [List.append_assoc, List.cons_append]
  · exact ⟨offset, data, List.mem_append_right before List.mem_cons_self, hplace⟩

namespace WalPersister

variable {codec : WalCodec} {w w' w'' : WalPersister} {r : Placed} {status : StoreStatus}

/-- The record is in the write buffer, at the place it will be written to. -/
def InBuffer (w : WalPersister) (r : Placed) : Prop :=
  r.bytes ≠ [] ∧ ∃ front back, w.writeBuf = front ++ r.bytes ++ back ∧
    r.offset = w.active.endOffset + front.length

/-- Where a record of the log can be: covered, or in the active segment and written or buffered. -/
def Kept (w : WalPersister) (r : Placed) : Prop :=
  r.Covered w.calls ∨ r.segmentId = w.active.id ∧ (r.Written w.calls ∨ w.InBuffer r)

theorem not_inBuffer (h : w.writeBuf = []) : ¬ w.InBuffer r := by
  rintro ⟨hne, front, back, hbuf, -⟩
  rw [h] at hbuf
  have hnil := List.append_eq_nil_iff.mp hbuf.symm
  exact hne (List.append_eq_nil_iff.mp hnil.1).2

/-- Writing the buffer writes the records in it. -/
theorem written_of_inBuffer (h : w.InBuffer r) (hid : r.segmentId = w.active.id) :
    r.Written (w.calls ++ [.write w.active.id w.active.endOffset w.writeBuf]) := by
  obtain ⟨-, front, back, hbuf, hoffset⟩ := h
  refine ⟨w.active.endOffset, w.writeBuf, ?_, by omega, ?_⟩
  · rw [hid]
    exact List.mem_append_right _ List.mem_cons_self
  · rw [hbuf, hoffset, Nat.add_sub_cancel_left, List.append_assoc, List.drop_left]
    exact List.prefix_append _ _

/-! ## §2 — The invariant of an open log. -/

/-- Every record is covered, written or buffered, and what is left to sync is in the last file. -/
structure Tracked (w : WalPersister) : Prop where
  opened : w.opened = true
  last : LastId w.dir.segments w.active.id
  kept : ∀ r ∈ w.appended, w.Kept r
  /-- A log without an open segment failed to create its next one. -/
  idle : w.active.fd = false → w.writeBuf = [] ∧ w.needsRotation = true
  index : w.index.UpTo w.active.id
  checkpoints : ∀ c ∈ w.dir.checkpoints, ∀ loaded, decodeCheckpoint c.2 = .ok loaded →
    loaded.1.UpTo w.active.id

/-- A record stays where it is or moves on when calls are added. -/
theorem Kept.step (h : w.Kept r) (hid : w'.active.id = w.active.id) {more : List FsCall}
    (hcalls : w'.calls = w.calls ++ more)
    (hbuffer : r.segmentId = w.active.id → w.InBuffer r → r.Written w'.calls ∨ w'.InBuffer r) :
    w'.Kept r := by
  rcases h with hcovered | ⟨hseg, hwritten | hin⟩
  · exact .inl (hcalls ▸ hcovered.append more)
  · exact .inr ⟨hid ▸ hseg, .inl (hcalls ▸ hwritten.append more)⟩
  · exact .inr ⟨hid ▸ hseg, hbuffer hseg hin⟩

/-- What a flush changes beside the files: nothing that names a record, and a flush that succeeds
leaves no buffer. -/
theorem Flushed.frame (h : Flushed w status w') :
    w'.active.id = w.active.id ∧ w'.active.fd = w.active.fd ∧
      w'.active.entryCount = w.active.entryCount ∧ w'.index = w.index ∧
      w'.appended = w.appended ∧ w'.dir.checkpoints = w.dir.checkpoints ∧ w'.opened = w.opened ∧
      (status = .ok → w'.writeBuf = []) := by
  cases h with
  | empty h => exact ⟨rfl, rfl, rfl, rfl, rfl, rfl, rfl, fun _ => h⟩
  | noSegment | recordsFail | trailerFails =>
    exact ⟨rfl, rfl, rfl, rfl, rfl, rfl, rfl, StoreStatus.noConfusion⟩
  | written => exact ⟨rfl, rfl, rfl, rfl, rfl, rfl, rfl, fun _ => rfl⟩

theorem Kept.written (h : w.Kept r) (part : Bytes) :
    ((w.writeSegment w.active.id w.active.endOffset w.writeBuf).bufferWritten.writeSegment
      w.active.id (w.active.endOffset + w.writeBuf.length) part).Kept r := by
  refine h.step rfl (List.append_assoc _ _ _) fun hseg hin => .inl ?_
  exact (written_of_inBuffer hin hseg).append _

theorem Kept.flushed (h : w.Kept r) (hf : Flushed w status w') : w'.Kept r := by
  cases hf with
  | empty | noSegment => exact h
  | recordsFail => exact h.step rfl rfl fun _ hin => .inr hin
  | trailerFails | written => exact h.written _

theorem LastId.flushed (h : LastId w.dir.segments w.active.id) (hf : Flushed w status w') :
    LastId w'.dir.segments w.active.id := by
  cases hf with
  | empty | noSegment => exact h
  | recordsFail => exact h.upsert _
  | trailerFails | written => exact (h.upsert _).upsert _

theorem Tracked.flushed (h : Tracked w) (hf : Flushed w status w') : Tracked w' := by
  obtain ⟨hid, hfd, hcount, hindex, happended, hcheckpoints, hopened, -⟩ := hf.frame
  refine ⟨hopened ▸ h.opened, hid ▸ LastId.flushed h.last hf, ?_, ?_, ?_, ?_⟩
  · intro r hr
    exact (h.kept r (happended ▸ hr)).flushed hf
  · intro hclosed
    -- without an open segment the buffer is empty, and the flush did nothing
    have hidle := h.idle (hfd ▸ hclosed)
    cases hf with
    | empty => exact hidle
    | noSegment hne | recordsFail _ hne | trailerFails _ hne | written hne =>
      exact absurd hidle.1 hne
  · rw [hindex, hid]
    exact h.index
  · rw [hcheckpoints, hid]
    exact h.checkpoints

theorem Flushed.eq_of_nil (hf : Flushed w status w') (hbuf : w.writeBuf = []) :
    status = .ok ∧ w' = w := by
  cases hf with
  | empty => exact ⟨rfl, rfl⟩
  | noSegment hne | recordsFail _ hne | trailerFails _ hne | written hne => exact absurd hbuf hne

theorem Tracked.segmentCreated (h : Tracked w) (hbuf : w.writeBuf = [])
    (hsynced : NothingUnsynced w.active.id w.calls) :
    Tracked (w.segmentCreated (w.active.id + 1)) := by
  refine ⟨h.opened, h.last.create _, ?_, Bool.noConfusion, h.index.mono (Nat.le_succ _), ?_⟩
  · intro r hr
    -- every record is covered now: none is in the buffer, and the written ones were synced
    rcases h.kept r hr with hcovered | ⟨hseg, hwritten | hin⟩
    · exact .inl hcovered
    · exact .inl (hwritten.covered (hseg ▸ hsynced))
    · exact absurd hin (not_inBuffer hbuf)
  · intro c hc loaded hload
    exact (h.checkpoints c hc loaded hload).mono (Nat.le_succ _)

/-- A rotation with nothing left unsynced keeps the invariant, and leaves an open segment when it
succeeds. -/
theorem Tracked.rotated (h : Tracked w)
    (hc : w.needsRotation = true → w.writeBuf = [] ∧ NothingUnsynced w.active.id w.calls)
    (hr : Rotated codec w status w') : Tracked w' ∧ (status = .ok → w'.active.fd = true) := by
  cases hr with
  | stays hneeds =>
    refine ⟨h, fun _ => ?_⟩
    by_contra hfd
    have hidle := h.idle (Bool.eq_false_iff.mpr hfd)
    exact Bool.false_ne_true (hneeds.symm.trans hidle.2)
  | flushFails hneeds hstatus hf => exact absurd (hf.eq_of_nil (hc hneeds).1).1 hstatus
  | creates hneeds hf hcreated =>
    obtain ⟨hbuf, hsynced⟩ := hc hneeds
    rw [(hf.eq_of_nil hbuf).2] at hcreated
    have hclosed : Tracked { w with active.fd := false } :=
      ⟨h.opened, h.last, h.kept, fun _ => ⟨hbuf, hneeds⟩, h.index, h.checkpoints⟩
    have hnew := hclosed.segmentCreated hbuf hsynced
    cases hcreated with
    | openFails => exact ⟨hclosed, StoreStatus.noConfusion⟩
    | headerFails =>
      refine ⟨?_, StoreStatus.noConfusion⟩
      exact { hclosed with last := h.last.unlink.symm ▸ h.last }
    | metaFails => exact ⟨hnew, StoreStatus.noConfusion⟩
    | done =>
      exact ⟨⟨hnew.opened, hnew.last, hnew.kept, hnew.idle, hnew.index, hnew.checkpoints⟩, fun _ => rfl⟩

theorem Tracked.pushed (h : Tracked w) (hfd : w.active.fd = true) (rec : WALRecord) :
    Tracked (w.pushRecord rec) := by
  refine ⟨h.opened, h.last, ?_, ?_, h.index, h.checkpoints⟩
  · intro r hr
    rcases List.mem_append.mp hr with hr | hr
    · rcases h.kept r hr with hcovered | ⟨hseg, hwritten | ⟨hne, front, back, hbuf, hoffset⟩⟩
      · exact .inl hcovered
      · exact .inr ⟨hseg, .inl hwritten⟩
      · refine .inr ⟨hseg, .inr ⟨hne, front, back ++ encodeRecord rec, ?_, hoffset⟩⟩
        show w.writeBuf ++ encodeRecord rec = _
        rw [hbuf, List.append_assoc (front ++ r.bytes)]
    · rw [List.mem_singleton.mp hr]
      refine .inr ⟨rfl, .inr ⟨?_, w.writeBuf, [], ?_, rfl⟩⟩
      · exact List.ne_nil_of_length_pos (by rw [length_encodeRecord]; omega)
      · rw [List.append_nil]
        rfl
  · intro hclosed
    exact absurd (hclosed.symm.trans hfd) Bool.false_ne_true

theorem Tracked.recordAppended {rec : WALRecord} {done : Nat → WalPersister → WalPersister}
    (h : Tracked w)
    (hc : w.needsRotation = true → w.writeBuf = [] ∧ NothingUnsynced w.active.id w.calls)
    (hdone : ∀ offset w, Tracked w → w.active.fd = true → Tracked (done offset w))
    (hr : RecordAppended codec w rec done status w') : Tracked w' := by
  cases hr with
  | rotationFails _ hrot | tooLarge hrot => exact (h.rotated hc hrot).1
  | flushFails hrot _ _ hf =>
    obtain ⟨hrotated, hfd⟩ := h.rotated hc hrot
    exact (hrotated.pushed (hfd rfl) rec).flushed hf
  | flushes hrot _ hf =>
    obtain ⟨hrotated, hfd⟩ := h.rotated hc hrot
    refine hdone _ _ ((hrotated.pushed (hfd rfl) rec).flushed hf) ?_
    exact hf.frame.2.1.trans (hfd rfl)
  | buffers hrot =>
    obtain ⟨hrotated, hfd⟩ := h.rotated hc hrot
    exact hdone _ _ (hrotated.pushed (hfd rfl) rec) (hfd rfl)

/-! ## §3 — The other calls. -/

theorem Tracked.saveCheckpoint (h : Tracked w) (ok : Bool) : Tracked (w.saveCheckpoint ok) := by
  unfold WalPersister.saveCheckpoint
  split
  · exact h
  refine ⟨h.opened, h.last, h.kept, h.idle, h.index, ?_⟩
  intro c hc loaded hload
  rcases FileTable.mem_upsert hc with rfl | hc
  · exact upTo_decodeCheckpoint h.index hload
  · exact h.checkpoints c hc loaded hload

theorem Tracked.checkpointIfDue (h : Tracked w) (ok : Bool) : Tracked (w.checkpointIfDue ok) := by
  unfold WalPersister.checkpointIfDue
  split
  · exact h.saveCheckpoint ok
  · exact h

variable {io : IoOutcomes} {e : Event}

theorem Tracked.covered_of_sync (h : Tracked w) (hok : (w.sync io).1 = .ok) :
    ∀ r ∈ w.appended, r.Covered (w.sync io).2.calls := by
  have hflush := WalPersister.flushed w io.flush
  unfold sync syncActiveSegment at hok ⊢
  generalize w.flushWriteBuffer io.flush = result at hflush hok ⊢
  obtain ⟨status, w'⟩ := result
  cases status with
  | corruption | error => cases hok
  | ok =>
    dsimp only at hflush hok ⊢
    obtain ⟨hid, -, -, -, happended, -, -, hbuf⟩ := hflush.frame
    have hkept := (h.flushed hflush).kept
    by_cases hfd : w'.active.fd = false
    · rw [if_pos hfd] at hok
      cases hok
    rw [if_neg hfd] at hok ⊢
    cases hsync : io.fdatasync with
    | false =>
      simp only [hsync] at hok
      cases hok
    | true =>
      obtain ⟨checkpoints, hsame⟩ := sameButCheckpoints_checkpointIfDue
        { w' with calls := w'.calls ++ [.fdatasync w'.active.id true] } io.checkpoint
      simp only [if_true]
      rw [hsame]
      show ∀ r ∈ w.appended, r.Covered (w'.calls ++ [.fdatasync w'.active.id true])
      intro r hr
      rcases hkept r (happended ▸ hr) with hcovered | ⟨hseg, hwritten | hin⟩
      · exact hcovered.append _
      · exact ⟨w'.calls, [], by rw [hseg], hwritten⟩
      · exact absurd hin (not_inBuffer (hbuf rfl))

theorem Tracked.synced (h : Tracked w) (io : IoOutcomes) : Tracked (w.sync io).2 := by
  have hflush := WalPersister.flushed w io.flush
  unfold sync syncActiveSegment
  generalize w.flushWriteBuffer io.flush = result at hflush ⊢
  obtain ⟨status, w'⟩ := result
  have hw' : Tracked w' := h.flushed hflush
  have hcalls : Tracked { w' with calls := w'.calls ++ [.fdatasync w'.active.id io.fdatasync] } := by
    refine ⟨hw'.opened, hw'.last, ?_, hw'.idle, hw'.index, hw'.checkpoints⟩
    exact fun r hr => (hw'.kept r hr).step rfl rfl fun _ hin => .inr hin
  cases status with
  | corruption | error => exact hw'
  | ok =>
    dsimp only
    by_cases hfd : w'.active.fd = false
    · rw [if_pos hfd]
      exact hw'
    rw [if_neg hfd]
    cases hsync : io.fdatasync with
    | false =>
      rw [hsync] at hcalls
      exact hcalls
    | true =>
      rw [hsync] at hcalls
      exact hcalls.checkpointIfDue io.checkpoint

theorem firstSegmentToKeep_le (h : w.index.UpTo w.active.id) (beforeIndex : Nat) :
    w.firstSegmentToKeep beforeIndex ≤ w.active.id := by
  unfold firstSegmentToKeep
  dsimp only
  split
  · exact Nat.le_refl _
  rename_i id ids hids
  have hle : id ≤ w.active.id := by
    have hmem : id ∈ id :: ids := List.mem_cons_self
    rw [← hids] at hmem
    obtain ⟨p, hp, rfl⟩ := List.mem_map.mp hmem
    have hp := List.mem_of_mem_filter hp
    exact h _ (List.fst_mem_of_mem_zipIdx hp)
  have hfold : ∀ (l : List Nat) (n : Nat), l.foldl min n ≤ n := by
    intro l
    induction l with
    | nil => exact fun n => Nat.le_refl n
    | cons a l ih => exact fun n => Nat.le_trans (ih (min n a)) (Nat.min_le_left n a)
  exact Nat.le_trans (hfold ids id) hle

theorem Tracked.removeOldCheckpoints (h : Tracked w) (firstRetained : Nat) :
    Tracked (w.removeOldCheckpoints firstRetained) :=
  ⟨h.opened, h.last, h.kept, h.idle, h.index,
    fun c hc => h.checkpoints c (List.mem_of_mem_filter hc)⟩

theorem Tracked.garbageCollected (h : Tracked w) (beforeIndex : Nat) (io : IoOutcomes) :
    Tracked (w.garbageCollect beforeIndex io) := by
  have hkeep := firstSegmentToKeep_le h.index beforeIndex
  unfold garbageCollect
  generalize w.firstSegmentToKeep beforeIndex = keep at hkeep ⊢
  have hindex : (w.keptIndex keep).UpTo w.active.id := by
    unfold keptIndex
    split
    · exact h.index.apply (e := .truncatePrefix _) nofun
    · exact upTo_clear
  have hrest : Tracked (w.segmentsDeleted keep) :=
    ⟨h.opened, h.last.filter hkeep, h.kept, h.idle, hindex, h.checkpoints⟩
  dsimp only
  split
  · exact hrest.removeOldCheckpoints _
  · exact (hrest.saveCheckpoint io.checkpoint).removeOldCheckpoints _

/-! ## §4 — Closed logs. -/

/-- A log that is closed: what is not covered is written to the last file. -/
structure Settled (w : WalPersister) : Prop where
  closed : w.opened = false
  blank : w.active = {} ∧ w.index = {} ∧ w.writeBuf = []
  files : w.dir.segments = [] ∧ w.dir.checkpoints = [] ∧ w.appended = [] ∨
    ∃ id, LastId w.dir.segments id ∧
      (∀ r ∈ w.appended, r.Covered w.calls ∨ r.segmentId = id ∧ r.Written w.calls) ∧
      ∀ c ∈ w.dir.checkpoints, ∀ loaded, decodeCheckpoint c.2 = .ok loaded → loaded.1.UpTo id

theorem Tracked.settled (h : Tracked w) (hbuf : w.writeBuf = []) : Settled w.closed := by
  refine ⟨rfl, ⟨rfl, rfl, rfl⟩, .inr ⟨w.active.id, h.last, ?_, h.checkpoints⟩⟩
  intro r hr
  rcases h.kept r hr with hcovered | ⟨hseg, hwritten | hin⟩
  · exact .inl hcovered
  · exact .inr ⟨hseg, hwritten⟩
  · exact absurd hin (not_inBuffer hbuf)

theorem Tracked.closed (h : Tracked w) (hc : w.writeBuf = [] ∨ io.flush = .ok) :
    Settled (w.close io) := by
  unfold close
  have hflush := WalPersister.flushed w io.flush
  cases hfd : w.active.fd with
  | false => exact h.settled (h.idle hfd).1
  | true =>
    have hbuf : (w.flushWriteBuffer io.flush).2.writeBuf = [] := by
      rcases hc with hempty | hok
      · rw [(hflush.eq_of_nil hempty).2]
        exact hempty
      · have hstatus : (w.flushWriteBuffer io.flush).1 = .ok := by
          unfold flushWriteBuffer
          split
          · rfl
          rw [hfd, hok]
          rfl
        exact hflush.frame.2.2.2.2.2.2.2 hstatus
    have htracked := (h.flushed hflush).checkpointIfDue io.checkpoint
    refine htracked.settled ?_
    obtain ⟨checkpoints, hsame⟩ :=
      sameButCheckpoints_checkpointIfDue (w.flushWriteBuffer io.flush).2 io.checkpoint
    rw [hsame]
    exact hbuf

theorem upTo_startingPoint {dir : WalDir} {last : Nat}
    (h : ∀ c ∈ dir.checkpoints, ∀ loaded, decodeCheckpoint c.2 = .ok loaded → loaded.1.UpTo last) :
    (startingPoint dir).1.UpTo last := by
  rcases startingPoint_cases dir with hnone | ⟨c, hc, hload⟩
  · rw [hnone]
    exact upTo_clear
  · exact h c hc _ hload

/-- `Open` of a closed log: an open one, or a closed one with the same file names. -/
theorem Settled.opened (h : Settled w) (create : CreateOutcome) :
    Tracked (w.openWal codec create).2 ∨ Settled (w.openWal codec create).2 := by
  obtain ⟨hactive, hindex, hbuf⟩ := h.blank
  unfold openWal
  split
  case h_2 => exact .inr h
  case h_1 =>
    rcases h.files with ⟨hnone, hcheckpoints, happended⟩ | ⟨id, hlast, hrecords, hcheckpoints⟩
    · rw [if_pos hnone]
      have hrecords : ∀ r ∈ w.appended, False := fun r hr => by
        rw [happended] at hr
        exact absurd hr List.not_mem_nil
      have hfirst : LastId (w.segmentCreated 1).dir.segments 1 := by
        refine ⟨[], segmentHeader 1 kFormatVersionProtobuf, ?_, fun f hf => absurd hf List.not_mem_nil⟩
        simp [segmentCreated, hnone, FileTable.upsert]
      have hnoCheckpoint : ∀ c ∈ w.dir.checkpoints, ∀ loaded,
          decodeCheckpoint c.2 = .ok loaded → loaded.1.UpTo 1 := fun c hc => by
        rw [hcheckpoints] at hc
        exact absurd hc List.not_mem_nil
      have hcreated := created codec w 1 create
      generalize w.createSegment codec 1 create = result at hcreated
      obtain ⟨status, w'⟩ := result
      cases hcreated with
      | openFails =>
        exact .inr ⟨rfl, ⟨rfl, rfl, rfl⟩, .inl ⟨hnone, hcheckpoints, happended⟩⟩
      | headerFails =>
        refine .inr ⟨rfl, ⟨rfl, rfl, rfl⟩, .inl ⟨?_, hcheckpoints, happended⟩⟩
        show FileTable.unlink 1 w.dir.segments = []
        rw [hnone]
        rfl
      | metaFails =>
        refine .inr ⟨rfl, ⟨rfl, rfl, rfl⟩, .inr ⟨1, hfirst, ?_, hnoCheckpoint⟩⟩
        exact fun r hr => (hrecords r hr).elim
      | done =>
        refine .inl ⟨rfl, hfirst, fun r hr => (hrecords r hr).elim, Bool.noConfusion, ?_, hnoCheckpoint⟩
        show w.index.UpTo 1
        rw [hindex]
        exact upTo_clear
    · have hsome : w.dir.segments ≠ [] := by
        obtain ⟨front, file, hsegments, -⟩ := hlast
        rw [hsegments]
        simp
      rw [if_neg hsome]
      have hstart := upTo_startingPoint hcheckpoints
      generalize startingPoint w.dir = start at hstart
      obtain ⟨index, covered⟩ := start
      obtain ⟨hnames, hup⟩ := scanSegments_spec codec w.walDir covered hlast.le hstart
      dsimp only
      generalize scanSegments codec w.walDir covered w.dir.segments index = result at hnames hup
      obtain ⟨status, index', files⟩ := result
      have hfiles : LastId files id := hlast.of_names hnames
      cases status with
      | corruption | error =>
        exact .inr ⟨h.closed, h.blank, .inr ⟨id, hfiles, hrecords, hcheckpoints⟩⟩
      | ok =>
        obtain ⟨file, hfile⟩ := hfiles.getLast?
        dsimp only
        rw [hfile]
        rcases openActive_spec { w with index := index', dir.segments := files } id file with
          ⟨endOffset, entryCount, hopen⟩ | ⟨status, hopen⟩
        · refine .inl ?_
          dsimp only
          rw [hopen]
          refine ⟨rfl, hfiles, ?_, Bool.noConfusion, hup, hcheckpoints⟩
          intro r hr
          rcases hrecords r hr with hcovered | ⟨hseg, hwritten⟩
          · exact .inl hcovered
          · exact .inr ⟨hseg, .inl hwritten⟩
        · refine .inr ?_
          dsimp only
          rw [hopen]
          exact ⟨rfl, ⟨rfl, rfl, rfl⟩, .inr ⟨id, hfiles, hrecords, hcheckpoints⟩⟩

/-! ## §5 — A segment that fills up. -/

def smallEntry : RaftLogEntry := ⟨1, 1, [], [], 0⟩

/-- The first segment, with `n` small records in the buffer and nothing synced. -/
structure Filling (n : Nat) (w : WalPersister) : Prop where
  opened : w.opened = true
  active : w.active = ⟨1, true, kHeaderSize, n⟩
  buffered : w.writeBuf.length = 14 * n
  calls : w.calls = []
  first : 0 < n → ∃ r ∈ w.appended, r.segmentId = 1

theorem serialize_smallEntry : wireCodec.serialize smallEntry.toProto = some [8, 1, 16, 1] := by
  decide +kernel

theorem Filling.stays {n : Nat} (h : Filling n w) (hn : n < kMaxSegmentEntries) :
    w.needsRotation = false := by
  unfold WalPersister.needsRotation
  rw [h.active, h.buffered]
  unfold kMaxSegmentEntries at hn ⊢
  unfold kMaxSegmentSize kHeaderSize
  simp only [Bool.or_eq_false_iff, decide_eq_false_iff_not]
  omega

theorem Filling.append {n : Nat} (h : Filling n w) (hn : n < kMaxSegmentEntries) :
    Filling (n + 1) (w.appendLogEntry wireCodec smallEntry {}).2 := by
  have hstays : rotatedState wireCodec w = w := by
    rw [rotatedState, h.stays hn]
    rfl
  have hpushed : ∀ r : WALRecord, r.payload.length = 4 → w.pushedState r = w.pushRecord r := by
    intro r hr
    unfold pushedState
    rw [if_neg]
    show ¬ kWriteBufferSize ≤ (w.writeBuf ++ encodeRecord r).length
    rw [List.length_append, length_encodeRecord, h.buffered, hr]
    unfold kMaxSegmentEntries at hn
    unfold kWriteBufferSize
    omega
  have hfd : w.active.fd = true := by rw [h.active]
  unfold appendLogEntry
  rw [serialize_smallEntry]
  dsimp only
  rw [appendRecord_ok hfd clean_default, if_neg (by decide), hstays, hpushed _ rfl]
  refine ⟨h.opened, ?_, ?_, h.calls, fun _ => ?_⟩
  · show { w.active with entryCount := w.active.entryCount + 1 } = _
    rw [h.active]
  · show (w.writeBuf ++ encodeRecord ⟨.logEntry, [8, 1, 16, 1]⟩).length = _
    rw [List.length_append, length_encodeRecord, h.buffered]
    show 14 * n + (10 + 4) = _
    omega
  · refine ⟨_, List.mem_append_right _ List.mem_cons_self, ?_⟩
    show w.active.id = 1
    rw [h.active]

theorem next_append (hopen : w.opened = true) (hid : w.active.id = 1) :
    (system wireCodec).next w (.append smallEntry {})
      = some (w.appendLogEntry wireCodec smallEntry {}).2 := by
  have henabled : (w.opened && w.hasNextId) = true := by
    simp [hasNextId, hopen, hid]
  show WalPersister.next wireCodec w (.append smallEntry {}) = _
  unfold WalPersister.next
  rw [if_pos (by decide)]
  dsimp only
  rw [if_pos henabled]

theorem Filling.id {n : Nat} (h : Filling n w) : w.active.id = 1 := by rw [h.active]

theorem exists_filling {C : WalPersister → Event → Prop} (hopen : ∀ w, C w (.open .ok))
    (happend : ∀ n w, n < kMaxSegmentEntries → Filling n w → C w (.append smallEntry {})) (n : Nat)
    (hn : n ≤ kMaxSegmentEntries) :
    ∃ w, (system wireCodec).ReachableWith C w ∧ Filling n w := by
  induction n with
  | zero =>
    refine ⟨_, .step (.init ⟨ascii "/wal", rfl⟩) (hopen _) (e := .open .ok) rfl, ?_⟩
    exact ⟨rfl, rfl, rfl, rfl, fun h => absurd h (Nat.lt_irrefl 0)⟩
  | succ n ih =>
    obtain ⟨w, hreach, hfill⟩ := ih (by omega)
    exact ⟨_, .step hreach (happend n w (by omega) hfill) (next_append hfill.opened hfill.id),
      hfill.append (by omega)⟩

theorem Filling.needsRotation (h : Filling kMaxSegmentEntries w) : w.needsRotation = true := by
  unfold WalPersister.needsRotation
  rw [h.active]
  rfl

theorem not_fdatasync_flushedState {id : Nat} {ok : Bool} (h : FsCall.fdatasync id ok ∉ w.calls) :
    FsCall.fdatasync id ok ∉ w.flushedState.calls := by
  unfold flushedState
  split
  · exact h
  intro hmem
  rcases List.mem_append.mp hmem with hmem | hmem
  · rcases List.mem_append.mp hmem with hmem | hmem
    · exact h hmem
    · cases List.mem_singleton.mp hmem
  · cases List.mem_singleton.mp hmem

theorem rotates (hopen : w.opened = true) (hfd : w.active.fd = true) (hneeds : w.needsRotation = true) :
    (w.appendLogEntry wireCodec smallEntry {}).2.opened = true ∧
      (w.appendLogEntry wireCodec smallEntry {}).2.active.fd = true ∧
      (w.appendLogEntry wireCodec smallEntry {}).2.active.id = w.active.id + 1 ∧
      w.appended <+: (w.appendLogEntry wireCodec smallEntry {}).2.appended ∧
      (w.appendLogEntry wireCodec smallEntry {}).2.calls = w.flushedState.calls := by
  have hpushed : ∀ r : WALRecord, r.payload.length = 4 →
      (rotatedState wireCodec w).pushedState r = (rotatedState wireCodec w).pushRecord r := by
    intro r hr
    unfold pushedState
    rw [if_neg]
    show ¬ kWriteBufferSize ≤ ((rotatedState wireCodec w).writeBuf ++ encodeRecord r).length
    rw [rotatedState, if_pos hneeds]
    show ¬ kWriteBufferSize ≤ (w.flushedState.writeBuf ++ encodeRecord r).length
    rw [flushedState_eq, List.nil_append, length_encodeRecord, hr]
    decide
  unfold appendLogEntry
  rw [serialize_smallEntry]
  dsimp only
  rw [appendRecord_ok hfd clean_default, if_neg (by decide), hpushed _ rfl, rotatedState,
    if_pos hneeds]
  refine ⟨?_, rfl, rfl, ?_, rfl⟩
  · show w.flushedState.opened = true
    rw [flushedState_eq]
    exact hopen
  · show w.appended <+: w.flushedState.appended ++ _
    rw [flushedState_eq]
    exact List.prefix_append _ _

/-! ## §6 — Runs. -/

/-- Nothing is left unsynced when a segment is rotated out, and no `Close` fails to flush. -/
def SyncedWhenLeft (w : WalPersister) : Event → Prop
  | .append _ _ | .truncatePrefix _ _ | .truncateSuffix _ _ =>
    w.needsRotation = true → w.writeBuf = [] ∧ NothingUnsynced w.active.id w.calls
  | .close io => w.writeBuf = [] ∨ io.flush = .ok
  | _ => True

def Accountable (w : WalPersister) : Prop := Tracked w ∨ Settled w

theorem Accountable.tracked (h : Accountable w) (hopen : w.opened = true) : Tracked w := by
  rcases h with h | h
  · exact h
  · exact absurd (h.closed.symm.trans hopen) Bool.false_ne_true

theorem Accountable.settled (h : Accountable w) (hclosed : ¬ w.opened = true) : Settled w := by
  rcases h with h | h
  · exact absurd h.opened hclosed
  · exact h

theorem Tracked.withIndex (h : Tracked w) (hfd : w.active.fd = true) {index : DenseIndex}
    (hindex : index.UpTo w.active.id) (entryCount : Nat) :
    Tracked { w with index := index, active.entryCount := entryCount } := by
  refine ⟨h.opened, h.last, h.kept, ?_, hindex, h.checkpoints⟩
  intro hclosed
  exact absurd (hclosed.symm.trans hfd) Bool.false_ne_true

theorem Tracked.logEntryAppended (h : Tracked w) {entry : RaftLogEntry}
    (hc : w.needsRotation = true → w.writeBuf = [] ∧ NothingUnsynced w.active.id w.calls) :
    Tracked (w.appendLogEntry codec entry io).2 := by
  unfold appendLogEntry
  split
  · exact h
  refine h.recordAppended hc ?_ (WalPersister.recordAppended codec w _ io _)
  intro offset w' hw' hfd
  exact hw'.withIndex hfd (hw'.index.put _ (Nat.le_refl _)) _

theorem accountable_step (h : Accountable w) (hc : w.SyncedWhenLeft e)
    (hn : next codec w e = some w') : Accountable w' := by
  obtain ⟨-, hdoes⟩ := does_of_next codec hn
  cases hdoes with
  | append hopen => exact .inl ((h.tracked hopen).logEntryAppended hc)
  | truncatePrefix hopen =>
    refine .inl ((h.tracked hopen).recordAppended hc ?_ (WalPersister.recordAppended codec w _ _ _))
    exact fun _ w' hw' hfd => hw'.withIndex hfd (hw'.index.apply (e := .truncatePrefix _) nofun) _
  | truncateSuffix hopen =>
    refine .inl ((h.tracked hopen).recordAppended hc ?_ (WalPersister.recordAppended codec w _ _ _))
    exact fun _ w' hw' hfd => hw'.withIndex hfd (hw'.index.apply (e := .truncateSuffix _) nofun) _
  | sync hopen => exact .inl ((h.tracked hopen).synced _)
  | @read io hopen => exact .inl ((h.tracked hopen).flushed (WalPersister.flushed w io.flush))
  | garbageCollect hopen => exact .inl ((h.tracked hopen).garbageCollected _ _)
  | close hopen => exact .inr ((h.tracked hopen).closed hc)
  | «open» hclosed => exact (h.settled hclosed).opened _

theorem accountable (h : (system codec).ReachableWith SyncedWhenLeft w) : Accountable w := by
  refine h.invariant ?_ ?_
  · rintro w ⟨walDir, rfl⟩
    exact .inr ⟨rfl, ⟨rfl, rfl, rfl⟩, .inl ⟨rfl, rfl, rfl⟩⟩
  · intro w e w' hw hc hn
    exact accountable_step hw hc hn

/-- **A successful `Sync` covers every record**, in every run in which a segment is rotated out only
when nothing of it is left unsynced, and in which no `Close` fails to flush. -/
theorem sync_covers_every_record (h : (system codec).ReachableWith SyncedWhenLeft w)
    (hopen : w.opened = true) {io : IoOutcomes} (hok : (w.sync io).1 = .ok) :
    ∀ r ∈ w.appended, r.Covered (w.sync io).2.calls :=
  ((accountable h).tracked hopen).covered_of_sync hok

theorem nothingUnsynced_concat (id : Nat) (calls : List FsCall) :
    NothingUnsynced id (calls ++ [.fdatasync id true]) := by
  intro before offset data after hsplit
  have hlast := congrArg List.getLast? hsplit
  rw [List.getLast?_concat, List.getLast?_append_cons] at hlast
  cases after with
  | nil => cases hlast
  | cons c after => exact List.mem_of_getLast? (hlast.trans List.getLast?_cons_cons).symm

/-- Ten thousand records, a `Sync`, and the record that rotates their segment out. -/
theorem sync_covers_every_record_rotated :
    ∃ w : WalPersister, (system wireCodec).ReachableWith SyncedWhenLeft w ∧ w.opened = true ∧
      w.active.id = 2 ∧ (∃ r ∈ w.appended, r.segmentId = 1) ∧ (w.sync {}).1 = .ok ∧
      ∀ r ∈ w.appended, r.Covered (w.sync {}).2.calls := by
  obtain ⟨w, hreach, h⟩ := exists_filling (C := SyncedWhenLeft) (fun _ => trivial)
    (fun _ _ hn h hneeds => absurd ((h.stays hn).symm.trans hneeds) Bool.false_ne_true)
    kMaxSegmentEntries (Nat.le_refl _)
  obtain ⟨r, hr, hseg⟩ := h.first (by decide)
  have hnext : (system wireCodec).next w (.sync {}) = some (w.sync {}).2 := by
    show WalPersister.next wireCodec w (.sync {}) = _
    rw [WalPersister.next, if_pos (by decide)]
    exact if_pos h.opened
  -- behind the `Sync` the segment is still full, the buffer empty and nothing unsynced
  obtain ⟨hopen, hactive, hbuf, hcalls, happended⟩ : (w.sync {}).2.opened = true ∧
      (w.sync {}).2.active = { w.active with endOffset := w.active.endOffset + w.writeBuf.length } ∧
      (w.sync {}).2.writeBuf = [] ∧
      (w.sync {}).2.calls = w.flushedState.calls ++ [.fdatasync w.active.id true] ∧
      (w.sync {}).2.appended = w.appended := by
    obtain ⟨checkpoints, hsame⟩ := sameButCheckpoints_checkpointIfDue w.syncedState true
    rw [sync_ok (by rw [h.active]) clean_default, show ({} : IoOutcomes).checkpoint = true from rfl,
      hsame, syncedState, flushedState_eq]
    exact ⟨h.opened, rfl, rfl, rfl, rfl⟩
  rw [h.active] at hactive hcalls
  have hreach := hreach.step (show w.SyncedWhenLeft (.sync {}) from trivial) hnext
  generalize (w.sync {}).2 = w₁ at *
  have hneeds : w₁.needsRotation = true := by
    rw [WalPersister.needsRotation, hactive]
    rfl
  have hid : w₁.active.id = 1 := by rw [hactive]
  obtain ⟨hopen', hfd', hid', happended', -⟩ := rotates hopen (by rw [hactive]) hneeds
  have hleft : w₁.SyncedWhenLeft (.append smallEntry {}) := by
    refine fun _ => ⟨hbuf, ?_⟩
    rw [hid, hcalls]
    exact nothingUnsynced_concat 1 _
  have hreach' := hreach.step hleft (next_append hopen hid)
  have hok : ((w₁.appendLogEntry wireCodec smallEntry {}).2.sync {}).1 = .ok := by
    rw [sync_ok hfd' clean_default]
  exact ⟨_, hreach', hopen', by rw [hid', hid], ⟨r, happended'.subset (happended ▸ hr), hseg⟩, hok,
    sync_covers_every_record hreach' hopen' hok⟩

/-- **A record of a rotated segment that no `Sync` covers.** The ten thousand and first entry rotates
the first segment out; the `Sync` that follows returns OK and syncs the second one only. -/
theorem rotated_record_never_synced :
    ∃ w : WalPersister, (system wireCodec).Reachable w ∧ w.opened = true ∧
      (w.sync {}).1 = .ok ∧ ∃ r ∈ w.appended, ¬ r.Covered (w.sync {}).2.calls := by
  obtain ⟨w, hreach, h⟩ := exists_filling (C := fun _ _ => True) (fun _ => trivial)
    (fun _ _ _ _ => trivial) kMaxSegmentEntries (Nat.le_refl _)
  obtain ⟨r, hr, hseg⟩ := h.first (by decide)
  obtain ⟨hopened, hfd, hid, happended, hcalls⟩ := rotates h.opened (by rw [h.active]) h.needsRotation
  have hnext := next_append h.opened h.id
  have hno : FsCall.fdatasync 1 true ∉ w.flushedState.calls :=
    not_fdatasync_flushedState (by rw [h.calls]; exact List.not_mem_nil)
  rw [← hcalls] at hno
  generalize (w.appendLogEntry wireCodec smallEntry {}).2 = w' at *
  refine ⟨w', .step hreach trivial hnext, hopened, ?_, r, happended.subset hr, ?_⟩
  · rw [sync_ok hfd clean_default]
  · rw [sync_ok hfd clean_default]
    obtain ⟨checkpoints, hsame⟩ := sameButCheckpoints_checkpointIfDue w'.syncedState true
    rw [show ({} : IoOutcomes).checkpoint = true from rfl, hsame]
    rintro ⟨before, after, hsplit, -⟩
    have hmem : FsCall.fdatasync 1 true ∈ w'.flushedState.calls ++ [.fdatasync w'.active.id true] := by
      have hsplit : w'.flushedState.calls ++ [.fdatasync w'.active.id true]
          = before ++ FsCall.fdatasync r.segmentId true :: after := hsplit
      rw [hsplit, hseg]
      exact List.mem_append_right before List.mem_cons_self
    rcases List.mem_append.mp hmem with hmem | hmem
    · exact not_fdatasync_flushedState hno hmem
    · have heq := List.mem_singleton.mp hmem
      rw [hid, h.id] at heq
      cases heq

end WalPersister

end RollingRaft
