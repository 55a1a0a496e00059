/-
# RollingRaft.Storage.WalSteps — what one call on the write-ahead log can do.

The parts that every argument about `WalPersister` starts from: which fields a step leaves alone, the
five ways a flush can end, the four ways a segment can be created, and the shape that the three
appending methods share. Later modules cite these and do not unfold the functions again.
-/
import RollingRaft.Storage.WalPersister

namespace RollingRaft

open Lib

namespace WalPersister

variable {codec : WalCodec} {w : WalPersister}

/-! ## §1 — Frames. -/

/-- The two states agree on everything but the checkpoints. -/
def SameButCheckpoints (w w' : WalPersister) : Prop :=
  ∃ checkpoints, w' = { w with dir.checkpoints := checkpoints }

theorem sameButCheckpoints_checkpointIfDue (w : WalPersister) (ok : Bool) :
    w.SameButCheckpoints (w.checkpointIfDue ok) := by
  unfold checkpointIfDue saveCheckpoint
  split
  · split
    · exact ⟨w.dir.checkpoints, rfl⟩
    · exact ⟨_, rfl⟩
  · exact ⟨w.dir.checkpoints, rfl⟩

/-! ## §2 — A flush. -/

/-- The ways in which a flush can end. -/
inductive Flushed (w : WalPersister) : StoreStatus → WalPersister → Prop
  | empty : w.writeBuf = [] → Flushed w .ok w
  | noSegment : w.writeBuf ≠ [] → w.active.fd = false →
      Flushed w (.error (ascii "No active segment")) w
  | recordsFail (written : Nat) : w.writeBuf ≠ [] → w.active.fd = true →
      Flushed w (.error (ascii "Failed to write WAL buffer"))
        (w.writeSegment w.active.id w.active.endOffset (w.writeBuf.take written))
  | trailerFails (part : Bytes) : w.writeBuf ≠ [] → w.active.fd = true →
      Flushed w (.error (ascii "Failed to write trailer"))
        ((w.writeSegment w.active.id w.active.endOffset w.writeBuf).bufferWritten.writeSegment
          w.active.id (w.active.endOffset + w.writeBuf.length) part)
  | written : w.writeBuf ≠ [] → w.active.fd = true →
      Flushed w .ok
        ((w.writeSegment w.active.id w.active.endOffset w.writeBuf).bufferWritten.writeSegment
          w.active.id (w.active.endOffset + w.writeBuf.length)
          (trailer (w.active.endOffset + w.writeBuf.length)))

theorem flushed (w : WalPersister) (o : FlushOutcome) :
    Flushed w (w.flushWriteBuffer o).1 (w.flushWriteBuffer o).2 := by
  unfold flushWriteBuffer
  by_cases hbuf : w.writeBuf = []
  · rw [if_pos hbuf]
    exact .empty hbuf
  rw [if_neg hbuf]
  by_cases hfd : w.active.fd = false
  · rw [if_pos hfd]
    exact .noSegment hbuf hfd
  rw [if_neg hfd]
  have hfd : w.active.fd = true := Bool.not_eq_false _ ▸ hfd
  cases o with
  | ok => exact .written hbuf hfd
  | recordsFail written => exact .recordsFail written hbuf hfd
  | trailerFails written => exact .trailerFails _ hbuf hfd

/-! ## §3 — A new segment. -/

/-- The ways in which creating a segment can end. -/
inductive Created (codec : WalCodec) (w : WalPersister) (id : Nat) :
    StoreStatus → WalPersister → Prop
  | openFails (message : Bytes) : Created codec w id (.error message) w
  | headerFails (message : Bytes) : Created codec w id (.error message)
      { w with dir.segments := FileTable.unlink id w.dir.segments }
  | metaFails (message : Bytes) : Created codec w id (.error message) (w.segmentCreated id)
  | done : Created codec w id .ok ((w.segmentCreated id).saveMeta codec)

theorem created (codec : WalCodec) (w : WalPersister) (id : Nat) (o : CreateOutcome) :
    Created codec w id (w.createSegment codec id o).1 (w.createSegment codec id o).2 := by
  cases o with
  | ok => exact .done
  | openFails => exact .openFails _
  | headerFails => exact .headerFails _
  | metaFails => exact .metaFails _

/-- The ways in which the check for a rotation can end. -/
inductive Rotated (codec : WalCodec) (w : WalPersister) : StoreStatus → WalPersister → Prop
  | stays : w.needsRotation = false → Rotated codec w .ok w
  | flushFails {status : StoreStatus} {w' : WalPersister} : w.needsRotation = true → status ≠ .ok →
      Flushed w status w' → Rotated codec w status w'
  | creates {status : StoreStatus} {w' w'' : WalPersister} : w.needsRotation = true →
      Flushed w .ok w' → Created codec { w' with active.fd := false } (w'.active.id + 1) status w'' →
      Rotated codec w status w''

theorem rotated (codec : WalCodec) (w : WalPersister) (io : IoOutcomes) :
    Rotated codec w (w.rotateSegmentIfNeeded codec io).1 (w.rotateSegmentIfNeeded codec io).2 := by
  unfold rotateSegmentIfNeeded
  by_cases hneeds : w.needsRotation = true
  · rw [if_pos hneeds]
    have hflush := flushed w io.rotateFlush
    generalize w.flushWriteBuffer io.rotateFlush = result at hflush
    obtain ⟨status, w'⟩ := result
    cases status with
    | ok => exact .creates hneeds hflush (created codec _ _ _)
    | corruption | error => exact .flushFails hneeds StoreStatus.noConfusion hflush
  · rw [if_neg hneeds]
    exact .stays (Bool.eq_false_iff.mpr hneeds)

/-! ## §4 — The appending methods. -/

/-- The ways in which appending a record can end; the method's own update `done` comes last. -/
inductive RecordAppended (codec : WalCodec) (w : WalPersister) (r : WALRecord)
    (done : Nat → WalPersister → WalPersister) : StoreStatus → WalPersister → Prop
  | rotationFails {status : StoreStatus} {w' : WalPersister} : status ≠ .ok →
      Rotated codec w status w' → RecordAppended codec w r done status w'
  | tooLarge {w' : WalPersister} : Rotated codec w .ok w' → kMaxRecordSize < r.payload.length →
      RecordAppended codec w r done (.error (ascii "Payload too large")) w'
  | flushFails {status : StoreStatus} {w' w'' : WalPersister} : Rotated codec w .ok w' →
      r.payload.length ≤ kMaxRecordSize → status ≠ .ok → Flushed (w'.pushRecord r) status w'' →
      RecordAppended codec w r done status w''
  | flushes {w' w'' : WalPersister} : Rotated codec w .ok w' →
      r.payload.length ≤ kMaxRecordSize → Flushed (w'.pushRecord r) .ok w'' →
      RecordAppended codec w r done .ok (done (w'.active.endOffset + w'.writeBuf.length) w'')
  | buffers {w' : WalPersister} : Rotated codec w .ok w' → r.payload.length ≤ kMaxRecordSize →
      RecordAppended codec w r done .ok
        (done (w'.active.endOffset + w'.writeBuf.length) (w'.pushRecord r))

theorem recordAppended (codec : WalCodec) (w : WalPersister) (r : WALRecord) (io : IoOutcomes)
    (done : Nat → WalPersister → WalPersister) :
    RecordAppended codec w r done (w.appendRecord codec r io done).1
      (w.appendRecord codec r io done).2 := by
  unfold appendRecord
  have hrot := rotated codec w io
  generalize w.rotateSegmentIfNeeded codec io = result at hrot
  obtain ⟨status, w'⟩ := result
  cases status with
  | corruption | error => exact .rotationFails StoreStatus.noConfusion hrot
  | ok =>
    dsimp only at hrot ⊢
    unfold appendRecordToBuffer
    by_cases hlarge : kMaxRecordSize < r.payload.length
    · rw [if_pos hlarge]
      exact .tooLarge hrot hlarge
    rw [if_neg hlarge]
    have hsize : r.payload.length ≤ kMaxRecordSize := Nat.le_of_not_lt hlarge
    by_cases hfull : kWriteBufferSize ≤ (w'.pushRecord r).writeBuf.length
    · rw [if_pos hfull]
      have hflush := flushed (w'.pushRecord r) io.flush
      generalize (w'.pushRecord r).flushWriteBuffer io.flush = result at hflush
      obtain ⟨status, w''⟩ := result
      cases status with
      | ok => exact .flushes hrot hsize hflush
      | corruption | error => exact .flushFails hrot hsize StoreStatus.noConfusion hflush
    · rw [if_neg hfull]
      exact .buffers hrot hsize

/-! ## §5 — `Open`. -/

theorem startingPoint_cases (dir : WalDir) :
    startingPoint dir = (.clear, 0) ∨
      ∃ c ∈ dir.checkpoints, decodeCheckpoint c.2 = .ok (startingPoint dir) := by
  unfold startingPoint loadLatestCheckpoint
  cases hlast : (dir.checkpoints.filter fun f =>
      0 < f.1 ∧ (dir.segments.lookup f.1).isSome).getLast? with
  | none => exact .inl rfl
  | some c =>
    dsimp only
    cases hload : decodeCheckpoint c.2 with
    | error status => exact .inl rfl
    | ok loaded =>
      exact .inr ⟨c, List.mem_of_mem_filter (List.mem_of_getLast? hlast), hload⟩

theorem openActive_spec (w : WalPersister) (id : Nat) (file : Bytes) :
    (∃ endOffset entryCount, w.openActive id file =
      (.ok, { w with opened := true, active := ⟨id, true, endOffset, entryCount⟩ })) ∨
    ∃ status, w.openActive id file = (status, w.closed) := by
  unfold openActive
  split
  · exact .inr ⟨_, rfl⟩
  split
  · exact .inl ⟨_, _, rfl⟩
  split
  · exact .inl ⟨_, _, rfl⟩
  · exact .inr ⟨_, rfl⟩

/-! ## §6 — Calls in which no I/O operation fails. -/

/-- No I/O operation fails; whether a checkpoint could be saved is left open. -/
structure Clean (io : IoOutcomes) : Prop where
  rotateFlush : io.rotateFlush = .ok
  create : io.create = .ok
  flush : io.flush = .ok
  fdatasync : io.fdatasync = true

theorem clean_default : Clean {} := ⟨rfl, rfl, rfl, rfl⟩

def flushedState (w : WalPersister) : WalPersister :=
  if w.writeBuf = [] then w
  else
    (w.writeSegment w.active.id w.active.endOffset w.writeBuf).bufferWritten.writeSegment
      w.active.id (w.active.endOffset + w.writeBuf.length)
      (trailer (w.active.endOffset + w.writeBuf.length))

theorem flushWriteBuffer_ok (hfd : w.active.fd = true) :
    w.flushWriteBuffer .ok = (.ok, w.flushedState) := by
  unfold flushWriteBuffer flushedState
  split
  · rfl
  rw [if_neg (by rw [hfd]; exact Bool.noConfusion)]
  rfl

theorem flushedState_eq (w : WalPersister) :
    w.flushedState = { w with
      dir.segments := w.flushedState.dir.segments, calls := w.flushedState.calls
      active.endOffset := w.active.endOffset + w.writeBuf.length, writeBuf := [] } := by
  unfold flushedState
  split
  · cases w
    rename_i hbuf
    cases hbuf
    rfl
  · rfl

theorem id_flushedState (w : WalPersister) : w.flushedState.active.id = w.active.id := by
  rw [flushedState_eq]

theorem fd_flushedState (w : WalPersister) : w.flushedState.active.fd = w.active.fd := by
  rw [flushedState_eq]

theorem index_flushedState (w : WalPersister) : w.flushedState.index = w.index := by
  rw [flushedState_eq]

/-- The state after a rotation that succeeds, or the same state when none is due. -/
def rotatedState (codec : WalCodec) (w : WalPersister) : WalPersister :=
  if w.needsRotation then
    (({ w.flushedState with active.fd := false }.segmentCreated (w.active.id + 1)).saveMeta codec)
  else w

variable {io : IoOutcomes}

theorem rotateSegmentIfNeeded_ok (hfd : w.active.fd = true) (hio : Clean io) :
    w.rotateSegmentIfNeeded codec io = (.ok, rotatedState codec w) := by
  unfold rotateSegmentIfNeeded rotatedState
  split
  · rw [hio.rotateFlush, flushWriteBuffer_ok hfd, hio.create]
    dsimp only
    rw [id_flushedState]
    rfl
  · rfl

/-- The state after a record was put into the buffer, and the buffer flushed when it is full. -/
def pushedState (w : WalPersister) (r : WALRecord) : WalPersister :=
  if kWriteBufferSize ≤ (w.pushRecord r).writeBuf.length then (w.pushRecord r).flushedState
  else w.pushRecord r

/-- An appending method that succeeds, or that refuses a record that is too large. -/
theorem appendRecord_ok (hfd : w.active.fd = true) (hio : Clean io)
    (r : WALRecord) (done : Nat → WalPersister → WalPersister) :
    w.appendRecord codec r io done =
      if kMaxRecordSize < r.payload.length then
        (.error (ascii "Payload too large"), rotatedState codec w)
      else
        (.ok, done ((rotatedState codec w).active.endOffset + (rotatedState codec w).writeBuf.length)
          ((rotatedState codec w).pushedState r)) := by
  have hfd' : (rotatedState codec w).active.fd = true := by
    unfold rotatedState
    split
    · rfl
    · exact hfd
  unfold appendRecord
  rw [rotateSegmentIfNeeded_ok hfd hio]
  dsimp only
  unfold appendRecordToBuffer pushedState
  by_cases hlarge : kMaxRecordSize < r.payload.length
  · rw [if_pos hlarge, if_pos hlarge]
  rw [if_neg hlarge, if_neg hlarge]
  by_cases hfull : kWriteBufferSize ≤ ((rotatedState codec w).pushRecord r).writeBuf.length
  · rw [if_pos hfull, if_pos hfull, hio.flush]
    rw [flushWriteBuffer_ok (w := (rotatedState codec w).pushRecord r) hfd']
  · rw [if_neg hfull, if_neg hfull]

/-- The state after a `Sync` that succeeds, before its checkpoint. -/
def syncedState (w : WalPersister) : WalPersister :=
  { w.flushedState with calls := w.flushedState.calls ++ [.fdatasync w.active.id true] }

theorem sync_ok (hfd : w.active.fd = true) (hio : Clean io) :
    w.sync io = (.ok, w.syncedState.checkpointIfDue io.checkpoint) := by
  unfold sync syncActiveSegment syncedState
  rw [hio.flush, flushWriteBuffer_ok hfd]
  dsimp only
  rw [if_neg (by rw [fd_flushedState, hfd]; exact Bool.noConfusion), hio.fdatasync,
    id_flushedState]
  rfl

end WalPersister

end RollingRaft
