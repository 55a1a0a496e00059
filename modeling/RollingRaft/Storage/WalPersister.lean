/-
# RollingRaft.Storage.WalPersister — the write-ahead log as a state machine over its directory.

Every public method of `WALPersister` runs under one mutex and is one function here: from the state
and the outcomes of the file system calls it makes to its status and the next state. The directory
holds the segment files, the checkpoint files and `meta.json`, as bytes; names other than those the
class itself creates are not there. `calls` records the writes and syncs of segment files in order,
`appended` the records that were put into the write buffer; the code does not read them.

Segment ids are 64-bit numbers that only grow; a directory never holds `2 ^ 64` segments, and the
wrap is left out. The cached read descriptor changes nothing a caller can see and is left out too,
and so is the map of format versions, which repeats the headers.
-/
import RollingRaft.Lib.Transition
import RollingRaft.Storage.WalFormat

namespace RollingRaft

open Lib

/-! ## §1 — The state. -/

structure Segment where
  id : Nat := 0
  /-- Is the descriptor open? -/
  fd : Bool := false
  endOffset : Nat := 0
  entryCount : Nat := 0
  deriving DecidableEq

/-- The WAL directory. -/
structure WalDir where
  /-- `meta.json`. -/
  metaJson : Option Bytes := none
  /-- `<id>.wal`. -/
  segments : FileTable := []
  /-- `checkpoint.<id>.idx`. -/
  checkpoints : FileTable := []
  deriving DecidableEq

/-- A system call on a segment file that took place. -/
inductive FsCall where
  | write (segmentId offset : Nat) (data : Bytes)
  | fdatasync (segmentId : Nat) (ok : Bool)
  deriving DecidableEq

/-- A record in the log: its segment, its offset and its bytes. -/
structure Placed where
  segmentId : Nat
  offset : Nat
  bytes : Bytes
  deriving DecidableEq

structure WalPersister where
  walDir : Bytes
  dir : WalDir := {}
  /-- Has `Open` succeeded, and `Close` not been called since? -/
  opened : Bool := false
  active : Segment := {}
  index : DenseIndex := {}
  writeBuf : Bytes := []
  calls : List FsCall := []
  appended : List Placed := []
  deriving DecidableEq

/-- What the writes of a flush do. A write that fails may have written part of its bytes. -/
inductive FlushOutcome where
  | ok
  | recordsFail (written : Nat)
  | trailerFails (written : Nat)
  deriving DecidableEq

/-- What creating a segment does. -/
inductive CreateOutcome where
  | ok
  | openFails
  | headerFails
  | metaFails
  deriving DecidableEq

/-- The outcomes of the file system calls that one method makes. -/
structure IoOutcomes where
  rotateFlush : FlushOutcome := .ok
  create : CreateOutcome := .ok
  flush : FlushOutcome := .ok
  fdatasync : Bool := true
  checkpoint : Bool := true
  deriving DecidableEq

namespace WalPersister

variable (codec : WalCodec)

/-! ## §2 — Checkpoints. -/

def kCheckpointMagic : Nat := 0x57494458

def kCheckpointVersion : Nat := 1

def kCheckpointHeaderSize : Nat := 40

def kCheckpointIndexEntrySize : Nat := 24

def kCheckpointFooterSize : Nat := 4

def kCheckpointSegmentInterval : Nat := 5

def kCheckpointEntryInterval : Nat := 50000

def encodeIndexEntry (e : WALIndexEntry) : Bytes :=
  leBytes 8 e.segmentId ++ leBytes 8 e.fileOffset ++ leBytes 8 e.length

/-- The header and the body of a checkpoint. -/
def checkpointData (index : DenseIndex) (covered : Nat) : Bytes :=
  leBytes 4 kCheckpointMagic ++ leBytes 2 kCheckpointVersion ++ leBytes 2 0
    ++ leBytes 8 index.firstIndex ++ leBytes 8 index.lastIndex ++ leBytes 8 index.entries.length
    ++ leBytes 8 covered ++ index.entries.flatMap encodeIndexEntry

def encodeCheckpoint (index : DenseIndex) (covered : Nat) : Bytes :=
  checkpointData index covered ++ leBytes 4 (computeCRC32 (checkpointData index covered)).toNat

/-- The loop that fills the index: entry after entry at consecutive log indices. -/
def loadEntries : Nat → Nat → Bytes → DenseIndex → DenseIndex
  | 0, _, _, index => index
  | count + 1, i, body, index =>
    loadEntries count (i + 1) (body.drop kCheckpointIndexEntrySize)
      (index.put i ⟨leNat (body.take 8), leNat ((body.drop 8).take 8),
        leNat ((body.drop 16).take 8)⟩)

/-- The checks and the result of `LoadLatestCheckpointLocked` on one file: the index and the segment
it covers. -/
def decodeCheckpoint (file : Bytes) : Except StoreStatus (DenseIndex × Nat) :=
  if file.length < kCheckpointHeaderSize + kCheckpointFooterSize then
    .error (.corruption (ascii "Checkpoint file too small"))
  else if leNat (file.take 4) ≠ kCheckpointMagic then
    .error (.corruption (ascii "Invalid checkpoint magic"))
  else if leNat ((file.drop 4).take 2) ≠ kCheckpointVersion then
    .error (.corruption (ascii "Unsupported checkpoint version"))
  else
    let firstIndex := leNat ((file.drop 8).take 8)
    let entryCount := leNat ((file.drop 24).take 8)
    let covered := leNat ((file.drop 32).take 8)
    if file.length ≠ (kCheckpointHeaderSize + entryCount * kCheckpointIndexEntrySize
        + kCheckpointFooterSize) % 2 ^ 64 then
      .error (.corruption (ascii "Checkpoint size mismatch"))
    else if (computeCRC32 (file.take (file.length - kCheckpointFooterSize))).toNat
        ≠ leNat (file.drop (file.length - kCheckpointFooterSize)) then
      .error (.corruption (ascii "Checkpoint CRC mismatch"))
    else
      .ok (loadEntries entryCount firstIndex (file.drop kCheckpointHeaderSize) .clear, covered)

/-- `LoadLatestCheckpointLocked`: the checkpoint with the greatest id whose segment exists; nothing
to load is an empty index that covers nothing. -/
def loadLatestCheckpoint (dir : WalDir) : Except StoreStatus (DenseIndex × Nat) :=
  match (dir.checkpoints.filter fun f => 0 < f.1 ∧ (dir.segments.lookup f.1).isSome).getLast? with
  | none => .ok (.clear, 0)
  | some (_, file) => decodeCheckpoint file

/-- `SaveCheckpointLocked`: the file appears under its name only when it is complete. -/
def saveCheckpoint (w : WalPersister) (ok : Bool) : WalPersister :=
  if w.index.entries = [] ∨ ok = false then w
  else
    { w with dir.checkpoints :=
      FileTable.upsert w.active.id (encodeCheckpoint w.index w.active.id) w.dir.checkpoints }

def lastCheckpointId (dir : WalDir) : Nat := (dir.checkpoints.map (·.1)).foldl max 0

/-- `ShouldCreateCheckpointLocked`. -/
def shouldCreateCheckpoint (w : WalPersister) : Bool :=
  if w.index.entries = [] then false
  else
    let last := lastCheckpointId w.dir
    if kCheckpointSegmentInterval ≤ (w.active.id + 2 ^ 64 - last) % 2 ^ 64 then true
    else if last = 0 then decide (kCheckpointEntryInterval ≤ w.index.entries.length)
    else
      decide (kCheckpointEntryInterval
        ≤ (w.index.entries.reverse.takeWhile fun e => last < e.segmentId).length)

/-- The checkpoint at the end of `Sync` and `Close`. -/
def checkpointIfDue (w : WalPersister) (ok : Bool) : WalPersister :=
  if w.shouldCreateCheckpoint then w.saveCheckpoint ok else w

/-! ## §3 — Writing. -/

def file (w : WalPersister) (segmentId : Nat) : Bytes := (w.dir.segments.lookup segmentId).getD []

/-- `lseek` and `write` on a segment. -/
def writeSegment (w : WalPersister) (segmentId offset : Nat) (data : Bytes) : WalPersister :=
  { w with
    dir.segments := FileTable.upsert segmentId (writeAt (w.file segmentId) offset data) w.dir.segments
    calls := w.calls ++ [.write segmentId offset data] }

/-- The records of the buffer have been written: the logical end moves on. -/
def bufferWritten (w : WalPersister) : WalPersister :=
  { w with active.endOffset := w.active.endOffset + w.writeBuf.length, writeBuf := [] }

/-- `FlushWriteBufferLocked`: the records overwrite the old trailer, a new trailer follows. -/
def flushWriteBuffer (w : WalPersister) (o : FlushOutcome) : StoreStatus × WalPersister :=
  if w.writeBuf = [] then (.ok, w)
  else if w.active.fd = false then (.error (ascii "No active segment"), w)
  else
    match o with
    | .recordsFail written =>
      (.error (ascii "Failed to write WAL buffer"),
        w.writeSegment w.active.id w.active.endOffset (w.writeBuf.take written))
    | .trailerFails written =>
      let w := (w.writeSegment w.active.id w.active.endOffset w.writeBuf).bufferWritten
      (.error (ascii "Failed to write trailer"),
        w.writeSegment w.active.id w.active.endOffset ((trailer w.active.endOffset).take written))
    | .ok =>
      let w := (w.writeSegment w.active.id w.active.endOffset w.writeBuf).bufferWritten
      (.ok, w.writeSegment w.active.id w.active.endOffset (trailer w.active.endOffset))

/-- `SaveMeta`. The results of writing the text are not looked at. -/
def saveMeta (w : WalPersister) : WalPersister :=
  { w with dir.metaJson := some (codec.dumpIndented
    (metaValue w.index.firstIndex w.index.lastIndex w.active.id)) }

/-- The new segment with its header is the active one. -/
def segmentCreated (w : WalPersister) (segmentId : Nat) : WalPersister :=
  { w with
    dir.segments := FileTable.upsert segmentId (segmentHeader segmentId kFormatVersionProtobuf)
      w.dir.segments
    active := { id := segmentId, fd := true, endOffset := kHeaderSize, entryCount := 0 } }

def createSegment (w : WalPersister) (segmentId : Nat) (o : CreateOutcome) :
    StoreStatus × WalPersister :=
  match o with
  | .openFails =>
    (.error (ascii "Failed to create segment: " ++ segmentPath w.walDir segmentId), w)
  | .headerFails =>
    (.error (ascii "Failed to write segment header"),
      { w with dir.segments := FileTable.unlink segmentId w.dir.segments })
  | .metaFails => (.error (ascii "Failed to create meta file"), w.segmentCreated segmentId)
  | .ok => (.ok, (w.segmentCreated segmentId).saveMeta codec)

/-- The test of `RotateSegmentIfNeeded`. -/
def needsRotation (w : WalPersister) : Bool :=
  kMaxSegmentEntries ≤ w.active.entryCount ||
    kMaxSegmentSize ≤ w.active.endOffset + w.writeBuf.length

/-- `RotateSegmentIfNeeded`: the old segment is flushed and closed, and not synced. -/
def rotateSegmentIfNeeded (w : WalPersister) (io : IoOutcomes) : StoreStatus × WalPersister :=
  if w.needsRotation then
    match w.flushWriteBuffer io.rotateFlush with
    | (.ok, w) => { w with active.fd := false }.createSegment codec (w.active.id + 1) io.create
    | failed => failed
  else (.ok, w)

def pushRecord (w : WalPersister) (r : WALRecord) : WalPersister :=
  { w with
    writeBuf := w.writeBuf ++ encodeRecord r
    appended := w.appended ++
      [⟨w.active.id, w.active.endOffset + w.writeBuf.length, encodeRecord r⟩] }

/-- `AppendRecordToBufferLocked`. -/
def appendRecordToBuffer (w : WalPersister) (r : WALRecord) (io : IoOutcomes) :
    StoreStatus × WalPersister :=
  if kMaxRecordSize < r.payload.length then (.error (ascii "Payload too large"), w)
  else if kWriteBufferSize ≤ (w.pushRecord r).writeBuf.length then
    (w.pushRecord r).flushWriteBuffer io.flush
  else (.ok, w.pushRecord r)

/-- What the three appending methods share: rotation, the record, and then the index. The offset is
the logical end of the segment before the record. -/
def appendRecord (w : WalPersister) (r : WALRecord) (io : IoOutcomes)
    (done : Nat → WalPersister → WalPersister) : StoreStatus × WalPersister :=
  match w.rotateSegmentIfNeeded codec io with
  | (.ok, w) =>
    match w.appendRecordToBuffer r io with
    | (.ok, w') => (.ok, done (w.active.endOffset + w.writeBuf.length) w')
    | failed => failed
  | failed => failed

def appendLogEntry (w : WalPersister) (entry : RaftLogEntry) (io : IoOutcomes) :
    StoreStatus × WalPersister :=
  match codec.serialize entry.toProto with
  | none => (.error (ascii "Failed to serialize log entry to protobuf"), w)
  | some payload =>
    w.appendRecord codec ⟨.logEntry, payload⟩ io fun offset w' =>
      { w' with
        index := w'.index.put entry.index ⟨w'.active.id, offset, 10 + payload.length⟩
        active.entryCount := w'.active.entryCount + 1 }

/-- The payload of a truncation: an object with one number. A dump of such an object succeeds. -/
def truncationPayload (key : Bytes) (index : Nat) : Bytes :=
  match codec.json.dump (.object [(key, .unsigned index)]) with
  | .ok text => text
  | .error _ => []

def appendTruncatePrefix (w : WalPersister) (beforeIndex : Nat) (io : IoOutcomes) :
    StoreStatus × WalPersister :=
  w.appendRecord codec
    ⟨.truncatePrefix, truncationPayload codec (ascii "before_index") beforeIndex⟩ io
    fun _ w' => { w' with index := w'.index.truncatePrefix beforeIndex }

def appendTruncateSuffix (w : WalPersister) (fromIndex : Nat) (io : IoOutcomes) :
    StoreStatus × WalPersister :=
  w.appendRecord codec ⟨.truncateSuffix, truncationPayload codec (ascii "from_index") fromIndex⟩ io
    fun _ w' => { w' with index := w'.index.truncateSuffix fromIndex }

/-- `SyncActiveSegmentLocked`. -/
def syncActiveSegment (w : WalPersister) (io : IoOutcomes) : StoreStatus × WalPersister :=
  match w.flushWriteBuffer io.flush with
  | (.ok, w) =>
    if w.active.fd = false then (.error (ascii "No active segment"), w)
    else
      let w := { w with calls := w.calls ++ [.fdatasync w.active.id io.fdatasync] }
      if io.fdatasync then (.ok, w) else (.error (ascii "fdatasync failed"), w)
  | failed => failed

/-- `Sync`. A checkpoint that fails is only logged. -/
def sync (w : WalPersister) (io : IoOutcomes) : StoreStatus × WalPersister :=
  match w.syncActiveSegment io with
  | (.ok, w) => (.ok, w.checkpointIfDue io.checkpoint)
  | failed => failed

/-! ## §4 — Reading. -/

/-- `GetCachedSegmentFd` and `ReadLogEntryAt`. -/
def readEntry (w : WalPersister) (place : WALIndexEntry) : Except StoreStatus RaftLogEntry :=
  match openSegment w.walDir place.segmentId (w.dir.segments.lookup place.segmentId) with
  | .error status => .error status
  | .ok format =>
    readLogEntryAt codec format place.segmentId place.fileOffset (w.file place.segmentId)

/-- `GetEntry`: the buffer is flushed first. -/
def getEntry (w : WalPersister) (index : Nat) (io : IoOutcomes) :
    Except StoreStatus RaftLogEntry × WalPersister :=
  match w.flushWriteBuffer io.flush with
  | (.ok, w) =>
    match w.index.get index with
    | none => (.error (.error (ascii "Entry not found")), w)
    | some place => (w.readEntry codec place, w)
  | (status, w) => (.error status, w)

/-! ## §5 — `Open` and `Close`. -/

/-- `LoadMeta`, when the file is there. -/
def loadMeta (dir : WalDir) : StoreStatus :=
  match dir.metaJson with
  | none => .ok
  | some text =>
    match codec.readStream text with
    | .ok _ => .ok
    | .error what => .corruption (ascii "Failed to parse meta file: " ++ what)

/-- The loop of `Open` over the segments: headers are validated, the segments from `covered` on are
scanned into the index, and a segment whose scan stops at a broken record is cut there. -/
def scanSegments (walDir : Bytes) (covered : Nat) :
    FileTable → DenseIndex → StoreStatus × DenseIndex × FileTable
  | [], index => (.ok, index, [])
  | (id, file) :: rest, index =>
    match openSegment walDir id (some file) with
    | .error status => (status, index, (id, file) :: rest)
    | .ok format =>
      if id < covered then
        let (status, index, files) := scanSegments walDir covered rest index
        (status, index, (id, file) :: files)
      else
        let scan := scanSegment codec format id (fun _ => true) file index
        if scan.status = .ok then
          let (status, index, files) := scanSegments walDir covered rest scan.index
          (status, index, (id, file) :: files)
        else if 0 < scan.truncateOffset then
          let (status, index, files) := scanSegments walDir covered rest scan.index
          (status, index, (id, truncateSegmentFile file scan.truncateOffset) :: files)
        else (scan.status, scan.index, (id, file) :: rest)

/-- The object after `Close`; the next `Open` is given the same directory. -/
def closed (w : WalPersister) : WalPersister :=
  { w with opened := false, active := {}, index := {}, writeBuf := [] }

def openActive (w : WalPersister) (id : Nat) (file : Bytes) : StoreStatus × WalPersister :=
  match openSegment w.walDir id (some file) with
  | .error status => (status, w.closed)
  | .ok _ =>
    let entryCount := w.index.entries.countP fun e => e.segmentId = id
    match readTrailer file with
    | .ok endOffset => (.ok, { w with opened := true, active := ⟨id, true, endOffset, entryCount⟩ })
    | .error status =>
      if file.length = kHeaderSize then
        (.ok, { w with opened := true, active := ⟨id, true, kHeaderSize, entryCount⟩ })
      else (status, w.closed)

/-- The index that `Open` starts from and the segment from which it scans. A checkpoint that cannot
be loaded means a full scan. -/
def startingPoint (dir : WalDir) : DenseIndex × Nat :=
  match loadLatestCheckpoint dir with
  | .ok loaded => loaded
  | .error _ => (.clear, 0)

/-- `Open` of a closed WAL. After a failure nothing but `Close` is called. -/
def openWal (w : WalPersister) (create : CreateOutcome) : StoreStatus × WalPersister :=
  match loadMeta codec w.dir with
  | .ok =>
    if w.dir.segments = [] then
      match w.createSegment codec 1 create with
      | (.ok, w) => (.ok, { w with opened := true })
      | (status, w) => (status, w.closed)
    else
      let (index, covered) := startingPoint w.dir
      match scanSegments codec w.walDir covered w.dir.segments index with
      | (.ok, index, files) =>
        match files.getLast? with
        | some (id, file) => { w with index := index, dir.segments := files }.openActive id file
        | none => (.ok, w)
      | (status, _, files) => (status, { w with dir.segments := files })
  | status => (status, w)

def close (w : WalPersister) (io : IoOutcomes) : WalPersister :=
  let w := if w.active.fd then ((w.flushWriteBuffer io.flush).2).checkpointIfDue io.checkpoint else w
  w.closed

/-! ## §6 — `GarbageCollect`. -/

/-- The first segment with an entry at or above the bound; the active one when there is none. -/
def firstSegmentToKeep (w : WalPersister) (beforeIndex : Nat) : Nat :=
  let ids := (w.index.entries.zipIdx.filter fun p =>
    p.1.segmentId ≠ 0 ∧ beforeIndex ≤ w.index.firstIndex + p.2).map (·.1.segmentId)
  match ids with
  | [] => w.active.id
  | id :: ids => ids.foldl min id

/-- The index without the entries of deleted segments: from the first one of a kept segment on. -/
def keptIndex (w : WalPersister) (keep : Nat) : DenseIndex :=
  match w.index.entries.findIdx? (fun e => keep ≤ e.segmentId) with
  | some i => w.index.truncatePrefix (w.index.firstIndex + i)
  | none => .clear

/-- The segments below `keep` and their entries are gone. -/
def segmentsDeleted (w : WalPersister) (keep : Nat) : WalPersister :=
  { w with
    dir.segments := w.dir.segments.filter fun f => keep ≤ f.1
    index := w.keptIndex keep }

/-- `RemoveOldCheckpointsLocked`. -/
def removeOldCheckpoints (w : WalPersister) (firstRetained : Nat) : WalPersister :=
  { w with dir.checkpoints := w.dir.checkpoints.filter fun f => firstRetained ≤ f.1 }

def garbageCollect (w : WalPersister) (beforeIndex : Nat) (io : IoOutcomes) : WalPersister :=
  let keep := w.firstSegmentToKeep beforeIndex
  let w := w.segmentsDeleted keep
  if w.index.entries = [] then w.removeOldCheckpoints keep
  else (w.saveCheckpoint io.checkpoint).removeOldCheckpoints w.active.id

/-! ## §7 — The system. -/

inductive Event where
  | append (entry : RaftLogEntry) (io : IoOutcomes)
  | truncatePrefix (beforeIndex : Nat) (io : IoOutcomes)
  | truncateSuffix (fromIndex : Nat) (io : IoOutcomes)
  | sync (io : IoOutcomes)
  /-- `GetEntry` or a `GetEntries` with a non-empty range. -/
  | read (io : IoOutcomes)
  | garbageCollect (beforeIndex : Nat) (io : IoOutcomes)
  | close (io : IoOutcomes)
  | open (create : CreateOutcome)
  deriving DecidableEq

def Event.inRange : Event → Bool
  | .append entry _ => entry.index < 2 ^ 32 && entry.term < 2 ^ 32 && entry.checksum < 2 ^ 32
  | .truncatePrefix index _ | .truncateSuffix index _ | .garbageCollect index _ => index < 2 ^ 64
  | _ => true

def hasNextId (w : WalPersister) : Bool := w.active.id + 1 < 2 ^ 64

/-- One call. Every method but `Open` is called on an open WAL, and `Open` on a closed one. -/
def next (w : WalPersister) (e : Event) : Option WalPersister :=
  if e.inRange then
    match e with
    | .append entry io =>
      if w.opened && w.hasNextId then some (w.appendLogEntry codec entry io).2 else none
    | .truncatePrefix index io =>
      if w.opened && w.hasNextId then some (w.appendTruncatePrefix codec index io).2 else none
    | .truncateSuffix index io =>
      if w.opened && w.hasNextId then some (w.appendTruncateSuffix codec index io).2 else none
    | .sync io => if w.opened then some (w.sync io).2 else none
    | .read io => if w.opened then some (w.flushWriteBuffer io.flush).2 else none
    | .garbageCollect index io => if w.opened then some (w.garbageCollect index io) else none
    | .close io => if w.opened then some (w.close io) else none
    | .open create => if w.opened then none else some (w.openWal codec create).2
  else none

/-- A call that takes place. -/
inductive Does (w : WalPersister) : Event → WalPersister → Prop
  | append {entry io} (hopen : w.opened = true) (hid : w.active.id + 1 < 2 ^ 64) :
      Does w (.append entry io) (w.appendLogEntry codec entry io).2
  | truncatePrefix {i io} (hopen : w.opened = true) (hid : w.active.id + 1 < 2 ^ 64) :
      Does w (.truncatePrefix i io) (w.appendTruncatePrefix codec i io).2
  | truncateSuffix {i io} (hopen : w.opened = true) (hid : w.active.id + 1 < 2 ^ 64) :
      Does w (.truncateSuffix i io) (w.appendTruncateSuffix codec i io).2
  | sync {io} (hopen : w.opened = true) : Does w (.sync io) (w.sync io).2
  | read {io} (hopen : w.opened = true) : Does w (.read io) (w.flushWriteBuffer io.flush).2
  | garbageCollect {i io} (hopen : w.opened = true) : Does w (.garbageCollect i io) (w.garbageCollect i io)
  | close {io} (hopen : w.opened = true) : Does w (.close io) (w.close io)
  | open {create} (hclosed : ¬ w.opened = true) : Does w (.open create) (w.openWal codec create).2

theorem does_of_next {w w' : WalPersister} {e : Event} (h : next codec w e = some w') :
    e.inRange = true ∧ Does codec w e w' := by
  unfold next at h
  split at h
  · refine ⟨‹_›, ?_⟩
    cases e <;> dsimp only at h <;> split at h <;> cases h <;> constructor <;> simp_all [hasNextId]
  · cases h

def system : TransitionSystem WalPersister Event where
  init w := ∃ walDir, w = { walDir := walDir }
  next := next codec

end WalPersister

end RollingRaft
