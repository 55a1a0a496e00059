/-
# RollingRaft.Storage.RotationCrash — a crash in the middle of a segment rotation.

A rotation flushes the old segment, creates the file of the new one, writes its header and rewrites
`meta.json` in place. None of this is atomic. `crashAt` is the directory after any number of these
steps and any number of bytes of the next one; `Open` is run on it. It fails when the new file has no
complete header or when `meta.json` does not parse, and it treats a torn flush as after any other
crash.
-/
import RollingRaft.Storage.CrashAfterSync
import RollingRaft.Storage.SyncCoverage

namespace RollingRaft

open Lib

/-! ## §1 — The steps of a rotation. -/

/-- One file system step. -/
inductive DirStep where
  | write (segmentId offset : Nat) (data : Bytes)
  /-- `open` with `O_CREAT | O_TRUNC`. -/
  | create (segmentId : Nat)
  /-- The constructor of the `std::ofstream`. -/
  | truncateMeta
  | writeMeta (text : Bytes)
  deriving DecidableEq

def WalDir.withFile (dir : WalDir) (segmentId : Nat) (file : Bytes) : WalDir :=
  { dir with segments := FileTable.upsert segmentId file dir.segments }

namespace DirStep

def run (dir : WalDir) : DirStep → WalDir
  | .write segmentId offset data =>
    dir.withFile segmentId (writeAt ((dir.segments.lookup segmentId).getD []) offset data)
  | .create segmentId => dir.withFile segmentId []
  | .truncateMeta => { dir with metaJson := some [] }
  | .writeMeta text => { dir with metaJson := some (dir.metaJson.getD [] ++ text) }

/-- What a crash leaves of a step: `n` bytes of a write; the other steps happen or do not. -/
def cut (n : Nat) : DirStep → Option DirStep
  | .write segmentId offset data => some (.write segmentId offset (data.take n))
  | .writeMeta text => some (.writeMeta (text.take n))
  | .create _ | .truncateMeta => none

end DirStep

/-- The directory after `k` steps and `n` bytes of the next one. -/
def crashAt (steps : List DirStep) (k n : Nat) (dir : WalDir) : WalDir :=
  (steps.take k ++ (steps[k]?.bind (DirStep.cut n)).toList).foldl DirStep.run dir

variable {steps : List DirStep}

theorem crashAt_append_left {k : Nat} (h : k < steps.length) (more : List DirStep) (n : Nat)
    (dir : WalDir) :
    crashAt (steps ++ more) k n dir = crashAt steps k n dir := by
  unfold crashAt
  rw [List.take_append_of_le_length (Nat.le_of_lt h), List.getElem?_append_left h]

theorem crashAt_append_right {k : Nat} (h : steps.length ≤ k) (more : List DirStep) (n : Nat)
    (dir : WalDir) :
    crashAt (steps ++ more) k n dir
      = crashAt more (k - steps.length) n (steps.foldl DirStep.run dir) := by
  unfold crashAt
  rw [List.take_append, List.take_of_length_le h, List.getElem?_append_right h, List.append_assoc,
    List.foldl_append]

namespace WalPersister

variable {codec : WalCodec} {w : WalPersister}

/-- `FlushWriteBufferLocked`. -/
def flushSteps (w : WalPersister) : List DirStep :=
  if w.writeBuf = [] then []
  else
    [.write w.active.id w.active.endOffset w.writeBuf,
      .write w.active.id (w.active.endOffset + w.writeBuf.length)
        (trailer (w.active.endOffset + w.writeBuf.length))]

/-- `CreateSegment` and `SaveMeta`. -/
def createSteps (codec : WalCodec) (index : DenseIndex) (segmentId : Nat) : List DirStep :=
  [.create segmentId, .write segmentId 0 (segmentHeader segmentId kFormatVersionProtobuf),
    .truncateMeta,
    .writeMeta (codec.dumpIndented (metaValue index.firstIndex index.lastIndex segmentId))]

/-- `RotateSegmentIfNeeded`, when a rotation is due. -/
def rotationSteps (codec : WalCodec) (w : WalPersister) : List DirStep :=
  w.flushSteps ++ createSteps codec w.index (w.active.id + 1)

theorem run_flushSteps (w : WalPersister) :
    w.flushSteps.foldl DirStep.run w.dir = w.flushedState.dir := by
  unfold flushSteps flushedState
  split
  · rfl
  · rfl

theorem writeAt_header (header : Bytes) : writeAt [] 0 header = header := by
  simp [writeAt]

theorem run_createSteps (codec : WalCodec) (index : DenseIndex) (segmentId : Nat) (dir : WalDir) :
    (createSteps codec index segmentId).foldl DirStep.run dir =
      { dir.withFile segmentId (segmentHeader segmentId kFormatVersionProtobuf) with
        metaJson := some (codec.dumpIndented
          (metaValue index.firstIndex index.lastIndex segmentId)) } := by
  simp only [createSteps, List.foldl_cons, List.foldl_nil, DirStep.run, WalDir.withFile,
    FileTable.lookup_upsert_self, Option.getD_some, writeAt_header, FileTable.upsert_upsert,
    List.nil_append]

/-- **The steps, all of them, are what a rotation does to the directory.** -/
theorem run_rotationSteps (h : w.needsRotation = true) :
    (rotationSteps codec w).foldl DirStep.run w.dir = (rotatedState codec w).dir := by
  rw [rotationSteps, List.foldl_append, run_flushSteps, run_createSteps, rotatedState, if_pos h]
  show _ = ({ w.flushedState.dir with
    segments := _, metaJson := some (codec.dumpIndented
      (metaValue w.flushedState.index.firstIndex w.flushedState.index.lastIndex (w.active.id + 1))) }
    : WalDir)
  rw [index_flushedState]
  rfl

/-! ## §2 — The directories that a crash can leave. -/

theorem take_segmentHeader {n : Nat} (segmentId format : Nat) (h : kHeaderSize ≤ n) :
    (segmentHeader segmentId format).take n = segmentHeader segmentId format :=
  List.take_of_length_le (by rwa [length_segmentHeader])

theorem crashAt_header (codec : WalCodec) (index : DenseIndex) (segmentId n : Nat) (dir : WalDir) :
    crashAt (createSteps codec index segmentId) 1 n dir
      = dir.withFile segmentId ((segmentHeader segmentId kFormatVersionProtobuf).take n) := by
  simp [crashAt, createSteps, DirStep.cut, DirStep.run, WalDir.withFile, writeAt_header,
    FileTable.upsert_upsert]

/-- A crash while a segment is created: nothing happened, or part of the header is written, or the
header is and part of `meta.json`. -/
theorem crashAt_createSteps (codec : WalCodec) (index : DenseIndex) (segmentId k n : Nat)
    (dir : WalDir) :
    crashAt (createSteps codec index segmentId) k n dir = dir ∨
      (∃ m, crashAt (createSteps codec index segmentId) k n dir =
        dir.withFile segmentId ((segmentHeader segmentId kFormatVersionProtobuf).take m)) ∨
      ∃ m, crashAt (createSteps codec index segmentId) k n dir =
        { dir.withFile segmentId (segmentHeader segmentId kFormatVersionProtobuf) with
          metaJson := some ((codec.dumpIndented
            (metaValue index.firstIndex index.lastIndex segmentId)).take m) } := by
  rcases k with _ | _ | _ | _ | k
  · exact .inl rfl
  · exact .inr (.inl ⟨n, crashAt_header codec index segmentId n dir⟩)
  · refine .inr (.inl ⟨kHeaderSize, ?_⟩)
    rw [take_segmentHeader _ _ le_rfl]
    simp [crashAt, createSteps, DirStep.cut, DirStep.run, WalDir.withFile,
      writeAt_header, FileTable.upsert_upsert]
  · refine .inr (.inr ⟨n, ?_⟩)
    simp [crashAt, createSteps, DirStep.cut, DirStep.run, WalDir.withFile,
      writeAt_header, FileTable.upsert_upsert]
  · refine .inr (.inr ⟨(codec.dumpIndented
      (metaValue index.firstIndex index.lastIndex segmentId)).length, ?_⟩)
    rw [List.take_length, ← run_createSteps]
    unfold crashAt
    rw [List.take_of_length_le (by simp [createSteps]), List.getElem?_eq_none (by simp [createSteps])]
    rfl

variable {file : Bytes}

theorem writeAt_nil {offset : Nat} (h : offset ≤ file.length) : writeAt file offset [] = file := by
  rw [writeAt, Nat.sub_eq_zero_of_le h, List.replicate_zero, List.append_nil, List.append_nil,
    List.length_nil, Nat.add_zero, List.take_append_drop]

theorem le_length_writeAt (file : Bytes) (offset : Nat) (data : Bytes) :
    offset + data.length ≤ (writeAt file offset data).length := by
  simp only [writeAt, List.length_append, List.length_take, List.length_replicate, List.length_drop]
  omega

theorem crashAt_flushSteps (w : WalPersister) {k : Nat} (hk : k < w.flushSteps.length) (n : Nat) :
    ∃ m, crashAt w.flushSteps k n w.dir = w.dir.withFile w.active.id (applyWrites m
      [.write w.active.id w.active.endOffset w.writeBuf,
        .write w.active.id (w.active.endOffset + w.writeBuf.length)
          (trailer (w.active.endOffset + w.writeBuf.length))] (w.file w.active.id)) := by
  have hne : w.writeBuf ≠ [] := by
    intro hempty
    rw [flushSteps, if_pos hempty] at hk
    exact absurd hk (Nat.not_lt_zero k)
  have hsteps : w.flushSteps = [.write w.active.id w.active.endOffset w.writeBuf,
      .write w.active.id (w.active.endOffset + w.writeBuf.length)
        (trailer (w.active.endOffset + w.writeBuf.length))] := by
    rw [flushSteps, if_neg hne]
  rw [hsteps] at hk ⊢
  have hfirst := le_length_writeAt (w.file w.active.id) w.active.endOffset w.writeBuf
  rcases k with _ | _ | k
  · -- in the records
    by_cases hn : n < w.writeBuf.length
    · refine ⟨n, ?_⟩
      rw [applyWrites, if_pos hn]
      rfl
    refine ⟨w.writeBuf.length, ?_⟩
    rw [applyWrites, if_neg (Nat.lt_irrefl _), Nat.sub_self, applyWrites,
      if_pos (by rw [length_trailer]; decide), List.take_zero, writeAt_nil hfirst]
    show w.dir.withFile w.active.id
      (writeAt (w.file w.active.id) w.active.endOffset (w.writeBuf.take n)) = _
    rw [List.take_of_length_le (Nat.le_of_not_lt hn)]
  · -- in the trailer
    have hlast : ∀ data, crashAt [.write w.active.id w.active.endOffset w.writeBuf,
          .write w.active.id (w.active.endOffset + w.writeBuf.length) data] 1 n w.dir
        = w.dir.withFile w.active.id (writeAt (writeAt (w.file w.active.id) w.active.endOffset
            w.writeBuf) (w.active.endOffset + w.writeBuf.length) (data.take n)) := by
      intro data
      simp only [crashAt, List.take_succ_cons, List.take_zero, List.getElem?_cons_succ,
        List.getElem?_cons_zero, Option.bind_some, DirStep.cut, Option.toList_some,
        List.cons_append, List.nil_append, List.foldl_cons, List.foldl_nil, DirStep.run,
        WalDir.withFile, FileTable.lookup_upsert_self, Option.getD_some, FileTable.upsert_upsert]
      rfl
    rw [Nat.zero_add, hlast]
    by_cases hn : n < kTrailerSize
    · refine ⟨w.writeBuf.length + n, ?_⟩
      rw [applyWrites, if_neg (by omega), Nat.add_sub_cancel_left, applyWrites,
        if_pos (by rw [length_trailer]; exact hn)]
    refine ⟨w.writeBuf.length + kTrailerSize, ?_⟩
    rw [applyWrites, if_neg (by omega), Nat.add_sub_cancel_left, applyWrites,
      if_neg (by rw [length_trailer]; exact Nat.lt_irrefl _), applyWrites,
      List.take_of_length_le (by rw [length_trailer]; exact Nat.le_of_not_lt hn)]
  · simp only [List.length_cons, List.length_nil] at hk
    omega

def onDir (w : WalPersister) (dir : WalDir) : WalPersister := { w.closed with dir := dir }

theorem loadMeta_of_openWal {create : CreateOutcome} (h : (w.openWal codec create).1 = .ok) :
    loadMeta codec w.dir = .ok := by
  unfold openWal at h
  cases hmeta : loadMeta codec w.dir with
  | ok => rfl
  | corruption | error =>
    rw [hmeta] at h
    cases h

/-- `Open` fails when the last file has no complete header. -/
theorem openWal_short_header {segments : List SegmentLog} {files : FileTable}
    (hfiles : Stored files segments) (hsound : ∀ s ∈ segments, s.Sound codec) {id : Nat}
    (hsegments : w.dir.segments = files ++ [(id, file)]) (hshort : file.length < kHeaderSize)
    (create : CreateOutcome) : (w.openWal codec create).1 ≠ .ok := by
  intro hok
  have hne : w.dir.segments ≠ [] := by
    rw [hsegments]
    simp
  have hheader : openSegment w.walDir id (some file)
      = .error (.error (ascii "Failed to read segment header: " ++ segmentPath w.walDir id)) := by
    unfold openSegment
    dsimp only
    rw [if_pos hshort]
  have hscan := scanSegments_append w.walDir (startingPoint w.dir).2 hfiles hsound [(id, file)]
    (startingPoint w.dir).1
  rw [← hsegments, scanSegments, hheader] at hscan
  unfold openWal at hok
  rw [loadMeta_of_openWal hok] at hok
  dsimp only at hok
  rw [if_neg hne, hscan] at hok
  cases hok

/-! ## §3 — `Open` after a crash in a rotation. -/

/-- `Open` succeeds and gives the records of the files and a leading part of the buffer. When it gives
all of them, the log is the map that it was, and reads the same. -/
def KeepsRecords (codec : WalCodec) (w : WalPersister) (recovered : StoreStatus × WalPersister) :
    Prop :=
  recovered.1 = .ok ∧ ∃ front current flushed buffered done rest,
    OpenContent codec w front current flushed buffered ∧ buffered = done ++ rest ∧
    (OpenContent codec recovered.2 front { current with records := flushed ++ done }
        (flushed ++ done) [] ∨
      rest = [] ∧
        OpenContent codec recovered.2 (front ++ [current]) (freshSegment (current.id + 1)) [] []) ∧
    (rest = [] → recovered.2.index.get = w.index.get ∧
      ∀ i, (recovered.2.getEntry codec i {}).1 = (w.getEntry codec i {}).1)

/-- The condition on the directory: `meta.json` parses, every segment file has a complete header, and
as long as there is no new file the old one is recoverable. -/
def RotationRecoverable (codec : WalCodec) (w : WalPersister) (dir : WalDir) : Prop :=
  loadMeta codec dir = .ok ∧ (∀ f ∈ dir.segments, kHeaderSize ≤ f.2.length) ∧
    (dir.segments.lookup (w.active.id + 1) = none →
      Recoverable codec w.active.id ((dir.segments.lookup w.active.id).getD []) w.active.endOffset)

section Rotation

variable {front : List SegmentLog} {current : SegmentLog} {flushed buffered : List WALRecord}
  {recovered : StoreStatus × WalPersister}

theorem keepsRecords_of_flushed (h : OpenContent codec w front current flushed buffered)
    {done rest : List WALRecord} (hsplit : buffered = done ++ rest) (hok : recovered.1 = .ok)
    (hopened : OpenContent codec recovered.2 front { current with records := flushed ++ done }
      (flushed ++ done) [])
    (hdir : recovered.2.walDir = w.walDir) : KeepsRecords codec w recovered := by
  refine ⟨hok, front, current, flushed, buffered, done, rest, h, hsplit, .inl hopened, ?_⟩
  intro hrest
  have hall : { current with records := flushed ++ done } = current := by
    rw [show flushed ++ done = current.records by rw [h.records, hsplit, hrest, List.append_nil]]
  rw [hall] at hopened
  exact reads_of_sameRecords ⟨_, _, _, _, _, _, h, hopened⟩ hdir clean_default

theorem keepsRecords_of_created (h : OpenContent codec w front current flushed buffered)
    (hok : recovered.1 = .ok)
    (hopened : OpenContent codec recovered.2 (front ++ [current]) (freshSegment (current.id + 1)) [] [])
    (hdir : recovered.2.walDir = w.walDir) : KeepsRecords codec w recovered := by
  refine ⟨hok, front, current, flushed, buffered, buffered, [], h, (List.append_nil _).symm,
    .inr ⟨rfl, hopened⟩, fun _ => ?_⟩
  have hindex : recovered.2.index.get = w.index.get := by
    rw [hopened.index, mapOf_freshSegment, h.index]
  exact ⟨hindex, fun i => getEntry_congr h.logFiles hopened.logFiles hindex
    (fun _ hs _ => List.mem_append_left _ hs) hdir clean_default i⟩

variable {segments : List SegmentLog} {dir dir' : WalDir}

/-- `Open` makes the new segment active. -/
structure OpensNew (codec : WalCodec) (w : WalPersister) (dir : WalDir) (segments : List SegmentLog)
    (id : Nat) : Prop where
  ok : ((w.onDir dir).openWal codec .ok).1 = .ok
  opened : OpenContent codec ((w.onDir dir).openWal codec .ok).2 segments (freshSegment id) [] []
  walDir : ((w.onDir dir).openWal codec .ok).2.walDir = w.walDir
  metaJson : loadMeta codec dir = .ok
  headers : ∀ f ∈ dir.segments, kHeaderSize ≤ f.2.length
  found : dir.segments.lookup id ≠ none

theorem header_le_of_stored {files : FileTable} (h : Stored files segments) :
    ∀ f ∈ files, kHeaderSize ≤ f.2.length := by
  induction h with
  | nil => exact fun f hf => absurd hf List.not_mem_nil
  | @cons f s files segments hfile _ ih =>
    intro g hg
    rcases List.mem_cons.mp hg with rfl | hg
    · have hle := s.le_endOffset
      rcases hfile.2 with heq | ⟨-, heq⟩
      · rw [heq, List.length_append, SegmentLog.length_body]
        omega
      · rw [heq, SegmentLog.length_body]
        exact hle
    · exact ih g hg

/-- A segment that is being created behind the others: with its header, everything depends on
`meta.json`. -/
theorem openWal_created {id : Nat} (hcontent : Content codec dir segments)
    (hck : Checkpointed codec dir.checkpoints segments) (hlt : ∀ s ∈ segments, s.id < id)
    (hid : id < 2 ^ 64)
    (hsegments : dir'.segments = FileTable.upsert id (segmentHeader id kFormatVersionProtobuf) dir.segments)
    (hcheckpoints : dir'.checkpoints = dir.checkpoints) (hmeta : loadMeta codec dir' = .ok) :
    OpensNew codec w dir' segments id := by
  have hnew := content_created hcontent hlt hid hsegments hmeta
  have hclosed : ClosedContent codec (w.onDir dir') segments (freshSegment id) := by
    refine ⟨rfl, rfl, hnew, rfl, ?_⟩
    show Checkpointed codec dir'.checkpoints _
    rw [hcheckpoints]
    exact checkpointed_append hck _
  obtain ⟨hok, hopened, hwalDir⟩ := hclosed.opened .ok
  refine ⟨hok, hopened, hwalDir, hmeta, header_le_of_stored hnew.stored, ?_⟩
  rw [hsegments, FileTable.lookup_upsert_self]
  exact Option.some_ne_none _

theorem torn_of_flush (h : OpenContent codec w front current flushed buffered)
    (hsaved : SavedFlushed codec w front current flushed) (hne : buffered ≠ []) (m : Nat) :
    ∃ files more rest image, buffered = more ++ rest ∧
      TornDir codec (w.onDir (w.dir.withFile w.active.id image)) files front
        { current with records := flushed } more image ∧
      (∀ f ∈ files, f.1 < current.id) ∧
      image = applyWrites m [.write w.active.id w.active.endOffset w.writeBuf,
        .write w.active.id (w.active.endOffset + w.writeBuf.length)
          (trailer (w.active.endOffset + w.writeBuf.length))] (w.file w.active.id) := by
  obtain ⟨files, file, hfiles, hnames, hfront, hholds⟩ :=
    last_file (s := { current with records := flushed }) h.front_lt h.content.stored
  have hfile : w.file w.active.id = file := by
    rw [WalPersister.file, h.id, hfiles, lookup_last hnames]
    rfl
  have hwrites : flushWrites { current with records := flushed } [buffered]
      = [.write w.active.id w.active.endOffset w.writeBuf,
        .write w.active.id (w.active.endOffset + w.writeBuf.length)
          (trailer (w.active.endOffset + w.writeBuf.length))] := by
    have hend : w.active.endOffset = SegmentLog.endOffset { current with records := flushed } :=
      h.endOffset
    have hcurrent : { current with records := flushed ++ buffered } = current := by
      rw [← h.records]
    rw [h.end_eq, hend, h.id, h.buffer, flushWrites, flushWrites, hcurrent]
  have hchunks : ∀ c ∈ [buffered], c ≠ [] := by
    intro c hc
    rw [List.mem_singleton.mp hc]
    exact hne
  have hflat : [buffered].flatten = buffered := List.flatten_singleton
  have hsize : ∀ r ∈ [buffered].flatten, r.payload.length ≤ kMaxRecordSize := by
    intro r hr
    refine (h.sound.readable r ?_).size
    rw [h.records]
    exact List.mem_append_right _ (hflat ▸ hr)
  obtain ⟨more, rest, tail, hsplit, himage, htail⟩ := torn_shape hchunks hsize hholds m
  rw [hflat] at hsplit
  rw [hwrites, ← hfile] at himage
  have hcontent : OpenContent codec w front { current with records := flushed ++ more ++ rest }
      flushed buffered := by
    rw [List.append_assoc, ← hsplit, ← h.records]
    exact h
  refine ⟨files, more, rest, _, hsplit, ?_, hnames, rfl⟩
  refine OpenContent.tornDir (s := { current with records := flushed }) hcontent ?_ hfront
    ⟨tail, himage, htail⟩ rfl hsaved rfl rfl
  show FileTable.upsert w.active.id _ w.dir.segments = _
  rw [h.id, hfiles, FileTable.upsert_last hnames]

/-- **A crash in the flush** of the old segment. -/
theorem flush_crash (h : OpenContent codec w front current flushed buffered)
    (hsaved : SavedFlushed codec w front current flushed) {k : Nat} (hk : k < w.flushSteps.length)
    (n : Nat) :
    KeepsRecords codec w ((w.onDir (crashAt w.flushSteps k n w.dir)).openWal codec .ok) ↔
      RotationRecoverable codec w (crashAt w.flushSteps k n w.dir) := by
  have hne : buffered ≠ [] := by
    rintro rfl
    have hempty : w.writeBuf = [] := h.buffer
    rw [flushSteps, if_pos hempty] at hk
    exact absurd hk (Nat.not_lt_zero k)
  obtain ⟨m, hcrash⟩ := crashAt_flushSteps w hk n
  obtain ⟨files, more, rest, image, hsplit, htorn, hnames, himage⟩ := torn_of_flush h hsaved hne m
  rw [hcrash, ← himage]
  have hsegments : (w.dir.withFile w.active.id image).segments = files ++ [(current.id, image)] :=
    htorn.segments
  have hlast : (w.dir.withFile w.active.id image).segments.lookup w.active.id = some image := by
    rw [hsegments, h.id, lookup_last hnames]
  have hnone : (w.dir.withFile w.active.id image).segments.lookup (w.active.id + 1) = none := by
    apply FileTable.lookup_eq_none
    intro f hf
    rw [hsegments] at hf
    rw [h.id]
    rcases List.mem_append.mp hf with hf | hf
    · have := hnames f hf
      omega
    · rw [List.mem_singleton.mp hf]
      exact (Nat.succ_ne_self _).symm
  have hend : w.active.endOffset = SegmentLog.endOffset { current with records := flushed } :=
    h.endOffset
  have hheaders : ∀ f ∈ (w.dir.withFile w.active.id image).segments, kHeaderSize ≤ f.2.length := by
    intro f hf
    rw [hsegments] at hf
    rcases List.mem_append.mp hf with hf | hf
    · exact header_le_of_stored htorn.files f hf
    · obtain ⟨tail, himage', -⟩ := htorn.image
      rw [List.mem_singleton.mp hf, himage', List.length_append, SegmentLog.length_body]
      exact Nat.le_add_right_of_le (SegmentLog.le_endOffset _)
  constructor
  · rintro ⟨-, front', current', flushed', buffered', done, rest', hw, -, hopened, -⟩
    refine ⟨htorn.metaJson, hheaders, fun _ => ?_⟩
    rw [hlast, Option.getD_some, h.id, hend]
    rcases hopened with hopened | ⟨-, hopened⟩
    · -- what was opened has at least the records that were in the files
      refine htorn.recoverable hopened fun _ => ?_
      rw [← hend, hw.endOffset, SegmentLog.endOffset, encodeAll_append, List.length_append]
      omega
    · refine htorn.recoverable hopened fun hid => ?_
      have hid : current'.id + 1 = current.id := hid
      rw [← hw.id, ← h.id] at hid
      exact absurd hid (Nat.succ_ne_self _)
  · rintro ⟨-, -, hrec⟩
    have hrec := hrec hnone
    rw [hlast, Option.getD_some, h.id, hend] at hrec
    obtain ⟨done, behind, rfl, hok, hopened, hwalDir⟩ := htorn.recovered hrec .ok
    rw [List.append_assoc] at hsplit
    exact keepsRecords_of_flushed h hsplit hok hopened hwalDir

/-- **A crash while a segment is created** behind the others: nothing has happened yet, or `Open`
succeeds exactly when `meta.json` parses and the headers are complete, and makes the new segment
active. -/
theorem create_crash {id : Nat} (hcontent : Content codec dir segments)
    (hck : Checkpointed codec dir.checkpoints segments) (hlt : ∀ s ∈ segments, s.id < id)
    (hid : id < 2 ^ 64) (index : DenseIndex) (k n : Nat)
    (hcrash : crashAt (createSteps codec index id) k n dir = dir') :
    dir' = dir ∨
      OpensNew codec w dir' segments id ∨
      ((w.onDir dir').openWal codec .ok).1 ≠ .ok ∧
        ¬ (loadMeta codec dir' = .ok ∧ ∀ f ∈ dir'.segments, kHeaderSize ≤ f.2.length) := by
  rcases crashAt_createSteps codec index id k n dir with heq | ⟨m, heq⟩ | ⟨m, heq⟩
  · exact .inl (hcrash.symm.trans heq)
  · obtain rfl := hcrash.symm.trans heq
    by_cases hm : kHeaderSize ≤ m
    · refine .inr (.inl (openWal_created hcontent hck hlt hid ?_ rfl hcontent.metaJson))
      show FileTable.upsert id ((segmentHeader id kFormatVersionProtobuf).take m) dir.segments = _
      rw [take_segmentHeader _ _ hm]
    have hshort : ((segmentHeader id kFormatVersionProtobuf).take m).length < kHeaderSize := by
      rw [List.length_take]
      omega
    have hsegments : (dir.withFile id ((segmentHeader id kFormatVersionProtobuf).take m)).segments
        = dir.segments ++ [(id, (segmentHeader id kFormatVersionProtobuf).take m)] :=
      FileTable.upsert_of_lt (stored_lt hcontent.stored hlt)
    refine .inr (.inr ⟨openWal_short_header hcontent.stored hcontent.sound hsegments hshort .ok, ?_⟩)
    rintro ⟨-, hheaders⟩
    have hlong := hheaders (id, (segmentHeader id kFormatVersionProtobuf).take m)
      (by rw [hsegments]; exact List.mem_append_right _ List.mem_cons_self)
    exact Nat.not_lt.mpr hlong hshort
  · obtain rfl := hcrash.symm.trans heq
    by_cases hmeta : loadMeta codec { dir.withFile id (segmentHeader id kFormatVersionProtobuf) with
        metaJson := some ((codec.dumpIndented
          (metaValue index.firstIndex index.lastIndex id)).take m) } = .ok
    · exact .inr (.inl (openWal_created hcontent hck hlt hid rfl rfl hmeta))
    · exact .inr (.inr ⟨fun hok => hmeta (loadMeta_of_openWal hok), fun h => hmeta h.1⟩)

theorem OpenContent.content_flushed (h : OpenContent codec w front current flushed buffered) :
    Content codec w.flushedState.dir (front ++ [current]) := by
  have hflush := h.afterFlush.content
  rwa [← h.records] at hflush

/-- **A crash behind the flush.** -/
theorem creation_crash (h : OpenContent codec w front current flushed buffered)
    (hid : w.active.id + 1 < 2 ^ 64) (k n : Nat)
    (hcrash : crashAt (createSteps codec w.index (w.active.id + 1)) k n w.flushedState.dir = dir') :
    KeepsRecords codec w ((w.onDir dir').openWal codec .ok) ↔ RotationRecoverable codec w dir' := by
  have hcurrent : { current with records := flushed ++ buffered } = current := by
    rw [← h.records]
  have hflush := h.afterFlush
  have hcontent := h.content_flushed
  rcases create_crash (w := w) hcontent hflush.checkpoints (lt_next_id h.id h.front_lt) hid w.index
    k n hcrash with
    rfl | hnew | ⟨hfails, hbad⟩
  · -- the old segment is complete and there is no other
    have hclosed : ClosedContent codec (w.onDir w.flushedState.dir) front current :=
      ⟨rfl, rfl, hcontent, h.format, hflush.checkpoints⟩
    obtain ⟨hok, hopened, hwalDir⟩ := hclosed.opened .ok
    rw [h.records, ← hcurrent] at hopened
    refine iff_of_true (keepsRecords_of_flushed h (List.append_nil _).symm hok hopened hwalDir) ?_
    obtain ⟨files, file, hfiles, hnames, -, hholds⟩ := last_file h.front_lt hcontent.stored
    refine ⟨hcontent.metaJson, header_le_of_stored hcontent.stored, fun _ => ?_⟩
    rw [h.id, hfiles, lookup_last hnames, Option.getD_some]
    refine recoverable_of_whole h.sound hholds ?_
    rw [← h.end_eq]
    exact Nat.le_add_right _ _
  · have hopened := hnew.opened
    rw [h.id] at hopened
    exact iff_of_true (keepsRecords_of_created h hnew.ok hopened hnew.walDir)
      ⟨hnew.metaJson, hnew.headers, fun hnone => absurd hnone hnew.found⟩
  · exact iff_of_false (fun hkeeps => hfails hkeeps.1) fun hrec => hbad ⟨hrec.1, hrec.2.1⟩

end Rotation

/-- **A crash anywhere in a rotation or in the creation of the first segment.** After any history
without I/O failures, a crash behind any number of steps of a rotation and any number of bytes of the
next one leaves a directory whose `Open` keeps the records exactly when the directory meets the
condition; a crash in the first `Open` leaves one whose `Open` succeeds exactly when `meta.json`
parses and the segment file has a complete header. -/
theorem rotation_crash_recovered (hcodec : codec.Lawful) (k n : Nat) :
    (∀ w, (system codec).ReachableWith (fun _ e => e.Succeeds) w → w.opened = true →
      w.hasNextId = true →
      (KeepsRecords codec w
          ((w.onDir (crashAt (rotationSteps codec w) k n w.dir)).openWal codec .ok) ↔
        RotationRecoverable codec w (crashAt (rotationSteps codec w) k n w.dir))) ∧
    ∀ walDir, let dir := crashAt (createSteps codec {} 1) k n {}
      (((onDir { walDir := walDir } dir).openWal codec .ok).1 = .ok ∧
          OpenContent codec ((onDir { walDir := walDir } dir).openWal codec .ok).2 [] (freshSegment 1)
            [] []) ↔
        loadMeta codec dir = .ok ∧ ∀ f ∈ dir.segments, kHeaderSize ≤ f.2.length := by
  constructor
  · intro w hreach hopen hid
    obtain ⟨front, current, flushed, buffered, h, hsaved⟩ :=
      (held_calls hcodec hreach).openContent hopen
    by_cases hk : k < w.flushSteps.length
    · rw [rotationSteps, crashAt_append_left hk]
      exact flush_crash h (hsaved rfl) hk n
    rw [rotationSteps, crashAt_append_right (Nat.le_of_not_lt hk), run_flushSteps]
    exact creation_crash h (of_decide_eq_true hid) _ n rfl
  · intro walDir
    have hcontent : Content codec {} [] :=
      ⟨.nil, .nil, fun _ hs => absurd hs List.not_mem_nil, fun _ hs => absurd hs List.not_mem_nil, rfl⟩
    rcases create_crash (w := { walDir := walDir }) hcontent
      (fun _ hc => absurd hc List.not_mem_nil) (fun _ hs => absurd hs List.not_mem_nil)
      (show 1 < 2 ^ 64 by decide) {} k n rfl with
      hnothing | hnew | ⟨hfails, hbad⟩
    · -- the next `Open` creates the first segment
      rw [hnothing]
      exact iff_of_true ⟨rfl, openContent_first hcodec walDir⟩
        ⟨rfl, fun _ hf => absurd hf List.not_mem_nil⟩
    · exact iff_of_true ⟨hnew.ok, hnew.opened⟩ ⟨hnew.metaJson, hnew.headers⟩
    · exact iff_of_false (fun h => hfails h.1) hbad

/-- A log that is due for rotation, and a crash between the header of the new segment and
`meta.json`. -/
theorem rotation_crash_recovered_before_meta :
    ∃ w : WalPersister, (system wireCodec).ReachableWith (fun _ e => e.Succeeds) w ∧
      w.opened = true ∧ w.needsRotation = true ∧
      KeepsRecords wireCodec w ((w.onDir (crashAt (rotationSteps wireCodec w) (w.flushSteps.length + 1)
        kHeaderSize w.dir)).openWal wireCodec .ok) := by
  obtain ⟨w, hreach, hfill⟩ := exists_filling (C := fun _ e => e.Succeeds) (fun _ => rfl)
    (fun _ _ _ _ => clean_default) kMaxSegmentEntries (Nat.le_refl _)
  obtain ⟨front, current, flushed, buffered, h, -⟩ :=
    (held_calls wireCodec_lawful hreach).openContent hfill.opened
  have hid : w.hasNextId = true := by simp [hasNextId, hfill.id]
  refine ⟨w, hreach, hfill.opened, hfill.needsRotation,
    ((rotation_crash_recovered wireCodec_lawful _ _).1 w hreach hfill.opened hid).mpr ?_⟩
  rw [rotationSteps, crashAt_append_right (Nat.le_add_right _ 1), run_flushSteps,
    Nat.add_sub_cancel_left, crashAt_header, take_segmentHeader _ _ le_rfl]
  have hnew : OpensNew wireCodec w (w.flushedState.dir.withFile (w.active.id + 1)
      (segmentHeader (w.active.id + 1) kFormatVersionProtobuf)) (front ++ [current]) (w.active.id + 1) :=
    openWal_created h.content_flushed h.afterFlush.checkpoints (lt_next_id h.id h.front_lt)
      (of_decide_eq_true hid) rfl rfl h.content_flushed.metaJson
  exact ⟨hnew.metaJson, hnew.headers, fun hnone => absurd hnone hnew.found⟩

/-- A crash right behind the creation of the new file: a log that is due for rotation, or one that is
opened for the first time, cannot be opened any more. Neither can one whose `meta.json` was truncated
and not yet written. -/
theorem rotation_crash_open_fails :
    (∃ w : WalPersister, (system wireCodec).ReachableWith (fun _ e => e.Succeeds) w ∧
      w.opened = true ∧ w.needsRotation = true ∧ ∃ k,
        ((w.onDir (crashAt (rotationSteps wireCodec w) k 0 w.dir)).openWal wireCodec .ok).1 ≠ .ok) ∧
    ((onDir { walDir := ascii "/wal" } (crashAt (createSteps wireCodec {} 1) 1 0 {})).openWal wireCodec
      .ok).1 = .error (ascii "Failed to read segment header: /wal/1.wal") ∧
    ((onDir { walDir := ascii "/wal" } (crashAt (createSteps wireCodec {} 1) 3 0 {})).openWal wireCodec
      .ok).1 ≠ .ok := by
  refine ⟨?_, by decide +kernel, by decide +kernel⟩
  obtain ⟨w, hreach, hfill⟩ := exists_filling (C := fun _ e => e.Succeeds) (fun _ => rfl)
    (fun _ _ _ _ => clean_default) kMaxSegmentEntries (Nat.le_refl _)
  refine ⟨w, hreach, hfill.opened, hfill.needsRotation, w.flushSteps.length + 1, ?_⟩
  obtain ⟨front, current, flushed, buffered, h, -⟩ :=
    (held_calls wireCodec_lawful hreach).openContent hfill.opened
  have hsegments : (w.onDir (crashAt (createSteps wireCodec w.index (w.active.id + 1)) 1 0
      w.flushedState.dir)).dir.segments = w.flushedState.dir.segments ++ [(w.active.id + 1, [])] := by
    rw [crashAt_header, List.take_zero]
    exact FileTable.upsert_of_lt (stored_lt (stored_flushedState h) (lt_next_id h.id h.front_lt))
  rw [rotationSteps, crashAt_append_right (Nat.le_add_right _ 1), run_flushSteps,
    Nat.add_sub_cancel_left]
  exact openWal_short_header h.logFiles.stored h.logFiles.sound hsegments (by decide) .ok

end WalPersister

end RollingRaft
