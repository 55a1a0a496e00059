/-
# RollingRaft.Storage.OpenLog — the content of an open log, call by call.

`OpenContent` ties an open log to the content of its directory: the records of the last segment are
divided into those in the file and those in the buffer, and the index is the map of all of them. Every
call without an I/O failure keeps it: a flush moves the buffer into the file, a rotation starts a fresh
segment behind the others, an append adds its record and replays it in the index, and `Close` and
`Open` go to a closed content and back. `Grows` says what is never lost on the way.
-/
import RollingRaft.Storage.WalContent

namespace RollingRaft

open Lib

namespace WalPersister

variable {codec : WalCodec} {w : WalPersister}

/-! ## §1 — Open logs. -/

/-- An open log: the records of the last segment are in the file and then in the buffer. -/
structure OpenContent (codec : WalCodec) (w : WalPersister) (front : List SegmentLog)
    (current : SegmentLog) (flushed buffered : List WALRecord) : Prop where
  opened : w.opened = true
  fd : w.active.fd = true
  content : Content codec w.dir (front ++ [{ current with records := flushed }])
  id : w.active.id = current.id
  format : current.format = kFormatVersionProtobuf
  records : current.records = flushed ++ buffered
  endOffset : w.active.endOffset = kHeaderSize + (encodeAll flushed).length
  buffer : w.writeBuf = encodeAll buffered
  sound : current.Sound codec
  small : ∀ e ∈ current.effects codec, e.Small
  index : w.index.get = mapOf codec (front ++ [current])
  storable : w.index.Storable
  checkpoints : Checkpointed codec w.dir.checkpoints (front ++ [current])

/-- The checkpoints stand for records that are in the files. -/
def SavedFlushed (codec : WalCodec) (w : WalPersister) (front : List SegmentLog)
    (current : SegmentLog) (flushed : List WALRecord) : Prop :=
  Checkpointed codec w.dir.checkpoints (front ++ [{ current with records := flushed }])

/-- The segments are still there, with more records. -/
def Extended (segments segments' : List SegmentLog) : Prop :=
  ∀ s ∈ segments, ∃ more, { s with records := s.records ++ more } ∈ segments'

theorem extended_of_subset {segments segments' : List SegmentLog}
    (h : ∀ s ∈ segments, s ∈ segments') : Extended segments segments' := by
  intro s hs
  refine ⟨[], ?_⟩
  rw [List.append_nil]
  exact h s hs

theorem Extended.trans {segments segments' segments'' : List SegmentLog}
    (h : Extended segments segments') (h' : Extended segments' segments'') :
    Extended segments segments'' := by
  intro s hs
  obtain ⟨more, hs'⟩ := h s hs
  obtain ⟨more', hs''⟩ := h' _ hs'
  refine ⟨more ++ more', ?_⟩
  rw [← List.append_assoc]
  exact hs''

/-- How a log goes on: no record is lost, and checkpoints of flushed records stay such. -/
structure Grows (codec : WalCodec) (w : WalPersister) (front : List SegmentLog)
    (current : SegmentLog) (flushed : List WALRecord) (w' : WalPersister)
    (front' : List SegmentLog) (current' : SegmentLog) (flushed' : List WALRecord) : Prop where
  segments : Extended (front ++ [current]) (front' ++ [current'])
  saved : SavedFlushed codec w front current flushed → SavedFlushed codec w' front' current' flushed'

theorem Grows.refl (codec : WalCodec) (w : WalPersister) (front : List SegmentLog)
    (current : SegmentLog) (flushed : List WALRecord) :
    Grows codec w front current flushed w front current flushed :=
  ⟨extended_of_subset fun _ hs => hs, fun hsaved => hsaved⟩

theorem Grows.trans {w' w'' : WalPersister} {front front' front'' : List SegmentLog}
    {current current' current'' : SegmentLog} {flushed flushed' flushed'' : List WALRecord}
    (h : Grows codec w front current flushed w' front' current' flushed')
    (h' : Grows codec w' front' current' flushed' w'' front'' current'' flushed'') :
    Grows codec w front current flushed w'' front'' current'' flushed'' :=
  ⟨h.segments.trans h'.segments, fun hsaved => h'.saved (h.saved hsaved)⟩

section OpenContent

variable {front : List SegmentLog} {current : SegmentLog} {flushed buffered : List WALRecord}
  {done : Nat → WalPersister → WalPersister} {r : WALRecord} {io : IoOutcomes}

/-- An open log with nothing in its buffer. The last segment may have any format. -/
structure IdleContent (codec : WalCodec) (w : WalPersister) (front : List SegmentLog)
    (last : SegmentLog) : Prop where
  opened : w.opened = true
  fd : w.active.fd = true
  content : Content codec w.dir (front ++ [last])
  id : w.active.id = last.id
  endOffset : w.active.endOffset = last.endOffset
  buffer : w.writeBuf = []
  index : w.index.get = mapOf codec (front ++ [last])
  storable : w.index.Storable
  checkpoints : Checkpointed codec w.dir.checkpoints (front ++ [last])

theorem OpenContent.idle (h : OpenContent codec w front current flushed []) :
    IdleContent codec w front current := by
  have hflushed : flushed = current.records := by
    rw [h.records, List.append_nil]
  subst hflushed
  exact ⟨h.opened, h.fd, h.content, h.id, h.endOffset, h.buffer, h.index, h.storable, h.checkpoints⟩

theorem IdleContent.openContent (h : IdleContent codec w front current)
    (hformat : current.format = kFormatVersionProtobuf) :
    OpenContent codec w front current current.records [] where
  opened := h.opened
  fd := h.fd
  content := h.content
  id := h.id
  format := hformat
  records := (List.append_nil _).symm
  endOffset := h.endOffset
  buffer := h.buffer
  sound := h.content.sound current (List.mem_append_right _ List.mem_cons_self)
  small := h.content.small current (List.mem_append_right _ List.mem_cons_self)
  index := h.index
  storable := h.storable
  checkpoints := h.checkpoints

theorem idle_of_openWal (h : Content codec w.dir (front ++ [current]))
    (hck : Checkpointed codec w.dir.checkpoints (front ++ [current])) (hbuf : w.writeBuf = [])
    (create : CreateOutcome) :
    (w.openWal codec create).1 = .ok ∧ IdleContent codec (w.openWal codec create).2 front current ∧
      (w.openWal codec create).2.walDir = w.walDir := by
  obtain ⟨index, hget, hstorable, hopen⟩ := openWal_content h hck create
  rw [hopen]
  exact ⟨rfl, ⟨rfl, rfl, h, rfl, rfl, hbuf, hget, hstorable, hck⟩, rfl⟩

variable {s : SegmentLog} {file payload : Bytes} {files checkpoints : FileTable} {id : Nat}
  {segments : List SegmentLog} {entry : RaftLogEntry}

theorem holds_after_write (h : s.Holds file) {more : List WALRecord} (hmore : encodeAll more ≠ []) :
    SegmentLog.Holds { s with records := s.records ++ more }
      (writeAt (writeAt file s.endOffset (encodeAll more)) (s.endOffset + (encodeAll more).length)
        (trailer (s.endOffset + (encodeAll more).length))) := by
  have hold : ∃ old : Bytes, file = s.body ++ old ∧ old.length ≤ (encodeAll more).length := by
    rcases h with rfl | ⟨-, rfl⟩
    · exact ⟨_, rfl, by rw [length_trailer]; exact length_encodeAll_of_ne_nil hmore⟩
    · exact ⟨[], (List.append_nil _).symm, Nat.zero_le _⟩
  obtain ⟨old, rfl, hlen⟩ := hold
  have hfirst : writeAt (s.body ++ old) s.endOffset (encodeAll more) = s.body ++ encodeAll more := by
    rw [← s.length_body]
    exact writeAt_end hlen
  have hend : s.endOffset + (encodeAll more).length = (s.body ++ encodeAll more).length := by
    rw [List.length_append, SegmentLog.length_body]
  refine .inl ?_
  rw [hfirst, hend, writeAt_length, SegmentLog.body_append, ← SegmentLog.length_body,
    SegmentLog.body_append]

theorem lookup_last (h : ∀ f ∈ files, f.1 < id) :
    (files ++ [(id, file)]).lookup id = some file := by
  induction files with
  | nil => simp
  | cons f files ih =>
    have hne : (id == f.1) = false := by
      have := h f List.mem_cons_self
      simp only [beq_eq_false_iff_ne]
      omega
    rw [List.cons_append, List.lookup_cons, hne]
    exact ih fun g hg => h g (List.mem_cons_of_mem f hg)

theorem last_file (hlt : ∀ x ∈ front, x.id < s.id) (h : Stored files (front ++ [s])) :
    ∃ files' file, files = files' ++ [(s.id, file)] ∧ (∀ f ∈ files', f.1 < s.id) ∧
      Stored files' front ∧ s.Holds file := by
  obtain ⟨files', file, hfiles, hfront, hholds⟩ := stored_concat.mp h
  exact ⟨files', file, hfiles, stored_lt hfront hlt, hfront, hholds⟩

theorem segments_flushedState {more : List WALRecord} (hid : w.active.id = s.id)
    (hsegments : w.dir.segments = files ++ [(s.id, file)]) (hnames : ∀ f ∈ files, f.1 < s.id)
    (hholds : s.Holds file) (hend : w.active.endOffset = s.endOffset)
    (hbuf : w.writeBuf = encodeAll more) (hmore : more ≠ []) :
    ∃ file', w.flushedState.dir.segments = files ++ [(s.id, file')] ∧
      SegmentLog.Holds { s with records := s.records ++ more } file' := by
  have hne : encodeAll more ≠ [] := fun hempty => hmore (eq_nil_of_encodeAll hempty)
  refine ⟨_, ?_, holds_after_write hholds hne⟩
  rw [flushedState, if_neg (hbuf ▸ hne)]
  show FileTable.upsert w.active.id (writeAt (((FileTable.upsert w.active.id
    (writeAt (w.file w.active.id) w.active.endOffset w.writeBuf) w.dir.segments).lookup
      w.active.id).getD []) (w.active.endOffset + w.writeBuf.length)
      (trailer (w.active.endOffset + w.writeBuf.length)))
    (FileTable.upsert w.active.id (writeAt (w.file w.active.id) w.active.endOffset w.writeBuf)
      w.dir.segments) = _
  rw [WalPersister.file, hid, hbuf, hend, FileTable.lookup_upsert_self, Option.getD_some, hsegments,
    lookup_last hnames, FileTable.upsert_last hnames, FileTable.upsert_last hnames]
  rfl

theorem lt_next_id (hid : w.active.id = current.id) (hlt : ∀ s ∈ front, s.id < current.id) :
    ∀ s ∈ front ++ [current], s.id < w.active.id + 1 := by
  rw [hid]
  exact forall_mem_concat.mpr ⟨fun s hs => Nat.lt_succ_of_lt (hlt s hs), Nat.lt_succ_self _⟩

section

variable (h : OpenContent codec w front current flushed buffered)

include h

theorem OpenContent.front_lt :
    ∀ s ∈ front, s.id < current.id := (pairwise_concat.mp h.content.sorted).2

theorem OpenContent.sorted :
    (front ++ [current]).Pairwise fun s s' => s.id < s'.id :=
  pairwise_concat.mpr ⟨(pairwise_concat.mp h.content.sorted).1, h.front_lt⟩

theorem stored_flushedState :
    Stored w.flushedState.dir.segments (front ++ [current]) := by
  by_cases hnone : buffered = []
  · -- nothing was in the buffer: the records were in the file already
    have hempty : w.writeBuf = [] := by
      rw [h.buffer, hnone]
      rfl
    rw [flushedState, if_pos hempty]
    have hstored := h.content.stored
    rwa [show flushed = current.records by rw [h.records, hnone, List.append_nil]] at hstored
  · obtain ⟨files, file, hfiles, hnames, hfront, hholds⟩ :=
      last_file (s := { current with records := flushed }) h.front_lt h.content.stored
    obtain ⟨file', hafter, hholds'⟩ := segments_flushedState
      (s := { current with records := flushed }) h.id hfiles hnames hholds h.endOffset h.buffer hnone
    rw [hafter]
    refine stored_concat.mpr ⟨files, file', rfl, hfront, ?_⟩
    rw [← h.records] at hholds'
    exact hholds'

/-- **A flush** moves the records of the buffer into the file. -/
theorem OpenContent.afterFlush :
    OpenContent codec w.flushedState front current (flushed ++ buffered) [] := by
  have hcurrent : { current with records := flushed ++ buffered } = current := by
    rw [← h.records]
  have hendOffset : w.flushedState.active.endOffset
      = kHeaderSize + (encodeAll (flushed ++ buffered)).length := by
    rw [flushedState_eq, h.endOffset, h.buffer, encodeAll_append, List.length_append, Nat.add_assoc]
  have hcontent : Content codec w.flushedState.dir (front ++ [current]) := by
    refine ⟨stored_flushedState h, h.sorted, ?_, ?_, ?_⟩
    · exact forall_mem_concat.mpr ⟨fun s hs => h.content.sound s (List.mem_append_left _ hs),
        h.sound⟩
    · exact forall_mem_concat.mpr ⟨fun s hs => h.content.small s (List.mem_append_left _ hs),
        h.small⟩
    · have hmeta' := h.content.metaJson
      rw [flushedState_eq]
      exact hmeta'
  exact {
    opened := by rw [flushedState_eq]; exact h.opened
    fd := (fd_flushedState w).trans h.fd
    content := hcurrent ▸ hcontent
    id := (id_flushedState w).trans h.id
    format := h.format
    records := by rw [List.append_nil, h.records]
    endOffset := hendOffset
    buffer := by rw [flushedState_eq]; rfl
    sound := h.sound
    small := h.small
    index := by rw [index_flushedState]; exact h.index
    storable := by rw [index_flushedState]; exact h.storable
    checkpoints := by rw [flushedState_eq]; exact h.checkpoints }

end

def freshSegment (id : Nat) : SegmentLog := ⟨id, kFormatVersionProtobuf, []⟩

theorem freshSegment_sound (h : id < 2 ^ 64) : (freshSegment id).Sound codec :=
  ⟨h, show kFormatVersionProtobuf < 2 ^ 16 by decide, fun _ hr => absurd hr List.not_mem_nil,
    show kHeaderSize + 0 < 2 ^ 64 by decide⟩

theorem mapOf_freshSegment (segments : List SegmentLog) (id : Nat) :
    mapOf codec (segments ++ [freshSegment id]) = mapOf codec segments := by
  unfold mapOf
  rw [List.flatMap_append, List.flatMap_singleton,
    show SegmentLog.effects codec (freshSegment id) = [] from rfl, List.append_nil]

theorem checkpointed_append (h : Checkpointed codec checkpoints segments) (more : List SegmentLog) :
    Checkpointed codec checkpoints (segments ++ more) := by
  intro c hc
  obtain ⟨d, before, s, after, done, rest, hfile, hd, hne, rfl, hid, hrecords, hget⟩ := h c hc
  refine ⟨d, before, s, after ++ more, done, rest, hfile, hd, hne, ?_, hid, hrecords, hget⟩
  rw [List.append_assoc, List.cons_append]

theorem checkpointed_concat (more : List WALRecord)
    (h : Checkpointed codec checkpoints (front ++ [current])) :
    Checkpointed codec checkpoints
      (front ++ [{ current with records := current.records ++ more }]) := by
  intro c hc
  obtain ⟨d, before, s, after, done, rest, hfile, hd, hne, hsplit, hid, hrecords, hget⟩ := h c hc
  rcases List.eq_nil_or_concat after with rfl | ⟨after', last, rfl⟩
  · -- the checkpoint is one of the last segment
    obtain ⟨rfl, hlast⟩ := List.append_inj' hsplit rfl
    obtain rfl : current = s := (List.cons.inj hlast).1
    refine ⟨d, front, { current with records := current.records ++ more }, [], done, rest ++ more,
      hfile, hd, hne, rfl, hid, ?_, hget⟩
    show current.records ++ more = _
    rw [hrecords, List.append_assoc]
  · rw [List.concat_eq_append] at hsplit
    have hsplit' : front ++ [current] = before ++ s :: after' ++ [last] := by
      rw [hsplit, List.append_assoc, List.cons_append]
    obtain ⟨rfl, -⟩ := List.append_inj' hsplit' rfl
    refine ⟨d, before, s, after' ++ [{ current with records := current.records ++ more }], done, rest,
      hfile, hd, hne, ?_, hid, hrecords, hget⟩
    rw [List.append_assoc, List.cons_append]

theorem SavedFlushed.more {w' : WalPersister} (h : SavedFlushed codec w front current flushed)
    (hsame : w'.dir.checkpoints = w.dir.checkpoints) (more : List WALRecord) :
    SavedFlushed codec w' front current (flushed ++ more) := by
  unfold SavedFlushed at h ⊢
  rw [hsame]
  exact checkpointed_concat more h

theorem stored_create (h : Stored files segments) (hlt : ∀ x ∈ segments, x.id < s.id)
    (hfile : s.Holds file) : Stored (FileTable.upsert s.id file files) (segments ++ [s]) := by
  rw [FileTable.upsert_of_lt (stored_lt h hlt)]
  exact stored_concat.mpr ⟨files, file, rfl, h, hfile⟩

theorem content_created {dir dir' : WalDir} (h : Content codec dir segments)
    (hlt : ∀ s ∈ segments, s.id < id) (hid : id < 2 ^ 64)
    (hsegments : dir'.segments = FileTable.upsert id (segmentHeader id kFormatVersionProtobuf) dir.segments)
    (hmeta : loadMeta codec dir' = .ok) : Content codec dir' (segments ++ [freshSegment id]) := by
  refine ⟨?_, pairwise_concat.mpr ⟨h.sorted, hlt⟩,
    forall_mem_concat.mpr ⟨h.sound, freshSegment_sound hid⟩,
    forall_mem_concat.mpr ⟨h.small, fun _ he => absurd he List.not_mem_nil⟩, hmeta⟩
  rw [hsegments]
  exact stored_create (s := freshSegment id) h.stored hlt (.inr ⟨rfl, (List.append_nil _).symm⟩)

theorem loadMeta_saveMeta (hcodec : codec.Lawful) (hstorable : w.index.Storable)
    (hid : w.active.id < 2 ^ 64) : loadMeta codec (w.saveMeta codec).dir = .ok := by
  have hindices := hstorable.indices
  have hlast : w.index.lastIndex < 2 ^ 64 := by
    unfold DenseIndex.lastIndex
    split <;> omega
  have hread := hcodec.readStream_dumpIndented (show w.index.firstIndex < 2 ^ 64 by omega) hlast hid
  unfold loadMeta saveMeta
  dsimp only
  rw [hread]

/-- **A rotation** of a flushed log starts a fresh segment. -/
theorem IdleContent.created (hcodec : codec.Lawful) (h : IdleContent codec w front current)
    (hid : w.active.id + 1 < 2 ^ 64) :
    OpenContent codec
      (({ w with active.fd := false }.segmentCreated (w.active.id + 1)).saveMeta codec)
      (front ++ [current]) (freshSegment (w.active.id + 1)) [] [] := by
  have hnew : Content codec
      (({ w with active.fd := false }.segmentCreated (w.active.id + 1)).saveMeta codec).dir
      (front ++ [current] ++ [freshSegment (w.active.id + 1)]) := by
    refine content_created h.content
      (lt_next_id h.id (pairwise_concat.mp h.content.sorted).2) hid rfl ?_
    exact loadMeta_saveMeta
      (w := { w with active.fd := false }.segmentCreated (w.active.id + 1)) hcodec h.storable hid
  exact {
    opened := h.opened
    fd := rfl
    content := hnew
    id := rfl
    format := rfl
    records := rfl
    endOffset := rfl
    buffer := h.buffer
    sound := freshSegment_sound hid
    small := fun _ he => absurd he List.not_mem_nil
    index := h.index.trans (mapOf_freshSegment _ _).symm
    storable := h.storable
    checkpoints := checkpointed_append h.checkpoints _ }

theorem effects_concat (s : SegmentLog) (r : WALRecord) :
    SegmentLog.effects codec { s with records := s.records ++ [r] }
      = s.effects codec ++ [effectAt codec (headerVersion s.format) s.id s.endOffset r] := by
  show effectsFrom codec (headerVersion s.format) s.id kHeaderSize (s.records ++ [r]) = _
  rw [effectsFrom_append]
  rfl

theorem get_apply_mapOf {index : DenseIndex} (h : index.get = mapOf codec (front ++ [current]))
    (r : WALRecord) :
    (index.apply (effectAt codec (headerVersion current.format) current.id current.endOffset r)).get
      = mapOf codec (front ++ [{ current with records := current.records ++ [r] }]) := by
  unfold mapOf at h ⊢
  rw [List.flatMap_append, List.flatMap_singleton, effects_concat, ← List.append_assoc,
    DenseIndex.applyAll_append, DenseIndex.get_apply, h, ← DenseIndex.get_apply,
    List.flatMap_append, List.flatMap_singleton]
  rfl

theorem flushedState_withIndex (w : WalPersister) (index : DenseIndex) (entryCount : Nat) :
    { w.flushedState with index := index, active.entryCount := entryCount }
      = { w with index := index, active.entryCount := entryCount }.flushedState := by
  unfold flushedState
  split <;> rfl

/-- The record that a method appends and what the method does to the index fit together. -/
structure Appends (codec : WalCodec) (r : WALRecord)
    (done : Nat → WalPersister → WalPersister) : Prop where
  readable : r.payload.length ≤ kMaxRecordSize → Readable codec kFormatVersionProtobuf r
  small : ∀ {segmentId offset}, r.payload.length ≤ kMaxRecordSize → segmentId < 2 ^ 64 →
    offset < 2 ^ 64 → (effectAt codec kFormatVersionProtobuf segmentId offset r).Small
  done : ∀ offset w, ∃ entryCount, done offset w = { w with
    index := w.index.apply (effectAt codec kFormatVersionProtobuf w.active.id offset r)
    active.entryCount := entryCount }

/-- What an appending method does once there is room: the record is pushed, and the buffer flushed
when it is full. -/
theorem pushed_or_flushed (hdone : Appends codec r done) (w : WalPersister) (offset : Nat) :
    ∃ entryCount, done offset (w.pushedState r) = { w.pushRecord r with
        index := w.index.apply (effectAt codec kFormatVersionProtobuf w.active.id offset r)
        active.entryCount := entryCount } ∨
      done offset (w.pushedState r) = { w.pushRecord r with
        index := w.index.apply (effectAt codec kFormatVersionProtobuf w.active.id offset r)
        active.entryCount := entryCount }.flushedState := by
  unfold pushedState
  split
  · obtain ⟨entryCount, heq⟩ := hdone.done offset (w.pushRecord r).flushedState
    refine ⟨entryCount, .inr ?_⟩
    rw [heq, id_flushedState, index_flushedState, flushedState_withIndex]
    rfl
  obtain ⟨entryCount, heq⟩ := hdone.done offset (w.pushRecord r)
  exact ⟨entryCount, .inl heq⟩

section

variable (h : OpenContent codec w front current flushed buffered)

include h

theorem OpenContent.rotated (hcodec : codec.Lawful)
    (hid : w.active.id + 1 < 2 ^ 64) :
    ∃ front' current' flushed' buffered',
      OpenContent codec (rotatedState codec w) front' current' flushed' buffered' ∧
      (rotatedState codec w).active.endOffset + (rotatedState codec w).writeBuf.length
        < kMaxSegmentSize ∧
      Grows codec w front current flushed (rotatedState codec w) front' current' flushed' := by
  unfold rotatedState
  split
  · have hflush := h.afterFlush
    have hsame := id_flushedState w
    have hcreated := hflush.idle.created hcodec (hsame.symm ▸ hid)
    rw [hsame] at hcreated
    refine ⟨_, _, _, _, hcreated, ?_, ?_⟩
    · show kHeaderSize + w.flushedState.writeBuf.length < kMaxSegmentSize
      rw [flushedState_eq]
      exact (by decide : kHeaderSize < kMaxSegmentSize)
    · refine ⟨extended_of_subset fun _ hs => List.mem_append_left _ hs, fun hsaved => ?_⟩
      have hall := hsaved.more (congrArg (·.dir.checkpoints) (flushedState_eq w)) buffered
      rw [← h.records] at hall
      exact checkpointed_append hall _
  · rename_i hneeds
    refine ⟨_, _, _, _, h, ?_, .refl ..⟩
    unfold needsRotation at hneeds
    simp only [Bool.or_eq_true, decide_eq_true_eq, not_or] at hneeds
    omega

/-- The buffer starts where the flushed records end. -/
theorem OpenContent.end_eq :
    w.active.endOffset + w.writeBuf.length = current.endOffset := by
  rw [h.endOffset, h.buffer, SegmentLog.endOffset, h.records, encodeAll_append, List.length_append,
    Nat.add_assoc]

/-- **A record goes to the buffer**, and the index follows it. -/
theorem OpenContent.pushed
    (hr : Readable codec kFormatVersionProtobuf r)
    (hroom : w.active.endOffset + w.writeBuf.length < kMaxSegmentSize)
    (hsmall : (effectAt codec kFormatVersionProtobuf current.id current.endOffset r).Small)
    (entryCount : Nat) :
    OpenContent codec
      { w.pushRecord r with
        index := w.index.apply (effectAt codec kFormatVersionProtobuf current.id current.endOffset r)
        active.entryCount := entryCount }
      front { current with records := current.records ++ [r] } flushed (buffered ++ [r]) := by
  have hversion : headerVersion current.format = kFormatVersionProtobuf := by
    rw [h.format]
    rfl
  have hendOffset := h.end_eq
  have hencode : encodeAll [r] = encodeRecord r := by
    rw [encodeAll_cons, encodeAll_nil, List.append_nil]
  exact {
    opened := h.opened
    fd := h.fd
    content := h.content
    id := h.id
    format := h.format
    records := by
      show current.records ++ [r] = _
      rw [h.records, List.append_assoc]
    endOffset := h.endOffset
    buffer := by
      show w.writeBuf ++ encodeRecord r = _
      rw [h.buffer, encodeAll_append, hencode]
    sound := by
      refine ⟨h.sound.id, h.sound.format, ?_, ?_⟩
      · exact forall_mem_concat.mpr ⟨h.sound.readable, hversion.symm ▸ hr⟩
      · show kHeaderSize + (encodeAll (current.records ++ [r])).length < 2 ^ 64
        rw [encodeAll_append, List.length_append, hencode, length_encodeRecord, ← Nat.add_assoc]
        have hsize := hr.size
        rw [hendOffset, SegmentLog.endOffset] at hroom
        unfold kMaxRecordSize at hsize
        unfold kMaxSegmentSize at hroom
        omega
    small := by
      rw [effects_concat, hversion]
      exact forall_mem_concat.mpr ⟨h.small, hsmall⟩
    index := by
      have hget := get_apply_mapOf h.index r
      rw [hversion] at hget
      exact hget
    storable := h.storable.apply hsmall
    checkpoints := checkpointed_concat [r] h.checkpoints }

theorem OpenContent.appended
    (hroom : w.active.endOffset + w.writeBuf.length < kMaxSegmentSize) (hdone : Appends codec r done)
    (hsize : r.payload.length ≤ kMaxRecordSize) :
    ∃ flushed' buffered',
      OpenContent codec (done (w.active.endOffset + w.writeBuf.length) (w.pushedState r)) front
        { current with records := current.records ++ [r] } flushed' buffered' ∧
      Grows codec w front current flushed
        (done (w.active.endOffset + w.writeBuf.length) (w.pushedState r)) front
        { current with records := current.records ++ [r] } flushed' := by
  have hsmall : (effectAt codec kFormatVersionProtobuf current.id current.endOffset r).Small :=
    hdone.small hsize h.sound.id h.sound.size
  rw [h.end_eq]
  obtain ⟨entryCount, heq⟩ := pushed_or_flushed hdone w current.endOffset
  rw [h.id] at heq
  have hpushed := h.pushed (hdone.readable hsize) hroom hsmall entryCount
  have hmore : Extended (front ++ [current])
      (front ++ [{ current with records := current.records ++ [r] }]) := by
    intro s hs
    rcases List.mem_append.mp hs with hs | hs
    · refine ⟨[], List.mem_append_left _ ?_⟩
      rw [List.append_nil]
      exact hs
    · rw [List.mem_singleton.mp hs]
      exact ⟨[r], List.mem_append_right _ List.mem_cons_self⟩
  rcases heq with heq | heq
  · rw [heq]
    exact ⟨_, _, hpushed, hmore, fun hsaved => hsaved⟩
  · rw [heq]
    refine ⟨_, _, hpushed.afterFlush, hmore, fun hsaved => ?_⟩
    have hsaved' : SavedFlushed codec w front { current with records := current.records ++ [r] }
        flushed := hsaved
    exact hsaved'.more (congrArg (·.dir.checkpoints) (flushedState_eq _)) _

/-- **An appending method** of an open log leaves an open log. -/
theorem OpenContent.recordAppended (hcodec : codec.Lawful)
    (hid : w.active.id + 1 < 2 ^ 64) (hio : Clean io)
    (hdone : Appends codec r done) :
    ∃ front' current' flushed' buffered',
      OpenContent codec (w.appendRecord codec r io done).2 front' current' flushed' buffered' ∧
      Grows codec w front current flushed (w.appendRecord codec r io done).2 front' current'
        flushed' := by
  obtain ⟨front', current', flushed', buffered', hrot, hroom, hgrows⟩ := h.rotated hcodec hid
  rw [appendRecord_ok h.fd hio]
  split
  · exact ⟨_, _, _, _, hrot, hgrows⟩
  rename_i hlarge
  obtain ⟨flushed'', buffered'', happ, hgrows'⟩ :=
    hrot.appended hroom hdone (Nat.le_of_not_lt hlarge)
  exact ⟨_, _, _, _, happ, hgrows.trans hgrows'⟩

end

/-! ## §2 — The appending methods. -/

theorem recordEffect_logEntry (hcodec : codec.Lawful) (hindex : entry.index < 2 ^ 32)
    (hterm : entry.term < 2 ^ 32) (hchecksum : entry.checksum < 2 ^ 32)
    (h : codec.serialize entry.toProto = some payload) (segmentId offset : Nat) :
    recordEffect codec kFormatVersionProtobuf segmentId offset ⟨.logEntry, payload⟩
      = .ok (.put entry.index ⟨segmentId, offset, 10 + payload.length⟩) := by
  have hwide : 2 ^ 32 < 2 ^ 64 := by decide
  have hparse : codec.parseProto payload = some entry.toProto :=
    hcodec.parse_serialize (Nat.lt_trans hindex hwide) (Nat.lt_trans hterm hwide)
      (Nat.lt_trans hchecksum hwide) h
  have hextract : extractLogIndexFromPayload codec payload kFormatVersionProtobuf
      = .ok entry.index := by
    unfold extractLogIndexFromPayload
    rw [if_pos rfl, hparse]
    rfl
  unfold recordEffect
  rw [hextract]

theorem jsonNumber_truncationPayload (hcodec : codec.Lawful) {key : Bytes}
    (hkey : key = ascii "before_index" ∨ key = ascii "from_index") {n : Nat} (hn : n < 2 ^ 64) :
    jsonNumber codec (truncationPayload codec key n) key = .ok n := by
  obtain ⟨text, hdump, hparse, -⟩ := hcodec.parse_dump hkey hn
  have hpayload : truncationPayload codec key n = text := by
    unfold truncationPayload
    rw [hdump]
  unfold jsonNumber
  rw [hpayload, hparse]
  show (Json.member (.object [(key, .unsigned n)]) key >>= fun v => v.asUInt64 codec) = .ok n
  have hmember : Json.member (.object [(key, .unsigned n)]) key = .ok (.unsigned n) := by
    simp [Json.member]
  rw [hmember]
  show Except.ok (n % 2 ^ 64) = .ok n
  rw [Nat.mod_eq_of_lt hn]

theorem effectAt_of_eq {version segmentId offset : Nat} {e : DenseIndex.Effect}
    (h : recordEffect codec version segmentId offset r = .ok e) :
    effectAt codec version segmentId offset r = e := by
  rw [effectAt, h]

theorem appends_logEntry (hcodec : codec.Lawful) (hindex : entry.index < 2 ^ 32)
    (hterm : entry.term < 2 ^ 32) (hchecksum : entry.checksum < 2 ^ 32)
    (h : codec.serialize entry.toProto = some payload) :
    Appends codec ⟨.logEntry, payload⟩ fun offset w' => { w' with
      index := w'.index.put entry.index ⟨w'.active.id, offset, 10 + payload.length⟩
      active.entryCount := w'.active.entryCount + 1 } := by
  have heffect := recordEffect_logEntry hcodec hindex hterm hchecksum h
  refine ⟨fun hsize => ⟨hsize, show 1 < 2 ^ 16 by decide, rfl,
    fun id offset => ⟨_, heffect id offset⟩⟩, ?_, ?_⟩
  · intro segmentId offset hsize hid hoffset
    rw [effectAt_of_eq (heffect segmentId offset)]
    refine ⟨hindex, hid, hoffset, ?_⟩
    show 10 + payload.length < 2 ^ 64
    have hsize : payload.length ≤ kMaxRecordSize := hsize
    unfold kMaxRecordSize at hsize
    omega
  · intro offset w'
    refine ⟨w'.active.entryCount + 1, ?_⟩
    rw [effectAt_of_eq (heffect w'.active.id offset)]
    rfl

/-- A truncation: its effect does not depend on where the record lies. -/
theorem appends_truncation (hcode : r.type.code < 2 ^ 16)
    (htype : WALRecordType.ofCode r.type.code = r.type) {e : DenseIndex.Effect} (hsmall : e.Small)
    (heffect : ∀ segmentId offset,
      recordEffect codec kFormatVersionProtobuf segmentId offset r = .ok e) :
    Appends codec r fun _ w' => { w' with index := w'.index.apply e } := by
  refine ⟨fun hsize => ⟨hsize, hcode, htype, fun id offset => ⟨e, heffect id offset⟩⟩, ?_, ?_⟩
  · intro segmentId offset _ _ _
    rw [effectAt_of_eq (heffect segmentId offset)]
    exact hsmall
  · intro offset w'
    refine ⟨w'.active.entryCount, ?_⟩
    rw [effectAt_of_eq (heffect w'.active.id offset)]

theorem appends_truncatePrefix (hcodec : codec.Lawful) {beforeIndex : Nat}
    (h : beforeIndex < 2 ^ 64) :
    Appends codec ⟨.truncatePrefix, truncationPayload codec (ascii "before_index") beforeIndex⟩
      fun _ w' => { w' with index := w'.index.truncatePrefix beforeIndex } := by
  refine appends_truncation (e := .truncatePrefix beforeIndex) ?_ rfl trivial ?_
  · show 3 < 2 ^ 16
    decide
  intro segmentId offset
  unfold recordEffect
  rw [jsonNumber_truncationPayload hcodec (.inl rfl) h]

theorem appends_truncateSuffix (hcodec : codec.Lawful) {fromIndex : Nat} (h : fromIndex < 2 ^ 64) :
    Appends codec ⟨.truncateSuffix, truncationPayload codec (ascii "from_index") fromIndex⟩
      fun _ w' => { w' with index := w'.index.truncateSuffix fromIndex } := by
  refine appends_truncation (e := .truncateSuffix fromIndex) ?_ rfl trivial ?_
  · show 4 < 2 ^ 16
    decide
  intro segmentId offset
  unfold recordEffect
  rw [jsonNumber_truncationPayload hcodec (.inr rfl) h]

theorem OpenContent.logEntryAppended (hcodec : codec.Lawful)
    (h : OpenContent codec w front current flushed buffered) (hid : w.active.id + 1 < 2 ^ 64)
    (hindex : entry.index < 2 ^ 32) (hterm : entry.term < 2 ^ 32)
    (hchecksum : entry.checksum < 2 ^ 32) (hio : Clean io) :
    ∃ front' current' flushed' buffered',
      OpenContent codec (w.appendLogEntry codec entry io).2 front' current' flushed' buffered' ∧
      Grows codec w front current flushed (w.appendLogEntry codec entry io).2 front' current'
        flushed' := by
  unfold appendLogEntry
  cases hpayload : codec.serialize entry.toProto with
  | none => exact ⟨_, _, _, _, h, .refl ..⟩
  | some payload =>
    exact h.recordAppended hcodec hid hio (appends_logEntry hcodec hindex hterm hchecksum hpayload)

/-! ## §3 — Checkpoints, `Sync`, `Close` and `Open`. -/

theorem checkpointed_saveCheckpoint (hid : w.active.id = current.id)
    (hindex : w.index.get = mapOf codec (front ++ [current])) (hstorable : w.index.Storable)
    (hck : Checkpointed codec w.dir.checkpoints (front ++ [current])) (ok : Bool) :
    Checkpointed codec (w.saveCheckpoint ok).dir.checkpoints (front ++ [current]) := by
  unfold saveCheckpoint
  split
  · exact hck
  rename_i hnot
  have hne : w.index.entries ≠ [] := fun he => hnot (.inl he)
  intro c hc
  rcases FileTable.mem_upsert hc with rfl | hc
  · exact ⟨w.index, front, current, [], current.records, [], rfl, hstorable, hne, rfl, hid.symm,
      (List.append_nil _).symm, hindex⟩
  · exact hck c hc

/-- A closed log whose directory has a content. -/
structure ClosedContent (codec : WalCodec) (w : WalPersister) (front : List SegmentLog)
    (last : SegmentLog) : Prop where
  closed : w.opened = false
  buffer : w.writeBuf = []
  content : Content codec w.dir (front ++ [last])
  format : last.format = kFormatVersionProtobuf
  checkpoints : Checkpointed codec w.dir.checkpoints (front ++ [last])

theorem close_ok (hfd : w.active.fd = true) (hio : Clean io) :
    w.close io = (w.flushedState.checkpointIfDue io.checkpoint).closed := by
  unfold close
  rw [if_pos hfd, hio.flush, flushWriteBuffer_ok hfd]

section

variable (h : OpenContent codec w front current flushed buffered)

include h

theorem OpenContent.checkpointSaved
    (ok : Bool) : OpenContent codec (w.saveCheckpoint ok) front current flushed buffered := by
  have hck := checkpointed_saveCheckpoint h.id h.index h.storable h.checkpoints ok
  unfold saveCheckpoint at hck ⊢
  split at hck
  · rename_i hnot
    rw [if_pos hnot]
    exact h
  rename_i hnot
  rw [if_neg hnot]
  refine { h with content := ?_, checkpoints := hck }
  exact ⟨h.content.stored, h.content.sorted, h.content.sound, h.content.small, h.content.metaJson⟩

theorem OpenContent.checkpointed
    (ok : Bool) : OpenContent codec (w.checkpointIfDue ok) front current flushed buffered := by
  unfold checkpointIfDue
  split
  · exact h.checkpointSaved ok
  · exact h

theorem OpenContent.synced (hio : Clean io) :
    (w.sync io).1 = .ok ∧
      OpenContent codec (w.sync io).2 front current (flushed ++ buffered) [] := by
  rw [sync_ok h.fd hio]
  refine ⟨rfl, ?_⟩
  have hflushed := h.afterFlush
  have hsynced : OpenContent codec w.syncedState front current (flushed ++ buffered) [] :=
    ⟨hflushed.opened, hflushed.fd, hflushed.content, hflushed.id, hflushed.format, hflushed.records,
      hflushed.endOffset, hflushed.buffer, hflushed.sound, hflushed.small, hflushed.index,
      hflushed.storable, hflushed.checkpoints⟩
  exact hsynced.checkpointed io.checkpoint

/-- **`Close`** leaves every record in the files. -/
theorem OpenContent.closed (hio : Clean io) : ClosedContent codec (w.close io) front current := by
  rw [close_ok h.fd hio]
  have hend := h.afterFlush.checkpointed io.checkpoint
  have hcurrent : { current with records := flushed ++ buffered } = current := by
    rw [← h.records]
  exact ⟨rfl, rfl, hcurrent ▸ hend.content, h.format, hend.checkpoints⟩

end

/-- **`Open`** of what `Close` left. -/
theorem ClosedContent.opened {last : SegmentLog} (h : ClosedContent codec w front last)
    (create : CreateOutcome) :
    (w.openWal codec create).1 = .ok ∧
      OpenContent codec (w.openWal codec create).2 front last last.records [] ∧
      (w.openWal codec create).2.walDir = w.walDir := by
  obtain ⟨hok, hidle, hwalDir⟩ := idle_of_openWal h.content h.checkpoints h.buffer create
  exact ⟨hok, hidle.openContent h.format, hwalDir⟩

end OpenContent

end WalPersister

end RollingRaft
