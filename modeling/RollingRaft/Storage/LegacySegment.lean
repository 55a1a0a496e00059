/-
# RollingRaft.Storage.LegacySegment — appending behind a segment of the old format.

New records are always protobuf messages. What a record is read as depends on the format in the header
of its segment, and `Open` goes on with the last segment whatever its format. So the first entry that
goes to a legacy segment is a message in a segment of JSON texts: it cannot be read back, and the next
scan of the segment fails. When the legacy segment is full, the first append starts a segment of the
new format, and everything is read back.
-/
import RollingRaft.Storage.Reopen
import RollingRaft.Storage.SyncCoverage

namespace RollingRaft

open Lib

/-! ## §1 — Reading one record. -/

variable {codec : WalCodec} {payload : Bytes}

theorem readLogEntryAt_encodeRecord (hsize : payload.length ≤ kMaxRecordSize)
    (version segmentId : Nat) (front rest : Bytes) :
    readLogEntryAt codec version segmentId front.length
        (front ++ (encodeRecord ⟨.logEntry, payload⟩ ++ rest))
      = parsePayload codec version payload (computeCRC32 (crcData 1 payload)).toNat := by
  have hpayload := (encodeRecord_fields ⟨.logEntry, payload⟩ rest).2.2.2
  obtain ⟨hcrcField, hlengthField, hcodeField⟩ :=
    encodeRecord_numbers (r := ⟨.logEntry, payload⟩) hsize (show 1 < 2 ^ 16 by decide) rest
  have hlen : 10 ≤ (encodeRecord ⟨.logEntry, payload⟩ ++ rest).length := by
    rw [List.length_append, length_encodeRecord]
    omega
  have hrest : (encodeRecord ⟨.logEntry, payload⟩ ++ rest).drop 10 = payload ++ rest := hpayload
  unfold readLogEntryAt
  rw [List.drop_left]
  rw [if_neg (by omega), if_neg (by omega), if_neg (by omega), hlengthField, hcodeField, hcrcField,
    hrest, if_neg (Nat.not_lt.mpr hsize),
    if_neg (by rw [List.length_append]; exact Nat.not_lt.mpr (Nat.le_add_right _ _)), List.take_left,
    if_neg (fun hne => hne rfl), if_neg (fun hne => hne rfl)]
  rfl

theorem readLogEntryAt_segment {s : SegmentLog} {before after : List WALRecord}
    (hrecords : s.records = before ++ ⟨.logEntry, payload⟩ :: after)
    (hsize : payload.length ≤ kMaxRecordSize) (version segmentId : Nat) :
    readLogEntryAt codec version segmentId (SegmentLog.endOffset { s with records := before })
        ((some (s.body ++ trailer s.endOffset)).getD [])
      = parsePayload codec version payload (computeCRC32 (crcData 1 payload)).toNat := by
  have hbody : s.body ++ trailer s.endOffset = SegmentLog.body { s with records := before }
      ++ (encodeRecord ⟨.logEntry, payload⟩ ++ (encodeAll after ++ trailer s.endOffset)) := by
    rw [SegmentLog.body, hrecords, encodeAll_append, encodeAll_cons, SegmentLog.body]
    simp only [List.append_assoc]
  rw [Option.getD_some, ← SegmentLog.length_body, hbody]
  exact readLogEntryAt_encodeRecord hsize _ _ _ _

/-- A message is no JSON object, so it is no legacy entry. -/
theorem parseJsonPayload_serialize (hcodec : codec.Lawful) {p : RaftLogEntryProto}
    (h : codec.serialize p = some payload) (fallback : Nat) :
    ∃ status, parseJsonPayload codec payload fallback = .error status := by
  have hfails : ∃ what, readJsonEntry codec payload = .error what := by
    unfold readJsonEntry
    cases hparse : codec.json.parse payload with
    | error what => exact ⟨what, rfl⟩
    | ok j =>
      cases j with
      | object fields =>
        -- an object does not start with the tag of a field
        obtain ⟨b, hb, hhead⟩ := hcodec.parse_object_head hparse
        have hdisjoint : ∀ b ∈ ([9, 10, 13, 32, 123, 239] : List UInt8),
            b ∉ ([8, 16, 26, 34, 40] : List UInt8) := by
          decide +kernel
        exact absurd (hcodec.serialize_head h hhead) (hdisjoint b hb)
      | null | bool | integer | unsigned | float | string | array => exact ⟨_, rfl⟩
  obtain ⟨what, hwhat⟩ := hfails
  unfold parseJsonPayload
  rw [hwhat]
  exact ⟨_, rfl⟩

namespace WalPersister

variable {codec : WalCodec} {w : WalPersister} {segments : List SegmentLog} {place : WALIndexEntry}

def InRange (e : RaftLogEntry) : Prop := e.index < 2 ^ 32 ∧ e.term < 2 ^ 32 ∧ e.checksum < 2 ^ 32

/-- The entry has a message that is not too large, so `AppendLogEntry` takes it. -/
def Accepted (codec : WalCodec) (e : RaftLogEntry) : Prop :=
  ∃ payload, codec.serialize e.toProto = some payload ∧ payload.length ≤ kMaxRecordSize

/-- `GetEntry` gives the entry. -/
def ReadsBack (codec : WalCodec) (w : WalPersister) (e : RaftLogEntry) : Prop :=
  ∃ e', (w.getEntry codec e.index {}).1 = .ok e' ∧ e'.index = e.index ∧ e'.term = e.term ∧
    e'.data = e.data

/-- A place in the index at which the payload of an entry lies, in a segment of the given format. -/
def Recorded (segments : List SegmentLog) (format : Nat) (place : WALIndexEntry) (payload : Bytes) :
    Prop :=
  ∃ s ∈ segments, s.format = format ∧ place.segmentId = s.id ∧
    ∃ before after, s.records = before ++ ⟨.logEntry, payload⟩ :: after ∧
      place.fileOffset = SegmentLog.endOffset { s with records := before }

variable {format i : Nat} {payload : Bytes} {e : RaftLogEntry} {segments' : List SegmentLog}

theorem Recorded.extended
    (h : Recorded segments format place payload) (hext : Extended segments segments') :
    Recorded segments' format place payload := by
  obtain ⟨s, hs, hformat, hid, before, after, hrecords, hoffset⟩ := h
  obtain ⟨more, hmore⟩ := hext s hs
  refine ⟨_, hmore, hformat, hid, before, after ++ more, ?_, hoffset⟩
  show s.records ++ more = _
  rw [hrecords, List.append_assoc, List.cons_append]

theorem recorded_of_mapOf (hsound : ∀ s ∈ segments, s.Sound codec)
    (h : mapOf codec segments i = some place) :
    ∃ format payload, Recorded segments format place payload ∧ payload.length ≤ kMaxRecordSize := by
  rcases DenseIndex.put_or_get h with hput | hnone
  · obtain ⟨s, hs, hput⟩ := List.mem_flatMap.mp hput
    obtain ⟨hid, before, payload, after, hrecords, hoffset⟩ := record_of_put hput
    refine ⟨s.format, payload, ⟨s, hs, rfl, hid, before, after, hrecords, hoffset⟩, ?_⟩
    have hmem : ⟨.logEntry, payload⟩ ∈ s.records := by
      rw [hrecords]
      exact List.mem_append_right _ List.mem_cons_self
    exact ((hsound s hs).readable _ hmem).size
  · cases hnone

/-- **`GetEntry` of a recorded entry** parses its payload. -/
theorem getEntry_recorded (h : LogFiles codec w segments) (hget : w.index.get i = some place)
    (hrecorded : Recorded segments format place payload) (hsize : payload.length ≤ kMaxRecordSize) :
    (w.getEntry codec i {}).1 = parsePayload codec (headerVersion format) payload
          (computeCRC32 (crcData 1 payload)).toNat := by
  obtain ⟨s, hs, rfl, hid, before, after, hrecords, hoffset⟩ := hrecorded
  have hne : s.records ≠ [] := by
    rw [hrecords]
    exact List.append_ne_nil_of_right_ne_nil _ (List.cons_ne_nil _ _)
  have hfile := lookup_stored h.stored h.sorted hs hne
  have hopen : openSegment w.flushedState.walDir s.id (some (s.body ++ trailer s.endOffset))
      = .ok (headerVersion s.format) := SegmentLog.openSegment_holds (h.sound s hs) (.inl rfl) _
  rw [getEntry_ok h.fd clean_default, hget]
  dsimp only
  unfold readEntry WalPersister.file
  rw [hid, hfile, hopen, hoffset]
  exact readLogEntryAt_segment hrecords hsize _ _

theorem getEntry_extended {w' : WalPersister}
    (hw : LogFiles codec w segments) (hw' : LogFiles codec w' segments')
    (hext : Extended segments segments') (hindex : w'.index.get i = w.index.get i) :
    (w'.getEntry codec i {}).1 = (w.getEntry codec i {}).1 := by
  cases hget : w.index.get i with
  | none => rw [getEntry_ok hw'.fd clean_default, getEntry_ok hw.fd clean_default, hindex, hget]
  | some place =>
    obtain ⟨format, payload, hrecorded, hsize⟩ :=
      recorded_of_mapOf hw.sound ((congrFun hw.index i).symm.trans hget)
    rw [getEntry_recorded hw hget hrecorded hsize,
      getEntry_recorded hw' (hindex.trans hget) (hrecorded.extended hext) hsize]

theorem readsBack_of_recorded (hcodec : codec.Lawful) (h : LogFiles codec w segments)
    (he : InRange e) (hget : w.index.get e.index = some place)
    (hpayload : codec.serialize e.toProto = some payload) (hsize : payload.length ≤ kMaxRecordSize)
    (hrecorded : Recorded segments kFormatVersionProtobuf place payload) :
    ReadsBack codec w e := by
  obtain ⟨hindex, hterm, hchecksum⟩ := he
  have hwide : 2 ^ 32 < 2 ^ 64 := by decide
  have hparse : codec.parseProto payload = some e.toProto :=
    hcodec.parse_serialize (Nat.lt_trans hindex hwide) (Nat.lt_trans hterm hwide)
      (Nat.lt_trans hchecksum hwide) hpayload
  have hentry := getEntry_recorded h hget hrecorded hsize
  unfold parsePayload at hentry
  rw [if_pos (show headerVersion kFormatVersionProtobuf = kFormatVersionProtobuf from rfl),
    hparse] at hentry
  refine ⟨_, hentry, ?_⟩
  have hfields : ∀ crc, (e.toProto.toEntry.withChecksum crc).index = e.index % 2 ^ 32 ∧
      (e.toProto.toEntry.withChecksum crc).term = e.term % 2 ^ 32 ∧
      (e.toProto.toEntry.withChecksum crc).data = e.data := by
    intro crc
    unfold RaftLogEntry.withChecksum
    split
    · exact ⟨rfl, rfl, rfl⟩
    · exact ⟨rfl, rfl, rfl⟩
  obtain ⟨hi, ht, hd⟩ := hfields (computeCRC32 (crcData 1 payload)).toNat
  rw [hi, ht, hd, Nat.mod_eq_of_lt hindex, Nat.mod_eq_of_lt hterm]
  exact ⟨rfl, rfl, rfl⟩

/-! ## §2 — One entry. -/

theorem pushedState_frame (w : WalPersister) (r : WALRecord) :
    (w.pushedState r).index = w.index ∧ (w.pushedState r).active.id = w.active.id := by
  unfold pushedState
  split
  · exact ⟨index_flushedState _, id_flushedState _⟩
  · exact ⟨rfl, rfl⟩

theorem rotatedState_frame (codec : WalCodec) (w : WalPersister) :
    (rotatedState codec w).index = w.index ∧ w.active.id ≤ (rotatedState codec w).active.id ∧
      (rotatedState codec w).active.id ≤ w.active.id + 1 := by
  unfold rotatedState
  split
  · exact ⟨index_flushedState w, Nat.le_succ _, Nat.le_refl _⟩
  · exact ⟨rfl, Nat.le_refl _, Nat.le_succ _⟩

section Append

variable {front : List SegmentLog} {current : SegmentLog} {flushed buffered : List WALRecord}
  {e : RaftLogEntry}

theorem entryAppended_of_rotated (hcodec : codec.Lawful) (hfd : w.active.fd = true)
    (hrot : OpenContent codec (rotatedState codec w) front current flushed buffered)
    (hroom : (rotatedState codec w).active.endOffset + (rotatedState codec w).writeBuf.length < kMaxSegmentSize)
    (he : InRange e) {payload : Bytes} (hpayload : codec.serialize e.toProto = some payload) :
    ∃ current' flushed' buffered',
      OpenContent codec (w.appendLogEntry codec e {}).2 front current' flushed' buffered' ∧
      Extended (front ++ [current]) (front ++ [current']) ∧
      (w.appendLogEntry codec e {}).2.active.id = (rotatedState codec w).active.id ∧
      (payload.length ≤ kMaxRecordSize → ∃ place,
        (w.appendLogEntry codec e {}).2.index = w.index.put e.index place ∧
          place.segmentId = (rotatedState codec w).active.id ∧
          Recorded (front ++ [current']) kFormatVersionProtobuf place payload) ∧
      (kMaxRecordSize < payload.length → (w.appendLogEntry codec e {}).2.index = w.index) := by
  obtain ⟨hindex, hterm, hchecksum⟩ := he
  have hdone := appends_logEntry hcodec hindex hterm hchecksum hpayload
  have hsame := (rotatedState_frame codec w).1
  unfold appendLogEntry
  rw [hpayload]
  dsimp only
  rw [appendRecord_ok hfd clean_default]
  by_cases hlarge : kMaxRecordSize < payload.length
  · rw [if_pos hlarge]
    refine ⟨current, flushed, buffered, hrot, extended_of_subset fun _ hs => hs, rfl, ?_,
      fun _ => hsame⟩
    intro hsmall
    exact absurd hlarge (Nat.not_lt.mpr hsmall)
  rw [if_neg hlarge]
  obtain ⟨flushed', buffered', happ, hgrows⟩ :=
    hrot.appended hroom hdone (Nat.le_of_not_lt hlarge)
  obtain ⟨hpushed, hid⟩ := pushedState_frame (rotatedState codec w) ⟨.logEntry, payload⟩
  refine ⟨_, flushed', buffered', happ, hgrows.segments, hid, fun _ => ?_,
    fun hbad => absurd hbad hlarge⟩
  refine ⟨⟨(rotatedState codec w).active.id, current.endOffset, 10 + payload.length⟩, ?_, rfl, ?_⟩
  · dsimp only
    rw [hpushed, hid, hsame, hrot.end_eq]
  · refine ⟨{ current with records := current.records ++ [⟨.logEntry, payload⟩] },
      List.mem_append_right _ List.mem_cons_self, hrot.format, hrot.id, current.records, [], rfl, rfl⟩

/-- A log that takes entries in the new format: its last segment is of that format, or it is full. -/
inductive Fit (codec : WalCodec) (w : WalPersister) : List SegmentLog → Prop
  | modern {front : List SegmentLog} {current : SegmentLog} {flushed buffered : List WALRecord} :
      OpenContent codec w front current flushed buffered → w.active.id ≠ 0 →
      Fit codec w (front ++ [current])
  | full {front : List SegmentLog} {last : SegmentLog} :
      IdleContent codec w front last → w.needsRotation = true → Fit codec w (front ++ [last])

theorem Fit.logFiles (h : Fit codec w segments) :
    LogFiles codec w segments := by
  cases h with
  | modern h | full h => exact h.logFiles

theorem Fit.rotated (hcodec : codec.Lawful) (h : Fit codec w segments)
    (hid : w.active.id + 1 < 2 ^ 64) :
    ∃ front current flushed buffered,
      OpenContent codec (rotatedState codec w) front current flushed buffered ∧
      (rotatedState codec w).active.endOffset + (rotatedState codec w).writeBuf.length
        < kMaxSegmentSize ∧
      Extended segments (front ++ [current]) ∧ (rotatedState codec w).active.id ≠ 0 := by
  cases h with
  | modern h hne =>
    obtain ⟨front', current', flushed', buffered', hrot, hroom, hgrows⟩ := h.rotated hcodec hid
    refine ⟨front', current', flushed', buffered', hrot, hroom, hgrows.segments, ?_⟩
    have hle := (rotatedState_frame codec w).2.1
    omega
  | full h hneeds =>
    have hsame : w.flushedState = w := by
      rw [flushedState, if_pos h.buffer]
    have hstate : rotatedState codec w
        = ({ w with active.fd := false }.segmentCreated (w.active.id + 1)).saveMeta codec := by
      rw [rotatedState, if_pos hneeds, hsame]
    rw [hstate]
    refine ⟨_, _, _, _, h.created hcodec hid, ?_, ?_, Nat.succ_ne_zero _⟩
    · show kHeaderSize + w.writeBuf.length < kMaxSegmentSize
      rw [h.buffer]
      decide
    · exact extended_of_subset fun _ hs => List.mem_append_left _ hs

/-- **One append**: an accepted entry is recorded, and no other index changes. -/
theorem Fit.append (hcodec : codec.Lawful) (h : Fit codec w segments)
    (hid : w.active.id + 1 < 2 ^ 64) (he : InRange e) :
    ∃ segments', Fit codec (w.appendLogEntry codec e {}).2 segments' ∧
      Extended segments segments' ∧
      (w.appendLogEntry codec e {}).2.active.id ≤ w.active.id + 1 ∧
      (∀ i, (Accepted codec e → e.index ≠ i) →
        (w.appendLogEntry codec e {}).2.index.get i = w.index.get i) ∧
      (Accepted codec e → ∃ payload place, codec.serialize e.toProto = some payload ∧
        payload.length ≤ kMaxRecordSize ∧
        (w.appendLogEntry codec e {}).2.index.get e.index = some place ∧
        Recorded segments' kFormatVersionProtobuf place payload) := by
  cases hpayload : codec.serialize e.toProto with
  | none =>
    have hsame : (w.appendLogEntry codec e {}).2 = w := by
      unfold appendLogEntry
      rw [hpayload]
    rw [hsame]
    refine ⟨segments, h, extended_of_subset fun _ hs => hs, Nat.le_succ _, fun _ _ => rfl, ?_⟩
    rintro ⟨payload, hsome, -⟩
    rw [hpayload] at hsome
    cases hsome
  | some payload =>
    obtain ⟨front, current, flushed, buffered, hrot, hroom, hext, hne⟩ := h.rotated hcodec hid
    obtain ⟨current', flushed', buffered', happ, hext', hid', hput, hlarge⟩ :=
      entryAppended_of_rotated hcodec h.logFiles.fd hrot hroom he hpayload
    have hle := (rotatedState_frame codec w).2.2
    refine ⟨front ++ [current'], .modern happ (hid' ▸ hne), hext.trans hext', by omega, ?_, ?_⟩
    · intro i hi
      by_cases hsize : payload.length ≤ kMaxRecordSize
      · obtain ⟨place, hindex, -⟩ := hput hsize
        rw [hindex, DenseIndex.get_put, if_neg (Ne.symm (hi ⟨payload, hpayload, hsize⟩))]
      · rw [hlarge (Nat.lt_of_not_le hsize)]
    · rintro ⟨payload', hsome, hsize⟩
      obtain rfl : payload = payload' := Option.some.inj (hpayload.symm.trans hsome)
      obtain ⟨place, hindex, hsegment, hrecorded⟩ := hput hsize
      refine ⟨payload, place, rfl, hsize, ?_, hrecorded⟩
      rw [hindex, DenseIndex.get_put, if_pos rfl, Option.filter_some,
        if_pos (decide_eq_true (hsegment ▸ hne))]

end Append

/-! ## §3 — A list of entries, then `Close` and `Open`. -/

def appendAll (codec : WalCodec) (w : WalPersister) (entries : List RaftLogEntry) : WalPersister :=
  entries.foldl (fun w e => (w.appendLogEntry codec e {}).2) w

theorem appendAll_append (w : WalPersister) (entries entries' : List RaftLogEntry) :
    appendAll codec w (entries ++ entries') = appendAll codec (appendAll codec w entries) entries' :=
  List.foldl_append

/-- **A run of appends** loses nothing that was recorded. -/
theorem Fit.run (hcodec : codec.Lawful) {entries : List RaftLogEntry}
    (hrange : ∀ e ∈ entries, InRange e) (h : Fit codec w segments)
    (hid : w.active.id + entries.length < 2 ^ 64) :
    ∃ segments', Fit codec (appendAll codec w entries) segments' ∧ Extended segments segments' ∧
      (appendAll codec w entries).active.id ≤ w.active.id + entries.length ∧
      ∀ i, (∀ e ∈ entries, Accepted codec e → e.index ≠ i) →
        (appendAll codec w entries).index.get i = w.index.get i := by
  induction entries generalizing w segments with
  | nil => exact ⟨segments, h, extended_of_subset fun _ hs => hs, Nat.le_refl _, fun _ _ => rfl⟩
  | cons e entries ih =>
    rw [List.length_cons] at hid
    obtain ⟨segments', hfit, hext, hnext, hindex, -⟩ :=
      h.append hcodec (by omega) (hrange e List.mem_cons_self)
    obtain ⟨segments'', hfit', hext', hlast, hrest⟩ :=
      ih (fun x hx => hrange x (List.mem_cons_of_mem e hx)) hfit (by omega)
    refine ⟨segments'', hfit', hext.trans hext', ?_, ?_⟩
    · rw [List.length_cons]
      have hlast : (appendAll codec w (e :: entries)).active.id
          ≤ (w.appendLogEntry codec e {}).2.active.id + entries.length := hlast
      omega
    · intro i hi
      have hstep := hindex i (hi e List.mem_cons_self)
      exact (hrest i fun x hx => hi x (List.mem_cons_of_mem e hx)).trans hstep

theorem Fit.readsBack (hcodec : codec.Lawful) {before mid : List RaftLogEntry}
    (hrange : ∀ x ∈ before ++ e :: mid, InRange x) (h : Fit codec w segments)
    (hid : w.active.id + (before ++ e :: mid).length < 2 ^ 64) (haccepted : Accepted codec e)
    (hmid : ∀ x ∈ mid, Accepted codec x → x.index ≠ e.index) :
    ReadsBack codec (appendAll codec w (before ++ e :: mid)) e := by
  rw [List.length_append, List.length_cons] at hid
  have he : InRange e := hrange e (List.mem_append_right _ List.mem_cons_self)
  obtain ⟨segments₁, hfit₁, -, hid₁, -⟩ :=
    h.run hcodec (fun x hx => hrange x (List.mem_append_left _ hx)) (by omega)
  obtain ⟨segments₂, hfit₂, -, hid₂, -, hrecorded⟩ := hfit₁.append hcodec (by omega) he
  obtain ⟨payload, place, hpayload, hsize, hget, hrecorded⟩ := hrecorded haccepted
  obtain ⟨segments₃, hfit₃, hext, -, hindex⟩ := hfit₂.run hcodec
    (fun x hx => hrange x (List.mem_append_right _ (List.mem_cons_of_mem e hx))) (by omega)
  rw [appendAll_append]
  exact readsBack_of_recorded hcodec hfit₃.logFiles he ((hindex e.index hmid).trans hget) hpayload
    hsize (hrecorded.extended hext)

theorem IdleContent.reopened {front : List SegmentLog} {last : SegmentLog}
    (h : IdleContent codec w front last) :
    ((w.close {}).openWal codec .ok).1 = .ok ∧
      LogFiles codec ((w.close {}).openWal codec .ok).2 (front ++ [last]) := by
  have hck : Checkpointed codec (w.checkpointIfDue true).dir.checkpoints (front ++ [last]) := by
    unfold checkpointIfDue
    split
    · exact checkpointed_saveCheckpoint h.id h.index h.storable h.checkpoints true
    · exact h.checkpoints
  have hcontent : Content codec (w.checkpointIfDue true).dir (front ++ [last]) := by
    obtain ⟨checkpoints, hsame⟩ := sameButCheckpoints_checkpointIfDue w true
    rw [hsame]
    exact ⟨h.content.stored, h.content.sorted, h.content.sound, h.content.small, h.content.metaJson⟩
  have hsame : w.flushedState = w := by
    rw [flushedState, if_pos h.buffer]
  rw [close_ok h.fd clean_default, hsame]
  obtain ⟨hok, hidle, -⟩ := idle_of_openWal (w := (w.checkpointIfDue true).closed) hcontent hck rfl .ok
  exact ⟨hok, hidle.logFiles⟩

theorem Fit.reopened (h : Fit codec w segments) : ((w.close {}).openWal codec .ok).1 = .ok ∧
      LogFiles codec ((w.close {}).openWal codec .ok).2 segments := by
  cases h with
  | modern h _ =>
    obtain ⟨hok, hopened, -⟩ := (h.closed clean_default).opened .ok
    exact ⟨hok, hopened.logFiles⟩
  | full h _ => exact h.reopened

/-! ## §4 — Legacy directories. -/

/-- A closed WAL whose last segment is in the JSON format; old headers have no format at all. -/
structure LegacyDir (codec : WalCodec) (w : WalPersister) (front : List SegmentLog)
    (last : SegmentLog) : Prop where
  buffer : w.writeBuf = []
  content : Content codec w.dir (front ++ [last])
  legacy : last.format = 0 ∨ last.format = kFormatVersionJson
  checkpoints : Checkpointed codec w.dir.checkpoints (front ++ [last])

/-- Entries appended after `Open` can be read back, and the next `Open` recovers them and the entries
that were there before. -/
structure RoundTrips (codec : WalCodec) (w : WalPersister) (entries : List RaftLogEntry) : Prop where
  opened : (w.openWal codec .ok).1 = .ok
  readBack : ∀ before e mid after, entries = (before ++ e :: mid) ++ after → Accepted codec e →
    (∀ x ∈ mid, Accepted codec x → x.index ≠ e.index) →
    ReadsBack codec (appendAll codec (w.openWal codec .ok).2 (before ++ e :: mid)) e
  reopened : (((appendAll codec (w.openWal codec .ok).2 entries).close {}).openWal codec .ok).1 = .ok
  recovered : ∀ i, ((((appendAll codec (w.openWal codec .ok).2 entries).close {}).openWal codec
      .ok).2.getEntry codec i {}).1
    = ((appendAll codec (w.openWal codec .ok).2 entries).getEntry codec i {}).1
  kept : ∀ i, (∀ e ∈ entries, Accepted codec e → e.index ≠ i) →
    ((((appendAll codec (w.openWal codec .ok).2 entries).close {}).openWal codec .ok).2.getEntry
      codec i {}).1 = ((w.openWal codec .ok).2.getEntry codec i {}).1

theorem exists_first {α : Type*} {P : α → Prop} {xs : List α} (h : ∃ x ∈ xs, P x) :
    ∃ before x after, xs = before ++ x :: after ∧ (∀ y ∈ before, ¬ P y) ∧ P x := by
  classical
  obtain ⟨x, hx, hP⟩ := h
  have hsome : (xs.find? fun x => decide (P x)).isSome := by
    rw [List.find?_isSome]
    exact ⟨x, hx, decide_eq_true hP⟩
  obtain ⟨y, hy⟩ := Option.isSome_iff_exists.mp hsome
  obtain ⟨hPy, before, after, hxs, hbefore⟩ := List.find?_eq_some_iff_append.mp hy
  refine ⟨before, y, after, hxs, fun z hz => ?_, of_decide_eq_true hPy⟩
  simpa using hbefore z hz

section Legacy

variable {front : List SegmentLog} {last : SegmentLog}

theorem headerVersion_legacy (h : last.format = 0 ∨ last.format = kFormatVersionJson) :
    headerVersion last.format = kFormatVersionJson := by
  rcases h with h | h
  · rw [h]
    rfl
  · rw [h]
    rfl

theorem needsRotation_of_endOffset (h : kMaxSegmentSize ≤ w.active.endOffset) :
    w.needsRotation = true := by
  unfold needsRotation
  rw [Bool.or_eq_true, decide_eq_true_eq, decide_eq_true_eq]
  omega

variable {e : RaftLogEntry}

/-- While there is room, an entry that is not accepted changes nothing. -/
theorem appendLogEntry_rejected (hfd : w.active.fd = true) (hroom : w.needsRotation = false)
    (he : ¬ Accepted codec e) : (w.appendLogEntry codec e {}).2 = w := by
  unfold appendLogEntry
  cases hpayload : codec.serialize e.toProto with
  | none => rfl
  | some payload =>
    have hlarge : kMaxRecordSize < payload.length := by
      apply Nat.lt_of_not_le
      intro hsize
      exact he ⟨payload, hpayload, hsize⟩
    dsimp only
    rw [appendRecord_ok hfd clean_default, if_pos hlarge, rotatedState, hroom]
    rfl

theorem appendAll_rejected (hfd : w.active.fd = true) (hroom : w.needsRotation = false)
    {entries : List RaftLogEntry} (h : ∀ e ∈ entries, ¬ Accepted codec e) :
    appendAll codec w entries = w := by
  induction entries with
  | nil => rfl
  | cons e entries ih =>
    show appendAll codec (w.appendLogEntry codec e {}).2 entries = w
    rw [appendLogEntry_rejected hfd hroom (h e List.mem_cons_self)]
    exact ih fun x hx => h x (List.mem_cons_of_mem e hx)

/-- What a flush leaves in the file of a segment of any format after one record was pushed. -/
theorem IdleContent.pushed_file (h : IdleContent codec w front last) (r : WALRecord) :
    (w.pushRecord r).flushedState.dir.segments.lookup last.id
      = some (SegmentLog.body { last with records := last.records ++ [r] }
          ++ trailer (SegmentLog.endOffset { last with records := last.records ++ [r] })) := by
  obtain ⟨files, file, hsegments, hnames, -, hholds⟩ :=
    last_file (pairwise_concat.mp h.content.sorted).2 h.content.stored
  have hbuf : (w.pushRecord r).writeBuf = encodeAll [r] := by
    show w.writeBuf ++ encodeRecord r = _
    rw [h.buffer]
    simp
  obtain ⟨file', hfiles, hwhole⟩ := segments_flushedState (w := w.pushRecord r) h.id hsegments hnames
    hholds h.endOffset hbuf (List.cons_ne_nil r [])
  rw [hfiles, lookup_last hnames]
  rcases hwhole with hwhole | ⟨hnone, -⟩
  · rw [hwhole]
  · exact absurd hnone (List.append_ne_nil_of_right_ne_nil _ (List.cons_ne_nil r []))

/-- **The defect**: an entry that goes to a legacy segment cannot be read back. -/
theorem IdleContent.unreadable (hcodec : codec.Lawful) (h : IdleContent codec w front last)
    (hlegacy : last.format = 0 ∨ last.format = kFormatVersionJson)
    (hroom : w.needsRotation = false) (he : Accepted codec e) :
    ∃ status, ((w.appendLogEntry codec e {}).2.getEntry codec e.index {}).1 = .error status := by
  obtain ⟨payload, hpayload, hsize⟩ := he
  have hrot : rotatedState codec w = w := by
    rw [rotatedState, hroom]
    rfl
  obtain ⟨entryCount, hstate⟩ : ∃ entryCount, (w.appendLogEntry codec e {}).2.flushedState
      = { (w.pushRecord ⟨.logEntry, payload⟩).flushedState with
          index := w.index.put e.index ⟨w.active.id, last.endOffset, 10 + payload.length⟩
          active.entryCount := entryCount } := by
    unfold appendLogEntry
    rw [hpayload]
    dsimp only
    rw [appendRecord_ok h.fd clean_default, if_neg (Nat.not_lt.mpr hsize), hrot, h.buffer, h.endOffset]
    unfold pushedState
    split
    · have hempty : (w.pushRecord ⟨.logEntry, payload⟩).flushedState.writeBuf = [] := by
        rw [flushedState_eq]
      refine ⟨(w.pushRecord ⟨.logEntry, payload⟩).flushedState.active.entryCount + 1, ?_⟩
      rw [id_flushedState, index_flushedState, flushedState, if_pos hempty]
      rfl
    refine ⟨w.active.entryCount + 1, ?_⟩
    rw [flushedState_withIndex]
    rfl
  have hfd : (w.appendLogEntry codec e {}).2.active.fd = true := by
    rw [← fd_flushedState, hstate]
    exact (fd_flushedState _).trans h.fd
  have hindex : (w.appendLogEntry codec e {}).2.index
      = w.index.put e.index ⟨w.active.id, last.endOffset, 10 + payload.length⟩ := by
    rw [← index_flushedState, hstate]
  rw [getEntry_ok hfd clean_default, hindex, DenseIndex.get_put, if_pos rfl, Option.filter_some, h.id]
  split
  · exact ⟨_, rfl⟩
  rename_i place hplace
  -- the record is read in the format of the segment
  obtain rfl : (⟨last.id, last.endOffset, 10 + payload.length⟩ : WALIndexEntry) = place := by
    split at hplace
    · exact Option.some.inj hplace
    · cases hplace
  have hsound := h.content.sound last (List.mem_append_right _ List.mem_cons_self)
  have hfile := h.pushed_file ⟨.logEntry, payload⟩
  have hopen : ∀ walDir rest, openSegment walDir last.id
      (some (SegmentLog.body { last with records := last.records ++ [⟨.logEntry, payload⟩] } ++ rest))
        = .ok kFormatVersionJson := by
    intro walDir rest
    rw [SegmentLog.body, List.append_assoc, openSegment_header walDir _ hsound.id hsound.format,
      headerVersion_legacy hlegacy]
  obtain ⟨status, hparse⟩ := parseJsonPayload_serialize hcodec hpayload
    (computeCRC32 (crcData 1 payload)).toNat
  refine ⟨status, ?_⟩
  rw [hstate]
  unfold readEntry WalPersister.file
  rw [hfile, hopen]
  have hrecords : SegmentLog.records { last with
      records := last.records ++ [⟨.logEntry, payload⟩] }
        = last.records ++ [⟨.logEntry, payload⟩] := rfl
  refine (readLogEntryAt_segment hrecords hsize kFormatVersionJson last.id).trans ?_
  unfold parsePayload
  rw [if_neg (by decide)]
  exact hparse

/-- **Appending behind a legacy segment** works exactly when nothing is accepted into it: either no
entry is accepted at all, or the segment is full when `Open` finds it, so that the first append starts
a segment of the new format. -/
theorem legacy_roundTrips_iff (hcodec : codec.Lawful) (h : LegacyDir codec w front last)
    {entries : List RaftLogEntry} (hrange : ∀ e ∈ entries, InRange e)
    (hids : last.id + entries.length < 2 ^ 64) :
    RoundTrips codec w entries ↔
      (∀ e ∈ entries, ¬ Accepted codec e) ∨ (w.openWal codec .ok).2.needsRotation = true := by
  obtain ⟨hok, hidle, -⟩ := idle_of_openWal h.content h.checkpoints h.buffer .ok
  have hid := hidle.id
  cases hneeds : (w.openWal codec .ok).2.needsRotation with
  | true =>
    refine iff_of_true ?_ (.inr rfl)
    have hfit := Fit.full hidle hneeds
    obtain ⟨segments, hlast, hext, -, hindex⟩ := hfit.run hcodec hrange (by omega)
    obtain ⟨hreopened, hfiles⟩ := hlast.reopened
    have hsame := hfiles.index.trans hlast.logFiles.index.symm
    refine ⟨hok, ?_, hreopened, ?_, ?_⟩
    · rintro before e mid after rfl haccepted hmid
      rw [List.length_append] at hids
      exact hfit.readsBack hcodec (fun x hx => hrange x (List.mem_append_left _ hx)) (by omega)
        haccepted hmid
    · intro i
      exact getEntry_extended hlast.logFiles hfiles (extended_of_subset fun _ hs => hs)
        (congrFun hsame i)
    · intro i hi
      exact getEntry_extended hidle.logFiles hfiles hext ((congrFun hsame i).trans (hindex i hi))
  | false =>
    constructor
    · intro hround
      refine .inl fun e he haccepted => ?_
      -- the first accepted entry is put into the legacy segment
      obtain ⟨before, e, after, rfl, hrejected, haccepted⟩ :=
        exists_first (P := Accepted codec) ⟨e, he, haccepted⟩
      obtain ⟨e', hread, -⟩ := hround.readBack before e [] after (by simp) haccepted
        fun _ hx => absurd hx List.not_mem_nil
      rw [appendAll_append, appendAll_rejected hidle.fd hneeds hrejected] at hread
      obtain ⟨status, hstatus⟩ := hidle.unreadable hcodec h.legacy hneeds haccepted
      have hread : ((appendLogEntry codec (w.openWal codec .ok).2 e {}).2.getEntry codec e.index
        {}).1 = .ok e' := hread
      rw [hstatus] at hread
      cases hread
    · rintro (hrejected | hfull)
      · have hall := appendAll_rejected hidle.fd hneeds hrejected
        obtain ⟨hreopened, hfiles⟩ := hidle.reopened
        have hsame := hfiles.index.trans hidle.logFiles.index.symm
        have hreads : ∀ i, ((((w.openWal codec .ok).2.close {}).openWal codec .ok).2.getEntry codec i
            {}).1 = ((w.openWal codec .ok).2.getEntry codec i {}).1 := fun i =>
          getEntry_extended hidle.logFiles hfiles (extended_of_subset fun _ hs => hs)
            (congrFun hsame i)
        refine ⟨hok, ?_, hall.symm ▸ hreopened, hall.symm ▸ hreads, fun i _ => ?_⟩
        · rintro before e mid after rfl haccepted
          refine absurd haccepted (hrejected e ?_)
          exact List.mem_append_left _ (List.mem_append_right _ List.mem_cons_self)
        · rw [hall]
          exact hreads i
      · cases hfull

end Legacy

/-- A record of an unknown type that is as large as a record may be. -/
@[irreducible] def largeRecord : WALRecord := ⟨.other 9, List.replicate kMaxRecordSize 0⟩

theorem largeRecord_type : largeRecord.type = .other 9 := by
  unfold largeRecord
  rfl

theorem largeRecord_length : largeRecord.payload.length = kMaxRecordSize := by
  unfold largeRecord
  exact List.length_replicate

theorem recordEffect_largeRecord (format segmentId offset : Nat) :
    recordEffect wireCodec format segmentId offset largeRecord = .ok .nothing := by
  unfold recordEffect
  rw [largeRecord_type]

/-- A legacy segment that is full: four such records. -/
def fullLegacySegment : SegmentLog :=
  ⟨1, kFormatVersionJson, [largeRecord, largeRecord, largeRecord, largeRecord]⟩

variable {r : WALRecord}

theorem mem_fullLegacySegment (h : r ∈ fullLegacySegment.records) :
    r = largeRecord := by
  simpa [fullLegacySegment] using h

theorem endOffset_of_four {s : SegmentLog} (h : s.records = [r, r, r, r]) :
    s.endOffset = 16 + 4 * (10 + r.payload.length) := by
  rw [SegmentLog.endOffset, h]
  simp only [encodeAll_cons, encodeAll_nil, List.length_append, List.length_nil, length_encodeRecord]
  unfold kHeaderSize
  omega

theorem endOffset_fullLegacySegment :
    fullLegacySegment.endOffset = 16 + 4 * (10 + kMaxRecordSize) := by
  rw [endOffset_of_four (r := largeRecord) rfl, largeRecord_length]

theorem fullLegacySegment_sound : fullLegacySegment.Sound wireCodec := by
  refine ⟨show 1 < 2 ^ 64 by decide, show 1 < 2 ^ 16 by decide, ?_, ?_⟩
  · intro r hr
    rw [mem_fullLegacySegment hr]
    refine ⟨Nat.le_of_eq largeRecord_length, ?_, ?_, fun _ _ => ⟨_, recordEffect_largeRecord _ _ _⟩⟩
    · rw [largeRecord_type]
      decide
    · rw [largeRecord_type]
      rfl
  · rw [endOffset_fullLegacySegment]
    decide

theorem effects_fullLegacySegment {e : DenseIndex.Effect}
    (h : e ∈ fullLegacySegment.effects wireCodec) : e = .nothing := by
  unfold SegmentLog.effects fullLegacySegment at h
  simpa [effectsFrom, effectAt, recordEffect_largeRecord] using h

/-- The WAL over the directory with that segment. -/
def fullLegacyWal : WalPersister :=
  { walDir := ascii "/wal"
    dir := { segments :=
      [(1, fullLegacySegment.body ++ trailer fullLegacySegment.endOffset)] } }

theorem fullLegacyWal_legacyDir : LegacyDir wireCodec fullLegacyWal [] fullLegacySegment := by
  refine ⟨rfl, ⟨.cons ⟨rfl, .inl rfl⟩ .nil, List.pairwise_singleton _ _, ?_, ?_, rfl⟩, .inr rfl,
    fun _ hc => absurd hc List.not_mem_nil⟩
  · intro s hs
    rw [List.mem_singleton.mp hs]
    exact fullLegacySegment_sound
  · intro s hs e he
    rw [List.mem_singleton.mp hs] at he
    rw [effects_fullLegacySegment he]
    trivial

theorem accepted_smallEntry : Accepted wireCodec smallEntry :=
  ⟨[8, 1, 16, 1], serialize_smallEntry, by decide⟩

/-- A full legacy segment and one entry behind it. -/
theorem legacy_roundTrips_full :
    LegacyDir wireCodec fullLegacyWal [] fullLegacySegment ∧ Accepted wireCodec smallEntry ∧
      RoundTrips wireCodec fullLegacyWal [smallEntry] := by
  have hrange : ∀ e ∈ [smallEntry], InRange e := by
    intro e he
    rw [List.mem_singleton.mp he]
    exact ⟨by decide, by decide, by decide⟩
  have hids : fullLegacySegment.id + [smallEntry].length < 2 ^ 64 := by
    show 1 + 1 < 2 ^ 64
    decide
  have hdir := fullLegacyWal_legacyDir
  obtain ⟨-, hidle, -⟩ := idle_of_openWal hdir.content hdir.checkpoints hdir.buffer .ok
  have hneeds : (fullLegacyWal.openWal wireCodec .ok).2.needsRotation = true := by
    apply needsRotation_of_endOffset
    rw [hidle.endOffset, endOffset_fullLegacySegment]
    decide
  exact ⟨hdir, accepted_smallEntry,
    (legacy_roundTrips_iff wireCodec_lawful hdir hrange hids).mpr (.inr hneeds)⟩

/-- The WAL over a directory with one empty legacy segment. -/
def legacyWal : WalPersister :=
  { walDir := ascii "/wal", dir := { segments := [(1, segmentHeader 1 kFormatVersionJson)] } }

/-- The first entry after a legacy segment is lost, and the WAL does not open again. -/
theorem legacy_append_unreadable :
    LegacyDir wireCodec legacyWal [] ⟨1, kFormatVersionJson, []⟩ ∧ Accepted wireCodec smallEntry ∧
      ((legacyWal.openWal wireCodec .ok).2.appendLogEntry wireCodec smallEntry {}).1 = .ok ∧
      ¬ ReadsBack wireCodec (appendAll wireCodec (legacyWal.openWal wireCodec .ok).2 [smallEntry])
        smallEntry ∧
      (((appendAll wireCodec (legacyWal.openWal wireCodec .ok).2 [smallEntry]).close {}).openWal
        wireCodec .ok).1 ≠ .ok ∧
      ¬ RoundTrips wireCodec legacyWal [smallEntry] := by
  have hread : ((appendAll wireCodec (legacyWal.openWal wireCodec .ok).2 [smallEntry]).getEntry
      wireCodec smallEntry.index {}).1.isOk = false := by
    decide +kernel
  have hopen : (((appendAll wireCodec (legacyWal.openWal wireCodec .ok).2 [smallEntry]).close
      {}).openWal wireCodec .ok).1 ≠ .ok := by
    decide +kernel
  refine ⟨⟨rfl, ⟨.cons ⟨rfl, .inr ⟨rfl, ?_⟩⟩ .nil, List.pairwise_singleton _ _, ?_, ?_, rfl⟩, .inr rfl,
    fun _ hc => absurd hc List.not_mem_nil⟩, accepted_smallEntry, ?_, ?_, hopen,
    fun hround => hopen hround.reopened⟩
  · rw [SegmentLog.body]
    exact (List.append_nil _).symm
  · intro s hs
    rw [List.mem_singleton.mp hs]
    exact ⟨show 1 < 2 ^ 64 by decide, show 1 < 2 ^ 16 by decide,
      fun r hr => absurd hr List.not_mem_nil, show 16 < 2 ^ 64 by decide⟩
  · intro s hs e he
    rw [List.mem_singleton.mp hs] at he
    exact absurd he List.not_mem_nil
  · decide +kernel
  · rintro ⟨e', hok, -⟩
    rw [hok] at hread
    cases hread

end WalPersister

end RollingRaft
