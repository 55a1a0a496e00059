/-
# RollingRaft.Storage.WalReadback — what the writers of the log write is what its readers read.

A header validates, a trailer is read back, a record is read back whatever follows it, and a scan
over encoded records applies their effects one after the other (`scanLoop_encodeAll`). A piece of a
record that is cut short is never taken for a record (`Incomplete`): the scan stops there and names
the end of the last whole record. A checkpoint file is read back to the index it was made from.
-/
import Mathlib.Data.List.Forall2
import RollingRaft.Storage.SegmentIds

namespace RollingRaft

open Lib

/-! ## §1 — Headers and trailers. -/

/-- The format version a header stands for: `0` is JSON. -/
def headerVersion (format : Nat) : Nat := if format = 0 then kFormatVersionJson else format

theorem openSegment_header {segmentId format : Nat} (walDir rest : Bytes) (hid : segmentId < 2 ^ 64)
    (hformat : format < 2 ^ 16) :
    openSegment walDir segmentId (some (segmentHeader segmentId format ++ rest))
      = .ok (headerVersion format) := by
  have hlen : ¬ (segmentHeader segmentId format ++ rest).length < kHeaderSize := by
    rw [List.length_append, length_segmentHeader]
    omega
  have hmagic : leNat ((segmentHeader segmentId format ++ rest).take 4) = kMagic := by
    simp only [segmentHeader, List.append_assoc, take_leBytes_append]
    exact leNat_leBytes_of_lt (by decide)
  have hversion : leNat (((segmentHeader segmentId format ++ rest).drop 4).take 2) = kVersion := by
    simp only [segmentHeader, List.append_assoc, drop_leBytes_append, take_leBytes_append]
    exact leNat_leBytes_of_lt (by decide)
  have hstored : leNat (((segmentHeader segmentId format ++ rest).drop 8).take 8) = segmentId := by
    have hdrop : (segmentHeader segmentId format ++ rest).drop 8 = leBytes 8 segmentId ++ rest := by
      simp [segmentHeader, List.drop_append, drop_leBytes_of_le]
    rw [hdrop, take_leBytes_append]
    exact leNat_leBytes_of_lt (by omega)
  have hfield : leNat (((segmentHeader segmentId format ++ rest).drop 6).take 2) = format := by
    have hdrop : (segmentHeader segmentId format ++ rest).drop 6
        = leBytes 2 format ++ (leBytes 8 segmentId ++ rest) := by
      simp [segmentHeader, List.drop_append, drop_leBytes_of_le]
    rw [hdrop, take_leBytes_append]
    exact leNat_leBytes_of_lt (by omega)
  unfold openSegment
  dsimp only
  rw [if_neg hlen, if_neg (not_not.mpr hmagic), if_neg (not_not.mpr hversion),
    if_neg (not_not.mpr hstored), hfield]
  rfl

@[simp] theorem length_trailer (endOffset : Nat) : (trailer endOffset).length = kTrailerSize := by
  rw [trailer, length_leBytes]
  rfl

theorem readTrailer_trailer {front : Bytes} {endOffset : Nat} (hfront : kHeaderSize ≤ front.length)
    (hend : endOffset ≤ front.length) (hfits : endOffset < 2 ^ 64) :
    readTrailer (front ++ trailer endOffset) = .ok endOffset := by
  have hlen : (front ++ trailer endOffset).length = front.length + kTrailerSize := by
    rw [List.length_append, length_trailer]
  have hlast : leNat ((front ++ trailer endOffset).drop
      ((front ++ trailer endOffset).length - kTrailerSize)) = endOffset := by
    rw [hlen, Nat.add_sub_cancel, List.drop_left, trailer]
    exact leNat_leBytes_of_lt (by omega)
  unfold readTrailer
  rw [if_neg (by omega), hlast, if_neg (by omega)]

theorem readTrailer_of_short {file : Bytes} (h : file.length < kHeaderSize + kTrailerSize) :
    readTrailer file = .error (.corruption (ascii "Segment too small for trailer")) := by
  rw [readTrailer, if_pos h]

/-! ## §2 — Records. -/

def encodeAll (records : List WALRecord) : Bytes := records.flatMap encodeRecord

@[simp] theorem encodeAll_nil : encodeAll [] = [] := rfl

@[simp] theorem encodeAll_cons (r : WALRecord) (records : List WALRecord) :
    encodeAll (r :: records) = encodeRecord r ++ encodeAll records := rfl

theorem length_encodeAll_of_ne_nil {records : List WALRecord} (h : encodeAll records ≠ []) :
    kTrailerSize ≤ (encodeAll records).length := by
  cases records with
  | nil => exact absurd rfl h
  | cons r records =>
    rw [encodeAll_cons, List.length_append, length_encodeRecord]
    unfold kTrailerSize
    omega

theorem encodeAll_append (records records' : List WALRecord) :
    encodeAll (records ++ records') = encodeAll records ++ encodeAll records' :=
  List.flatMap_append

theorem eq_nil_of_encodeAll {records : List WALRecord} (h : encodeAll records = []) :
    records = [] := by
  cases records with
  | nil => rfl
  | cons r records =>
    have hlen := congrArg List.length h
    rw [encodeAll_cons, List.length_append, length_encodeRecord, List.length_nil] at hlen
    omega

/-- The record fits its fields, and a scan of a segment of this version understands it. -/
structure Readable (codec : WalCodec) (version : Nat) (r : WALRecord) : Prop where
  size : r.payload.length ≤ kMaxRecordSize
  code : r.type.code < 2 ^ 16
  type : WALRecordType.ofCode r.type.code = r.type
  effect : ∀ segmentId offset, ∃ e, recordEffect codec version segmentId offset r = .ok e

theorem encodeRecord_fields (r : WALRecord) (rest : Bytes) :
    (encodeRecord r ++ rest).take 4
        = leBytes 4 (computeCRC32 (crcData r.type.code r.payload)).toNat ∧
      (encodeRecord r ++ rest).drop 4
        = leBytes 4 r.payload.length ++ (leBytes 2 r.type.code ++ (r.payload ++ rest)) ∧
      (encodeRecord r ++ rest).drop 8 = leBytes 2 r.type.code ++ (r.payload ++ rest) ∧
      (encodeRecord r ++ rest).drop 10 = r.payload ++ rest := by
  refine ⟨?_, ?_, ?_, ?_⟩
  · simp [encodeRecord, List.append_assoc]
  · simp [encodeRecord, crcData, List.append_assoc]
  · simp [encodeRecord, crcData, List.drop_append, drop_leBytes_of_le]
  · simp [encodeRecord, crcData, List.drop_append, drop_leBytes_of_le]

theorem toNat_crc_lt (crc : UInt32) : crc.toNat < 256 ^ 4 := crc.toNat_lt

variable {r : WALRecord} {files : FileTable} {segments : List SegmentLog}

theorem encodeRecord_numbers (hsize : r.payload.length ≤ kMaxRecordSize)
    (hcode : r.type.code < 2 ^ 16) (rest : Bytes) :
    leNat ((encodeRecord r ++ rest).take 4) = (computeCRC32 (crcData r.type.code r.payload)).toNat ∧
      leNat (((encodeRecord r ++ rest).drop 4).take 4) = r.payload.length ∧
      leNat (((encodeRecord r ++ rest).drop 8).take 2) = r.type.code := by
  obtain ⟨hcrc, hlength, hcodeField, -⟩ := encodeRecord_fields r rest
  refine ⟨?_, ?_, ?_⟩
  · rw [hcrc]
    exact leNat_leBytes_of_lt (toNat_crc_lt _)
  · rw [hlength, take_leBytes_append]
    unfold kMaxRecordSize at hsize
    exact leNat_leBytes_of_lt (by omega)
  · rw [hcodeField, take_leBytes_append]
    exact leNat_leBytes_of_lt (by omega)

theorem readRecord_encodeRecord {segmentId current endOffset : Nat} (rest : Bytes)
    (hsize : r.payload.length ≤ kMaxRecordSize) (hcode : r.type.code < 2 ^ 16)
    (htype : WALRecordType.ofCode r.type.code = r.type)
    (hend : current + (10 + r.payload.length) ≤ endOffset) :
    readRecord segmentId current endOffset (encodeRecord r ++ rest) = .ok r := by
  have hpayload := (encodeRecord_fields r rest).2.2.2
  have hlen : 10 ≤ (encodeRecord r ++ rest).length := by
    rw [List.length_append, length_encodeRecord]
    omega
  obtain ⟨hcrc', hlength', hcode'⟩ := encodeRecord_numbers hsize hcode rest
  unfold readRecord
  rw [hcrc', hlength', hcode', hpayload, if_neg (by omega), if_neg (by omega), if_neg (by omega),
    if_neg (by omega), if_neg (by omega), if_neg (by rw [List.length_append]; omega),
    List.take_left, if_neg (not_not.mpr rfl), htype]

/-- Bytes in which no whole record ends before their own end. -/
def Incomplete (tail : Bytes) : Prop :=
  ∀ segmentId current endOffset, endOffset ≤ current + tail.length →
    ∃ what, readRecord segmentId current endOffset tail = .error what

theorem incomplete_of_short {tail : Bytes} (h : tail.length < 10) : Incomplete tail := by
  intro segmentId current endOffset _
  unfold readRecord
  split
  · exact ⟨_, rfl⟩
  split
  · exact ⟨_, rfl⟩
  · exact ⟨_, rfl⟩

theorem incomplete_take_encodeRecord (hsize : r.payload.length ≤ kMaxRecordSize) {n : Nat}
    (hn : n < (encodeRecord r).length) : Incomplete ((encodeRecord r).take n) := by
  by_cases hshort : ((encodeRecord r).take n).length < 10
  · exact incomplete_of_short hshort
  intro segmentId current endOffset hend
  rw [List.length_take, Nat.min_eq_left (Nat.le_of_lt hn)] at hshort hend
  have hfield : (((encodeRecord r).take n).drop 4).take 4 = leBytes 4 r.payload.length := by
    have hdrop := (encodeRecord_fields r []).2.1
    rw [List.append_nil] at hdrop
    rw [List.drop_take, List.take_take, Nat.min_eq_left (by omega), hdrop, take_leBytes_append]
  have hlength : leNat ((((encodeRecord r).take n).drop 4).take 4) = r.payload.length := by
    rw [hfield]
    unfold kMaxRecordSize at hsize
    exact leNat_leBytes_of_lt (by omega)
  have hlen : ((encodeRecord r).take n).length = n := by
    rw [List.length_take, Nat.min_eq_left (Nat.le_of_lt hn)]
  rw [length_encodeRecord] at hn
  unfold readRecord
  rw [hlength, hlen, if_neg (by omega), if_neg (by omega), if_neg (by omega), if_pos (by omega)]
  exact ⟨_, rfl⟩

/-! ## §3 — Scans. -/

section Scans

variable (codec : WalCodec) (version segmentId : Nat)

/-- What a record at an offset does to the index. -/
def effectAt (offset : Nat) (r : WALRecord) : DenseIndex.Effect :=
  match recordEffect codec version segmentId offset r with
  | .ok e => e
  | .error _ => .nothing

/-- The effects of records that lie one after the other. -/
def effectsFrom : Nat → List WALRecord → List DenseIndex.Effect
  | _, [] => []
  | offset, r :: records =>
    effectAt codec version segmentId offset r
      :: effectsFrom (offset + (10 + r.payload.length)) records

variable {codec version segmentId}

theorem recordEffect_eq_effectAt {r : WALRecord} (h : Readable codec version r) (offset : Nat) :
    recordEffect codec version segmentId offset r
      = .ok (effectAt codec version segmentId offset r) := by
  obtain ⟨e, he⟩ := h.effect segmentId offset
  rw [effectAt, he]

theorem effectsFrom_append (offset : Nat) (records records' : List WALRecord) :
    effectsFrom codec version segmentId offset (records ++ records')
      = effectsFrom codec version segmentId offset records
        ++ effectsFrom codec version segmentId (offset + (encodeAll records).length) records' := by
  induction records generalizing offset with
  | nil => rfl
  | cons r records ih =>
    simp only [List.cons_append, effectsFrom, encodeAll_cons, List.length_append,
      length_encodeRecord, ih, Nat.add_assoc]

/-- **A scan over whole records** applies their effects and goes on behind them. -/
theorem scanLoop_encodeAll {records : List WALRecord} (h : ∀ r ∈ records, Readable codec version r)
    {endOffset current : Nat} (hend : current + (encodeAll records).length ≤ endOffset)
    (fuel : Nat) (rest : Bytes) (index : DenseIndex) :
    scanLoop codec version segmentId endOffset (fun _ => true) (records.length + fuel) current
        (encodeAll records ++ rest) index
      = let after := scanLoop codec version segmentId endOffset (fun _ => true) fuel
          (current + (encodeAll records).length) rest
          (index.applyAll (effectsFrom codec version segmentId current records))
        { after with records := records ++ after.records } := by
  induction records generalizing current index with
  | nil => simp [effectsFrom]
  | cons r records ih =>
    have hr : Readable codec version r := h r List.mem_cons_self
    simp only [encodeAll_cons, List.length_append, length_encodeRecord] at hend
    have hlen : (r :: records).length + fuel = records.length + fuel + 1 := by
      rw [List.length_cons]
      omega
    rw [hlen, scanLoop, if_neg (by omega), encodeAll_cons, List.append_assoc,
      readRecord_encodeRecord _ hr.size hr.code hr.type (by omega)]
    dsimp only
    rw [recordEffect_eq_effectAt hr]
    dsimp only
    have hdrop : (encodeRecord r ++ (encodeAll records ++ rest)).drop (10 + r.payload.length)
        = encodeAll records ++ rest := by
      rw [← length_encodeRecord, List.drop_left]
    rw [if_pos rfl, hdrop, ih (fun x hx => h x (List.mem_cons_of_mem r hx)) (by omega)]
    simp only [effectsFrom, DenseIndex.applyAll_cons, List.length_append, length_encodeRecord,
      List.cons_append, Nat.add_assoc]

theorem scanLoop_done {endOffset current : Nat} (h : endOffset ≤ current) (fuel : Nat) (rest : Bytes)
    (index : DenseIndex) :
    scanLoop codec version segmentId endOffset (fun _ => true) fuel current rest index
      = ⟨index, .ok, 0, []⟩ := by
  cases fuel with
  | zero => rfl
  | succ fuel => rw [scanLoop, if_pos h]

end Scans

theorem length_le_encodeAll (records : List WALRecord) :
    records.length ≤ (encodeAll records).length := by
  induction records with
  | nil => exact Nat.zero_le _
  | cons r records ih =>
    simp only [encodeAll_cons, List.length_append, length_encodeRecord, List.length_cons]
    omega

/-! ## §4 — Segments. -/

/-- The content of a segment: its header and its records. -/
structure SegmentLog where
  id : Nat
  format : Nat
  records : List WALRecord
  deriving DecidableEq

namespace SegmentLog

def body (s : SegmentLog) : Bytes := segmentHeader s.id s.format ++ encodeAll s.records

def endOffset (s : SegmentLog) : Nat := kHeaderSize + (encodeAll s.records).length

@[simp] theorem length_body (s : SegmentLog) : s.body.length = s.endOffset := by
  rw [body, List.length_append, length_segmentHeader, endOffset]

theorem body_append (s : SegmentLog) (more : List WALRecord) :
    body { s with records := s.records ++ more } = s.body ++ encodeAll more := by
  rw [body, encodeAll_append, ← List.append_assoc]
  rfl

/-- The file of the segment: a fresh one has no trailer yet. -/
def Holds (s : SegmentLog) (file : Bytes) : Prop :=
  file = s.body ++ trailer s.endOffset ∨ s.records = [] ∧ file = s.body

def effects (codec : WalCodec) (s : SegmentLog) : List DenseIndex.Effect :=
  effectsFrom codec (headerVersion s.format) s.id kHeaderSize s.records

/-- The numbers fit their fields and the records can be read. -/
structure Sound (codec : WalCodec) (s : SegmentLog) : Prop where
  id : s.id < 2 ^ 64
  format : s.format < 2 ^ 16
  readable : ∀ r ∈ s.records, Readable codec (headerVersion s.format) r
  size : s.endOffset < 2 ^ 64

variable {codec : WalCodec} {s : SegmentLog} {file : Bytes}

theorem openSegment_holds (hsound : s.Sound codec) (h : s.Holds file) (walDir : Bytes) :
    openSegment walDir s.id (some file) = .ok (headerVersion s.format) := by
  rcases h with rfl | ⟨-, rfl⟩
  · rw [body, List.append_assoc]
    exact openSegment_header walDir _ hsound.id hsound.format
  · exact openSegment_header walDir _ hsound.id hsound.format

theorem le_endOffset (s : SegmentLog) : kHeaderSize ≤ s.endOffset := Nat.le_add_right _ _

theorem readTrailer_whole (hsound : s.Sound codec) :
    readTrailer (s.body ++ trailer s.endOffset) = .ok s.endOffset :=
  readTrailer_trailer (by rw [length_body]; exact s.le_endOffset) (by rw [length_body]) hsound.size

theorem drop_body (s : SegmentLog) (rest : Bytes) :
    (s.body ++ rest).drop kHeaderSize = encodeAll s.records ++ rest := by
  rw [body, List.append_assoc, ← length_segmentHeader s.id s.format, List.drop_left]

/-- **A scan of a whole file** visits its records and applies their effects. -/
theorem scanSegment_holds (hsound : s.Sound codec) (h : s.Holds file) (index : DenseIndex) :
    scanSegment codec (headerVersion s.format) s.id (fun _ => true) file index
      = ⟨index.applyAll (s.effects codec), .ok, 0, s.records⟩ := by
  rcases h with rfl | ⟨hnone, rfl⟩
  · have hfuel : (s.body ++ trailer s.endOffset).length + 1 = s.records.length
          + ((s.body ++ trailer s.endOffset).length + 1 - s.records.length) := by
      have := length_le_encodeAll s.records
      simp only [List.length_append, length_body, endOffset]
      omega
    have hend : kHeaderSize + (encodeAll s.records).length ≤ s.endOffset := Nat.le_refl _
    unfold scanSegment
    rw [readTrailer_whole hsound, drop_body]
    dsimp only
    rw [hfuel, scanLoop_encodeAll hsound.readable hend]
    dsimp only
    rw [scanLoop_done (show s.endOffset ≤ kHeaderSize + _ from Nat.le_refl _), List.append_nil]
    rfl
  · have hlen : s.body.length = kHeaderSize := by
      rw [length_body, endOffset, hnone]
      rfl
    unfold scanSegment
    rw [readTrailer_of_short (by rw [hlen]; decide)]
    rw [if_pos (by omega), effects, hnone]
    rfl

end SegmentLog

/-- The files are those of the segments, in order. -/
def Stored (files : FileTable) (segments : List SegmentLog) : Prop :=
  List.Forall₂ (fun f s => f.1 = s.id ∧ s.Holds f.2) files segments

theorem stored_names (h : Stored files segments) : files.map (·.1) = segments.map (·.id) := by
  induction h with
  | nil => rfl
  | cons hfile _ ih => rw [List.map_cons, List.map_cons, hfile.1, ih]

theorem stored_lt {id : Nat} (h : Stored files segments) (hlt : ∀ s ∈ segments, s.id < id) :
    ∀ f ∈ files, f.1 < id := by
  intro f hf
  have hmem : f.1 ∈ segments.map (·.id) := stored_names h ▸ List.mem_map_of_mem hf
  obtain ⟨s, hs, heq⟩ := List.mem_map.mp hmem
  exact heq ▸ hlt s hs

theorem stored_concat {front : List SegmentLog} {last : SegmentLog} :
    Stored files (front ++ [last]) ↔
      ∃ files' file, files = files' ++ [(last.id, file)] ∧ Stored files' front ∧
        last.Holds file := by
  constructor
  · intro h
    have hfront := List.forall₂_take_append files front [last] h
    have hlast := List.forall₂_drop_append files front [last] h
    obtain ⟨f, rest, hf, hrest, hdrop⟩ := List.forall₂_cons_right_iff.mp hlast
    rw [List.forall₂_nil_right_iff] at hrest
    subst hrest
    refine ⟨files.take front.length, f.2, ?_, hfront, hf.2⟩
    rw [← hf.1, ← hdrop, List.take_append_drop]
  · rintro ⟨files', file, rfl, hfront, hlast⟩
    exact List.rel_append hfront (.cons ⟨rfl, hlast⟩ .nil)

namespace WalPersister

variable {codec : WalCodec} {w : WalPersister} (walDir : Bytes) {files : FileTable}
  {segments : List SegmentLog}

/-- The scan of `Open` over whole files: nothing is cut, the segments from the covered one on are
replayed, and it goes on behind them. -/
theorem scanSegments_append (covered : Nat) (h : Stored files segments)
    (hsound : ∀ s ∈ segments, s.Sound codec) (rest : FileTable) (index : DenseIndex) :
    scanSegments codec walDir covered (files ++ rest) index
      = let after := scanSegments codec walDir covered rest (index.applyAll
          ((segments.filter fun s => covered ≤ s.id).flatMap (SegmentLog.effects codec)))
        (after.1, after.2.1, files ++ after.2.2) := by
  induction h generalizing index with
  | nil => rfl
  | @cons f s files segments hfile hrest ih =>
    obtain ⟨id, file⟩ := f
    obtain ⟨rfl, hholds⟩ := hfile
    have hs : s.Sound codec := hsound s List.mem_cons_self
    have ih := ih fun x hx => hsound x (List.mem_cons_of_mem s hx)
    rw [List.cons_append, scanSegments, SegmentLog.openSegment_holds hs hholds]
    dsimp only
    by_cases hcovered : s.id < covered
    · rw [if_pos hcovered, ih index, List.filter_cons_of_neg (by simpa using hcovered)]
      rfl
    rw [if_neg hcovered, SegmentLog.scanSegment_holds hs hholds]
    rw [if_pos rfl, ih, List.filter_cons_of_pos (by simpa using hcovered), List.flatMap_cons,
      DenseIndex.applyAll_append]
    rfl

/-- **The scan of `Open`** over whole files. -/
theorem scanSegments_stored (covered : Nat) (h : Stored files segments)
    (hsound : ∀ s ∈ segments, s.Sound codec) (index : DenseIndex) :
    scanSegments codec walDir covered files index = (.ok, index.applyAll
          ((segments.filter fun s => covered ≤ s.id).flatMap (SegmentLog.effects codec)), files) := by
  have happend := scanSegments_append walDir covered h hsound [] index
  rw [List.append_nil] at happend
  rw [happend]
  simp only [scanSegments, List.append_nil]

theorem openActive_holds {s : SegmentLog} {file : Bytes} (hsound : s.Sound codec)
    (h : s.Holds file) :
    w.openActive s.id file = (.ok, { w with
      opened := true
      active := ⟨s.id, true, s.endOffset, w.index.entries.countP fun e => e.segmentId = s.id⟩ }) := by
  unfold openActive
  rw [SegmentLog.openSegment_holds hsound h]
  rcases h with rfl | ⟨hnone, rfl⟩
  · rw [SegmentLog.readTrailer_whole hsound]
  · have hend : s.endOffset = kHeaderSize := by
      rw [SegmentLog.endOffset, hnone]
      rfl
    rw [readTrailer_of_short (by rw [SegmentLog.length_body, hend]; decide)]
    dsimp only
    rw [SegmentLog.length_body, hend, if_pos rfl]

end WalPersister

/-! ## §5 — Checkpoints. -/

namespace DenseIndex

/-- The numbers of the index fit the fields of a checkpoint. -/
structure Storable (d : DenseIndex) : Prop where
  indices : d.firstIndex + d.entries.length ≤ 2 ^ 32
  places : ∀ e ∈ d.entries, e.segmentId < 2 ^ 64 ∧ e.fileOffset < 2 ^ 64 ∧ e.length < 2 ^ 64

theorem put_behind {first : Nat} {entries : List WALIndexEntry} (hne : entries ≠ [])
    (entry : WALIndexEntry) :
    (DenseIndex.mk first entries).put (first + entries.length) entry
      = ⟨first, entries ++ [entry]⟩ := by
  have hpos : 0 < entries.length := List.length_pos_iff.mpr hne
  have hlast : (DenseIndex.mk first entries).lastIndex = first + entries.length - 1 := by
    rw [lastIndex, if_neg hne]
  have hfront : (DenseIndex.mk first entries).extendFront (first + entries.length)
      = ⟨first, entries⟩ := by
    rw [extendFront, if_neg]
    show ¬ first + entries.length < first
    omega
  have hback : (DenseIndex.mk first entries).extendBack (first + entries.length)
      = ⟨first, entries ++ [({} : WALIndexEntry)]⟩ := by
    rw [extendBack, if_pos (by omega), hlast,
      show first + entries.length - (first + entries.length - 1) = 1 by omega]
    rfl
  unfold put
  rw [if_neg hne, hfront]
  rw [hback]
  dsimp only
  rw [Nat.add_sub_cancel_left, List.set_append_right _ _ (Nat.le_refl _), Nat.sub_self,
    List.set_cons_zero]

end DenseIndex

namespace WalPersister

theorem loadEntries_cons {e : WALIndexEntry}
    (he : e.segmentId < 2 ^ 64 ∧ e.fileOffset < 2 ^ 64 ∧ e.length < 2 ^ 64) (count i : Nat)
    (rest : Bytes) (d : DenseIndex) :
    loadEntries (count + 1) i (encodeIndexEntry e ++ rest) d
      = loadEntries count (i + 1) rest (d.put i e) := by
  obtain ⟨htake, hdrop⟩ := encodeIndexEntry_append e rest
  have hoffset : ((encodeIndexEntry e ++ rest).drop 8).take 8 = leBytes 8 e.fileOffset := by
    simp [encodeIndexEntry, List.append_assoc]
  have hlength : ((encodeIndexEntry e ++ rest).drop 16).take 8 = leBytes 8 e.length := by
    have hdrop : (encodeIndexEntry e ++ rest).drop 16 = leBytes 8 e.length ++ rest := by
      simp [encodeIndexEntry, List.drop_append, drop_leBytes_of_le]
    rw [hdrop, take_leBytes_append]
  rw [loadEntries, htake, hoffset, hlength, hdrop, leNat_leBytes_of_lt (by omega),
    leNat_leBytes_of_lt (by omega), leNat_leBytes_of_lt (by omega)]

theorem loadEntries_behind {first : Nat} {before entries : List WALIndexEntry} (hne : before ≠ [])
    (h : ∀ e ∈ entries, e.segmentId < 2 ^ 64 ∧ e.fileOffset < 2 ^ 64 ∧ e.length < 2 ^ 64)
    (rest : Bytes) :
    loadEntries entries.length (first + before.length)
        (entries.flatMap encodeIndexEntry ++ rest) ⟨first, before⟩
      = ⟨first, before ++ entries⟩ := by
  induction entries generalizing before with
  | nil => rw [List.append_nil]; rfl
  | cons e entries ih =>
    rw [List.flatMap_cons, List.append_assoc, List.length_cons,
      loadEntries_cons (h e List.mem_cons_self), DenseIndex.put_behind hne]
    have hlen : first + before.length + 1 = first + (before ++ [e]).length := by
      rw [List.length_append, List.length_singleton]
      omega
    rw [hlen, ih (by simp) (fun x hx => h x (List.mem_cons_of_mem e hx)), List.append_assoc]
    rfl

theorem loadEntries_body {d : DenseIndex} (h : d.Storable) (hne : d.entries ≠ []) (rest : Bytes) :
    loadEntries d.entries.length d.firstIndex (d.entries.flatMap encodeIndexEntry ++ rest) .clear
      = d := by
  obtain ⟨first, entries⟩ := d
  cases entries with
  | nil => exact absurd rfl hne
  | cons e entries =>
    have hplaces := h.places
    rw [List.flatMap_cons, List.append_assoc, List.length_cons,
      loadEntries_cons (hplaces e List.mem_cons_self)]
    have hput : (DenseIndex.clear).put first e = ⟨first, [e]⟩ := rfl
    rw [hput]
    exact loadEntries_behind (List.cons_ne_nil e [])
      (fun x hx => hplaces x (List.mem_cons_of_mem e hx)) rest

theorem length_flatMap_encodeIndexEntry (entries : List WALIndexEntry) :
    (entries.flatMap encodeIndexEntry).length = entries.length * kCheckpointIndexEntrySize := by
  induction entries with
  | nil => rfl
  | cons e entries ih =>
    rw [List.flatMap_cons, List.length_append, ih, List.length_cons, Nat.add_mul]
    simp [encodeIndexEntry, kCheckpointIndexEntrySize]
    omega

theorem length_checkpointData (d : DenseIndex) (covered : Nat) :
    (checkpointData d covered).length
      = kCheckpointHeaderSize + d.entries.length * kCheckpointIndexEntrySize := by
  simp only [checkpointData, List.length_append, length_leBytes, length_flatMap_encodeIndexEntry,
    kCheckpointHeaderSize]

/-- **A checkpoint is read back.** -/
theorem decodeCheckpoint_encodeCheckpoint {d : DenseIndex} (h : d.Storable) (hne : d.entries ≠ [])
    {covered : Nat} (hcovered : covered < 2 ^ 64) :
    decodeCheckpoint (encodeCheckpoint d covered) = .ok (d, covered) := by
  have hindices := h.indices
  have hlen : (encodeCheckpoint d covered).length
      = kCheckpointHeaderSize + d.entries.length * kCheckpointIndexEntrySize
        + kCheckpointFooterSize := by
    rw [encodeCheckpoint, List.length_append, length_leBytes, length_checkpointData]
    rfl
  have hmagic : leNat ((encodeCheckpoint d covered).take 4) = kCheckpointMagic := by
    simp only [encodeCheckpoint, checkpointData, List.append_assoc, take_leBytes_append]
    exact leNat_leBytes_of_lt (by decide)
  have hversion : leNat (((encodeCheckpoint d covered).drop 4).take 2) = kCheckpointVersion := by
    simp only [encodeCheckpoint, checkpointData, List.append_assoc, drop_leBytes_append,
      take_leBytes_append]
    exact leNat_leBytes_of_lt (by decide)
  have hfirst : leNat (((encodeCheckpoint d covered).drop 8).take 8) = d.firstIndex := by
    have hdrop : ∃ rest, (encodeCheckpoint d covered).drop 8 = leBytes 8 d.firstIndex ++ rest := by
      refine ⟨leBytes 8 d.lastIndex ++ (encodeCheckpoint d covered).drop 24, ?_⟩
      rw [drop_encodeCheckpoint]
      unfold encodeCheckpoint
      rw [checkpointData]
      simp [List.drop_append, drop_leBytes_of_le]
    obtain ⟨rest, hrest⟩ := hdrop
    rw [hrest, take_leBytes_append]
    exact leNat_leBytes_of_lt (by omega)
  have hcount : leNat (((encodeCheckpoint d covered).drop 24).take 8) = d.entries.length := by
    rw [drop_encodeCheckpoint, take_leBytes_append]
    exact leNat_leBytes_of_lt (by omega)
  have hcovers : leNat (((encodeCheckpoint d covered).drop 32).take 8) = covered := by
    rw [show 32 = 24 + 8 from rfl, ← List.drop_drop, drop_encodeCheckpoint, drop_leBytes_append,
      take_leBytes_append]
    exact leNat_leBytes_of_lt (by omega)
  have hsplit : (encodeCheckpoint d covered).length - kCheckpointFooterSize
      = (checkpointData d covered).length := by
    rw [hlen, length_checkpointData]
    omega
  have hcrc : (computeCRC32 ((encodeCheckpoint d covered).take
      ((encodeCheckpoint d covered).length - kCheckpointFooterSize))).toNat
      = leNat ((encodeCheckpoint d covered).drop
        ((encodeCheckpoint d covered).length - kCheckpointFooterSize)) := by
    rw [hsplit, encodeCheckpoint, List.take_left, List.drop_left]
    exact (leNat_leBytes_of_lt (toNat_crc_lt _)).symm
  unfold decodeCheckpoint
  dsimp only
  rw [hmagic, hversion, hfirst, hcount, hcovers, body_encodeCheckpoint, loadEntries_body h hne]
  have hsize : (kCheckpointHeaderSize + d.entries.length * kCheckpointIndexEntrySize
      + kCheckpointFooterSize) % 2 ^ 64 = (encodeCheckpoint d covered).length := by
    rw [hlen]
    unfold kCheckpointHeaderSize kCheckpointIndexEntrySize kCheckpointFooterSize
    omega
  rw [if_neg (by rw [hlen]; omega), if_neg (not_not.mpr rfl), if_neg (not_not.mpr rfl),
    if_neg (not_not.mpr hsize.symm), if_neg (not_not.mpr hcrc)]

end WalPersister

end RollingRaft
