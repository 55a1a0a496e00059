/-
# RollingRaft.Storage.TornWrites — recovery from a crash in the middle of a flush.

A flush overwrites the old trailer with records and puts a new trailer behind them. A crash leaves
the file with any byte prefix of these writes: whole records, then a piece of a record, of the old
trailer or of the new one (`torn_shape`). Recovery takes the last eight bytes for a trailer whatever
they are. It works when they are the true trailer, or say so little that the file is scanned to its
physical end and cut behind the last whole record; it fails when the file ends exactly behind a record
(nothing is cut and the missing trailer makes `Open` fail), and it loses synced records when the
bytes happen to name a smaller offset. `Recoverable` is the condition under which it works.
-/
import RollingRaft.Storage.Reopen

namespace RollingRaft

open Lib

/-! ## §1 — Records cut short. -/

theorem take_encodeAll {records : List WALRecord}
    (hsize : ∀ r ∈ records, r.payload.length ≤ kMaxRecordSize) {n : Nat}
    (hn : n ≤ (encodeAll records).length) :
    ∃ done rest part, records = done ++ rest ∧
      (encodeAll records).take n = encodeAll done ++ part ∧ Incomplete part ∧
      (∀ r ∈ rest.head?, part.length < (encodeRecord r).length) ∧
      (rest = [] → part = []) := by
  induction records generalizing n with
  | nil =>
    refine ⟨[], [], [], rfl, ?_, incomplete_of_short (by decide), ?_, fun _ => rfl⟩
    · simp
    · intro r hr
      cases hr
  | cons r records ih =>
    rw [encodeAll_cons, List.length_append] at hn
    by_cases hcut : n < (encodeRecord r).length
    · refine ⟨[], r :: records, (encodeRecord r).take n, rfl, ?_,
        incomplete_take_encodeRecord (hsize r List.mem_cons_self) hcut, ?_, ?_⟩
      · rw [encodeAll_cons, List.take_append_of_le_length (Nat.le_of_lt hcut)]
        rfl
      · intro x hx
        cases hx
        rw [List.length_take]
        omega
      · intro h
        cases h
    · have hcut := Nat.le_of_not_lt hcut
      obtain ⟨done, rest, part, rfl, htake, hpart, hnext, hend⟩ :=
        ih (fun x hx => hsize x (List.mem_cons_of_mem r hx))
          (show n - (encodeRecord r).length ≤ _ by omega)
      refine ⟨r :: done, rest, part, rfl, ?_, hpart, hnext, hend⟩
      rw [encodeAll_cons, List.take_append, List.take_of_length_le hcut, htake, encodeAll_cons,
        List.append_assoc]

theorem readRecord_beyond {r : WALRecord} (hsize : r.payload.length ≤ kMaxRecordSize)
    (segmentId : Nat) {current endOffset : Nat} (rest : Bytes)
    (hend : endOffset < current + (encodeRecord r).length) :
    ∃ what, readRecord segmentId current endOffset (encodeRecord r ++ rest) = .error what := by
  have hlen : 10 ≤ (encodeRecord r ++ rest).length := by
    rw [List.length_append, length_encodeRecord]
    omega
  have hlength : leNat (((encodeRecord r ++ rest).drop 4).take 4) = r.payload.length := by
    rw [(encodeRecord_fields r rest).2.1, take_leBytes_append]
    unfold kMaxRecordSize at hsize
    exact leNat_leBytes_of_lt (by omega)
  rw [length_encodeRecord] at hend
  unfold readRecord
  rw [hlength, if_neg (by omega), if_neg (by omega), if_neg (by omega), if_pos hend]
  exact ⟨_, rfl⟩

theorem writeAt_over (front old data : Bytes) :
    writeAt (front ++ old) front.length data = front ++ data ++ old.drop data.length := by
  have hgap : front.length - (front ++ old).length = 0 := by
    rw [List.length_append]
    omega
  rw [writeAt, List.take_left, hgap, List.replicate_zero, List.append_nil, ← List.drop_drop,
    List.drop_left]

/-! ## §2 — Crash images. -/

/-- The first `n` bytes of a list of writes to one file. -/
def applyWrites : Nat → List FsCall → Bytes → Bytes
  | _, [], file => file
  | n, .write _ offset data :: calls, file =>
    if n < data.length then writeAt file offset (data.take n)
    else applyWrites (n - data.length) calls (writeAt file offset data)
  | n, .fdatasync _ _ :: calls, file => applyWrites n calls file

/-- The writes of flushes, one for each chunk of records. -/
def flushWrites (s : SegmentLog) : List (List WALRecord) → List FsCall
  | [] => []
  | chunk :: chunks =>
    let s' := { s with records := s.records ++ chunk }
    .write s.id s.endOffset (encodeAll chunk) :: .write s.id s'.endOffset (trailer s'.endOffset)
      :: flushWrites s' chunks

theorem endOffset_append (s : SegmentLog) (more : List WALRecord) :
    SegmentLog.endOffset { s with records := s.records ++ more }
      = s.endOffset + (encodeAll more).length := by
  rw [← SegmentLog.length_body, SegmentLog.body_append, List.length_append,
    SegmentLog.length_body]

/-- **What a crash leaves** of flushes of chunks of records: the records before them, a leading part
of the chunks, and bytes in which no record ends. -/
theorem torn_shape {chunks : List (List WALRecord)} (hchunks : ∀ c ∈ chunks, c ≠ [])
    (hsize : ∀ r ∈ chunks.flatten, r.payload.length ≤ kMaxRecordSize) {s : SegmentLog} {file : Bytes}
    (h : s.Holds file) (n : Nat) :
    ∃ done rest tail, chunks.flatten = done ++ rest ∧
      applyWrites n (flushWrites s chunks) file
        = SegmentLog.body { s with records := s.records ++ done } ++ tail ∧ Incomplete tail := by
  obtain ⟨old, hfile, hold⟩ : ∃ old : Bytes, file = s.body ++ old ∧ old.length ≤ kTrailerSize := by
    rcases h with rfl | ⟨-, rfl⟩
    · exact ⟨_, rfl, by rw [length_trailer]⟩
    · exact ⟨[], (List.append_nil _).symm, Nat.zero_le _⟩
  have holdShort : Incomplete old := incomplete_of_short (Nat.lt_of_le_of_lt hold (by decide))
  induction chunks generalizing n s file old with
  | nil =>
    refine ⟨[], [], old, rfl, ?_, holdShort⟩
    rw [flushWrites, applyWrites, hfile, SegmentLog.body_append, encodeAll_nil, List.append_nil]
  | cons chunk chunks ih =>
    have hencoded : kTrailerSize ≤ (encodeAll chunk).length :=
      length_encodeAll_of_ne_nil fun hempty =>
        hchunks chunk List.mem_cons_self (eq_nil_of_encodeAll hempty)
    have hflat : (chunk :: chunks).flatten = chunk ++ chunks.flatten := rfl
    rw [hflat] at hsize ⊢
    rw [flushWrites, applyWrites]
    by_cases hcut : n < (encodeAll chunk).length
    · -- the crash is in the records
      rw [if_pos hcut, hfile, ← s.length_body, writeAt_over, List.length_take,
        Nat.min_eq_left (Nat.le_of_lt hcut)]
      by_cases hshort : n ≤ kTrailerSize
      · -- in place of the old trailer
        refine ⟨[], chunk ++ chunks.flatten, (encodeAll chunk).take n ++ old.drop n, rfl, ?_, ?_⟩
        · rw [SegmentLog.body_append, encodeAll_nil, List.append_nil, List.append_assoc]
        · apply incomplete_of_short
          rw [List.length_append, List.length_take, List.length_drop]
          unfold kTrailerSize at hold hshort
          omega
      · -- behind it
        obtain ⟨done, rest, part, hsplit, htake, hpart, -⟩ :=
          take_encodeAll (fun r hr => hsize r (List.mem_append_left _ hr)) (Nat.le_of_lt hcut)
        refine ⟨done, rest ++ chunks.flatten, part, ?_, ?_, hpart⟩
        · rw [hsplit, List.append_assoc]
        · rw [List.drop_eq_nil_of_le (by omega), List.append_nil, htake, SegmentLog.body_append,
            List.append_assoc]
    · -- the records are complete
      rw [if_neg hcut, hfile, ← s.length_body, writeAt_over,
        List.drop_eq_nil_of_le (show old.length ≤ (encodeAll chunk).length by omega),
        List.append_nil, ← SegmentLog.body_append, applyWrites]
      obtain ⟨s', hs'⟩ : ∃ s', { s with records := s.records ++ chunk } = s' := ⟨_, rfl⟩
      rw [hs']
      have hnew : ∀ data, writeAt s'.body s'.endOffset data = s'.body ++ data := by
        intro data
        rw [← SegmentLog.length_body]
        exact writeAt_length _ _
      by_cases htrailer : n - (encodeAll chunk).length < (trailer s'.endOffset).length
      · -- the crash is in the new trailer
        rw [if_pos htrailer, hnew]
        refine ⟨chunk, chunks.flatten, _, rfl, by rw [hs'], ?_⟩
        apply incomplete_of_short
        rw [length_trailer] at htrailer
        rw [List.length_take, length_trailer]
        unfold kTrailerSize at htrailer ⊢
        omega
      · rw [if_neg htrailer, hnew]
        obtain ⟨done, rest, tail, hsplit, himage, htail⟩ := ih
          (fun c hc => hchunks c (List.mem_cons_of_mem chunk hc))
          (fun r hr => hsize r (List.mem_append_right chunk hr)) (.inl rfl)
          (n - (encodeAll chunk).length - (trailer s'.endOffset).length) _ rfl
          (by rw [length_trailer]) (incomplete_of_short (by rw [length_trailer]; decide))
        refine ⟨chunk ++ done, rest, tail, ?_, ?_, htail⟩
        · rw [hsplit, List.append_assoc]
        · rw [himage, ← hs', List.append_assoc]

/-! ## §3 — Scanning a crash image. -/

/-- The bytes up to the offset are the header and whole records. -/
def RecordsEndAt (codec : WalCodec) (segmentId : Nat) (image : Bytes) (offset : Nat) : Prop :=
  ∃ records rest, (∀ r ∈ records, Readable codec kFormatVersionProtobuf r) ∧
    image = SegmentLog.body ⟨segmentId, kFormatVersionProtobuf, records⟩ ++ rest ∧
    SegmentLog.endOffset ⟨segmentId, kFormatVersionProtobuf, records⟩ = offset

/-- When recovery works. The last eight bytes are taken for a trailer: then it names no offset before
the synced records, and it stands right there or the offset is inside a record. Or they are not taken
for one: then the file does not end right behind a record. -/
def Recoverable (codec : WalCodec) (segmentId : Nat) (image : Bytes) (synced : Nat) : Prop :=
  match readTrailer image with
  | .ok endOffset =>
    synced ≤ endOffset ∧
      (endOffset + kTrailerSize = image.length ∨ ¬ RecordsEndAt codec segmentId image endOffset)
  | .error _ =>
    image.length = kHeaderSize ∨ ¬ RecordsEndAt codec segmentId image image.length

section Torn

variable {codec : WalCodec} {s : SegmentLog}

theorem sound_of_prefix {records rest : List WALRecord} (h : s.Sound codec)
    (hrecords : s.records = records ++ rest) :
    SegmentLog.Sound codec { s with records := records } := by
  refine ⟨h.id, h.format, fun r hr => h.readable r (hrecords ▸ List.mem_append_left rest hr), ?_⟩
  have hsize := h.size
  unfold SegmentLog.endOffset at hsize ⊢
  rw [hrecords, encodeAll_append, List.length_append] at hsize
  dsimp only
  omega

variable {rest file tail : Bytes} {last endOffset synced : Nat}

/-- A scan believes the trailer, or goes to the end of a file that is longer than its header. -/
def ScansUpTo (image : Bytes) (last : Nat) : Prop :=
  readTrailer image = .ok last ∨
    (∃ status, readTrailer image = .error status) ∧ last = image.length ∧ kHeaderSize < last

theorem scanSegment_prefix (h : s.Sound codec)
    (hlast : ScansUpTo (s.body ++ rest) last)
    (hle : s.endOffset ≤ last) (index : DenseIndex) :
    ∃ fuel, scanSegment codec (headerVersion s.format) s.id (fun _ => true) (s.body ++ rest) index
      = let after := scanLoop codec (headerVersion s.format) s.id last (fun _ => true) (fuel + 1)
          s.endOffset rest (index.applyAll (s.effects codec))
        { after with records := s.records ++ after.records } := by
  have hcount := length_le_encodeAll s.records
  have hfuel : (s.body ++ rest).length + 1
      = s.records.length + ((s.body ++ rest).length - s.records.length + 1) := by
    rw [List.length_append, SegmentLog.length_body, SegmentLog.endOffset]
    omega
  refine ⟨(s.body ++ rest).length - s.records.length, ?_⟩
  unfold scanSegment
  rcases hlast with htrailer | ⟨⟨status, htrailer⟩, rfl, hlong⟩
  · rw [htrailer, SegmentLog.drop_body]
    dsimp only
    rw [hfuel, scanLoop_encodeAll h.readable hle]
    rfl
  · rw [htrailer, SegmentLog.drop_body]
    rw [if_neg (by omega), hfuel, scanLoop_encodeAll h.readable hle]
    rfl

/-- A scan gives the records of `s'` and leaves a whole file of them: it was one, or it is cut. -/
def ScansTo (codec : WalCodec) (s' : SegmentLog) (image : Bytes) : Prop :=
  ∀ index, ∃ status offset records,
    scanSegment codec (headerVersion s'.format) s'.id (fun _ => true) image index
      = ⟨index.applyAll (s'.effects codec), status, offset, records⟩ ∧
    (status = .ok ∧ s'.Holds image ∨
      status ≠ .ok ∧ 0 < offset ∧ s'.Holds (truncateSegmentFile image offset))

theorem scansTo_of_trailer (h : s.Sound codec)
    (htrailer : readTrailer (s.body ++ rest) = .ok s.endOffset)
    (hrest : rest.length = kTrailerSize) :
    ScansTo codec s (s.body ++ rest) := by
  intro index
  obtain ⟨fuel, hscan⟩ := scanSegment_prefix h (.inl htrailer) (Nat.le_refl _) index
  rw [scanLoop_done (Nat.le_refl _)] at hscan
  refine ⟨.ok, 0, _, hscan, .inl ⟨rfl, .inl ?_⟩⟩
  -- eight bytes that stand for the end offset are its trailer
  have hvalue : leNat rest = s.endOffset := by
    unfold readTrailer at htrailer
    split at htrailer
    · cases htrailer
    dsimp only at htrailer
    rw [List.length_append, hrest, Nat.add_sub_cancel, List.drop_left] at htrailer
    split at htrailer
    · cases htrailer
    · exact Except.ok.inj htrailer
  rw [trailer, ← hvalue]
  congr 1
  rw [show 8 = rest.length from hrest.symm, leBytes_leNat]

theorem scansTo_of_error (h : s.Sound codec)
    (hlast : ScansUpTo (s.body ++ rest) last)
    (hlt : s.endOffset < last)
    (herror : ∃ what, readRecord s.id s.endOffset last rest = .error what) :
    ScansTo codec s (s.body ++ rest) := by
  intro index
  obtain ⟨fuel, hscan⟩ := scanSegment_prefix h hlast (Nat.le_of_lt hlt) index
  obtain ⟨what, hwhat⟩ := herror
  rw [scanLoop, if_neg (by omega), hwhat] at hscan
  refine ⟨.corruption what, s.endOffset, _, hscan, .inr ⟨StoreStatus.noConfusion, ?_, .inl ?_⟩⟩
  · have := s.le_endOffset
    unfold kHeaderSize at this
    omega
  · unfold truncateSegmentFile
    rw [← s.length_body, List.take_left]

theorem le_of_readTrailer (h : readTrailer file = .ok endOffset) :
    kHeaderSize + kTrailerSize ≤ file.length ∧ endOffset + kTrailerSize ≤ file.length := by
  unfold readTrailer at h
  split at h
  · cases h
  dsimp only at h
  split at h
  · cases h
  cases h
  omega

theorem readTrailer_lt (h : readTrailer file = .ok endOffset) : endOffset < 256 ^ 8 := by
  unfold readTrailer at h
  split at h
  · cases h
  rename_i hlong
  dsimp only at h
  split at h
  · cases h
  cases h
  have hlen : (file.drop (file.length - kTrailerSize)).length = 8 := by
    rw [List.length_drop]
    unfold kTrailerSize at hlong ⊢
    omega
  rw [← hlen]
  exact leNat_lt _

theorem recordsEndAt_body (h : s.Sound codec) (hformat : s.format = kFormatVersionProtobuf)
    {offset : Nat} (hoffset : s.endOffset = offset) :
    RecordsEndAt codec s.id (s.body ++ rest) offset := by
  refine ⟨s.records, rest, ?_, ?_, hoffset⟩
  · intro r hr
    have hr := h.readable r hr
    rwa [hformat] at hr
  · rw [← hformat]

/-- Where the trailer names an offset inside the records: whole records up to it, and the rest. -/
theorem scansTo_inside (h : s.Sound codec) {base more : List WALRecord}
    (hrecords : s.records = base ++ more) (htrailer : readTrailer (s.body ++ tail) = .ok last)
    (hsynced : SegmentLog.endOffset { s with records := base } ≤ last)
    (hplace : last + kTrailerSize = (s.body ++ tail).length ∨ ¬ RecordsEndAt codec s.id (s.body ++ tail) last)
    (hformat : s.format = kFormatVersionProtobuf) (hinside : last < s.endOffset) :
    ∃ done rest, more = done ++ rest ∧
      ScansTo codec { s with records := base ++ done } (s.body ++ tail) := by
  have hsize : ∀ r ∈ s.records, r.payload.length ≤ kMaxRecordSize := fun r hr => (h.readable r hr).size
  unfold SegmentLog.endOffset at hsynced hinside
  obtain ⟨d, r, part, hsplit, htake, -, hnext, hend⟩ :=
    take_encodeAll hsize (show last - kHeaderSize ≤ _ by omega)
  have hlen : last - kHeaderSize = (encodeAll d).length + part.length := by
    have hlen := congrArg List.length htake
    rw [List.length_take, List.length_append] at hlen
    omega
  -- the synced records are among the whole ones
  obtain ⟨done, rfl, rfl⟩ : ∃ done, d = base ++ done ∧ more = done ++ r := by
    have happend : base ++ more = d ++ r := hrecords.symm.trans hsplit
    rcases List.append_eq_append_iff.mp happend with ⟨c, hd, hmore⟩ | ⟨c, hbase, hr⟩
    · exact ⟨c, hd, hmore⟩
    · cases c with
      | nil => exact ⟨[], by simpa using hbase.symm, by simpa using hr.symm⟩
      | cons x c =>
        exfalso
        have hx := hnext x (by rw [hr]; rfl)
        rw [hbase, encodeAll_append, encodeAll_cons, List.length_append, List.length_append] at hsynced
        omega
  refine ⟨done, r, rfl, ?_⟩
  have hs' : SegmentLog.Sound codec { s with records := base ++ done } := sound_of_prefix h hsplit
  have hbody : s.body = SegmentLog.body { s with records := base ++ done } ++ encodeAll r := by
    rw [SegmentLog.body, hsplit, encodeAll_append, ← List.append_assoc]
    rfl
  have hoffset : SegmentLog.endOffset { s with records := base ++ done } + part.length = last := by
    unfold SegmentLog.endOffset
    dsimp only
    omega
  rw [hbody, List.append_assoc] at htrailer hplace ⊢
  cases hpart : part with
  | nil =>
    -- the trailer names the end of a whole record, so it stands there
    rw [hpart, List.length_nil, Nat.add_zero] at hoffset
    refine scansTo_of_trailer hs' (by rw [htrailer, hoffset]) ?_
    have hends : RecordsEndAt codec s.id
        (SegmentLog.body { s with records := base ++ done } ++ (encodeAll r ++ tail)) last :=
      recordsEndAt_body hs' hformat hoffset
    have hplace := hplace.resolve_right (fun hnot => hnot hends)
    rw [List.length_append, SegmentLog.length_body] at hplace
    omega
  | cons b part' =>
    have hpos : 0 < part.length := by
      rw [hpart]
      exact Nat.succ_pos _
    refine scansTo_of_error hs' (.inl htrailer) (by omega) ?_
    cases r with
    | nil => exact absurd (hend rfl) (by rw [hpart]; exact List.cons_ne_nil b part')
    | cons x r =>
      have hx := hnext x rfl
      have hxsize := hsize x (by rw [hsplit]; simp)
      rw [encodeAll_cons, List.append_assoc]
      exact readRecord_beyond hxsize _ _ (by omega)

/-- **A recoverable image** scans to the synced records and a leading part of the later ones. -/
theorem scansTo_of_recoverable (h : s.Sound codec) (hformat : s.format = kFormatVersionProtobuf)
    {base more : List WALRecord} (hrecords : s.records = base ++ more) (htail : Incomplete tail)
    (hrec : Recoverable codec s.id (s.body ++ tail) (SegmentLog.endOffset { s with records := base })) :
    ∃ done rest, more = done ++ rest ∧
      ScansTo codec { s with records := base ++ done } (s.body ++ tail) := by
  have hall : { s with records := base ++ more } = s := by
    rw [← hrecords]
  have hlen : (s.body ++ tail).length = s.endOffset + tail.length := by
    rw [List.length_append, SegmentLog.length_body]
  have hheader := s.le_endOffset
  unfold Recoverable at hrec
  cases htrailer : readTrailer (s.body ++ tail) with
  | ok last =>
    rw [htrailer] at hrec
    obtain ⟨hsynced, hplace⟩ := hrec
    by_cases hinside : last < s.endOffset
    · exact scansTo_inside h hrecords htrailer hsynced hplace hformat hinside
    refine ⟨more, [], (List.append_nil _).symm, ?_⟩
    rw [hall]
    by_cases hexact : last = s.endOffset
    · have hends : RecordsEndAt codec s.id (s.body ++ tail) last :=
        recordsEndAt_body h hformat hexact.symm
      have hplace := hplace.resolve_right (fun hnot => hnot hends)
      exact scansTo_of_trailer h (hexact ▸ htrailer) (by omega)
    have hbound := (le_of_readTrailer htrailer).2
    refine scansTo_of_error h (.inl htrailer) (by omega) ?_
    exact htail s.id s.endOffset last (by omega)
  | error status =>
    rw [htrailer] at hrec
    refine ⟨more, [], (List.append_nil _).symm, ?_⟩
    rw [hall]
    rcases hrec with hshort | hboundary
    · -- nothing but the header
      have hnone : encodeAll s.records = [] ∧ tail = [] := by
        unfold SegmentLog.endOffset at hlen
        exact ⟨List.eq_nil_of_length_eq_zero (by omega), List.eq_nil_of_length_eq_zero (by omega)⟩
      have hempty : s.records = [] := eq_nil_of_encodeAll hnone.1
      intro index
      have hholds : s.Holds (s.body ++ tail) := by
        rw [hnone.2, List.append_nil]
        exact .inr ⟨hempty, rfl⟩
      exact ⟨_, _, _, SegmentLog.scanSegment_holds h hholds index, .inl ⟨rfl, hholds⟩⟩
    · have hne : tail ≠ [] := by
        intro hnil
        apply hboundary
        apply recordsEndAt_body h hformat
        rw [hlen, hnil, List.length_nil, Nat.add_zero]
      have hpos := List.length_pos_iff.mpr hne
      refine scansTo_of_error h (.inr ⟨⟨status, htrailer⟩, rfl, by omega⟩) (by omega) ?_
      exact htail s.id s.endOffset _ (by omega)

/-- Bytes are records in one way only. -/
theorem records_prefix {records all : List WALRecord} {version : Nat}
    (h : ∀ r ∈ records, Readable codec version r) (hall : ∀ r ∈ all, Readable codec version r)
    (htail : Incomplete tail) (heq : encodeAll records ++ rest = encodeAll all ++ tail) :
    ∃ more, all = records ++ more := by
  induction records generalizing all with
  | nil => exact ⟨all, rfl⟩
  | cons r records ih =>
    have hr := h r List.mem_cons_self
    rw [encodeAll_cons, List.append_assoc] at heq
    cases all with
    | nil =>
      -- the tail would start with a record
      exfalso
      rw [encodeAll_nil, List.nil_append] at heq
      have hlen := congrArg List.length heq
      rw [List.length_append, length_encodeRecord] at hlen
      obtain ⟨what, hwhat⟩ := htail 0 0 (10 + r.payload.length) (by omega)
      rw [← heq, readRecord_encodeRecord _ hr.size hr.code hr.type (by omega)] at hwhat
      cases hwhat
    | cons x all =>
      have hx := hall x List.mem_cons_self
      rw [encodeAll_cons, List.append_assoc] at heq
      have hread := congrArg (readRecord 0 0 (10 + r.payload.length + (10 + x.payload.length))) heq
      rw [readRecord_encodeRecord _ hr.size hr.code hr.type (by omega),
        readRecord_encodeRecord _ hx.size hx.code hx.type (by omega)] at hread
      obtain rfl : r = x := Except.ok.inj hread
      obtain ⟨more, rfl⟩ := ih (fun y hy => h y (List.mem_cons_of_mem r hy))
        (fun y hy => hall y (List.mem_cons_of_mem r hy)) (List.append_cancel_left heq)
      exact ⟨more, rfl⟩

variable {index : DenseIndex}

theorem truncateOffset_scanLoop {version segmentId : Nat} {callback : WALRecord → Bool}
    {fuel current : Nat} {result : ScanResult}
    (hresult : scanLoop codec version segmentId endOffset callback fuel current rest index = result)
    (h : 0 < result.truncateOffset) :
    current ≤ result.truncateOffset ∧ result.truncateOffset < endOffset := by
  induction fuel generalizing current rest index result with
  | zero =>
    subst hresult
    exact absurd h (Nat.lt_irrefl 0)
  | succ fuel ih =>
    rw [scanLoop] at hresult
    split at hresult
    · subst hresult
      exact absurd h (Nat.lt_irrefl 0)
    rename_i hlt
    split at hresult
    · subst hresult
      exact ⟨Nat.le_refl _, Nat.lt_of_not_le hlt⟩
    split at hresult
    · subst hresult
      exact absurd h (Nat.lt_irrefl 0)
    split at hresult
    · subst hresult
      have hrest := ih rfl h
      dsimp only at hrest ⊢
      omega
    subst hresult
    exact absurd h (Nat.lt_irrefl 0)

theorem readTrailer_of_holds (h : s.Sound codec) (hholds : s.Holds file) :
    readTrailer file = .ok s.endOffset ∧ s.endOffset + kTrailerSize = file.length ∨
      file.length = kHeaderSize := by
  rcases hholds with rfl | ⟨hnone, rfl⟩
  · refine .inl ⟨SegmentLog.readTrailer_whole h, ?_⟩
    rw [List.length_append, SegmentLog.length_body, length_trailer]
  · refine .inr ?_
    rw [SegmentLog.length_body, SegmentLog.endOffset, hnone]
    rfl

theorem recoverable_of_whole (h : s.Sound codec) (hholds : s.Holds file)
    (hsynced : synced ≤ s.endOffset) : Recoverable codec s.id file synced := by
  unfold Recoverable
  rcases readTrailer_of_holds h hholds with ⟨hread, hplace⟩ | hshort
  · rw [hread]
    exact ⟨hsynced, .inl hplace⟩
  · rw [readTrailer_of_short (by rw [hshort]; decide)]
    exact .inl hshort

theorem scanSegment_recordsEndAt (h : s.Sound codec) (hformat : s.format = kFormatVersionProtobuf)
    (htail : Incomplete tail)
    (hlast : ScansUpTo (s.body ++ tail) last)
    (hends : RecordsEndAt codec s.id (s.body ++ tail) last) (index : DenseIndex) :
    (scanSegment codec (headerVersion s.format) s.id (fun _ => true) (s.body ++ tail) index).status
      = .ok := by
  obtain ⟨records, rest, hreadable, himage, hoffset⟩ := hends
  have hversion : headerVersion s.format = kFormatVersionProtobuf := by
    rw [hformat]
    rfl
  have hbytes := congrArg (List.drop kHeaderSize) himage
  rw [SegmentLog.drop_body, SegmentLog.drop_body] at hbytes
  obtain ⟨more, hmore⟩ := records_prefix hreadable
    (fun r hr => hversion ▸ h.readable r hr) htail hbytes.symm
  have hs' : SegmentLog.Sound codec { s with records := records } := sound_of_prefix h hmore
  rw [← hformat] at himage hoffset
  rw [himage] at hlast ⊢
  obtain ⟨fuel, hscan⟩ := scanSegment_prefix hs' hlast (Nat.le_of_eq hoffset) index
  rw [scanLoop_done (Nat.le_of_eq hoffset.symm)] at hscan
  exact congrArg ScanResult.status hscan

/-- **What recovery leaves is a whole file of at least the synced records only when the image was
recoverable.** -/
theorem recoverable_of_holds (h : s.Sound codec) (hformat : s.format = kFormatVersionProtobuf)
    (htail : Incomplete tail) {s' : SegmentLog} (hs' : s'.Sound codec)
    (hsynced : synced ≤ s'.endOffset) {scan : ScanResult}
    (hscan : scanSegment codec (headerVersion s.format) s.id (fun _ => true) (s.body ++ tail) index = scan)
    (hafter : scan.status = .ok ∧ s'.Holds (s.body ++ tail) ∨ scan.status ≠ .ok ∧ 0 < scan.truncateOffset ∧ s'.Holds (truncateSegmentFile (s.body ++ tail) scan.truncateOffset)) :
    Recoverable codec s.id (s.body ++ tail) synced := by
  unfold Recoverable
  cases htrailer : readTrailer (s.body ++ tail) with
  | ok last =>
    have hbound := le_of_readTrailer htrailer
    rcases hafter with ⟨-, hholds⟩ | ⟨hstatus, hpos, hholds⟩
    · rcases readTrailer_of_holds hs' hholds with ⟨hread, hplace⟩ | hshort
      · obtain rfl : last = s'.endOffset := Except.ok.inj (htrailer.symm.trans hread)
        exact ⟨hsynced, .inl hplace⟩
      · unfold kTrailerSize at hbound
        omega
    · have hcut : kHeaderSize ≤ scan.truncateOffset ∧ scan.truncateOffset < last := by
        unfold scanSegment at hscan
        rw [htrailer] at hscan
        exact truncateOffset_scanLoop hscan hpos
      have hlen : ((s.body ++ tail).take scan.truncateOffset).length = scan.truncateOffset := by
        rw [List.length_take]
        omega
      have hlast : last < 2 ^ 64 := by
        have := readTrailer_lt htrailer
        omega
      have hread : readTrailer (truncateSegmentFile (s.body ++ tail) scan.truncateOffset)
          = .ok scan.truncateOffset :=
        readTrailer_trailer (by omega) (by omega) (by omega)
      constructor
      · rcases readTrailer_of_holds hs' hholds with ⟨hread', -⟩ | hshort
        · have heq : scan.truncateOffset = s'.endOffset := Except.ok.inj (hread.symm.trans hread')
          omega
        · rw [truncateSegmentFile, List.length_append, hlen, length_trailer] at hshort
          unfold kTrailerSize at hshort
          omega
      · refine .inr fun hends => hstatus ?_
        rw [← hscan]
        exact scanSegment_recordsEndAt h hformat htail (.inl htrailer) hends index
  | error status =>
    rcases hafter with ⟨-, hholds⟩ | ⟨hstatus, -, -⟩
    · rcases readTrailer_of_holds hs' hholds with ⟨hread, -⟩ | hshort
      · rw [htrailer] at hread
        cases hread
      · exact .inl hshort
    · by_cases hshort : (s.body ++ tail).length = kHeaderSize
      · exact .inl hshort
      · refine .inr fun hends => hstatus ?_
        have hheader := s.le_endOffset
        have hlen : (s.body ++ tail).length = s.endOffset + tail.length := by
          rw [List.length_append, SegmentLog.length_body]
        rw [← hscan]
        exact scanSegment_recordsEndAt h hformat htail
          (.inr ⟨⟨status, htrailer⟩, rfl, by omega⟩) hends index

end Torn

/-! ## §4 — `Open` after a crash. -/

namespace WalPersister

variable {codec : WalCodec} {w : WalPersister}

section TornDirectory

variable {files : FileTable} {front : List SegmentLog} {last : SegmentLog} {image : Bytes}

/-- The index with which `Open` comes to the last file. -/
def indexBefore (codec : WalCodec) (dir : WalDir) (front : List SegmentLog) : DenseIndex :=
  (startingPoint dir).1.applyAll
    ((front.filter fun s => (startingPoint dir).2 ≤ s.id).flatMap (SegmentLog.effects codec))

theorem covered_le (hordered : (front ++ [last]).Pairwise fun s s' => s.id < s'.id) {covered : Nat}
    (h : covered = 0 ∨ ∃ s ∈ front ++ [last], covered = s.id) : covered ≤ last.id := by
  rcases h with hzero | ⟨s, hs, heq⟩
  · omega
  · rcases List.mem_append.mp hs with hs | hs
    · have hlt := (pairwise_concat.mp hordered).2 s hs
      omega
    · rw [heq, List.mem_singleton.mp hs]

/-- `Open` scans the last file, cuts it when it is told to, and makes it the active segment. -/
theorem openWal_last (hsegments : w.dir.segments = files ++ [(last.id, image)])
    (hfiles : Stored files front) (hordered : (front ++ [last]).Pairwise fun s s' => s.id < s'.id)
    (hsound : ∀ s ∈ front ++ [last], s.Sound codec) (hmeta : loadMeta codec w.dir = .ok)
    (hck : Checkpointed codec w.dir.checkpoints (front ++ [last]))
    (hheader : openSegment w.walDir last.id (some image) = .ok (headerVersion last.format))
    (create : CreateOutcome) {scan : ScanResult}
    (hscan : scanSegment codec (headerVersion last.format) last.id (fun _ => true) image
      (indexBefore codec w.dir front) = scan) :
    w.openWal codec create = let opened (file : Bytes) := { w with
        index := scan.index
        dir.segments := files ++ [(last.id, file)] }.openActive last.id file
      if scan.status = .ok then opened image
      else if 0 < scan.truncateOffset then opened (truncateSegmentFile image scan.truncateOffset)
      else (scan.status, w) := by
  obtain ⟨-, -, hcovered⟩ := startingPoint_spec hordered hsound hck
  have hle : ¬ last.id < (startingPoint w.dir).2 := Nat.not_lt.mpr (covered_le hordered hcovered)
  have hne : w.dir.segments ≠ [] := by
    rw [hsegments]
    simp
  have hfront := scanSegments_append w.walDir (startingPoint w.dir).2 hfiles
    (fun s hs => hsound s (List.mem_append_left _ hs)) [(last.id, image)] (startingPoint w.dir).1
  rw [← hsegments, scanSegments, hheader] at hfront
  dsimp only at hfront
  rw [if_neg hle] at hfront
  unfold indexBefore at hscan
  rw [hscan] at hfront
  unfold openWal
  rw [hmeta]
  dsimp only
  rw [if_neg hne, hfront]
  by_cases hok : scan.status = .ok
  · rw [if_pos hok, if_pos hok]
    dsimp only [scanSegments]
    rw [List.getLast?_concat]
  rw [if_neg hok, if_neg hok]
  by_cases hcut : 0 < scan.truncateOffset
  · rw [if_pos hcut, if_pos hcut]
    dsimp only [scanSegments]
    rw [List.getLast?_concat]
  rw [if_neg hcut, if_neg hcut]
  have hsame : { w with dir.segments := files ++ [(last.id, image)] } = w := by
    rw [← hsegments]
  cases hstatus : scan.status with
  | ok => exact absurd hstatus hok
  | corruption | error => exact congrArg (Prod.mk _) hsame

theorem get_indexBefore {dir : WalDir} (hordered : (front ++ [last]).Pairwise fun s s' => s.id < s'.id)
    (hsound : ∀ s ∈ front ++ [last], s.Sound codec)
    (hsmall : ∀ s ∈ front ++ [last], ∀ e ∈ s.effects codec, e.Small)
    (hck : Checkpointed codec dir.checkpoints (front ++ [last])) :
    ((indexBefore codec dir front).applyAll (last.effects codec)).get
        = mapOf codec (front ++ [last]) ∧
      ((indexBefore codec dir front).applyAll (last.effects codec)).Storable := by
  obtain ⟨hstorable, hget, hcovered⟩ := startingPoint_spec hordered hsound hck
  have hle : (startingPoint dir).2 ≤ last.id := covered_le hordered hcovered
  have hkeep : [last].filter (fun s => decide ((startingPoint dir).2 ≤ s.id)) = [last] := by
    simp [hle]
  have hindex : (indexBefore codec dir front).applyAll (last.effects codec)
      = (startingPoint dir).1.applyAll (((front ++ [last]).filter
          fun s => (startingPoint dir).2 ≤ s.id).flatMap (SegmentLog.effects codec)) := by
    rw [indexBefore, List.filter_append, hkeep, List.flatMap_append, List.flatMap_singleton,
      DenseIndex.applyAll_append]
  rw [hindex]
  refine ⟨hget, hstorable.applyAll ?_⟩
  intro e he
  obtain ⟨s, hs, he⟩ := List.mem_flatMap.mp he
  exact hsmall s (List.mem_of_mem_filter hs) e he

/-- **`Open` of a directory whose last file is torn**, when the scan of that file gives the records of
`last` and leaves a whole file of them. -/
theorem openWal_torn (hsegments : w.dir.segments = files ++ [(last.id, image)])
    (hfiles : Stored files front) (hordered : (front ++ [last]).Pairwise fun s s' => s.id < s'.id)
    (hsound : ∀ s ∈ front ++ [last], s.Sound codec)
    (hsmall : ∀ s ∈ front ++ [last], ∀ e ∈ s.effects codec, e.Small)
    (hmeta : loadMeta codec w.dir = .ok) (hformat : last.format = kFormatVersionProtobuf)
    (hck : Checkpointed codec w.dir.checkpoints (front ++ [last])) (hbuf : w.writeBuf = [])
    (hheader : openSegment w.walDir last.id (some image) = .ok (headerVersion last.format))
    (hscan : ScansTo codec last image) (create : CreateOutcome) :
    (w.openWal codec create).1 = .ok ∧
      OpenContent codec (w.openWal codec create).2 front last last.records [] ∧
      (w.openWal codec create).2.walDir = w.walDir := by
  have hlast : last ∈ front ++ [last] := List.mem_append_right _ List.mem_cons_self
  obtain ⟨hget, hstorable⟩ := get_indexBefore hordered hsound hsmall hck
  obtain ⟨status, offset, records, hresult, houtcome⟩ := hscan (indexBefore codec w.dir front)
  have hopen := openWal_last hsegments hfiles hordered hsound hmeta hck hheader create hresult
  generalize (indexBefore codec w.dir front).applyAll (last.effects codec) = index at *
  -- whatever the scan did, a whole file of the records is left
  obtain ⟨file, hholds, hopen⟩ : ∃ file, last.Holds file ∧ w.openWal codec create
      = { w with index := index, dir.segments := files ++ [(last.id, file)] }.openActive last.id
          file := by
    rcases houtcome with ⟨hstatus, hwhole⟩ | ⟨hstatus, hoffset, hcut⟩
    · rw [if_pos hstatus] at hopen
      exact ⟨_, hwhole, hopen⟩
    · rw [if_neg hstatus, if_pos hoffset] at hopen
      exact ⟨_, hcut, hopen⟩
  rw [hopen, openActive_holds (hsound last hlast) hholds]
  exact ⟨rfl, {
    opened := rfl
    fd := rfl
    content := {
      stored := stored_concat.mpr ⟨files, file, rfl, hfiles, hholds⟩
      sorted := hordered
      sound := hsound
      small := hsmall
      metaJson := hmeta }
    id := rfl
    format := hformat
    records := (List.append_nil _).symm
    endOffset := rfl
    buffer := hbuf
    sound := hsound last hlast
    small := hsmall last hlast
    index := hget
    storable := hstorable
    checkpoints := hck }, rfl⟩

theorem holds_of_openActive {id : Nat} {file : Bytes} {current : SegmentLog}
    {flushed buffered : List WALRecord}
    (h : OpenContent codec (w.openActive id file).2 front current flushed buffered)
    (hsegments : w.dir.segments = files ++ [(id, file)]) (hbuf : w.writeBuf = []) :
    current.id = id ∧ current.Holds file := by
  rcases openActive_spec w id file with ⟨endOffset, entryCount, heq⟩ | ⟨status, heq⟩
  · rw [heq] at h
    have hnone : buffered = [] := eq_nil_of_encodeAll (h.buffer.symm.trans hbuf)
    have hall : { current with records := flushed } = current := by
      rw [show flushed = current.records by rw [h.records, hnone, List.append_nil]]
    have hstored : Stored w.dir.segments (front ++ [current]) := hall ▸ h.content.stored
    obtain ⟨files', file', hfiles, -, hholds⟩ := stored_concat.mp hstored
    have hlast := (List.append_inj' (hsegments.symm.trans hfiles) rfl).2
    obtain ⟨hid, rfl⟩ := Prod.mk.inj (List.cons.inj hlast).1
    exact ⟨hid.symm, hholds⟩
  · rw [heq] at h
    exact absurd h.opened Bool.false_ne_true

/-- A directory after a crash: the last file is the records of `s`, some further ones, and bytes in
which no record ends; the checkpoints stand for no further records. -/
structure TornDir (codec : WalCodec) (w : WalPersister) (files : FileTable) (front : List SegmentLog)
    (s : SegmentLog) (more : List WALRecord) (image : Bytes) : Prop where
  segments : w.dir.segments = files ++ [(s.id, image)]
  files : Stored files front
  image : ∃ tail, image = SegmentLog.body { s with records := s.records ++ more } ++ tail ∧
    Incomplete tail
  sorted : front.Pairwise fun x y => x.id < y.id
  before : ∀ x ∈ front, x.id < s.id
  sound : ∀ x ∈ front, x.Sound codec
  small : ∀ x ∈ front, ∀ e ∈ x.effects codec, e.Small
  lastSound : SegmentLog.Sound codec { s with records := s.records ++ more }
  lastSmall : ∀ e ∈ SegmentLog.effects codec { s with records := s.records ++ more }, e.Small
  metaJson : loadMeta codec w.dir = .ok
  format : s.format = kFormatVersionProtobuf
  checkpoints : Checkpointed codec w.dir.checkpoints (front ++ [s])
  closed : w.opened = false
  buffer : w.writeBuf = []

section TornDir

variable {s : SegmentLog} {more : List WALRecord}

theorem OpenContent.tornDir {w' : WalPersister} {rest flushed buffered : List WALRecord}
    (h : OpenContent codec w front { s with records := s.records ++ more ++ rest } flushed buffered)
    (hsegments : w'.dir.segments = files ++ [(s.id, image)]) (hfiles : Stored files front)
    (himage : ∃ tail, image = SegmentLog.body { s with records := s.records ++ more } ++ tail ∧
      Incomplete tail)
    (hmeta : w'.dir.metaJson = w.dir.metaJson)
    (hsaved : Checkpointed codec w'.dir.checkpoints (front ++ [s])) (hclosed : w'.opened = false)
    (hbuf : w'.writeBuf = []) : TornDir codec w' files front s more image where
  segments := hsegments
  files := hfiles
  image := himage
  sorted := (pairwise_concat.mp h.content.sorted).1
  before := h.front_lt
  sound x hx := h.content.sound x (List.mem_append_left _ hx)
  small x hx := h.content.small x (List.mem_append_left _ hx)
  lastSound := sound_of_prefix (s := { s with records := s.records ++ more ++ rest }) h.sound rfl
  lastSmall := by
    obtain ⟨after, hafter⟩ := effects_split codec
      (s := { s with records := s.records ++ more ++ rest }) rfl
    intro e he
    apply h.small e
    rw [hafter]
    exact List.mem_append_left _ he
  metaJson := by
    have hok := h.content.metaJson
    unfold loadMeta at hok ⊢
    rw [hmeta]
    exact hok
  format := h.format
  checkpoints := hsaved
  closed := hclosed
  buffer := hbuf

/-- A leading part of the further records is as sound as all of them. -/
theorem TornDir.part (h : TornDir codec w files front s more image) {done rest : List WALRecord}
    (hsplit : more = done ++ rest) :
    (front ++ [{ s with records := s.records ++ done }]).Pairwise
        (fun (x y : SegmentLog) => x.id < y.id) ∧
      (∀ x ∈ front ++ [{ s with records := s.records ++ done }], SegmentLog.Sound codec x) ∧
      ∀ x ∈ front ++ [{ s with records := s.records ++ done }], ∀ e ∈ x.effects codec, e.Small := by
  have hrecords : SegmentLog.records { s with records := s.records ++ more }
      = s.records ++ done ++ rest := by
    show s.records ++ more = _
    rw [hsplit, List.append_assoc]
  refine ⟨pairwise_concat.mpr ⟨h.sorted, h.before⟩, ?_, ?_⟩
  · exact forall_mem_concat.mpr ⟨h.sound,
      sound_of_prefix (s := { s with records := s.records ++ more }) h.lastSound hrecords⟩
  · refine forall_mem_concat.mpr ⟨h.small, fun e he => h.lastSmall e ?_⟩
    obtain ⟨after, hafter⟩ := effects_split codec hrecords
    rw [hafter]
    exact List.mem_append_left _ he

theorem TornDir.openSegment (h : TornDir codec w files front s more image) :
    RollingRaft.openSegment w.walDir s.id (some image) = .ok (headerVersion s.format) := by
  obtain ⟨tail, himage, -⟩ := h.image
  rw [himage, SegmentLog.body, List.append_assoc]
  exact openSegment_header _ _ h.lastSound.id h.lastSound.format

/-- **A recoverable crash.** `Open` gives the records of `s` and a leading part of the further ones. -/
theorem TornDir.recovered (h : TornDir codec w files front s more image)
    (hrec : Recoverable codec s.id image s.endOffset) (create : CreateOutcome) :
    ∃ done rest, more = done ++ rest ∧ (w.openWal codec create).1 = .ok ∧
      OpenContent codec (w.openWal codec create).2 front { s with records := s.records ++ done }
        (s.records ++ done) [] ∧
      (w.openWal codec create).2.walDir = w.walDir := by
  obtain ⟨tail, himage, htail⟩ := h.image
  rw [himage] at hrec
  obtain ⟨done, rest, hsplit, hscan⟩ := scansTo_of_recoverable
    (s := { s with records := s.records ++ more }) h.lastSound h.format rfl htail hrec
  rw [← himage] at hscan
  obtain ⟨hordered, hsound, hsmall⟩ := h.part hsplit
  have hsegments : w.dir.segments
      = files ++ [(SegmentLog.id { s with records := s.records ++ done }, image)] := h.segments
  exact ⟨done, rest, hsplit, openWal_torn hsegments h.files hordered hsound hsmall h.metaJson
    h.format (checkpointed_concat done h.checkpoints) h.buffer h.openSegment hscan create⟩

/-- **A crash that is not recoverable.** What `Open` gives is no log with the records of `s`. -/
theorem TornDir.recoverable (h : TornDir codec w files front s more image) {create : CreateOutcome}
    {front' : List SegmentLog} {current : SegmentLog} {flushed buffered : List WALRecord}
    (hopened : OpenContent codec (w.openWal codec create).2 front' current flushed buffered)
    (hsynced : current.id = s.id → s.endOffset ≤ current.endOffset) :
    Recoverable codec s.id image s.endOffset := by
  obtain ⟨tail, himage, htail⟩ := h.image
  obtain ⟨hordered, hsound, -⟩ := h.part (List.append_nil more).symm
  have hsegments : w.dir.segments
      = files ++ [(SegmentLog.id { s with records := s.records ++ more }, image)] := h.segments
  obtain ⟨scan, hscan⟩ : ∃ scan, scanSegment codec (headerVersion s.format) s.id (fun _ => true)
      image (indexBefore codec w.dir front) = scan := ⟨_, rfl⟩
  have hopen := openWal_last hsegments h.files hordered hsound h.metaJson
    (checkpointed_concat more h.checkpoints) h.openSegment create hscan
  rw [hopen] at hopened
  rw [himage] at hopened hscan ⊢
  have hrecoverable := fun hid => recoverable_of_holds
    (s := { s with records := s.records ++ more }) h.lastSound h.format htail hopened.sound
    (hsynced hid) hscan
  split at hopened
  · rename_i hok
    obtain ⟨hid, hholds⟩ := holds_of_openActive hopened rfl h.buffer
    exact hrecoverable hid (.inl ⟨hok, hholds⟩)
  rename_i hok
  split at hopened
  · rename_i hcut
    obtain ⟨hid, hholds⟩ := holds_of_openActive hopened rfl h.buffer
    exact hrecoverable hid (.inr ⟨hok, hcut, hholds⟩)
  · exact absurd (h.closed.symm.trans hopened.opened) Bool.false_ne_true

end TornDir

end TornDirectory

end WalPersister

end RollingRaft
