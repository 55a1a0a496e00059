/-
# RollingRaft.Storage.CrashAfterSync — what a crash after `Sync` leaves of the log.

After a `Sync` the log appends and flushes in the same segment. A crash leaves the synced file with a
byte prefix of the later writes. When the image is recoverable, `Open` gives the log of some moment
between the `Sync` and the crash, and that log can be used, closed and opened again; when it is not,
`Open` fails or gives a log of no such moment.
-/
import RollingRaft.Storage.TornWrites

namespace RollingRaft

open Lib

namespace WalPersister

variable {codec : WalCodec} {w w' w₁ w₂ : WalPersister}

/-! ## §1 — The calls after a `Sync`. -/

/-- The call appends or reads, none of its I/O operations fails, and no segment is rotated. -/
def StaysInSegment (w : WalPersister) : Event → Prop
  | .append _ io | .truncatePrefix _ io | .truncateSuffix _ io => Clean io ∧ w.needsRotation = false
  | .read io => Clean io
  | .sync _ | .garbageCollect _ _ | .close _ | .open _ => False

theorem flushWrites_concat (s : SegmentLog) (chunks : List (List WALRecord)) (c : List WALRecord) :
    flushWrites s (chunks ++ [c]) = flushWrites s chunks ++
      [.write s.id (SegmentLog.endOffset { s with records := s.records ++ chunks.flatten })
          (encodeAll c),
        .write s.id (SegmentLog.endOffset { s with records := s.records ++ chunks.flatten ++ c })
          (trailer (SegmentLog.endOffset { s with records := s.records ++ chunks.flatten ++ c }))] := by
  induction chunks generalizing s with
  | nil =>
    rw [List.nil_append, List.flatten_nil, List.append_nil]
    rfl
  | cons chunk chunks ih =>
    rw [List.cons_append, flushWrites, ih, flushWrites, List.flatten_cons]
    rw [← List.append_assoc s.records chunk chunks.flatten]
    rfl

/-- Where a log is that was at `w₁` with the records of `s` in its last segment: chunks of records
were flushed since, and some records are in the buffer. -/
structure Ahead (codec : WalCodec) (w₁ : WalPersister) (files : FileTable) (front : List SegmentLog)
    (s : SegmentLog) (w : WalPersister) (chunks : List (List WALRecord))
    (buffered : List WALRecord) : Prop where
  content : OpenContent codec w front
    { s with records := s.records ++ chunks.flatten ++ buffered } (s.records ++ chunks.flatten) buffered
  segments : ∃ file, w.dir.segments = files ++ [(s.id, file)]
  calls : w.calls = w₁.calls ++ flushWrites s chunks
  chunks : ∀ c ∈ chunks, c ≠ []
  checkpoints : w.dir.checkpoints = w₁.dir.checkpoints
  walDir : w.walDir = w₁.walDir

section Ahead

variable {files : FileTable} {front : List SegmentLog} {s : SegmentLog}
  {chunks : List (List WALRecord)} {buffered : List WALRecord}

theorem Ahead.names (h : Ahead codec w₁ files front s w chunks buffered) :
    Stored files front ∧ ∀ f ∈ files, f.1 < s.id := by
  obtain ⟨file, hfile⟩ := h.segments
  obtain ⟨files', file', heq, hnames, hfront, -⟩ :=
    last_file (s := { s with records := s.records ++ chunks.flatten }) h.content.front_lt
      h.content.content.stored
  obtain ⟨rfl, -⟩ := List.append_inj' (hfile.symm.trans heq) rfl
  exact ⟨hfront, hnames⟩

theorem Ahead.flushed (h : Ahead codec w₁ files front s w chunks buffered) :
    ∃ chunks', Ahead codec w₁ files front s w.flushedState chunks' [] ∧
      chunks'.flatten = chunks.flatten ++ buffered := by
  by_cases hnone : buffered = []
  · subst hnone
    have hbuf : w.writeBuf = [] := h.content.buffer
    refine ⟨chunks, ?_, (List.append_nil _).symm⟩
    rwa [flushedState, if_pos hbuf]
  have hbuf : w.writeBuf ≠ [] := by
    rw [h.content.buffer]
    exact fun hempty => hnone (eq_nil_of_encodeAll hempty)
  have hflat : (chunks ++ [buffered]).flatten = chunks.flatten ++ buffered := by
    rw [List.flatten_append, List.flatten_singleton]
  refine ⟨chunks ++ [buffered], ?_, hflat⟩
  refine ⟨?_, ?_, ?_, ?_, by rw [flushedState_eq]; exact h.checkpoints,
    by rw [flushedState_eq]; exact h.walDir⟩
  · rw [hflat, List.append_nil, ← List.append_assoc]
    exact h.content.afterFlush
  · obtain ⟨file, hfile⟩ := h.segments
    have hid : w.active.id = s.id := h.content.id
    have hupsert : ∀ new old : Bytes, FileTable.upsert w.active.id new
        (FileTable.upsert w.active.id old w.dir.segments) = files ++ [(s.id, new)] := by
      intro new old
      rw [hid, hfile, FileTable.upsert_last h.names.2, FileTable.upsert_last h.names.2]
    unfold flushedState
    rw [if_neg hbuf]
    exact ⟨_, hupsert _ _⟩
  · have hid : w.active.id = s.id := h.content.id
    have hend : w.active.endOffset
        = SegmentLog.endOffset { s with records := s.records ++ chunks.flatten } :=
      h.content.endOffset
    have hend' : w.active.endOffset + w.writeBuf.length
        = SegmentLog.endOffset { s with records := s.records ++ chunks.flatten ++ buffered } :=
      h.content.end_eq
    unfold flushedState
    rw [if_neg hbuf]
    show w.calls ++ [.write w.active.id w.active.endOffset w.writeBuf]
      ++ [.write w.active.id (w.active.endOffset + w.writeBuf.length)
        (trailer (w.active.endOffset + w.writeBuf.length))] = _
    rw [flushWrites_concat, hend', hid, hend, h.content.buffer, h.calls, List.append_assoc,
      List.append_assoc]
    rfl
  · exact forall_mem_concat.mpr ⟨h.chunks, hnone⟩

variable {done : Nat → WalPersister → WalPersister} {r : WALRecord}

theorem Ahead.appended (h : Ahead codec w₁ files front s w chunks buffered)
    (hroom : w.active.endOffset + w.writeBuf.length < kMaxSegmentSize)
    (hdone : Appends codec r done) (hsize : r.payload.length ≤ kMaxRecordSize) :
    ∃ chunks' buffered', Ahead codec w₁ files front s
        (done (w.active.endOffset + w.writeBuf.length) (w.pushedState r)) chunks' buffered' ∧
      chunks'.flatten ++ buffered' = chunks.flatten ++ buffered ++ [r] := by
  have hsmall := hdone.small hsize h.content.sound.id h.content.sound.size
  rw [h.content.end_eq]
  obtain ⟨entryCount, heq⟩ := pushed_or_flushed hdone w
    (SegmentLog.endOffset { s with records := s.records ++ chunks.flatten ++ buffered })
  rw [h.content.id] at heq
  have hpushed : Ahead codec w₁ files front s
      { w.pushRecord r with
        index := w.index.apply (effectAt codec kFormatVersionProtobuf s.id
          (SegmentLog.endOffset { s with records := s.records ++ chunks.flatten ++ buffered }) r)
        active.entryCount := entryCount } chunks (buffered ++ [r]) := {
    content := by
      rw [← List.append_assoc]
      exact h.content.pushed (hdone.readable hsize) hroom hsmall entryCount
    segments := h.segments
    calls := h.calls
    chunks := h.chunks
    checkpoints := h.checkpoints
    walDir := h.walDir }
  rcases heq with heq | heq
  · refine ⟨chunks, buffered ++ [r], heq ▸ hpushed, ?_⟩
    rw [List.append_assoc]
  · obtain ⟨chunks', hflushed, hflat⟩ := hpushed.flushed
    refine ⟨chunks', [], heq ▸ hflushed, ?_⟩
    rw [hflat, List.append_nil, List.append_assoc]

theorem Ahead.recordAppended (h : Ahead codec w₁ files front s w chunks buffered)
    {io : IoOutcomes} (hio : Clean io) (hrotate : w.needsRotation = false)
    (hdone : Appends codec r done) :
    ∃ chunks' buffered', Ahead codec w₁ files front s (w.appendRecord codec r io done).2 chunks'
        buffered' ∧
      (chunks'.flatten ++ buffered' = chunks.flatten ++ buffered ∨
        ∃ r, chunks'.flatten ++ buffered' = chunks.flatten ++ buffered ++ [r]) := by
  have hstay : rotatedState codec w = w := by
    rw [rotatedState, hrotate]
    rfl
  have hroom : w.active.endOffset + w.writeBuf.length < kMaxSegmentSize := by
    unfold needsRotation at hrotate
    simp only [Bool.or_eq_false_iff, decide_eq_false_iff_not] at hrotate
    omega
  rw [appendRecord_ok h.content.fd hio, hstay]
  split
  · exact ⟨chunks, buffered, h, .inl rfl⟩
  rename_i hlarge
  obtain ⟨chunks', buffered', happ, hall⟩ := h.appended hroom hdone (Nat.le_of_not_lt hlarge)
  exact ⟨chunks', buffered', happ, .inr ⟨r, hall⟩⟩

/-- One call appends a record or none. -/
theorem Ahead.step (hcodec : codec.Lawful) (h : Ahead codec w₁ files front s w chunks buffered)
    {e : Event} (he : StaysInSegment w e) (hn : (system codec).next w e = some w') :
    ∃ chunks' buffered', Ahead codec w₁ files front s w' chunks' buffered' ∧
      (chunks'.flatten ++ buffered' = chunks.flatten ++ buffered ∨
        ∃ r, chunks'.flatten ++ buffered' = chunks.flatten ++ buffered ++ [r]) := by
  obtain ⟨hrange, hdoes⟩ := does_of_next codec hn
  cases hdoes with
  | @append entry io =>
    simp only [Event.inRange, Bool.and_eq_true, decide_eq_true_eq] at hrange
    unfold appendLogEntry
    cases hpayload : codec.serialize entry.toProto with
    | none => exact ⟨chunks, buffered, h, .inl rfl⟩
    | some payload =>
      exact h.recordAppended he.1 he.2
        (appends_logEntry hcodec hrange.1.1 hrange.1.2 hrange.2 hpayload)
  | truncatePrefix =>
    exact h.recordAppended he.1 he.2 (appends_truncatePrefix hcodec (of_decide_eq_true hrange))
  | truncateSuffix =>
    exact h.recordAppended he.1 he.2 (appends_truncateSuffix hcodec (of_decide_eq_true hrange))
  | @read io =>
    have hio : Clean io := he
    rw [hio.flush, flushWriteBuffer_ok h.content.fd]
    obtain ⟨chunks', hflushed, hflat⟩ := h.flushed
    refine ⟨chunks', [], hflushed, .inl ?_⟩
    rw [hflat, List.append_nil]
  | sync | garbageCollect | close | «open» => exact he.elim

/-- **The moments since the `Sync`.** Every leading part of the later records is what the log had
appended at some moment. -/
theorem Ahead.later (hcodec : codec.Lawful) (h₁ : Ahead codec w₁ files front s w₁ [] [])
    (h : (system codec).Later StaysInSegment w₁ w₂) :
    ∃ chunks buffered, Ahead codec w₁ files front s w₂ chunks buffered ∧
      ∀ done rest, chunks.flatten ++ buffered = done ++ rest →
        ∃ w' chunks' buffered', (system codec).Later StaysInSegment w₁ w' ∧
          (system codec).Later StaysInSegment w' w₂ ∧
          Ahead codec w₁ files front s w' chunks' buffered' ∧ chunks'.flatten ++ buffered' = done := by
  induction h with
  | refl =>
    refine ⟨[], [], h₁, ?_⟩
    intro done rest hsplit
    obtain ⟨rfl, rfl⟩ := List.append_eq_nil_iff.mp hsplit.symm
    exact ⟨w₁, [], [], .refl _, .refl _, h₁, rfl⟩
  | @step w w'' e hlater hc hn ih =>
    obtain ⟨chunks, buffered, hw, hbetween⟩ := ih
    obtain ⟨chunks', buffered', hw', hmore⟩ := hw.step hcodec hc hn
    refine ⟨chunks', buffered', hw', ?_⟩
    intro done rest hsplit
    -- the part that is all of it, or a part of what was there before
    rcases List.eq_nil_or_concat rest with rfl | ⟨rest', x, rfl⟩
    · rw [List.append_nil] at hsplit
      exact ⟨w'', chunks', buffered', .step hlater hc hn, .refl _, hw', hsplit⟩
    · rw [List.concat_eq_append, ← List.append_assoc] at hsplit
      obtain ⟨rest'', hbefore⟩ : ∃ rest'', chunks.flatten ++ buffered = done ++ rest'' := by
        rcases hmore with hsame | ⟨r, hr⟩
        · exact ⟨rest' ++ [x], by rw [← hsame, hsplit, List.append_assoc]⟩
        · exact ⟨rest', (List.append_inj' (hr.symm.trans hsplit) rfl).1⟩
      obtain ⟨w', chunks₀, buffered₀, hfrom, hthen, hw₀, hdone⟩ := hbetween done rest'' hbefore
      exact ⟨w', chunks₀, buffered₀, hfrom, .step hthen hc hn, hw₀, hdone⟩

/-! ## §2 — The crash. -/

/-- The active segment after a crash: the file at the `Sync` with `n` bytes of the later writes. -/
def crashImage (w₁ w₂ : WalPersister) (n : Nat) : Bytes :=
  applyWrites n (w₂.calls.drop w₁.calls.length) (w₁.file w₂.active.id)

/-- What the crash leaves for the next `Open`. -/
def crashed (w₁ w₂ : WalPersister) (n : Nat) : WalPersister :=
  { w₂.closed with
    dir.segments := FileTable.upsert w₂.active.id (crashImage w₁ w₂ n) w₂.dir.segments }

theorem Ahead.crashed_segments (h : Ahead codec w₁ files front s w₂ chunks buffered) (n : Nat) :
    (crashed w₁ w₂ n).dir.segments = files ++ [(s.id, crashImage w₁ w₂ n)] := by
  obtain ⟨file, hfile⟩ := h.segments
  have hid : w₂.active.id = s.id := h.content.id
  show FileTable.upsert w₂.active.id _ w₂.dir.segments = _
  rw [hid, hfile, FileTable.upsert_last h.names.2]

/-- The crash image is whole records, a leading part of the flushed ones among them, and bytes in
which no record ends. -/
theorem Ahead.crashImage_eq (h₁ : Ahead codec w₁ files front s w₁ [] [])
    (h : Ahead codec w₁ files front s w₂ chunks buffered) (n : Nat) :
    ∃ done rest tail, chunks.flatten = done ++ rest ∧
      crashImage w₁ w₂ n = SegmentLog.body { s with records := s.records ++ done } ++ tail ∧
      Incomplete tail := by
  have hid : w₂.active.id = s.id := h.content.id
  have hs : { s with records := s.records ++ ([] : List (List WALRecord)).flatten } = s := by
    rw [List.flatten_nil, List.append_nil]
  -- the file at the `Sync` holds the records of the segment
  have hstored := h₁.content.content.stored
  have hlt : ∀ x ∈ front, x.id < s.id := h₁.content.front_lt
  rw [hs] at hstored
  obtain ⟨files', file, hfiles, hnames, -, hholds⟩ := last_file hlt hstored
  have hfile : w₁.file w₂.active.id = file := by
    rw [WalPersister.file, hid, hfiles, lookup_last hnames]
    rfl
  have hsize : ∀ r ∈ chunks.flatten, r.payload.length ≤ kMaxRecordSize := by
    intro r hr
    refine (h.content.sound.readable r ?_).size
    exact List.mem_append_left _ (List.mem_append_right _ hr)
  unfold crashImage
  rw [h.calls, List.drop_left, hfile]
  exact torn_shape h.chunks hsize hholds n

/-- The crash leaves a directory whose last file is torn. -/
theorem Ahead.torn (h₁ : Ahead codec w₁ files front s w₁ [] [])
    (h : Ahead codec w₁ files front s w₂ chunks buffered) (n : Nat) :
    ∃ more rest, chunks.flatten ++ buffered = more ++ rest ∧
      TornDir codec (crashed w₁ w₂ n) files front s more (crashImage w₁ w₂ n) := by
  obtain ⟨more, behind, tail, hmore, himage, htail⟩ := h₁.crashImage_eq h n
  refine ⟨more, behind ++ buffered, by rw [hmore, List.append_assoc], ?_⟩
  have hcontent := h.content
  rw [show s.records ++ chunks.flatten ++ buffered = s.records ++ more ++ (behind ++ buffered) by
    rw [hmore]; simp only [List.append_assoc]] at hcontent
  have hsaved := h₁.content.checkpoints
  rw [List.flatten_nil, List.append_nil, List.append_nil, ← h.checkpoints] at hsaved
  exact hcontent.tornDir (h.crashed_segments n) h.names.1 ⟨tail, himage, htail⟩ rfl hsaved rfl rfl

end Ahead

/-! ## §3 — Recovery. -/

theorem sync_eq_of_ok {io : IoOutcomes} (hfd : w.active.fd = true) (h : (w.sync io).1 = .ok) :
    w.sync io = w.sync { checkpoint := io.checkpoint } := by
  have hflush : w.flushWriteBuffer io.flush = (.ok, w.flushedState) := by
    unfold sync syncActiveSegment at h
    unfold flushWriteBuffer at h ⊢
    unfold flushedState
    by_cases hbuf : w.writeBuf = []
    · rw [if_pos hbuf, if_pos hbuf]
    rw [if_neg hbuf, if_neg (by rw [hfd]; exact Bool.noConfusion)] at h ⊢
    rw [if_neg hbuf]
    cases hout : io.flush with
    | ok => rfl
    | recordsFail | trailerFails =>
      rw [hout] at h
      cases h
  have hdatasync : io.fdatasync = true := by
    unfold sync syncActiveSegment at h
    rw [hflush] at h
    dsimp only at h
    rw [if_neg (by rw [fd_flushedState, hfd]; exact Bool.noConfusion)] at h
    cases hdata : io.fdatasync with
    | true => rfl
    | false =>
      rw [hdata] at h
      cases h
  unfold sync syncActiveSegment
  rw [hflush, flushWriteBuffer_ok hfd, hdatasync]

theorem OpenContent.ahead {front : List SegmentLog} {s : SegmentLog} {flushed : List WALRecord}
    (h : OpenContent codec w₁ front s flushed []) : ∃ files, Ahead codec w₁ files front s w₁ [] [] := by
  have hflushed : flushed = s.records := by
    rw [h.records, List.append_nil]
  subst hflushed
  obtain ⟨files, file, hfiles, -⟩ := stored_concat.mp h.content.stored
  refine ⟨files, ?_, ⟨file, hfiles⟩, (List.append_nil _).symm, ?_, rfl, rfl⟩
  · rw [List.flatten_nil, List.append_nil, List.append_nil]
    exact h
  · intro c hc
    exact absurd hc List.not_mem_nil

/-- `Open` succeeds with the log of a moment between `w₁` and `w₂`: the same records, the same map and
the same entries. Whatever is called on it without failure, closing and opening it again succeeds and
gives the same map. -/
def Recovers (codec : WalCodec) (w₁ w₂ : WalPersister) (recovered : StoreStatus × WalPersister) :
    Prop :=
  recovered.1 = .ok ∧
    ∃ w', (system codec).Later StaysInSegment w₁ w' ∧ (system codec).Later StaysInSegment w' w₂ ∧
      SameRecords codec w' recovered.2 ∧ recovered.2.index.get = w'.index.get ∧
      (∀ i, (recovered.2.getEntry codec i {}).1 = (w'.getEntry codec i {}).1) ∧
      ∀ w₃, (system codec).Later (fun _ e => e.Succeeds) recovered.2 w₃ → w₃.opened = true →
        ((w₃.close {}).openWal codec .ok).1 = .ok ∧
          ((w₃.close {}).openWal codec .ok).2.index.get = w₃.index.get

/-- **A crash after a `Sync`.** After any history without I/O failures, a `Sync` that returns OK, and
calls that stay in the segment, a crash leaves the active segment with a byte prefix of the writes
since the `Sync`. The next `Open` recovers exactly when the image is recoverable. -/
theorem synced_records_recovered (hcodec : codec.Lawful)
    (hreach : (system codec).ReachableWith (fun _ e => e.Succeeds) w) (hopen : w.opened = true)
    {io : IoOutcomes} (hsync : (w.sync io).1 = .ok)
    (hlater : (system codec).Later StaysInSegment (w.sync io).2 w₂) (n : Nat) :
    Recovers codec (w.sync io).2 w₂ ((crashed (w.sync io).2 w₂ n).openWal codec .ok) ↔
      Recoverable codec (w.sync io).2.active.id (crashImage (w.sync io).2 w₂ n)
        (w.sync io).2.active.endOffset := by
  obtain ⟨front, s, flushed, buffered, h, -⟩ := (held_calls hcodec hreach).openContent hopen
  have hclean : Clean { checkpoint := io.checkpoint } := ⟨rfl, rfl, rfl, rfl⟩
  have hsynced := (h.synced hclean).2
  rw [← sync_eq_of_ok h.fd hsync] at hsynced
  generalize (w.sync io).2 = w₁ at hsynced hlater ⊢
  obtain ⟨files, h₁⟩ := hsynced.ahead
  obtain ⟨chunks, buffered', h₂, hmoments⟩ := h₁.later hcodec hlater
  obtain ⟨more, rest, hsplit, htorn⟩ := h₁.torn h₂ n
  have hid : w₁.active.id = s.id := hsynced.id
  have hend : w₁.active.endOffset = s.endOffset := by
    rw [hsynced.endOffset, ← hsynced.end_eq, hsynced.endOffset, hsynced.buffer]
    rfl
  rw [hid, hend]
  constructor
  · rintro ⟨-, w', hfrom, -, ⟨front', current, _, _, _, _, hw', hopened⟩, -⟩
    -- the log of that moment has the synced records
    obtain ⟨chunks', buffered'', hahead, -⟩ := h₁.later hcodec hfrom
    refine htorn.recoverable hopened fun _ => ?_
    rw [← hw'.end_eq, hahead.content.end_eq, List.append_assoc, endOffset_append]
    exact Nat.le_add_right _ _
  · intro hrec
    obtain ⟨done, behind, rfl, hok, hopened, hwalDir⟩ := htorn.recovered hrec .ok
    rw [List.append_assoc] at hsplit
    obtain ⟨w', chunks', buffered'', hfrom, hthen, hahead, hdone⟩ := hmoments done _ hsplit
    have hcontent := hahead.content
    rw [List.append_assoc, hdone] at hcontent
    have hsame : SameRecords codec w' ((crashed w₁ w₂ n).openWal codec .ok).2 :=
      ⟨_, _, _, _, _, _, hcontent, hopened⟩
    obtain ⟨hindex, hreads⟩ :=
      reads_of_sameRecords hsame ((hwalDir.trans h₂.walDir).trans hahead.walDir.symm) clean_default
    refine ⟨hok, w', hfrom, hthen, hsame, hindex, hreads, ?_⟩
    intro w₃ hlater₃ hopen₃
    obtain ⟨front₃, current₃, flushed₃, buffered₃, h₃, -⟩ :=
      (held_later hcodec (.flushed hopened) hlater₃).openContent hopen₃
    obtain ⟨hok₃, hcontent₃, -⟩ := (h₃.closed clean_default).opened .ok
    exact ⟨hok₃, hcontent₃.index.trans h₃.index.symm⟩

def staysInSegment (w : WalPersister) : Event → Bool
  | .append entry io => callsSucceed w (.inl (.append entry io)) && !w.needsRotation
  | .truncatePrefix index io => callsSucceed w (.inl (.truncatePrefix index io)) && !w.needsRotation
  | .truncateSuffix index io => callsSucceed w (.inl (.truncateSuffix index io)) && !w.needsRotation
  | .read io => callsSucceed w (.inl (.read io))
  | .sync _ | .garbageCollect _ _ | .close _ | .open _ => false

theorem staysInSegment_of_eq_true {e : Event} (h : staysInSegment w e = true) :
    StaysInSegment w e := by
  cases e with
  | append | truncatePrefix | truncateSuffix =>
    obtain ⟨hio, hrotate⟩ := Bool.and_eq_true_iff.mp h
    exact ⟨callsSucceed_of_eq_true hio, Bool.not_eq_true' _ ▸ hrotate⟩
  | read io => exact callsSucceed_of_eq_true (w := w) (e := .inl (.read io)) h
  | sync | garbageCollect | close | «open» => cases h

/-- A history up to a `Sync` and the calls behind it, checked and evaluated. -/
def syncedRun (before after : List Event) (check : WalPersister → WalPersister → Bool) :
    Option Bool :=
  ((system wireCodec).replay (fun w e => callsSucceed w (.inl e)) { walDir := ascii "/wal" }
    before).bind fun w =>
      ((system wireCodec).replay staysInSegment (w.sync {}).2 after).map fun w₂ =>
        decide (w.opened = true ∧ (w.sync {}).1 = .ok) && check (w.sync {}).2 w₂

theorem exists_of_syncedRun {before after : List Event} {check : WalPersister → WalPersister → Bool}
    (h : syncedRun before after check = some true) :
    ∃ w w₂, (system wireCodec).ReachableWith (fun _ e => e.Succeeds) w ∧ w.opened = true ∧
      (w.sync {}).1 = .ok ∧ (system wireCodec).Later StaysInSegment (w.sync {}).2 w₂ ∧
      check (w.sync {}).2 w₂ = true := by
  obtain ⟨w, hw, h⟩ := Option.bind_eq_some_iff.mp h
  obtain ⟨w₂, hw₂, h⟩ := Option.map_eq_some_iff.mp h
  obtain ⟨hdec, hcheck⟩ := Bool.and_eq_true_iff.mp h
  obtain ⟨hopen, hsync⟩ := of_decide_eq_true hdec
  have hinit : (system wireCodec).init { walDir := ascii "/wal" } := ⟨_, rfl⟩
  refine ⟨w, w₂, ?_, hopen, hsync, ?_, hcheck⟩
  · exact (TransitionSystem.reachableWith_of_replay (.init hinit) hw).mono
      fun w e he => callsSucceed_of_eq_true (e := .inl e) he
  · exact (TransitionSystem.later_of_replay hw₂).mono fun _ _ => staysInSegment_of_eq_true

/-- Two entries are flushed one after the other behind a `Sync`, and the crash comes between the
flushes: the first one is recovered with the synced entry. -/
theorem synced_records_recovered_between :
    ∃ w w₂, (system wireCodec).ReachableWith (fun _ e => e.Succeeds) w ∧
      (system wireCodec).Later StaysInSegment (w.sync {}).2 w₂ ∧
      Recovers wireCodec (w.sync {}).2 w₂ ((crashed (w.sync {}).2 w₂ 22).openWal wireCodec .ok) := by
  have hrun : syncedRun [.open .ok, .append ⟨1, 1, [], [], 0⟩ {}]
      [.append ⟨2, 1, [], [], 0⟩ {}, .read {}, .append ⟨3, 1, [], [], 0⟩ {}, .read {}]
      (fun w₁ w₂ => decide ((readTrailer (crashImage w₁ w₂ 22)).toOption = some 44 ∧
        w₁.active.endOffset < 44 ∧ 44 + kTrailerSize = (crashImage w₁ w₂ 22).length))
      = some true := by
    decide +kernel
  obtain ⟨w, w₂, hreach, hopen, hsync, hlater, hcheck⟩ := exists_of_syncedRun hrun
  refine ⟨w, w₂, hreach, hlater,
    (synced_records_recovered wireCodec_lawful hreach hopen hsync hlater 22).mpr ?_⟩
  obtain ⟨htrailer, hsynced, hplace⟩ := of_decide_eq_true hcheck
  unfold Recoverable
  cases hread : readTrailer (crashImage (w.sync {}).2 w₂ 22) with
  | ok endOffset =>
    rw [hread] at htrailer
    obtain rfl : endOffset = 44 := Option.some.inj htrailer
    exact ⟨Nat.le_of_lt hsynced, .inl hplace⟩
  | error status =>
    rw [hread] at htrailer
    cases htrailer

/-- A crash between the records and the trailer of a flush: `Open` fails. A crash behind payload bytes
that read as the offset of the first record: `Open` succeeds and the synced entry is gone. -/
theorem torn_flush_loses_synced_record :
    (∃ w w₂, (system wireCodec).ReachableWith (fun _ e => e.Succeeds) w ∧ w.opened = true ∧
      (w.sync {}).1 = .ok ∧ (system wireCodec).Later StaysInSegment (w.sync {}).2 w₂ ∧
      ((crashed (w.sync {}).2 w₂ 14).openWal wireCodec .ok).1
        = .corruption (ascii "Invalid trailer end_offset")) ∧
    ∃ w w₂, (system wireCodec).ReachableWith (fun _ e => e.Succeeds) w ∧ w.opened = true ∧
      (w.sync {}).1 = .ok ∧ (system wireCodec).Later StaysInSegment (w.sync {}).2 w₂ ∧
      ((w.sync {}).2.index.get 1).isSome = true ∧
      ((crashed (w.sync {}).2 w₂ 24).openWal wireCodec .ok).1 = .ok ∧
      ((crashed (w.sync {}).2 w₂ 24).openWal wireCodec .ok).2.index.get 1 = none := by
  have hfails : syncedRun [.open .ok, .append ⟨1, 1, [], [], 0⟩ {}]
      [.append ⟨2, 1, [], [], 0⟩ {}, .read {}]
      (fun w₁ w₂ => decide (((crashed w₁ w₂ 14).openWal wireCodec .ok).1
        = .corruption (ascii "Invalid trailer end_offset"))) = some true := by
    decide +kernel
  have hloses : syncedRun [.open .ok, .append ⟨1, 1, [], [], 0⟩ {}]
      [.append ⟨2, 1, [16, 0, 0, 0, 0, 0, 0, 0, 1], [], 0⟩ {}, .read {}]
      (fun w₁ w₂ => decide ((w₁.index.get 1).isSome = true ∧
        ((crashed w₁ w₂ 24).openWal wireCodec .ok).1 = .ok ∧
        ((crashed w₁ w₂ 24).openWal wireCodec .ok).2.index.get 1 = none)) = some true := by
    decide +kernel
  obtain ⟨w, w₂, hreach, hopen, hsync, hlater, hcheck⟩ := exists_of_syncedRun hfails
  obtain ⟨v, v₂, hreach', hopen', hsync', hlater', hcheck'⟩ := exists_of_syncedRun hloses
  exact ⟨⟨w, w₂, hreach, hopen, hsync, hlater, of_decide_eq_true hcheck⟩,
    ⟨v, v₂, hreach', hopen', hsync', hlater', of_decide_eq_true hcheck'⟩⟩

end WalPersister

end RollingRaft
