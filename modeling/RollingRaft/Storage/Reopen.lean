/-
# RollingRaft.Storage.Reopen — recovery gives back the map that was in memory.

In a history without failing I/O operations and without garbage collection, closing the log and
opening it again gives the map from log indices to entries that it had before; so does opening it
without its checkpoints. When checkpoints were saved does not matter: besides the ones that `Sync`
and `Close` save when they are due, the histories here save one between any two calls.
-/
import RollingRaft.Storage.OpenLog
import RollingRaft.Storage.WireCodec

namespace RollingRaft

open Lib

namespace WalPersister

variable {codec : WalCodec} {w w' : WalPersister}

/-! ## §1 — Histories. -/

/-- No I/O operation of the call fails, and it is no garbage collection. -/
def Event.Succeeds : Event → Prop
  | .append _ io | .truncatePrefix _ io | .truncateSuffix _ io | .sync io | .read io | .close io =>
    Clean io
  | .garbageCollect _ _ => False
  | .open create => create = .ok

/-- The log with a checkpoint at any moment: the second kind of event saves one, or fails to. -/
def checkpointing (codec : WalCodec) : TransitionSystem WalPersister (Event ⊕ Bool) where
  init := (system codec).init
  next w
    | .inl e => next codec w e
    | .inr ok => if w.opened then some (w.saveCheckpoint ok) else none

def CallsSucceed (_ : WalPersister) : Event ⊕ Bool → Prop
  | .inl e => e.Succeeds
  | .inr _ => True

/-- What such a history leads to. With `strict`, every checkpoint stands for flushed records. -/
inductive Held (codec : WalCodec) (strict : Bool) (w : WalPersister) : Prop
  | opened (front : List SegmentLog) (current : SegmentLog) (flushed buffered : List WALRecord) :
      OpenContent codec w front current flushed buffered →
      (strict = true → SavedFlushed codec w front current flushed) → Held codec strict w
  | closed (front : List SegmentLog) (last : SegmentLog) : ClosedContent codec w front last →
      Held codec strict w
  | fresh : w = { walDir := w.walDir } → Held codec strict w

section Held

variable {strict : Bool}

theorem Held.openContent (h : Held codec strict w) (hopen : w.opened = true) :
    ∃ front current flushed buffered, OpenContent codec w front current flushed buffered ∧
      (strict = true → SavedFlushed codec w front current flushed) := by
  cases h with
  | opened front current flushed buffered h hsaved =>
    exact ⟨front, current, flushed, buffered, h, hsaved⟩
  | closed front last h => exact absurd (h.closed.symm.trans hopen) Bool.false_ne_true
  | fresh h =>
    rw [h] at hopen
    exact absurd hopen Bool.false_ne_true

variable {front : List SegmentLog} {current : SegmentLog}

theorem Held.kept {flushed : List WALRecord}
    (hsaved : strict = true → SavedFlushed codec w front current flushed)
    (h : ∃ front' current' flushed' buffered', OpenContent codec w' front' current' flushed' buffered' ∧ Grows codec w front current flushed w' front' current' flushed') :
    Held codec strict w' := by
  obtain ⟨front', current', flushed', buffered', h, hgrows⟩ := h
  exact .opened front' current' flushed' buffered' h fun hstrict => hgrows.saved (hsaved hstrict)

theorem Held.flushed {flushed : List WALRecord} (h : OpenContent codec w front current flushed []) :
    Held codec strict w := by
  refine .opened front current flushed [] h fun _ => ?_
  have hsaved := h.checkpoints
  have hcurrent : { current with records := flushed } = current := by
    rw [show flushed = current.records by rw [h.records, List.append_nil]]
  unfold SavedFlushed
  rwa [hcurrent]

theorem openContent_first (hcodec : codec.Lawful) (walDir : Bytes) :
    OpenContent codec (openWal codec { walDir := walDir } .ok).2 [] (freshSegment 1) [] [] := by
  have hsound : (freshSegment 1).Sound codec := freshSegment_sound (by decide)
  have hmeta : loadMeta codec ((({ walDir := walDir } : WalPersister).segmentCreated 1).saveMeta
      codec).dir = .ok := by
    apply loadMeta_saveMeta hcodec
    · exact DenseIndex.storable_clear
    · show 1 < 2 ^ 64
      decide
  exact {
    opened := rfl
    fd := rfl
    content := {
      stored := .cons ⟨rfl, .inr ⟨rfl, (List.append_nil _).symm⟩⟩ .nil
      sorted := List.pairwise_singleton _ _
      sound := fun s hs => List.mem_singleton.mp hs ▸ hsound
      small := fun s hs e he => by
        rw [List.mem_singleton.mp hs] at he
        exact absurd he List.not_mem_nil
      metaJson := hmeta }
    id := rfl
    format := rfl
    records := rfl
    endOffset := rfl
    buffer := rfl
    sound := hsound
    small := fun _ he => absurd he List.not_mem_nil
    index := rfl
    storable := DenseIndex.storable_clear
    checkpoints := fun _ hc => absurd hc List.not_mem_nil }

theorem held_step (hcodec : codec.Lawful) {e : Event} (h : Held codec strict w) (he : e.Succeeds)
    (hn : next codec w e = some w') : Held codec strict w' := by
  obtain ⟨hrange, hdoes⟩ := does_of_next codec hn
  cases hdoes with
  | append hopen hid =>
    obtain ⟨front, current, flushed, buffered, h, hsaved⟩ := h.openContent hopen
    simp only [Event.inRange, Bool.and_eq_true, decide_eq_true_eq] at hrange
    exact .kept hsaved (h.logEntryAppended hcodec hid hrange.1.1 hrange.1.2 hrange.2 he)
  | truncatePrefix hopen hid =>
    obtain ⟨front, current, flushed, buffered, h, hsaved⟩ := h.openContent hopen
    exact .kept hsaved (h.recordAppended hcodec hid he
      (appends_truncatePrefix hcodec (of_decide_eq_true hrange)))
  | truncateSuffix hopen hid =>
    obtain ⟨front, current, flushed, buffered, h, hsaved⟩ := h.openContent hopen
    exact .kept hsaved (h.recordAppended hcodec hid he
      (appends_truncateSuffix hcodec (of_decide_eq_true hrange)))
  | sync hopen =>
    obtain ⟨front, current, flushed, buffered, h, hsaved⟩ := h.openContent hopen
    exact .flushed (h.synced he).2
  | read hopen =>
    obtain ⟨front, current, flushed, buffered, h, hsaved⟩ := h.openContent hopen
    rw [Clean.flush he, flushWriteBuffer_ok h.fd]
    exact .flushed h.afterFlush
  | garbageCollect => exact he.elim
  | close hopen =>
    obtain ⟨front, current, flushed, buffered, h, hsaved⟩ := h.openContent hopen
    exact .closed _ _ (h.closed he)
  | @«open» create hclosed =>
    cases h with
    | opened _ _ _ _ h _ => exact absurd h.opened hclosed
    | closed front last h => exact .flushed (h.opened create).2.1
    | fresh h =>
      rw [h, show create = .ok from he]
      exact .flushed (openContent_first hcodec w.walDir)

end Held

theorem held (hcodec : codec.Lawful) (h : (checkpointing codec).ReachableWith CallsSucceed w) :
    Held codec false w := by
  refine h.invariant ?_ ?_
  · rintro w ⟨walDir, rfl⟩
    exact .fresh rfl
  · intro w e w' hw hc hn
    cases e with
    | inl e => exact held_step hcodec hw hc hn
    | inr ok =>
      have hn : (if w.opened then some (w.saveCheckpoint ok) else none) = some w' := hn
      split at hn
      case isFalse => cases hn
      case isTrue hopen =>
        obtain ⟨front, current, flushed, buffered, h, -⟩ := hw.openContent hopen
        cases hn
        exact .opened _ _ _ _ (h.checkpointSaved ok) fun hstrict => absurd hstrict Bool.false_ne_true

/-- What the calls of a history lead to. -/
theorem held_calls (hcodec : codec.Lawful)
    (h : (system codec).ReachableWith (fun _ e => e.Succeeds) w) : Held codec true w := by
  refine h.invariant ?_ ?_
  · rintro w ⟨walDir, rfl⟩
    exact .fresh rfl
  · intro w e w' hw he hn
    exact held_step hcodec hw he hn

theorem held_later (hcodec : codec.Lawful) (hw : Held codec true w)
    (h : (system codec).Later (fun _ e => e.Succeeds) w w') : Held codec true w' := by
  apply h.stable (P := Held codec true)
  · intro w e w' hw he hn
    exact held_step hcodec hw he hn
  · exact hw

/-! ## §2 — Reading. -/

variable {io : IoOutcomes} {place : WALIndexEntry} {segments front : List SegmentLog}
  {last : SegmentLog}

theorem getEntry_ok (hfd : w.active.fd = true) (hio : Clean io) (i : Nat) :
    (w.getEntry codec i io).1 = match w.index.get i with
      | none => .error (.error (ascii "Entry not found"))
      | some place => w.flushedState.readEntry codec place := by
  unfold getEntry
  rw [hio.flush, flushWriteBuffer_ok hfd]
  dsimp only
  rw [index_flushedState]
  cases w.index.get i <;> rfl

/-- Both logs have the same segments with the same records, flushed or not. -/
def SameRecords (codec : WalCodec) (w w' : WalPersister) : Prop :=
  ∃ front current flushed buffered flushed' buffered',
    OpenContent codec w front current flushed buffered ∧
      OpenContent codec w' front current flushed' buffered'

theorem record_of_put {version id offset i : Nat} {records : List WALRecord}
    (h : DenseIndex.Effect.put i place ∈ effectsFrom codec version id offset records) :
    place.segmentId = id ∧ ∃ before payload after, records = before ++ ⟨.logEntry, payload⟩ :: after ∧
      place.fileOffset = offset + (encodeAll before).length := by
  induction records generalizing offset with
  | nil => exact absurd h List.not_mem_nil
  | cons r records ih =>
    rcases List.mem_cons.mp h with hhead | htail
    · obtain ⟨type, payload⟩ := r
      unfold effectAt recordEffect at hhead
      cases type with
      | logEntry =>
        cases hindex : extractLogIndexFromPayload codec payload version with
        | ok index =>
          simp only [hindex] at hhead
          rw [(DenseIndex.Effect.put.inj hhead).2]
          exact ⟨rfl, [], payload, records, rfl, rfl⟩
        | error status =>
          simp only [hindex] at hhead
          cases hhead
      | truncatePrefix =>
        cases hnumber : jsonNumber codec payload (ascii "before_index") with
        | ok | error =>
          simp only [hnumber] at hhead
          cases hhead
      | truncateSuffix =>
        cases hnumber : jsonNumber codec payload (ascii "from_index") with
        | ok | error =>
          simp only [hnumber] at hhead
          cases hhead
      | other code => cases hhead
    · obtain ⟨hid, before, payload, after, hrecords, hoffset⟩ := ih htail
      refine ⟨hid, r :: before, payload, after, by rw [hrecords, List.cons_append], ?_⟩
      rw [hoffset, encodeAll_cons, List.length_append, length_encodeRecord, Nat.add_assoc]

theorem segment_of_mapOf {i : Nat} (h : mapOf codec segments i = some place) :
    ∃ s ∈ segments, place.segmentId = s.id ∧ s.records ≠ [] := by
  rcases DenseIndex.put_or_get h with hput | hnone
  · obtain ⟨s, hs, hput⟩ := List.mem_flatMap.mp hput
    obtain ⟨hid, before, payload, after, hrecords, -⟩ := record_of_put hput
    refine ⟨s, hs, hid, ?_⟩
    rw [hrecords]
    exact List.append_ne_nil_of_right_ne_nil _ (List.cons_ne_nil _ _)
  · cases hnone

theorem lookup_stored {files : FileTable} (h : Stored files segments)
    (hordered : segments.Pairwise fun s s' => s.id < s'.id) {s : SegmentLog} (hs : s ∈ segments)
    (hrecords : s.records ≠ []) : files.lookup s.id = some (s.body ++ trailer s.endOffset) := by
  induction h with
  | nil => exact absurd hs List.not_mem_nil
  | @cons f x files segments hfile _ ih =>
    obtain ⟨hbehind, hrest⟩ := List.pairwise_cons.mp hordered
    obtain ⟨name, file⟩ := f
    rcases List.mem_cons.mp hs with rfl | hs
    · obtain ⟨rfl, hholds⟩ := hfile
      rcases hholds with rfl | ⟨hnone, -⟩
      · rw [List.lookup_cons, beq_self_eq_true]
      · exact absurd hnone hrecords
    · have hne : (s.id == name) = false := by
        have hlt := hbehind s hs
        simp only [beq_eq_false_iff_ne]
        omega
      rw [List.lookup_cons, hne]
      exact ih hrest hs

/-- An open log whose files, once flushed, hold the segments, and whose index is their map. -/
structure LogFiles (codec : WalCodec) (w : WalPersister) (segments : List SegmentLog) : Prop where
  fd : w.active.fd = true
  stored : Stored w.flushedState.dir.segments segments
  sorted : segments.Pairwise fun s s' => s.id < s'.id
  sound : ∀ s ∈ segments, s.Sound codec
  index : w.index.get = mapOf codec segments

theorem OpenContent.logFiles {current : SegmentLog} {flushed buffered : List WALRecord}
    (h : OpenContent codec w front current flushed buffered) :
    LogFiles codec w (front ++ [current]) where
  fd := h.fd
  stored := stored_flushedState h
  sorted := h.sorted
  sound s hs := by
    rcases List.mem_append.mp hs with hs | hs
    · exact h.content.sound s (List.mem_append_left _ hs)
    · rw [List.mem_singleton.mp hs]
      exact h.sound
  index := h.index

theorem IdleContent.logFiles (h : IdleContent codec w front last) :
    LogFiles codec w (front ++ [last]) where
  fd := h.fd
  stored := by
    rw [flushedState, if_pos h.buffer]
    exact h.content.stored
  sorted := h.content.sorted
  sound := h.content.sound
  index := h.index

theorem getEntry_congr {segments' : List SegmentLog} (hw : LogFiles codec w segments)
    (hw' : LogFiles codec w' segments') (hindex : w'.index.get = w.index.get)
    (hsub : ∀ s ∈ segments, s.records ≠ [] → s ∈ segments') (hdir : w'.walDir = w.walDir)
    (hio : Clean io) (i : Nat) :
    (w'.getEntry codec i io).1 = (w.getEntry codec i io).1 := by
  rw [getEntry_ok hw'.fd hio, getEntry_ok hw.fd hio, hindex]
  cases hget : w.index.get i with
  | none => rfl
  | some place =>
    -- the record lies in a segment with records, and both have its file
    rw [hw.index] at hget
    obtain ⟨s, hs, hid, hrecords⟩ := segment_of_mapOf hget
    have hfile := lookup_stored hw.stored hw.sorted hs hrecords
    have hfile' := lookup_stored hw'.stored hw'.sorted (hsub s hs hrecords) hrecords
    have hwalDir : w'.flushedState.walDir = w.flushedState.walDir := by
      rw [flushedState_eq w', flushedState_eq w]
      exact hdir
    dsimp only
    unfold readEntry WalPersister.file
    rw [hid, hwalDir, hfile, hfile']

/-- **Logs with the same records** are the same map and read the same. -/
theorem reads_of_sameRecords (h : SameRecords codec w w') (hdir : w'.walDir = w.walDir)
    (hio : Clean io) :
    w'.index.get = w.index.get ∧
      ∀ i, (w'.getEntry codec i io).1 = (w.getEntry codec i io).1 := by
  obtain ⟨front, current, flushed, buffered, flushed', buffered', hw, hw'⟩ := h
  have hindex : w'.index.get = w.index.get := hw'.index.trans hw.index.symm
  exact ⟨hindex, fun i =>
    getEntry_congr hw.logFiles hw'.logFiles hindex (fun _ hs _ => hs) hdir hio i⟩

/-! ## §3 — Reopening. -/

theorem walDir_close (hfd : w.active.fd = true) (hio : Clean io) :
    (w.close io).walDir = w.walDir := by
  rw [close_ok hfd hio]
  obtain ⟨checkpoints, hsame⟩ := sameButCheckpoints_checkpointIfDue w.flushedState io.checkpoint
  rw [hsame, flushedState_eq]
  rfl

theorem ClosedContent.withoutCheckpoints (h : ClosedContent codec w front last) :
    ClosedContent codec { w with dir.checkpoints := [] } front last := by
  refine ⟨h.closed, h.buffer, ?_, h.format, fun _ hc => absurd hc List.not_mem_nil⟩
  exact ⟨h.content.stored, h.content.sorted, h.content.sound, h.content.small, h.content.metaJson⟩

/-- **Reopening gives the same map.** After any history in which no I/O operation fails, whenever
checkpoints were saved in it, `Close` and `Open` give back the map that was in memory, and so does an
`Open` that finds no checkpoint and scans every segment. -/
theorem reopen_same_map (hcodec : codec.Lawful)
    (h : (checkpointing codec).ReachableWith CallsSucceed w) (hopen : w.opened = true)
    {io : IoOutcomes} (hio : Clean io) :
    let reopened := (w.close io).openWal codec .ok
    let scanned := { w.close io with dir.checkpoints := [] }.openWal codec .ok
    reopened.1 = .ok ∧ scanned.1 = .ok ∧
      reopened.2.index.get = w.index.get ∧ scanned.2.index.get = w.index.get ∧
      ∀ i, (reopened.2.getEntry codec i io).1 = (w.getEntry codec i io).1 ∧
        (scanned.2.getEntry codec i io).1 = (w.getEntry codec i io).1 := by
  obtain ⟨front, current, flushed, buffered, h, -⟩ := (held hcodec h).openContent hopen
  have hclosed := h.closed hio
  have hdir : (w.close io).walDir = w.walDir := walDir_close h.fd hio
  obtain ⟨hok, hcontent, hwalDir⟩ := hclosed.opened .ok
  obtain ⟨hok', hcontent', hwalDir'⟩ := hclosed.withoutCheckpoints.opened .ok
  obtain ⟨hindex, hreads⟩ := reads_of_sameRecords ⟨_, _, _, _, _, _, h, hcontent⟩
    (hwalDir.trans hdir) hio
  obtain ⟨hindex', hreads'⟩ := reads_of_sameRecords ⟨_, _, _, _, _, _, h, hcontent'⟩
    (hwalDir'.trans hdir) hio
  exact ⟨hok, hok', hindex, hindex', fun i => ⟨hreads i, hreads' i⟩⟩

def callsSucceed (_ : WalPersister) : Event ⊕ Bool → Bool
  | .inl (.append _ io) | .inl (.truncatePrefix _ io) | .inl (.truncateSuffix _ io)
  | .inl (.sync io) | .inl (.read io) | .inl (.close io) =>
    io.rotateFlush = .ok && io.create = .ok && io.flush = .ok && io.fdatasync
  | .inl (.garbageCollect _ _) => false
  | .inl (.open create) => create = .ok
  | .inr _ => true

theorem callsSucceed_of_eq_true {e : Event ⊕ Bool} (h : callsSucceed w e = true) :
    CallsSucceed w e := by
  have hclean : ∀ io : IoOutcomes, (io.rotateFlush = .ok && io.create = .ok && io.flush = .ok &&
      io.fdatasync) = true → Clean io := by
    intro io hio
    simp only [Bool.and_eq_true, decide_eq_true_eq] at hio
    exact ⟨hio.1.1.1, hio.1.1.2, hio.1.2, hio.2⟩
  cases e with
  | inr ok => exact trivial
  | inl e =>
    cases e with
    | append | truncatePrefix | truncateSuffix | sync | read | close => exact hclean _ h
    | garbageCollect => cases h
    | «open» create =>
      have hcreate : create = .ok := of_decide_eq_true h
      exact hcreate

/-- A history with both truncations, a checkpoint in the middle of a segment, and a reopening. -/
theorem reopen_same_map_checkpointed :
    ∃ w : WalPersister, (checkpointing wireCodec).ReachableWith CallsSucceed w ∧ w.opened = true ∧
      w.dir.checkpoints ≠ [] ∧ w.index.entries ≠ [] ∧
      ((w.close {}).openWal wireCodec .ok).1 = .ok ∧
      ((w.close {}).openWal wireCodec .ok).2.index.get = w.index.get := by
  obtain ⟨w, hw, hopen, hcheckpoints, hentries⟩ := (checkpointing wireCodec).reachesWith
    (fun w e => callsSucceed w e = true) (s := { walDir := ascii "/wal" })
    [.inl (.open .ok), .inl (.append ⟨1, 1, [7], [], 0⟩ {}), .inl (.append ⟨2, 1, [], [], 9⟩ {}),
      .inr true, .inl (.truncateSuffix 2 {}), .inl (.append ⟨2, 2, [8], [9], 0⟩ {}),
      .inl (.sync {}), .inl (.close {}), .inl (.open .ok), .inl (.truncatePrefix 2 {}),
      .inl (.append ⟨3, 2, [], [], 0⟩ {})] ⟨_, rfl⟩
    (P := fun w => w.opened = true ∧ w.dir.checkpoints ≠ [] ∧ w.index.entries ≠ []) (by decide +kernel)
  have hreach : (checkpointing wireCodec).ReachableWith CallsSucceed w :=
    hw.mono fun _ _ => callsSucceed_of_eq_true
  have hmap := reopen_same_map wireCodec_lawful hreach hopen clean_default
  exact ⟨w, hreach, hopen, hcheckpoints, hentries, hmap.1, hmap.2.2.1⟩

end WalPersister

end RollingRaft
