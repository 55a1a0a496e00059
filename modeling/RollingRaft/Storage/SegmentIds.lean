/-
# RollingRaft.Storage.SegmentIds — which segments the index and the directory name.

The active segment is the last file of the directory (`LastId`), and no entry of the index or of a
checkpoint lies in a later one (`DenseIndex.UpTo`). Scanning a file puts entries of that file only,
and a checkpoint that is read back names no segment that its index did not, whatever the sizes of the
numbers in it.
-/
import RollingRaft.Storage.WalSteps

namespace RollingRaft

open Lib

/-! ## §1 — The segments of an index. -/

/-- No entry of the index lies in a segment above `last`. -/
def DenseIndex.UpTo (last : Nat) (d : DenseIndex) : Prop := ∀ e ∈ d.entries, e.segmentId ≤ last

namespace DenseIndex

variable {last : Nat} {d : DenseIndex}

theorem UpTo.mono {last' : Nat} (h : d.UpTo last) (hle : last ≤ last') : d.UpTo last' :=
  fun e he => Nat.le_trans (h e he) hle

theorem upTo_clear : (clear).UpTo last := fun _ he => absurd he List.not_mem_nil

theorem UpTo.apply {e : Effect} (h : d.UpTo last)
    (hput : ∀ i x, e = .put i x → x.segmentId ≤ last) : (d.apply e).UpTo last := by
  intro x hx
  rcases mem_apply hx with hx | rfl | ⟨i, rfl⟩
  · exact h x hx
  · exact Nat.zero_le last
  · exact hput i x rfl

theorem UpTo.put (h : d.UpTo last) (index : Nat) {entry : WALIndexEntry}
    (hentry : entry.segmentId ≤ last) : (d.put index entry).UpTo last :=
  h.apply (e := .put index entry) (by rintro i x ⟨⟩; exact hentry)

end DenseIndex

open DenseIndex

variable {codec : WalCodec} {d : DenseIndex} {segmentId format : Nat}

theorem upTo_apply_recordEffect {offset last : Nat} {r : WALRecord}
    {effect : Effect} (hd : d.UpTo last) (hid : segmentId ≤ last)
    (h : recordEffect codec format segmentId offset r = .ok effect) :
    (d.apply effect).UpTo last := by
  refine hd.apply ?_
  rintro i x rfl
  unfold recordEffect at h
  split at h <;> first | (split at h <;> cases h) | cases h
  exact hid

variable {callback : WALRecord → Bool}

theorem upTo_scanLoop {endOffset last : Nat}
    (hid : segmentId ≤ last) (fuel current : Nat) (rest : Bytes) (hd : d.UpTo last) :
    (scanLoop codec format segmentId endOffset callback fuel current rest d).index.UpTo last := by
  induction fuel generalizing current rest d with
  | zero => exact hd
  | succ fuel ih =>
    rw [scanLoop]
    split
    · exact hd
    split
    · exact hd
    split
    · exact hd
    rename_i effect heffect
    have happly := upTo_apply_recordEffect hd hid heffect
    split
    · exact ih _ _ happly
    · exact happly

theorem upTo_scanSegment {last : Nat}
    (hid : segmentId ≤ last) (file : Bytes) (hd : d.UpTo last) :
    (scanSegment codec format segmentId callback file d).index.UpTo last := by
  unfold scanSegment
  split
  · exact upTo_scanLoop hid _ _ _ hd
  split
  · exact hd
  · exact upTo_scanLoop hid _ _ _ hd

namespace WalPersister

theorem encodeIndexEntry_append (e : WALIndexEntry) (rest : Bytes) :
    (encodeIndexEntry e ++ rest).take 8 = leBytes 8 e.segmentId ∧
      (encodeIndexEntry e ++ rest).drop kCheckpointIndexEntrySize = rest := by
  constructor
  · simp [encodeIndexEntry, List.append_assoc]
  · simp [encodeIndexEntry, kCheckpointIndexEntrySize, List.drop_append, drop_leBytes_of_le]

variable {last : Nat} {loaded : DenseIndex × Nat} {index : DenseIndex}

theorem upTo_loadEntries {entries : List WALIndexEntry}
    (hentries : ∀ e ∈ entries, e.segmentId ≤ last) {count : Nat} (hcount : count ≤ entries.length)
    (first : Nat) (rest : Bytes) {d : DenseIndex} (hd : d.UpTo last) :
    (loadEntries count first (entries.flatMap encodeIndexEntry ++ rest) d).UpTo last := by
  induction count generalizing first entries d with
  | zero => exact hd
  | succ count ih =>
    cases entries with
    | nil => simp at hcount
    | cons e entries =>
      rw [loadEntries, List.flatMap_cons, List.append_assoc]
      obtain ⟨htake, hdrop⟩ := encodeIndexEntry_append e (entries.flatMap encodeIndexEntry ++ rest)
      rw [htake, hdrop]
      have he : e.segmentId ≤ last := hentries e List.mem_cons_self
      refine ih (fun x hx => hentries x (List.mem_cons_of_mem e hx)) (Nat.le_of_succ_le_succ hcount)
        _ ?_
      exact hd.put _ (Nat.le_trans (leNat_leBytes_le 8 e.segmentId) he)

theorem drop_encodeCheckpoint (index : DenseIndex) (covered : Nat) :
    (encodeCheckpoint index covered).drop 24 = leBytes 8 index.entries.length ++ (leBytes 8 covered
        ++ (index.entries.flatMap encodeIndexEntry
          ++ leBytes 4 (computeCRC32 (checkpointData index covered)).toNat)) := by
  unfold encodeCheckpoint
  rw [checkpointData]
  simp [List.drop_append, drop_leBytes_of_le]

theorem body_encodeCheckpoint (index : DenseIndex) (covered : Nat) :
    (encodeCheckpoint index covered).drop kCheckpointHeaderSize
      = index.entries.flatMap encodeIndexEntry
        ++ leBytes 4 (computeCRC32 (checkpointData index covered)).toNat := by
  rw [show kCheckpointHeaderSize = 24 + (8 + 8) from rfl, ← List.drop_drop,
    drop_encodeCheckpoint, ← List.drop_drop, drop_leBytes_append, drop_leBytes_append]

theorem decodeCheckpoint_eq_ok {file : Bytes} (h : decodeCheckpoint file = .ok loaded) :
    loaded = (loadEntries (leNat ((file.drop 24).take 8)) (leNat ((file.drop 8).take 8))
      (file.drop kCheckpointHeaderSize) .clear, leNat ((file.drop 32).take 8)) := by
  unfold decodeCheckpoint at h
  dsimp only at h
  split at h
  · cases h
  split at h
  · cases h
  split at h
  · cases h
  split at h
  · cases h
  split at h
  · cases h
  · exact (Except.ok.inj h).symm

theorem upTo_decodeCheckpoint {covered : Nat} (h : index.UpTo last)
    (hload : decodeCheckpoint (encodeCheckpoint index covered) = .ok loaded) :
    loaded.1.UpTo last := by
  rw [decodeCheckpoint_eq_ok hload]
  have hcount : leNat (((encodeCheckpoint index covered).drop 24).take 8) ≤ index.entries.length := by
    rw [drop_encodeCheckpoint, take_leBytes_append]
    exact leNat_leBytes_le 8 _
  rw [body_encodeCheckpoint]
  generalize leNat (((encodeCheckpoint index covered).drop 24).take 8) = count at hcount
  generalize leNat (((encodeCheckpoint index covered).drop 8).take 8) = first
  exact upTo_loadEntries h hcount first _ upTo_clear

/-- The scan changes no file name and reads entries of the files it is given. -/
theorem scanSegments_spec (codec : WalCodec) (walDir : Bytes) (covered : Nat) {files : FileTable}
    (hids : ∀ f ∈ files, f.1 ≤ last) (hindex : index.UpTo last) :
    (scanSegments codec walDir covered files index).2.2.map (·.1) = files.map (·.1) ∧
      (scanSegments codec walDir covered files index).2.1.UpTo last := by
  induction files generalizing index with
  | nil => exact ⟨rfl, hindex⟩
  | cons f rest ih =>
    obtain ⟨id, file⟩ := f
    have hid : id ≤ last := hids (id, file) List.mem_cons_self
    have hrest : ∀ f ∈ rest, f.1 ≤ last := fun f hf => hids f (List.mem_cons_of_mem _ hf)
    rw [scanSegments]
    split
    · exact ⟨rfl, hindex⟩
    rename_i format _
    have hscan : (scanSegment codec format id (fun _ => true) file index).index.UpTo last :=
      upTo_scanSegment hid file hindex
    split
    · obtain ⟨hnames, hup⟩ := ih hrest hindex
      exact ⟨by simp [hnames], hup⟩
    dsimp only
    split
    · obtain ⟨hnames, hup⟩ := ih hrest hscan
      exact ⟨by simp [hnames], hup⟩
    split
    · obtain ⟨hnames, hup⟩ := ih hrest hscan
      exact ⟨by simp [hnames], hup⟩
    · exact ⟨rfl, hscan⟩

/-! ## §2 — The last file of the directory. -/

/-- The id at the end of a list of increasing ids. -/
def LastId (files : FileTable) (id : Nat) : Prop :=
  ∃ front file, files = front ++ [(id, file)] ∧ ∀ f ∈ front, f.1 < id

section LastId

variable {files files' : FileTable} {id : Nat}

theorem LastId.le (h : LastId files id) : ∀ f ∈ files, f.1 ≤ id := by
  obtain ⟨front, file, rfl, hfront⟩ := h
  intro f hf
  rcases List.mem_append.mp hf with hf | hf
  · exact Nat.le_of_lt (hfront f hf)
  · rw [List.mem_singleton.mp hf]

theorem LastId.of_names (h : LastId files id) (hnames : files'.map (·.1) = files.map (·.1)) :
    LastId files' id := by
  obtain ⟨front, file, rfl, hfront⟩ := h
  rw [List.map_append, List.map_singleton] at hnames
  obtain ⟨front', rest, rfl, hfront', hrest⟩ := List.map_eq_append_iff.mp hnames
  obtain ⟨f, rfl, hf⟩ := List.map_eq_singleton_iff.mp hrest
  have hf : f.1 = id := hf
  refine ⟨front', f.2, ?_, ?_⟩
  · rw [← hf]
  · intro g hg
    have hg' : g.1 ∈ front.map (·.1) := hfront' ▸ List.mem_map_of_mem hg
    obtain ⟨g', hmem, heq⟩ := List.mem_map.mp hg'
    rw [← heq]
    exact hfront g' hmem

theorem LastId.upsert (h : LastId files id) (bytes : Bytes) :
    LastId (FileTable.upsert id bytes files) id := by
  obtain ⟨front, file, rfl, hfront⟩ := h
  exact ⟨front, bytes, FileTable.upsert_last hfront, hfront⟩

theorem LastId.create (h : LastId files id) (bytes : Bytes) :
    LastId (FileTable.upsert (id + 1) bytes files) (id + 1) := by
  have hlt : ∀ f ∈ files, f.1 < id + 1 := fun f hf => Nat.lt_succ_of_le (h.le f hf)
  exact ⟨files, bytes, FileTable.upsert_of_lt hlt, hlt⟩

theorem LastId.unlink (h : LastId files id) : FileTable.unlink (id + 1) files = files := by
  refine List.filter_eq_self.mpr fun f hf => ?_
  have := h.le f hf
  exact decide_eq_true (by omega)

theorem LastId.filter (h : LastId files id) {keep : Nat} (hkeep : keep ≤ id) :
    LastId (files.filter fun f => keep ≤ f.1) id := by
  obtain ⟨front, file, rfl, hfront⟩ := h
  refine ⟨front.filter fun f => keep ≤ f.1, file, ?_, ?_⟩
  · simp [List.filter_append, hkeep]
  · exact fun f hf => hfront f (List.mem_of_mem_filter hf)

theorem LastId.getLast? (h : LastId files id) : ∃ file, files.getLast? = some (id, file) := by
  obtain ⟨front, file, rfl, -⟩ := h
  exact ⟨file, by simp⟩

end LastId

end WalPersister

end RollingRaft
