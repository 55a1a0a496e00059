/-
# RollingRaft.Storage.WalContent — what the files of a log hold while no I/O operation fails.

The content of a directory is a list of segments, each a list of records (`Content`). The map that a
log stands for is the replay of all records in order (`mapOf`); a checkpoint is the map at the end of
a leading part of the records of its segment (`Checkpointed`).

`Open` of a directory with a content gives the map of that content, whichever checkpoint it starts
from: what the covered segment replays a second time was overwritten or is written again.
-/
import RollingRaft.Storage.WalReadback

namespace RollingRaft

open Lib

/-! ## §1 — Small numbers. -/

/-- The numbers of the effect fit the fields of a checkpoint. -/
def DenseIndex.Effect.Small : DenseIndex.Effect → Prop
  | .put index entry =>
    index < 2 ^ 32 ∧ entry.segmentId < 2 ^ 64 ∧ entry.fileOffset < 2 ^ 64 ∧ entry.length < 2 ^ 64
  | _ => True

namespace DenseIndex

variable {d : DenseIndex}

theorem storable_clear : (clear).Storable :=
  ⟨Nat.zero_le _, fun _ he => absurd he List.not_mem_nil⟩

theorem Storable.apply (h : d.Storable) {e : Effect} (he : e.Small) : (d.apply e).Storable := by
  refine ⟨end_apply ?_ h.indices, fun x hx => ?_⟩
  · rintro i x rfl
    exact he.1
  · rcases mem_apply hx with hx | rfl | ⟨i, rfl⟩
    · exact h.places x hx
    · decide
    · exact he.2

theorem Storable.applyAll (h : d.Storable) {effects : List Effect} (he : ∀ e ∈ effects, e.Small) :
    (d.applyAll effects).Storable := by
  induction effects generalizing d with
  | nil => exact h
  | cons e effects ih =>
    exact ih (h.apply (he e List.mem_cons_self)) fun x hx => he x (List.mem_cons_of_mem e hx)

end DenseIndex

/-! ## §2 — Directories. -/

/-- The map from log indices to places that the records of the segments stand for. -/
def mapOf (codec : WalCodec) (segments : List SegmentLog) : Nat → Option WALIndexEntry :=
  (DenseIndex.clear.applyAll (segments.flatMap (SegmentLog.effects codec))).get

/-- The directory holds these segments. -/
structure Content (codec : WalCodec) (dir : WalDir) (segments : List SegmentLog) : Prop where
  stored : Stored dir.segments segments
  sorted : segments.Pairwise fun s s' => s.id < s'.id
  sound : ∀ s ∈ segments, s.Sound codec
  small : ∀ s ∈ segments, ∀ e ∈ s.effects codec, e.Small
  metaJson : WalPersister.loadMeta codec dir = .ok

/-- Every checkpoint is the map after a leading part of the records of its segment. -/
def Checkpointed (codec : WalCodec) (checkpoints : FileTable) (segments : List SegmentLog) : Prop :=
  ∀ c ∈ checkpoints, ∃ d before s after done rest,
    c.2 = WalPersister.encodeCheckpoint d c.1 ∧ d.Storable ∧ d.entries ≠ [] ∧
      segments = before ++ s :: after ∧ s.id = c.1 ∧ s.records = done ++ rest ∧
      d.get = mapOf codec (before ++ [{ s with records := done }])

theorem effects_split (codec : WalCodec) {s : SegmentLog} {done rest : List WALRecord}
    (h : s.records = done ++ rest) :
    ∃ more, s.effects codec = SegmentLog.effects codec { s with records := done } ++ more := by
  refine ⟨effectsFrom codec (headerVersion s.format) s.id (kHeaderSize + (encodeAll done).length)
    rest, ?_⟩
  rw [SegmentLog.effects, h, effectsFrom_append]
  rfl

namespace WalPersister

variable {codec : WalCodec} {w : WalPersister}

/-- **Where `Open` starts does not matter**: replaying the segments from there gives the map of the
whole content. -/
theorem startingPoint_spec {dir : WalDir} {segments : List SegmentLog}
    (hordered : segments.Pairwise fun s s' => s.id < s'.id) (hsound : ∀ s ∈ segments, s.Sound codec)
    (hck : Checkpointed codec dir.checkpoints segments) :
    (startingPoint dir).1.Storable ∧
      ((startingPoint dir).1.applyAll ((segments.filter fun s => (startingPoint dir).2 ≤ s.id).flatMap
        (SegmentLog.effects codec))).get = mapOf codec segments ∧
      ((startingPoint dir).2 = 0 ∨ ∃ s ∈ segments, (startingPoint dir).2 = s.id) := by
  rcases startingPoint_cases dir with hnone | ⟨c, hmem, hload⟩
  · have hall : (segments.filter fun s => 0 ≤ s.id) = segments :=
      List.filter_eq_self.mpr fun s _ => decide_eq_true (Nat.zero_le s.id)
    rw [hnone]
    refine ⟨DenseIndex.storable_clear, ?_, .inl rfl⟩
    rw [hall]
    rfl
  · obtain ⟨d, before, s, after, done, rest, hfile, hd, hne, rfl, hid, hrecords, hget⟩ := hck c hmem
    have hsid : s.id < 2 ^ 64 := (hsound s (by simp)).id
    rw [hfile, decodeCheckpoint_encodeCheckpoint hd hne (hid ▸ hsid)] at hload
    rw [← Except.ok.inj hload]
    refine ⟨hd, ?_, .inr ⟨s, by simp, hid.symm⟩⟩
    -- the ids increase, so the covered segment and those behind it are scanned
    have hfilter : ((before ++ s :: after).filter fun x => c.1 ≤ x.id) = s :: after := by
      have hsorted := List.pairwise_append.mp hordered
      have hbefore : (before.filter fun x => c.1 ≤ x.id) = [] := by
        refine List.filter_eq_nil_iff.mpr fun x hx => ?_
        have hlt := hsorted.2.2 x hx s List.mem_cons_self
        simp only [decide_eq_true_eq]
        omega
      have hafter : ((s :: after).filter fun x => c.1 ≤ x.id) = s :: after := by
        refine List.filter_eq_self.mpr fun x hx => ?_
        rcases List.mem_cons.mp hx with rfl | hx
        · exact decide_eq_true (by omega)
        · have hlt := List.rel_of_pairwise_cons hsorted.2.1 hx
          exact decide_eq_true (by omega)
      rw [List.filter_append, hbefore, hafter, List.nil_append]
    obtain ⟨more, hmore⟩ := effects_split codec hrecords
    rw [hfilter, DenseIndex.get_applyAll_congr hget]
    unfold mapOf
    rw [List.flatMap_append, List.flatMap_singleton, DenseIndex.applyAll_append, List.flatMap_append,
      DenseIndex.applyAll_append, List.flatMap_cons, hmore, List.append_assoc,
      DenseIndex.get_applyAll_over_part]

/-- **`Open` of a directory with a content** gives its map and makes its last segment active. -/
theorem openWal_content {front : List SegmentLog} {last : SegmentLog}
    (h : Content codec w.dir (front ++ [last]))
    (hck : Checkpointed codec w.dir.checkpoints (front ++ [last])) (create : CreateOutcome) :
    ∃ index, index.get = mapOf codec (front ++ [last]) ∧ index.Storable ∧
      w.openWal codec create = (.ok, { w with
        opened := true
        index := index
        active := ⟨last.id, true, last.endOffset,
          index.entries.countP fun e => e.segmentId = last.id⟩ }) := by
  obtain ⟨hstorable, hget, -⟩ := startingPoint_spec h.sorted h.sound hck
  refine ⟨_, hget, hstorable.applyAll ?_, ?_⟩
  · intro e he
    obtain ⟨s, hs, he⟩ := List.mem_flatMap.mp he
    exact h.small s (List.mem_of_mem_filter hs) e he
  · -- the last file is that of the last segment
    obtain ⟨files, file, hfiles, -, hholds⟩ := stored_concat.mp h.stored
    have hsound : last.Sound codec := h.sound last (by simp)
    have hne : w.dir.segments ≠ [] := by
      rw [hfiles]
      simp
    have hlast : w.dir.segments.getLast? = some (last.id, file) := by
      rw [hfiles]
      simp
    unfold openWal
    rw [h.metaJson]
    dsimp only
    rw [if_neg hne, scanSegments_stored w.walDir _ h.stored h.sound]
    dsimp only
    rw [hlast]
    dsimp only
    rw [openActive_holds hsound hholds]

end WalPersister

end RollingRaft
