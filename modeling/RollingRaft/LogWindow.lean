/-
# RollingRaft.LogWindow — the in-memory log as a partial map from indices to entries.

`RaftLog` keeps a vector and the logical index of its first slot. Seen from outside it is a map:
`Append` binds the index it returns, `TruncateSuffix` forgets the indices from its argument on,
`SetStartIndex` forgets all of them. `Window` runs the two side by side. As long as start indices
are positive and indices stay below `2 ^ 32 - 1`, the 32-bit ends of the window do not wrap, and
what the vector answers is what the map holds. The bytes counted along the way are those of the
entries that are left.
-/
import RollingRaft.Lib.Accounting
import RollingRaft.Lib.Transition
import RollingRaft.RaftLog

namespace RollingRaft

open Lib

/-- `EstimateEntryBytes`: the two 32-bit numbers and the payload. -/
def LogEntry.estimateBytes (e : LogEntry) : Nat := 4 + 4 + e.data.length

/-- The log with its byte count, and the map it stands for. -/
structure Window where
  log : RaftLog := {}
  estimatedBytes : Nat := 0
  appended : Index → Option LogEntry := fun _ => none

inductive LogOp where
  | append (term : Term) (data : Bytes)
  | truncateSuffix (fromIndex : Index)
  | setStartIndex (index : Index)

namespace Window

/-! ## §1 — The operations. -/

/-- `Append`; the map binds the index that is returned. -/
def append (w : Window) (term : Term) (data : Bytes) : Window :=
  let e : LogEntry := ⟨w.log.newIndex, term, data⟩
  { log := (w.log.append term data).1
    estimatedBytes := w.estimatedBytes + e.estimateBytes
    appended := Function.update w.appended (w.log.append term data).2 (some e) }

/-- `TruncateSuffix`: the entries cut off are taken from the back one by one, and each takes its
bytes with it. -/
def truncateSuffix (w : Window) (fromIndex : Index) : Window :=
  { log := w.log.truncateSuffix fromIndex
    estimatedBytes :=
      if w.log.startIndex + w.log.entries.length < fromIndex then w.estimatedBytes
      else if fromIndex ≤ w.log.startIndex then 0
      else (w.log.entries.drop (fromIndex - w.log.startIndex)).foldr
        (fun e bytes => bytes - e.estimateBytes) w.estimatedBytes
    appended := fun i => if i < fromIndex then w.appended i else none }

def setStartIndex (w : Window) (index : Index) : Window :=
  { log := w.log.setStartIndex index, estimatedBytes := 0, appended := fun _ => none }

/-- One operation. Start indices are at least 1, and no index reaches `2 ^ 32 - 1`. -/
def next (w : Window) : LogOp → Option Window
  | .append term data =>
    if w.log.newIndex < 2 ^ 32 - 1 then some (w.append term data) else none
  | .truncateSuffix fromIndex =>
    if fromIndex < 2 ^ 32 - 1 then some (w.truncateSuffix fromIndex) else none
  | .setStartIndex index =>
    if 1 ≤ index ∧ index < 2 ^ 32 - 1 then some (w.setStartIndex index) else none

def system : TransitionSystem Window LogOp where
  init w := w = {}
  next := next

end Window

/-! ## §2 — Reading a window whose entries carry the indices of their slots. -/

namespace RaftLog

variable {l : RaftLog} {i : Index} {e : LogEntry}

theorem Contiguous.getEntry_eq_some (h : l.Contiguous) :
    l.getEntry i = some e ↔ e ∈ l.entries ∧ e.index = i := by
  obtain ⟨-, hfits, hindex⟩ := h
  constructor
  · intro hget
    obtain ⟨hstart, hslot⟩ := hasAt_of_getEntry hget
    exact ⟨List.mem_of_getElem? hslot, (hindex _ e hslot).trans (Nat.add_sub_of_le hstart)⟩
  · rintro ⟨hmem, rfl⟩
    obtain ⟨k, hk⟩ := List.mem_iff_getElem?.mp hmem
    obtain ⟨hlt, -⟩ := List.getElem?_eq_some_iff.mp hk
    unfold getEntry isInRange
    rw [hindex k e hk, add32_of_lt hfits, Nat.add_sub_cancel_left, hk]
    simp [hlt]

theorem Contiguous.getEntries (h : l.Contiguous) (a b : Index) :
    l.getEntries a b = l.entries.filter fun e => a ≤ e.index && e.index < b := by
  obtain ⟨-, hfits, hindex⟩ := h
  rw [filter_of_numbered a b hindex]
  unfold RaftLog.getEntries
  rw [add32_of_lt hfits]
  exact take_clamped a b l.startIndex l.entries

theorem truncateSuffix_entries (l : RaftLog) (j : Index) :
    (l.truncateSuffix j).entries = l.entries.take (j - l.startIndex) := by
  unfold RaftLog.truncateSuffix
  split
  · rename_i hbeyond
    exact (List.take_of_length_le (Nat.le_sub_of_add_le' hbeyond.le)).symm
  split
  · rename_i hle
    rw [Nat.sub_eq_zero_of_le hle, List.take_zero]
  · rfl

end RaftLog

/-! ## §3 — Runs. -/

namespace Window

/-- The vector holds what the map holds, and the count is that of its entries. -/
structure Sound (w : Window) : Prop where
  contiguous : w.log.Contiguous
  entry : ∀ i e, w.appended i = some e ↔ e ∈ w.log.entries ∧ e.index = i
  bytes : w.estimatedBytes = (w.log.entries.map LogEntry.estimateBytes).sum

variable {w w' : Window}

theorem Sound.empty {start : Index} (hpos : 1 ≤ start) (hlt : start < 2 ^ 32) :
    Sound { log := { entries := [], startIndex := start } } :=
  ⟨⟨hpos, hlt, by simp⟩, by simp, rfl⟩

theorem Sound.append (h : w.Sound) (hroom : w.log.newIndex < 2 ^ 32 - 1) (term : Term)
    (data : Bytes) : (w.append term data).Sound := by
  have hend := h.contiguous.newIndex
  refine ⟨h.contiguous.append rfl ?_, fun i e => ?_, ?_⟩
  · rw [← Nat.add_assoc, ← hend]
    exact Nat.add_lt_of_lt_sub hroom
  · show Function.update w.appended w.log.newIndex (some _) i = some e ↔
      e ∈ w.log.entries ++ [_] ∧ e.index = i
    rw [List.mem_append, List.mem_singleton]
    by_cases hi : i = w.log.newIndex
    · rw [hi, Function.update_self, Option.some.injEq]
      constructor
      · rintro rfl
        exact ⟨.inr rfl, rfl⟩
      · rintro ⟨hmem | rfl, hindex⟩
        · -- the entries stored before have smaller indices
          obtain ⟨k, hk⟩ := List.mem_iff_getElem?.mp hmem
          obtain ⟨hlt, -⟩ := List.getElem?_eq_some_iff.mp hk
          rw [h.contiguous.2.2 k e hk, hend] at hindex
          exact absurd (Nat.add_left_cancel hindex) hlt.ne
        · rfl
    · rw [Function.update_of_ne hi, h.entry]
      refine and_congr_left ?_
      rintro rfl
      refine (or_iff_left ?_).symm
      rintro rfl
      exact hi rfl
  · show w.estimatedBytes + _ = ((w.log.entries ++ [_]).map LogEntry.estimateBytes).sum
    rw [h.bytes, List.map_append, List.sum_append]
    rfl

theorem foldr_sub_bytes (base : Nat) (es : List LogEntry) :
    es.foldr (fun e bytes => bytes - e.estimateBytes)
      (base + (es.map LogEntry.estimateBytes).sum) = base := by
  induction es generalizing base with
  | nil => rfl
  | cons e es ih =>
    rw [List.foldr_cons, List.map_cons, List.sum_cons, ← Nat.add_assoc, ih, Nat.add_sub_cancel]

theorem Sound.truncateSuffix (h : w.Sound) (j : Index) : (w.truncateSuffix j).Sound := by
  have hleft := w.log.truncateSuffix_entries j
  refine ⟨h.contiguous.truncateSuffix j, fun i e => ?_, ?_⟩
  · show (if i < j then w.appended i else none) = some e ↔
      e ∈ (w.log.truncateSuffix j).entries ∧ e.index = i
    -- what is left are the entries below `j`
    have hbelow := filter_of_numbered 0 j h.contiguous.2.2
    rw [Nat.zero_sub, List.drop_zero, Nat.zero_max] at hbelow
    rw [hleft, ← hbelow, List.mem_filter, Option.ite_none_right_eq_some, h.entry]
    simp only [Nat.zero_le, decide_true, Bool.true_and, decide_eq_true_eq]
    constructor
    · rintro ⟨hlt, hmem, rfl⟩
      exact ⟨⟨hmem, hlt⟩, rfl⟩
    · rintro ⟨⟨hmem, hlt⟩, rfl⟩
      exact ⟨hlt, hmem, rfl⟩
  · show (if _ then _ else _) = ((w.log.truncateSuffix j).entries.map LogEntry.estimateBytes).sum
    have hsplit := congrArg (fun es => (es.map LogEntry.estimateBytes).sum)
      (List.take_append_drop (j - w.log.startIndex) w.log.entries)
    simp only [List.map_append, List.sum_append] at hsplit
    unfold RaftLog.truncateSuffix
    split
    · exact h.bytes
    split
    · rfl
    · rw [h.bytes, ← hsplit]
      exact foldr_sub_bytes _ _

theorem Sound.next {op : LogOp} (h : w.Sound) (hn : w.next op = some w') : w'.Sound := by
  cases op with
  | append term data =>
    obtain ⟨hroom, heq⟩ := Option.ite_none_right_eq_some.mp hn
    cases heq
    exact h.append hroom term data
  | truncateSuffix fromIndex =>
    obtain ⟨-, heq⟩ := Option.ite_none_right_eq_some.mp hn
    cases heq
    exact h.truncateSuffix fromIndex
  | setStartIndex index =>
    obtain ⟨⟨hpos, hlt⟩, heq⟩ := Option.ite_none_right_eq_some.mp hn
    cases heq
    exact .empty hpos (hlt.trans_le (Nat.sub_le _ _))

/-- **The vector answers as the map does**, after every sequence of operations: slot `k` holds the
entry of index `start + k`, a lookup finds the entry appended last at an index and not truncated
since, a range holds the stored entries of its indices in order, and the bytes are counted. -/
theorem answers_as_map (w : Window) (h : system.Reachable w) :
    (∀ k e, w.log.entries[k]? = some e → e.index = w.log.startIndex + k) ∧
      (∀ i, w.log.getEntry i = w.appended i) ∧
      (∀ i, w.log.getLogTerm i = ((w.appended i).map LogEntry.term).getD 0) ∧
      (∀ a b, w.log.getEntries a b =
        w.log.entries.filter fun e => a ≤ e.index && e.index < b) ∧
      w.estimatedBytes = (w.log.entries.map LogEntry.estimateBytes).sum := by
  have hsound : w.Sound := by
    refine h.invariant ?_ fun s op s' hs _ hn => hs.next hn
    rintro w rfl
    exact .empty le_rfl (by decide)
  have hentry : ∀ i, w.log.getEntry i = w.appended i := by
    intro i
    apply Option.ext
    intro e
    rw [hsound.contiguous.getEntry_eq_some, hsound.entry]
  refine ⟨hsound.contiguous.2.2, hentry, fun i => ?_, hsound.contiguous.getEntries, hsound.bytes⟩
  rw [← hentry]
  unfold RaftLog.getLogTerm
  split
  · rename_i hzero
    -- start indices are positive, so nothing is stored at 0
    have hout : w.log.isInRange i = false := by
      simp [RaftLog.isInRange, hzero, Nat.ne_of_gt hsound.contiguous.1]
    unfold RaftLog.getEntry
    rw [hout]
    rfl
  · cases w.log.getEntry i <;> rfl

/-- Two entries, the second replaced after a truncation. -/
theorem answers_as_map_replaced : ∃ w, system.Reachable w ∧
    w.log.getEntry 2 = some ⟨2, 3, [7]⟩ ∧ w.log.getEntry 2 = w.appended 2 := by
  obtain ⟨w, hreach, hentry⟩ := system.reaches
    [.append 1 [5], .append 1 [6], .truncateSuffix 2, .append 3 [7]] rfl
    (P := fun w => w.log.getEntry 2 = some ⟨2, 3, [7]⟩) (by decide)
  exact ⟨w, hreach, hentry, (answers_as_map w hreach).2.1 2⟩

end Window

end RollingRaft
