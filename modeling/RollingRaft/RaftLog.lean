/-
# RollingRaft.RaftLog — the in-memory log (`raft_log.cpp`).

A window of entries whose first physical slot holds logical index `startIndex`. The functions do
not check that the entries stored carry consecutive indices: `AppendLogEntry` stores what it is
given. `Contiguous` says that they do.
-/
import RollingRaft.Types

namespace RollingRaft

/-- `RaftLog`: the entries kept in memory and the logical index of the first slot. -/
structure RaftLog where
  entries : List LogEntry := []
  startIndex : Index := 1
  deriving DecidableEq

namespace RaftLog

/-- `GetLastLogInfo`: `(0, 0)` when no entry is kept. -/
def getLastLogInfo (l : RaftLog) : Index × Term :=
  match l.entries.getLast? with
  | none => (0, 0)
  | some e => (e.index, e.term)

/-- The index `Append` gives to a new entry. -/
def newIndex (l : RaftLog) : Index :=
  if l.getLastLogInfo.1 = 0 then l.startIndex else add32 l.getLastLogInfo.1 1

/-- `Append`: the new log and the index of the new entry. -/
def append (l : RaftLog) (term : Term) (data : Lib.Bytes) : RaftLog × Index :=
  ({ l with entries := l.entries ++ [⟨l.newIndex, term, data⟩] }, l.newIndex)

def appendLogEntry (l : RaftLog) (e : LogEntry) : RaftLog := { l with entries := l.entries ++ [e] }

/-- `IsInRange`: the end of the window is computed in 32 bits. -/
def isInRange (l : RaftLog) (i : Index) : Bool :=
  l.startIndex ≤ i && i < add32 l.startIndex l.entries.length

def getEntry (l : RaftLog) (i : Index) : Option LogEntry :=
  if l.isInRange i then l.entries[i - l.startIndex]? else none

/-- `GetEntries`: the entries of `[first, last)`, clamped to the window. -/
def getEntries (l : RaftLog) (first last : Index) : List LogEntry :=
  if last ≤ first || l.entries.isEmpty then []
  else
    let actualStart := max first l.startIndex
    let actualEnd := min last (add32 l.startIndex l.entries.length)
    if actualEnd ≤ actualStart then []
    else (l.entries.drop (actualStart - l.startIndex)).take (actualEnd - actualStart)

/-- `GetLogTerm`: `0` for index `0` and for an index outside the window. -/
def getLogTerm (l : RaftLog) (i : Index) : Term :=
  if i = 0 then 0
  else
    match l.getEntry i with
    | none => 0
    | some e => e.term

/-- `TruncateSuffix`: the comparison with the end of the window is a 64-bit one. -/
def truncateSuffix (l : RaftLog) (fromIndex : Index) : RaftLog :=
  if l.startIndex + l.entries.length < fromIndex then l
  else if fromIndex ≤ l.startIndex then { l with entries := [] }
  else { l with entries := l.entries.take (fromIndex - l.startIndex) }

def setStartIndex (_l : RaftLog) (index : Index) : RaftLog := { entries := [], startIndex := index }

/-- The entries carry the indices of their slots and the window stays below `2 ^ 32`. -/
def Contiguous (l : RaftLog) : Prop :=
  0 < l.startIndex ∧ l.startIndex + l.entries.length < 2 ^ 32 ∧
    ∀ k e, l.entries[k]? = some e → e.index = l.startIndex + k

/-- What the slot of an index holds. -/
def slot (l : RaftLog) (i : Index) : Option LogEntry := l.entries[i - l.startIndex]?

/-- The slot of index `i` holds `e`. -/
def HasAt (l : RaftLog) (i : Index) (e : LogEntry) : Prop :=
  l.startIndex ≤ i ∧ l.entries[i - l.startIndex]? = some e

/-- `l'` is `l` with more entries at its end. -/
def Extends (l l' : RaftLog) : Prop :=
  l'.startIndex = l.startIndex ∧ ∃ more, l'.entries = l.entries ++ more

variable {l l' l'' : RaftLog} {i j : Index} {e e' : LogEntry}

theorem hasAt_of_getEntry (h : l.getEntry i = some e) : l.HasAt i e := by
  unfold getEntry isInRange at h
  split at h
  · rename_i hrange
    exact ⟨by simpa using (Bool.and_eq_true_iff.mp hrange).1, h⟩
  · cases h

theorem HasAt.unique (h : l.HasAt i e) (h' : l.HasAt i e') : e' = e :=
  Option.some.inj (h'.2.symm.trans h.2)

theorem Extends.refl (l : RaftLog) : Extends l l := ⟨rfl, [], (List.append_nil _).symm⟩

theorem Extends.trans (h : Extends l l') (h' : Extends l' l'') : Extends l l'' := by
  obtain ⟨hstart, more, hmore⟩ := h
  obtain ⟨hstart', more', hmore'⟩ := h'
  exact ⟨hstart'.trans hstart, more ++ more', by rw [hmore', hmore, List.append_assoc]⟩

theorem Extends.slot (h : Extends l l') (he : l.slot i = some e) : l'.slot i = some e := by
  obtain ⟨hstart, more, hmore⟩ := h
  unfold RaftLog.slot at he ⊢
  rw [hstart, hmore]
  obtain ⟨hlt, -⟩ := List.getElem?_eq_some_iff.mp he
  rw [List.getElem?_append_left hlt]
  exact he

theorem HasAt.extends (h : l.HasAt i e) (hl : l.Extends l') : l'.HasAt i e :=
  ⟨hl.1.trans_le h.1, hl.slot h.2⟩

theorem HasAt.append (h : l.HasAt i e) (es : List LogEntry) :
    ({ l with entries := l.entries ++ es } : RaftLog).HasAt i e := h.extends ⟨rfl, es, rfl⟩

theorem HasAt.truncate (h : l.HasAt i e) (hj : i < j) : (l.truncateSuffix j).HasAt i e := by
  obtain ⟨hle, hslot⟩ := h
  unfold truncateSuffix
  split
  · exact ⟨hle, hslot⟩
  split
  · rename_i hstart
    exact absurd (hle.trans_lt hj) (not_lt.mpr hstart)
  refine ⟨hle, ?_⟩
  show (l.entries.take (j - l.startIndex))[i - l.startIndex]? = some e
  rw [List.getElem?_take_of_lt (Nat.sub_lt_sub_right hle hj)]
  exact hslot

theorem slot_appendLogEntry_end (l : RaftLog) (e : LogEntry) :
    (l.appendLogEntry e).slot (l.startIndex + l.entries.length) = some e := by
  show (l.entries ++ [e])[l.startIndex + l.entries.length - l.startIndex]? = some e
  rw [Nat.add_sub_cancel_left]
  exact List.getElem?_concat_length

theorem slot_appendLogEntry_of_lt (e : LogEntry) (hstart : l.startIndex ≤ j)
    (hlt : j < l.startIndex + l.entries.length) : (l.appendLogEntry e).slot j = l.slot j := by
  show (l.entries ++ [e])[j - l.startIndex]? = l.entries[j - l.startIndex]?
  exact List.getElem?_append_left (Nat.sub_lt_left_of_lt_add hstart hlt)

/-! ## Contiguous logs. -/

theorem Contiguous.getLast (h : l.Contiguous) (hlast : l.entries.getLast? = some e) :
    e.index + 1 = l.startIndex + l.entries.length := by
  rw [List.getLast?_eq_getElem?] at hlast
  have hlt := (List.getElem?_eq_some_iff.mp hlast).1
  rw [h.2.2 _ e hlast, Nat.add_assoc, Nat.sub_add_cancel (Nat.one_le_of_lt hlt)]

theorem Contiguous.newIndex (h : l.Contiguous) :
    l.newIndex = l.startIndex + l.entries.length := by
  unfold RaftLog.newIndex getLastLogInfo
  cases hlast : l.entries.getLast? with
  | none =>
    rw [List.getLast?_eq_none_iff] at hlast
    rw [hlast]
    rfl
  | some e =>
    have hnext := h.getLast hlast
    have hne : e.index ≠ 0 := by
      rw [List.getLast?_eq_getElem?] at hlast
      rw [h.2.2 _ e hlast]
      exact Nat.ne_of_gt (Nat.add_pos_left h.1 _)
    show (if e.index = 0 then l.startIndex else add32 e.index 1) = _
    rw [if_neg hne, add32_of_lt (hnext.trans_lt h.2.1), hnext]

theorem Contiguous.append (h : l.Contiguous) (he : e.index = l.newIndex)
    (hroom : l.startIndex + (l.entries.length + 1) < 2 ^ 32) : (l.appendLogEntry e).Contiguous := by
  refine ⟨h.1, by simpa [appendLogEntry] using hroom, ?_⟩
  intro k e' hk
  have hk : (l.entries ++ [e])[k]? = some e' := hk
  rcases Nat.lt_trichotomy k l.entries.length with hlt | rfl | hgt
  · rw [List.getElem?_append_left hlt] at hk
    exact h.2.2 k e' hk
  · rw [List.getElem?_concat_length] at hk
    cases hk
    exact he.trans h.newIndex
  · rw [List.getElem?_eq_none (by rw [List.length_append]; exact hgt)] at hk
    cases hk

theorem Contiguous.hasAt (h : l.Contiguous) (he : e.index = l.newIndex) :
    (l.appendLogEntry e).HasAt e.index e := by
  rw [he.trans h.newIndex]
  exact ⟨Nat.le_add_right _ _, slot_appendLogEntry_end l e⟩

theorem Contiguous.lastIndex_lt (h : l.Contiguous) :
    l.getLastLogInfo.1 < l.startIndex + l.entries.length := by
  unfold getLastLogInfo
  cases hlast : l.entries.getLast? with
  | none => exact Nat.add_pos_left h.1 _
  | some e => exact (h.getLast hlast).le

theorem Contiguous.truncateSuffix (h : l.Contiguous) (i : Index) :
    (l.truncateSuffix i).Contiguous := by
  obtain ⟨hpos, hfits, hindex⟩ := h
  unfold RaftLog.truncateSuffix
  split
  · exact ⟨hpos, hfits, hindex⟩
  split
  · exact ⟨hpos, lt_of_le_of_lt (Nat.add_le_add_left (Nat.zero_le _) _) hfits, by simp⟩
  refine ⟨hpos, lt_of_le_of_lt (Nat.add_le_add_left (List.length_take_le' _ _) _) hfits, ?_⟩
  intro k e hk
  rw [List.getElem?_take] at hk
  split at hk
  · exact hindex k e hk
  · cases hk

end RaftLog

end RollingRaft
