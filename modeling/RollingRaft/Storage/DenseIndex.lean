/-
# RollingRaft.Storage.DenseIndex — the in-memory index of the write-ahead log.

`DenseIndex` is a vector whose slot `i - firstIndex` holds where the record of log index `i` lies;
a slot with segment id `0` is a gap. Read through `get` it is a map from log indices to places:
`put` sets one key, the two truncations clear the keys below or from a bound (`DenseIndex.get_apply`).
Indices and bounds stay below `2 ^ 63` in the code, so its 64-bit sums do not wrap.
-/
import RollingRaft.Lib.Replay
import RollingRaft.Types

namespace RollingRaft

open Lib

/-- `WALIndexEntry`: where a record lies. -/
structure WALIndexEntry where
  segmentId : Nat := 0
  fileOffset : Nat := 0
  length : Nat := 0
  deriving DecidableEq

structure DenseIndex where
  firstIndex : Nat := 0
  entries : List WALIndexEntry := []
  deriving DecidableEq

namespace DenseIndex

/-! ## §1 — The operations. -/

def lastIndex (d : DenseIndex) : Nat :=
  if d.entries = [] then 0 else d.firstIndex + d.entries.length - 1

/-- `Get`: a gap counts as absent. -/
def get (d : DenseIndex) (index : Nat) : Option WALIndexEntry :=
  if d.entries = [] ∨ index < d.firstIndex ∨ d.lastIndex < index then none
  else (d.entries[index - d.firstIndex]?).filter (·.segmentId ≠ 0)

def clear : DenseIndex := {}

/-- `entries_.insert(entries_.begin(), shift, {})`. -/
def extendFront (d : DenseIndex) (index : Nat) : DenseIndex :=
  if index < d.firstIndex then
    { firstIndex := index, entries := List.replicate (d.firstIndex - index) {} ++ d.entries }
  else d

/-- `entries_.resize(entries_.size() + extend)`. -/
def extendBack (d : DenseIndex) (index : Nat) : DenseIndex :=
  if d.lastIndex < index then
    { d with entries := d.entries ++ List.replicate (index - d.lastIndex) {} }
  else d

def put (d : DenseIndex) (index : Nat) (entry : WALIndexEntry) : DenseIndex :=
  if d.entries = [] then { firstIndex := index, entries := [entry] }
  else
    let d := (d.extendFront index).extendBack index
    { d with entries := d.entries.set (index - d.firstIndex) entry }

def truncatePrefix (d : DenseIndex) (beforeIndex : Nat) : DenseIndex :=
  if d.entries = [] ∨ beforeIndex ≤ d.firstIndex then d
  else if d.lastIndex + 1 < beforeIndex then clear
  else if d.entries.length ≤ beforeIndex - d.firstIndex then clear
  else
    { firstIndex := d.firstIndex + (beforeIndex - d.firstIndex)
      entries := d.entries.drop (beforeIndex - d.firstIndex) }

def truncateSuffix (d : DenseIndex) (fromIndex : Nat) : DenseIndex :=
  if d.entries = [] ∨ d.lastIndex + 1 < fromIndex then d
  else if fromIndex ≤ d.firstIndex then clear
  else { d with entries := d.entries.take (fromIndex - d.firstIndex) }

/-! ## §2 — The map they implement. -/

/-- The slot of a log index, gaps included. -/
def slot (d : DenseIndex) (index : Nat) : Option WALIndexEntry :=
  if index < d.firstIndex then none else d.entries[index - d.firstIndex]?

variable (d : DenseIndex) (index : Nat)

/-- The two range checks of `Get` are those of the vector access. -/
theorem get_eq_slot : d.get index = (d.slot index).filter (·.segmentId ≠ 0) := by
  unfold get slot lastIndex
  by_cases hempty : d.entries = []
  · simp [hempty]
  by_cases hlow : index < d.firstIndex
  · simp [hlow]
  simp only [hempty, hlow, if_false, false_or]
  split
  · rw [List.getElem?_eq_none (by omega)]
    rfl
  · rfl

theorem slot_extendFront (j : Nat) :
    ((d.extendFront index).slot j).filter (·.segmentId ≠ 0)
      = (d.slot j).filter (·.segmentId ≠ 0) := by
  unfold extendFront
  split
  · rename_i hlt
    unfold slot
    by_cases hj : j < index
    · simp only [if_pos hj, if_pos (show j < d.firstIndex by omega)]
    simp only [if_neg hj]
    by_cases hgap : j < d.firstIndex
    · rw [List.getElem?_append_left (by rw [List.length_replicate]; omega),
        List.getElem?_replicate_of_lt (by omega), if_pos hgap]
      rfl
    rw [List.getElem?_append_right (by rw [List.length_replicate]; omega), if_neg hgap,
      List.length_replicate]
    congr 2
    omega
  · rfl

theorem slot_extendBack (j : Nat) :
    ((d.extendBack index).slot j).filter (·.segmentId ≠ 0)
      = (d.slot j).filter (·.segmentId ≠ 0) := by
  unfold extendBack
  split
  · unfold slot
    dsimp only
    split
    · rfl
    by_cases hin : j - d.firstIndex < d.entries.length
    · rw [List.getElem?_append_left hin]
    rw [List.getElem?_append_right (by omega), List.getElem?_eq_none (l := d.entries) (by omega)]
    by_cases hgap : j - d.firstIndex - d.entries.length < index - d.lastIndex
    · rw [List.getElem?_replicate_of_lt hgap]
      rfl
    · rw [List.getElem?_eq_none (by rw [List.length_replicate]; omega)]
  · rfl

/-- After both extensions the index has a slot, and the vector ends there if it ended before. -/
theorem extended_window {d : DenseIndex} (hsome : d.entries ≠ []) (index : Nat) :
    let d' := (d.extendFront index).extendBack index
    d'.firstIndex ≤ index ∧ index - d'.firstIndex < d'.entries.length ∧
      d'.firstIndex + d'.entries.length = max (d.firstIndex + d.entries.length) (index + 1) := by
  have hpos : 0 < d.entries.length := List.length_pos_iff.mpr hsome
  obtain ⟨hfirst, hfront, hend⟩ : (d.extendFront index).firstIndex ≤ index ∧
      0 < (d.extendFront index).entries.length ∧
      (d.extendFront index).firstIndex + (d.extendFront index).entries.length
        = d.firstIndex + d.entries.length := by
    unfold extendFront
    split
    · simp only [List.length_append, List.length_replicate]
      omega
    · exact ⟨by omega, hpos, rfl⟩
  have hlast : (d.extendFront index).lastIndex
      = (d.extendFront index).firstIndex + (d.extendFront index).entries.length - 1 := by
    rw [lastIndex, if_neg (List.length_pos_iff.mp hfront)]
  unfold extendBack
  split
  · simp only [List.length_append, List.length_replicate]
    omega
  · omega

theorem get_put (entry : WALIndexEntry) (j : Nat) :
    (d.put index entry).get j
      = if j = index then (some entry).filter (·.segmentId ≠ 0) else d.get j := by
  rw [get_eq_slot, get_eq_slot]
  unfold put
  by_cases hempty : d.entries = []
  · rw [if_pos hempty]
    unfold slot
    by_cases hj : j = index
    · subst hj
      simp
    simp only [if_neg hj, hempty, List.getElem?_nil, ite_self, Option.filter_none]
    split
    · rfl
    rw [List.getElem?_eq_none (by simp only [List.length_singleton]; omega)]
    rfl
  · rw [if_neg hempty]
    obtain ⟨hfirst, hcover, -⟩ := extended_window hempty index
    rw [← slot_extendFront d index j, ← slot_extendBack (d.extendFront index) index j]
    generalize (d.extendFront index).extendBack index = d' at hfirst hcover ⊢
    unfold slot
    dsimp only
    by_cases hj : j = index
    · subst hj
      simp only [if_neg (show ¬ j < d'.firstIndex by omega), if_true]
      rw [List.getElem?_set_self hcover]
    rw [if_neg hj]
    split
    · rfl
    · rw [List.getElem?_set_ne (by omega)]

theorem get_truncatePrefix (beforeIndex j : Nat) :
    (d.truncatePrefix beforeIndex).get j = if j < beforeIndex then none else d.get j := by
  rw [get_eq_slot, get_eq_slot]
  unfold truncatePrefix
  by_cases hkeep : d.entries = [] ∨ beforeIndex ≤ d.firstIndex
  · rw [if_pos hkeep]
    split
    · unfold slot
      rcases hkeep with hempty | hle
      · simp [hempty]
      · rw [if_pos (by omega)]
        rfl
    · rfl
  · rw [if_neg hkeep]
    obtain ⟨hempty, hlt⟩ := not_or.mp hkeep
    have hlast : d.lastIndex = d.firstIndex + d.entries.length - 1 := by
      rw [lastIndex, if_neg hempty]
    -- both ways of clearing mean that every slot lies below the bound
    have hclear : d.entries.length ≤ beforeIndex - d.firstIndex →
        Option.filter (fun e => decide (e.segmentId ≠ 0)) (clear.slot j)
          = if j < beforeIndex then none
            else Option.filter (fun e => decide (e.segmentId ≠ 0)) (d.slot j) := by
      intro hle
      have hnone : clear.slot j = none := by simp [clear, slot]
      rw [hnone]
      split
      · rfl
      unfold slot
      rw [if_neg (by omega), List.getElem?_eq_none (by omega)]
    split
    · exact hclear (by omega)
    split
    · rename_i hle
      exact hclear hle
    unfold slot
    by_cases hj : j < beforeIndex
    · simp only [if_pos hj, if_pos (show j < d.firstIndex + (beforeIndex - d.firstIndex) by omega)]
      rfl
    simp only [if_neg hj, if_neg (show ¬ j < d.firstIndex + (beforeIndex - d.firstIndex) by omega),
      if_neg (show ¬ j < d.firstIndex by omega)]
    rw [List.getElem?_drop]
    congr 2
    omega

theorem get_truncateSuffix (fromIndex j : Nat) :
    (d.truncateSuffix fromIndex).get j = if fromIndex ≤ j then none else d.get j := by
  rw [get_eq_slot, get_eq_slot]
  unfold truncateSuffix
  by_cases hkeep : d.entries = [] ∨ d.lastIndex + 1 < fromIndex
  · rw [if_pos hkeep]
    split
    · unfold slot
      rcases hkeep with hempty | hlt
      · simp [hempty]
      · have hle : d.firstIndex + d.entries.length ≤ d.lastIndex + 1 ∨ d.entries = [] := by
          unfold lastIndex
          split
          · exact .inr ‹_›
          · exact .inl (by omega)
        rcases hle with hle | hempty
        · split
          · rfl
          · rw [List.getElem?_eq_none (by omega)]
            rfl
        · simp [hempty]
    · rfl
  · rw [if_neg hkeep]
    split
    · have hnone : clear.slot j = none := by simp [clear, slot]
      rw [hnone]
      split
      · rfl
      unfold slot
      rw [if_pos (by omega)]
    · unfold slot
      dsimp only
      split
      · split <;> rfl
      by_cases hj : fromIndex ≤ j
      · rw [if_pos hj, List.getElem?_eq_none (by rw [List.length_take]; omega)]
        rfl
      · rw [if_neg hj, List.getElem?_take_of_lt (by omega)]

/-! ## §3 — Effects of records. -/

/-- What a record of the log does to the index. -/
inductive Effect where
  | put (index : Nat) (entry : WALIndexEntry)
  | truncatePrefix (beforeIndex : Nat)
  | truncateSuffix (fromIndex : Nat)
  /-- A record of a type the index does not know. -/
  | nothing
  deriving DecidableEq

def apply (d : DenseIndex) : Effect → DenseIndex
  | .put index entry => d.put index entry
  | .truncatePrefix beforeIndex => d.truncatePrefix beforeIndex
  | .truncateSuffix fromIndex => d.truncateSuffix fromIndex
  | .nothing => d

def applyAll (d : DenseIndex) (effects : List Effect) : DenseIndex := effects.foldl apply d

@[simp] theorem applyAll_nil : d.applyAll [] = d := rfl

@[simp] theorem applyAll_cons (e : Effect) (effects : List Effect) :
    d.applyAll (e :: effects) = (d.apply e).applyAll effects := rfl

theorem applyAll_append (effects effects' : List Effect) :
    d.applyAll (effects ++ effects') = (d.applyAll effects).applyAll effects' := List.foldl_append

theorem mem_extended {d : DenseIndex} {index : Nat} {x : WALIndexEntry}
    (hx : x ∈ ((d.extendFront index).extendBack index).entries) : x ∈ d.entries ∨ x = {} := by
  have hfront : x ∈ (d.extendFront index).entries → x ∈ d.entries ∨ x = {} := by
    unfold extendFront
    split
    · intro hx
      exact (List.mem_append.mp hx).elim (fun hgap => .inr (List.eq_of_mem_replicate hgap)) .inl
    · exact .inl
  unfold extendBack at hx
  split at hx
  · exact (List.mem_append.mp hx).elim hfront fun hgap => .inr (List.eq_of_mem_replicate hgap)
  · exact hfront hx

theorem mem_apply {d : DenseIndex} {e : Effect} {x : WALIndexEntry}
    (hx : x ∈ (d.apply e).entries) : x ∈ d.entries ∨ x = {} ∨ ∃ i, e = .put i x := by
  cases e with
  | put index entry =>
    rw [apply, put] at hx
    split at hx
    · rw [List.mem_singleton.mp hx]
      exact .inr (.inr ⟨index, rfl⟩)
    rcases List.mem_or_eq_of_mem_set hx with hx | rfl
    · exact (mem_extended hx).imp_right .inl
    · exact .inr (.inr ⟨index, rfl⟩)
  | truncatePrefix beforeIndex =>
    rw [apply, truncatePrefix] at hx
    split at hx
    · exact .inl hx
    split at hx
    · cases hx
    split at hx
    · cases hx
    · exact .inl (List.mem_of_mem_drop hx)
  | truncateSuffix fromIndex =>
    rw [apply, truncateSuffix] at hx
    split at hx
    · exact .inl hx
    split at hx
    · cases hx
    · exact .inl (List.mem_of_mem_take hx)
  | nothing => exact .inl hx

theorem end_apply {d : DenseIndex} {e : Effect} {bound : Nat}
    (hput : ∀ i x, e = .put i x → i < bound) (h : d.firstIndex + d.entries.length ≤ bound) :
    (d.apply e).firstIndex + (d.apply e).entries.length ≤ bound := by
  cases e with
  | put index entry =>
    have hindex : index < bound := hput index entry rfl
    rw [apply, put]
    split
    · exact hindex
    obtain ⟨-, -, hend⟩ := extended_window ‹_› index
    rw [List.length_set, hend]
    omega
  | truncatePrefix beforeIndex =>
    rw [apply, truncatePrefix]
    split
    · exact h
    split
    · exact Nat.zero_le _
    split
    · exact Nat.zero_le _
    · simp only [List.length_drop]
      omega
  | truncateSuffix fromIndex =>
    rw [apply, truncateSuffix]
    split
    · exact h
    split
    · exact Nat.zero_le _
    · simp only [List.length_take]
      omega
  | nothing => exact h

/-- The same effect on the map: it touches one key, or all keys on one side of a bound. -/
def Effect.update : Effect → Update Nat WALIndexEntry
  | .put index entry => fun j =>
    if j = index then some ((some entry).filter (·.segmentId ≠ 0)) else none
  | .truncatePrefix beforeIndex => fun j => if j < beforeIndex then some none else none
  | .truncateSuffix fromIndex => fun j => if fromIndex ≤ j then some none else none
  | .nothing => fun _ => none

theorem get_apply (e : Effect) : (d.apply e).get = e.update.apply d.get := by
  funext j
  cases e with
  | put index entry =>
    rw [apply, get_put]
    simp only [Update.apply, Effect.update]
    split <;> rfl
  | truncatePrefix beforeIndex =>
    rw [apply, get_truncatePrefix]
    simp only [Update.apply, Effect.update]
    split <;> rfl
  | truncateSuffix fromIndex =>
    rw [apply, get_truncateSuffix]
    simp only [Update.apply, Effect.update]
    split <;> rfl
  | nothing => rfl

/-- The index, read as a map, is the replay of the effects. -/
theorem get_applyAll (effects : List Effect) :
    (d.applyAll effects).get = Update.replay (effects.map Effect.update) d.get := by
  induction effects generalizing d with
  | nil => rfl
  | cons e effects ih =>
    rw [applyAll_cons, ih, get_apply, List.map_cons, Update.replay_cons]

theorem put_or_get {d : DenseIndex} {effects : List Effect} {i : Nat} {place : WALIndexEntry}
    (h : (d.applyAll effects).get i = some place) :
    Effect.put i place ∈ effects ∨ d.get i = some place := by
  induction effects generalizing d with
  | nil => exact .inr h
  | cons e effects ih =>
    rw [applyAll_cons] at h
    rcases ih h with hput | hget
    · exact .inl (List.mem_cons_of_mem e hput)
    · cases e with
      | put index entry =>
        rw [apply, get_put] at hget
        split at hget
        · rename_i hi
          obtain ⟨hentry, -⟩ := Option.filter_eq_some_iff.mp hget
          rw [hi, Option.some.inj hentry]
          exact .inl List.mem_cons_self
        · exact .inr hget
      | truncatePrefix beforeIndex =>
        rw [apply, get_truncatePrefix] at hget
        split at hget
        · cases hget
        · exact .inr hget
      | truncateSuffix fromIndex =>
        rw [apply, get_truncateSuffix] at hget
        split at hget
        · cases hget
        · exact .inr hget
      | nothing => exact .inr hget

theorem get_applyAll_congr {d d' : DenseIndex} (h : d.get = d'.get) (effects : List Effect) :
    (d.applyAll effects).get = (d'.applyAll effects).get := by
  rw [get_applyAll, get_applyAll, h]

theorem get_applyAll_over_part (done rest : List Effect) :
    ((d.applyAll done).applyAll (done ++ rest)).get = (d.applyAll (done ++ rest)).get := by
  rw [get_applyAll, get_applyAll, get_applyAll, List.map_append, Update.replay_over_part]

/-! ## §4 — The index refines a partial map. -/

/-- The effect on a partial map: an insertion, or the removal of all keys on one side of a bound. -/
def Effect.onMap (m : Nat → Option WALIndexEntry) : Effect → Nat → Option WALIndexEntry
  | .put index entry => Function.update m index (some entry)
  | .truncatePrefix beforeIndex => fun j => if j < beforeIndex then none else m j
  | .truncateSuffix fromIndex => fun j => if fromIndex ≤ j then none else m j
  | .nothing => m

/-- What is put is not a gap, and no argument reaches `2 ^ 63`. -/
def Effect.Admissible : Effect → Prop
  | .put index entry => entry.segmentId ≠ 0 ∧ index < 2 ^ 63
  | .truncatePrefix index | .truncateSuffix index => index < 2 ^ 63
  | .nothing => True

theorem get_apply_eq_onMap {d : DenseIndex} {e : Effect} (he : e.Admissible) :
    (d.apply e).get = e.onMap d.get := by
  funext j
  cases e with
  | put index entry =>
    rw [apply, get_put, Option.filter_some_pos (by simpa using he.1), Effect.onMap,
      Function.update_apply]
  | truncatePrefix beforeIndex => exact get_truncatePrefix d beforeIndex j
  | truncateSuffix fromIndex => exact get_truncateSuffix d fromIndex j
  | nothing => rfl

theorem bounds_of_get {d : DenseIndex} {j : Nat} {place : WALIndexEntry}
    (h : d.get j = some place) : d.firstIndex ≤ j ∧ j ≤ d.lastIndex := by
  unfold get at h
  split at h
  · cases h
  · omega

/-- **`DenseIndex` is a partial map** after any operations, within its bounds, and no sum of the
code leaves the 64 bits. -/
theorem get_eq_map (effects : List Effect) (h : ∀ e ∈ effects, e.Admissible) :
    let d := ({} : DenseIndex).applyAll effects
    d.get = effects.foldl Effect.onMap (fun _ => none) ∧
      (∀ j, d.get j ≠ none → d.firstIndex ≤ j ∧ j ≤ d.lastIndex) ∧
      d.firstIndex + d.entries.length ≤ 2 ^ 63 := by
  have hrun : ∀ d : DenseIndex, d.firstIndex + d.entries.length ≤ 2 ^ 63 →
      (d.applyAll effects).get = effects.foldl Effect.onMap d.get ∧
        (d.applyAll effects).firstIndex + (d.applyAll effects).entries.length ≤ 2 ^ 63 := by
    induction effects with
    | nil => exact fun d hd => ⟨rfl, hd⟩
    | cons e effects ih =>
      intro d hd
      have he := h e List.mem_cons_self
      rw [applyAll_cons, List.foldl_cons, ← get_apply_eq_onMap he]
      refine ih (fun e' he' => h e' (List.mem_cons_of_mem e he')) _ (end_apply ?_ hd)
      rintro i x rfl
      exact he.2
  obtain ⟨hget, hend⟩ := hrun {} (Nat.zero_le _)
  refine ⟨hget, fun j hj => ?_, hend⟩
  obtain ⟨place, hplace⟩ := Option.ne_none_iff_exists'.mp hj
  exact bounds_of_get hplace

/-- Records 5 and 3 are put and the suffix from 4 on is cut off. -/
theorem get_eq_map_gap :
    (({} : DenseIndex).applyAll [.put 5 ⟨1, 0, 9⟩, .put 3 ⟨1, 9, 9⟩, .truncateSuffix 4]).get =
      [Effect.put 5 ⟨1, 0, 9⟩, .put 3 ⟨1, 9, 9⟩, .truncateSuffix 4].foldl Effect.onMap
        fun _ => none := by
  refine (get_eq_map _ ?_).1
  simp [Effect.Admissible]

end DenseIndex

end RollingRaft
