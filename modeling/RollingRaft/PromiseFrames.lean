/-
# RollingRaft.PromiseFrames — callbacks that point into the stack of a call that waits.

`ProposeAndWaitLocked` and the read-only path of `HandleClientRequest` wait for a promise on their
stack, and the callback they leave in `pending_proposals_` or `pending_reads_` has a reference to it.
It is called after it was moved out of its map: into a task of the apply queue, a timer, or a local
of `OnLogEntryPersisted`, of the shutdown or of `ProcessPendingReadsLocked`. A call that gives up
erases its index from `pending_proposals_`, which takes back a callback that is still there, and takes
nothing back from `pending_reads_`. A step-down and a truncation touch neither map.
-/
import RollingRaft.Types
import RollingRaft.Lib.Transition

namespace RollingRaft

open Lib

/-- Where a callback is. It is moved from place to place, never copied. -/
inductive CallbackPlace where
  /-- In `pending_proposals_` under the index of its call, or in `pending_reads_`. -/
  | pending
  /-- Moved out, and still to be called. -/
  | moved
  /-- Called, or destroyed. -/
  | gone
  deriving DecidableEq

/-- A call that has left its callback. -/
structure Frame where
  /-- The index of its entry; none on the read-only path. -/
  index : Option Index
  place : CallbackPlace := .pending
  /-- How often `set_value` was called on its promise. -/
  sets : Nat := 0
  returned : Bool := false
  /-- `set_value` was called after the call returned. -/
  late : Bool := false
  deriving DecidableEq

namespace Frame

/-- What `pending_proposals_` has under the index goes elsewhere. -/
def leave (index : Index) (place : CallbackPlace) (f : Frame) : Frame :=
  if f.index = some index ∧ f.place = .pending then { f with place := place } else f

/-- The callback is called: `promise.set_value`. -/
def setValue (f : Frame) : Frame :=
  { f with place := .gone, sets := f.sets + 1, late := f.late || f.returned }

def finish (f : Frame) : Frame := { f with returned := true }

end Frame

/-- The calls so far, by number. -/
abbrev Frames := List Frame

namespace Frames

inductive Event where
  /-- `ProposeAndWaitLocked`, or the read-only path, up to its wait. -/
  | proposeAndWait (index : Index) | readOnly
  /-- The callback of a `Propose` takes the index, or a forced shutdown clears the map. -/
  | drop (index : Index)
  /-- `ApplyCommittedLocked` hands the entry over, `OnLogEntryPersisted` is told that it failed, or the
  node is stopped. -/
  | takeProposal (index : Index)
  /-- `HandleReadIndexAckLocked` or `ProcessPendingReadsLocked` completes the read. -/
  | takeRead (call : Nat)
  /-- A callback that was moved out is called. -/
  | invoke (call : Nat)
  /-- The promise is set and the call returns. -/
  | ready (call : Nat)
  /-- `wait_for` has timed out; the call locks `replication_mtx_` again and returns. -/
  | timeout (call : Nat)
  deriving DecidableEq

/-- A step of call number `call`, when it is in a state for it. -/
def onCall (s : Frames) (call : Nat) (enabled : Frame → Bool) (g : Frame → Frame) : Option Frames :=
  if (s[call]?).any enabled then some (s.modify call g) else none

def next (s : Frames) : Event → Option Frames
  | .proposeAndWait i => some (s.map (Frame.leave i .gone) ++ [{ index := some i }])
  | .readOnly => some (s ++ [{ index := none }])
  | .drop i => some (s.map (Frame.leave i .gone))
  | .takeProposal i => some (s.map (Frame.leave i .moved))
  | .takeRead c =>
    onCall s c (fun f => f.index = none ∧ f.place = .pending) ({ · with place := .moved })
  | .invoke c => onCall s c (·.place = .moved) Frame.setValue
  | .ready c => onCall s c (fun f => f.returned = false ∧ 0 < f.sets) Frame.finish
  | .timeout c =>
    -- the read-only path has no index and leaves its read where it is
    let erased := ((s[c]?).bind (·.index)).elim s fun i => s.map (Frame.leave i .gone)
    onCall erased c (·.returned = false) Frame.finish

def system : TransitionSystem Frames Event where
  init s := s = []
  next := next

/-- No promise is set after its call returned, or twice. -/
def SetInTime (s : Frames) : Prop := ∀ f ∈ s, f.late = false ∧ f.sets ≤ 1

/-- A call gives up only when its callback was not moved out, or was called; and not while its read is
pending. -/
def Disarmed (s : Frames) : Event → Prop
  | .timeout c => ∀ f ∈ s[c]?, f.place ≠ .moved ∧ (f.index = none → f.place ≠ .pending)
  | _ => True

instance (s : Frames) (e : Event) : Decidable (Disarmed s e) := by
  unfold Disarmed
  cases e <;> infer_instance

end Frames

/-- What a run keeps of a call: its promise is set when its callback is called, and the callback is
gone when the call returns. -/
structure Frame.Tracked (f : Frame) : Prop where
  late : f.late = false
  sets : f.sets ≤ 1
  unset : f.place ≠ .gone → f.sets = 0
  returned : f.returned = true → f.place = .gone

namespace Frames

theorem leave_tracked {f : Frame} (h : f.Tracked) {i : Index} {place : CallbackPlace} :
    (f.leave i place).Tracked := by
  unfold Frame.leave
  split
  · rename_i hpending
    have hwaits : f.returned ≠ true := fun hr => by
      rw [h.returned hr] at hpending
      cases hpending.2
    have hzero := h.unset (by rw [hpending.2]; decide)
    exact ⟨h.late, h.sets, fun _ => hzero, fun hr => absurd hr hwaits⟩
  · exact h

variable {s : Frames}

theorem map_leave_tracked (h : ∀ f ∈ s, f.Tracked) (i : Index) (place : CallbackPlace) :
    ∀ f ∈ s.map (Frame.leave i place), f.Tracked := by
  intro f hf
  obtain ⟨f₀, hf₀, rfl⟩ := List.mem_map.mp hf
  exact leave_tracked (h f₀ hf₀)

theorem onCall_tracked {s' : Frames} {call : Nat} {enabled : Frame → Bool} {g : Frame → Frame}
    (h : ∀ f ∈ s, f.Tracked) (hn : onCall s call enabled g = some s')
    (hg : ∀ f, s[call]? = some f → f.Tracked → enabled f = true → (g f).Tracked) :
    ∀ f ∈ s', f.Tracked := by
  unfold onCall at hn
  split at hn
  · rename_i henabled
    cases hn
    intro f' hf'
    obtain ⟨k, hk⟩ := List.mem_iff_getElem?.mp hf'
    rw [List.getElem?_modify] at hk
    obtain ⟨f, hf, rfl⟩ := Option.map_eq_some_iff.mp hk
    have htracked := h f (List.mem_of_getElem? hf)
    split
    · subst call
      rw [hf] at henabled
      exact hg f hf htracked henabled
    · exact htracked
  · cases hn

theorem next_tracked {s' : Frames} {e : Event} (h : ∀ f ∈ s, f.Tracked) (hd : Disarmed s e)
    (hn : next s e = some s') : ∀ f ∈ s', f.Tracked := by
  have hnew : ∀ {l : Frames} {index}, (∀ f ∈ l, f.Tracked) → ∀ f ∈ l ++ [{ index := index }], f.Tracked := by
    intro l index hl f hf
    rcases List.mem_append.mp hf with hf | hf
    · exact hl f hf
    · obtain rfl := List.mem_singleton.mp hf
      exact ⟨rfl, Nat.zero_le 1, fun _ => rfl, nofun⟩
  cases e with
  | proposeAndWait i =>
    cases hn
    exact hnew (map_leave_tracked h i .gone)
  | readOnly =>
    cases hn
    exact hnew h
  | drop i =>
    cases hn
    exact map_leave_tracked h i .gone
  | takeProposal i =>
    cases hn
    exact map_leave_tracked h i .moved
  | takeRead c =>
    refine onCall_tracked h hn fun f _ hf hpending => ?_
    have hpending := (of_decide_eq_true hpending).2
    refine ⟨hf.late, hf.sets, fun _ => hf.unset (by rw [hpending]; decide), fun hr => ?_⟩
    rw [hf.returned hr] at hpending
    cases hpending
  | invoke c =>
    refine onCall_tracked h hn fun f _ hf hmoved => ?_
    have hmoved : f.place = .moved := of_decide_eq_true hmoved
    have hzero := hf.unset (by rw [hmoved]; decide)
    -- the call waits, since its callback was to be called
    have hwaits : f.returned = false := by
      by_contra hr
      rw [hf.returned (Bool.eq_true_of_not_eq_false hr)] at hmoved
      cases hmoved
    refine ⟨?_, ?_, fun hne => absurd rfl hne, fun _ => rfl⟩
    · show (f.late || f.returned) = false
      rw [hf.late, hwaits]
      rfl
    · show f.sets + 1 ≤ 1
      rw [hzero]
  | ready c =>
    refine onCall_tracked h hn fun f _ hf hset => ?_
    obtain ⟨-, hset⟩ := of_decide_eq_true hset
    refine ⟨hf.late, hf.sets, hf.unset, fun _ => ?_⟩
    by_contra hplace
    rw [hf.unset hplace] at hset
    cases hset
  | timeout c =>
    have herased : ∀ f ∈ ((s[c]?).bind (·.index)).elim s fun i => s.map (Frame.leave i .gone),
        f.Tracked := by
      cases (s[c]?).bind (·.index) with
      | none => exact h
      | some i => exact map_leave_tracked h i .gone
    refine onCall_tracked herased hn fun f hf htracked _ => ?_
    have hgone : f.place = .gone := by
      cases hc : s[c]? with
      | none => simp [hc] at hf
      | some f₀ =>
        obtain ⟨hmoved, hread⟩ := hd f₀ hc
        -- what was in the map is erased, and a read is not pending any more
        cases hi : f₀.index <;> cases hplace : f₀.place <;> grind [Frame.leave]
    exact ⟨htracked.late, htracked.sets, htracked.unset, fun _ => hgone⟩

/-- **Promises are set in time** in every run in which calls give up with their callbacks disarmed. -/
theorem promises_set_in_time {s : Frames} (h : system.ReachableWith Disarmed s) : SetInTime s := by
  have htracked : ∀ f ∈ s, f.Tracked := by
    refine h.invariant ?_ fun s e s' hs hd hn => next_tracked hs hd hn
    rintro s rfl
    exact fun _ h => nomatch h
  exact fun f hf => ⟨(htracked f hf).late, (htracked f hf).sets⟩

/-- A command that is applied, one that gives up, and a read. -/
theorem promises_set_in_time_three : ∃ s, system.ReachableWith Disarmed s ∧
    s.map (·.sets) = [1, 0, 1] ∧ SetInTime s := by
  obtain ⟨s, hreach, hsets⟩ := system.reachesWith Disarmed
    [.proposeAndWait 1, .proposeAndWait 2, .readOnly, .takeProposal 1, .invoke 0, .ready 0, .timeout 1,
      .takeRead 2, .invoke 2, .ready 2] rfl (P := fun s => s.map (·.sets) = [1, 0, 1])
    (by decide +kernel)
  exact ⟨s, hreach, hsets, promises_set_in_time hreach⟩

/-- A command whose entry is handed over gives up before it is applied, a read before it is confirmed.
Both callbacks are called afterwards. -/
theorem promises_set_late :
    (∃ s, system.Reachable s ∧ s = [⟨some 1, .gone, 1, true, true⟩]) ∧
      (∃ s, system.Reachable s ∧ s = [⟨none, .gone, 1, true, true⟩]) ∧
      ∃ s, system.Reachable s ∧ ¬ SetInTime s := by
  have hwrite := system.reaches [.proposeAndWait 1, .takeProposal 1, .timeout 0, .invoke 0] rfl
    (P := fun s => s = [⟨some 1, .gone, 1, true, true⟩]) (by decide +kernel)
  have hread := system.reaches [.readOnly, .timeout 0, .takeRead 0, .invoke 0] rfl
    (P := fun s => s = [⟨none, .gone, 1, true, true⟩]) (by decide +kernel)
  refine ⟨hwrite, hread, ?_⟩
  obtain ⟨s, hreach, rfl⟩ := hwrite
  exact ⟨_, hreach, fun h => nomatch (h _ List.mem_cons_self).1⟩

end Frames

end RollingRaft
