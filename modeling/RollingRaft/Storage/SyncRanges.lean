/-
# RollingRaft.Storage.SyncRanges — the group commit controller under several threads.

Every method of the controller is one critical section, but a completion call (`OnSyncSuccess`,
`OnSyncFailure`) only collects the callbacks under the mutex and calls them after it has let go of it.
So the events of the system below are the critical sections and, one at a time, the calls of
callbacks by the completion calls that are still running. A completion call reports a result that a
sync of a range with that end returned; it may come late, and more than once.

While a completion call is at its callbacks, other threads may take the next range, sync it and call
its callbacks. When no range is taken in between, callbacks are called in the order of registration.
-/
import RollingRaft.Lib.Accounting
import RollingRaft.Lib.Transition
import RollingRaft.Storage.GroupCommit

namespace RollingRaft

open Lib

namespace GroupCommitController

/-! ## §1 — The system. -/

/-- A callback, by the epoch of its batch and its position in the batch. -/
abbrev CallbackId := Nat × Nat

/-- An accepted batch; `set` says which of its entries have a callback. -/
structure Batch where
  epoch : Nat
  set : List Bool
  deriving DecidableEq

/-- The vector of callbacks that is passed for the batch. -/
def slots (epoch : Nat) (set : List Bool) : List (Option CallbackId) :=
  set.zipIdx.map fun p => if p.1 then some (epoch, p.2) else none

def Batch.callbacks (b : Batch) : List CallbackId := (slots b.epoch b.set).filterMap id

/-- A range that was acquired: its end, the epochs that were registered by then, and what the syncs
made for it have returned since. -/
structure AcquiredRange where
  last : Nat
  registered : List Nat
  results : List StoreStatus := []
  deriving DecidableEq

/-- What threads observe. -/
inductive Observation where
  | called (callback : CallbackId) (status : StoreStatus)
  /-- An `OnSyncFailure` took effect. -/
  | failed
  deriving DecidableEq

/-- The controller, the completion calls that are at their callbacks, and what has happened. -/
structure Threads where
  controller : GroupCommitController CallbackId := {}
  firing : List (List CallbackId × StoreStatus) := []
  accepted : List Batch := []
  ranges : List AcquiredRange := []
  /-- The ends of the ranges for which no completion call has been made. -/
  outstanding : List Nat := []
  observed : List Observation := []
  deriving DecidableEq

inductive ThreadEvent where
  | register (entryCount byteSize : Nat) (set : List Bool)
  | acquire
  /-- `persister_->Sync()` for the `i`-th range returns. -/
  | sync (i : Nat) (result : StoreStatus)
  /-- `OnSyncSuccess` or `OnSyncFailure` up to the end of its critical section. -/
  | report (endEpoch : Nat) (status : StoreStatus)
  /-- The `i`-th running completion call calls its next callback. -/
  | call (i : Nat)
  deriving DecidableEq

namespace Threads

/-- `RegisterFlushedBatch`; a refused batch stays with its caller. -/
def register (t : Threads) (entryCount byteSize : Nat) (set : List Bool) : Threads :=
  match t.controller.registerFlushedBatch entryCount byteSize
      (slots t.controller.nextEpoch set) with
  | .error _ => t
  | .ok c => { t with
      controller := c, accepted := t.accepted ++ [⟨t.controller.nextEpoch, set⟩] }

/-- `AcquireSyncRange`. -/
def acquire (t : Threads) : Threads :=
  match t.controller.acquireSyncRange with
  | none => t
  | some (c, _, last) => { t with
      controller := c
      ranges := t.ranges ++ [⟨last, t.accepted.map (·.epoch), []⟩]
      outstanding := t.outstanding ++ [last] }

/-- The observation of an `OnSyncFailure` that took effect. -/
def failures (c : GroupCommitController CallbackId) (endEpoch : Nat) (status : StoreStatus) :
    List Observation :=
  if status = .ok ∨ c.syncInProgressEnd = 0 ∨ endEpoch ≠ c.syncInProgressEnd then [] else [.failed]

def report (t : Threads) (endEpoch : Nat) (status : StoreStatus) : Threads :=
  let r := t.controller.onSync endEpoch status
  { t with
    controller := r.1
    firing := if r.2 = [] then t.firing else t.firing ++ [(r.2, status)]
    outstanding := t.outstanding.filter (· ≠ endEpoch)
    observed := t.observed ++ failures t.controller endEpoch status }

/-- A completion call goes on with its loop over the callbacks, or returns. -/
def calling (firing : List (List CallbackId × StoreStatus)) (i : Nat) (rest : List CallbackId)
    (status : StoreStatus) : List (List CallbackId × StoreStatus) :=
  if rest = [] then firing.eraseIdx i else firing.set i (rest, status)

def next (t : Threads) : ThreadEvent → Option Threads
  | .register entryCount byteSize set => some (t.register entryCount byteSize set)
  | .acquire => some t.acquire
  | .sync i result =>
    match t.ranges[i]? with
    | none => none
    | some r => some { t with ranges := t.ranges.set i { r with results := r.results ++ [result] } }
  | .report endEpoch status =>
    if t.ranges.any fun r => r.last = endEpoch && status ∈ r.results then
      some (t.report endEpoch status)
    else none
  | .call i =>
    match t.firing[i]? with
    | some (callback :: rest, status) => some { t with
        firing := calling t.firing i rest status
        observed := t.observed ++ [.called callback status] }
    | _ => none

def system : TransitionSystem Threads ThreadEvent where
  init t := t = {}
  next := next

/-! ## §2 — What is promised. -/

def calls (t : Threads) : List (CallbackId × StoreStatus) :=
  t.observed.filterMap fun
    | .called callback status => some (callback, status)
    | .failed => none

def Observation.IsFailure : Observation → Prop
  | .called _ status => status ≠ .ok
  | .failed => True

/-- The batch waits for a sync, and none of its callbacks has been called. -/
def Pending (t : Threads) (b : Batch) : Prop :=
  (∃ p ∈ t.controller.pending, p.epoch = b.epoch) ∧
    ∀ c ∈ b.callbacks, (t.calls.map Prod.fst).count c = 0

/-- The batch waits for nothing, and each of its callbacks has been called once. -/
def Settled (t : Threads) (b : Batch) : Prop :=
  (∀ p ∈ t.controller.pending, p.epoch ≠ b.epoch) ∧
    ∀ c ∈ b.callbacks, (t.calls.map Prod.fst).count c = 1

structure Guarantees (t : Threads) : Prop where
  oneRange : t.outstanding.length ≤ 1
  /-- Epochs are given in the order of registration. -/
  registered : t.accepted.map (·.epoch) = List.range' 1 t.accepted.length
  /-- A batch whose callbacks are told `OK` was registered before a range was acquired whose sync
  succeeded after that. -/
  okSynced : ∀ c, (c, .ok) ∈ t.calls →
    ∃ r ∈ t.ranges, c.1 ∈ r.registered ∧ .ok ∈ r.results
  /-- When no completion call is running. -/
  settled : t.firing = [] → ∀ b ∈ t.accepted, t.Pending b ∨ t.Settled b
  okInOrder : (t.calls.filter (·.2 = .ok)).Pairwise fun x y => x.1.1 ≤ y.1.1
  noOkAfterFailure : t.observed.Pairwise fun x y => Observation.IsFailure x →
    ∀ c, y ≠ .called c .ok
  pendingEpochs : t.controller.healthy = true → t.controller.pending.map (·.epoch)
    = List.range' (t.controller.durableEpoch + 1)
        (t.controller.nextEpoch - 1 - t.controller.durableEpoch)

/-- No range is acquired while a completion call is at its callbacks. -/
def InTurn (t : Threads) (e : ThreadEvent) : Prop := e = .acquire → t.firing = []

/-! ## §3 — Callbacks in order. -/

def Before (x y : CallbackId) : Prop := x.1 < y.1 ∨ x.1 = y.1 ∧ x.2 < y.2

theorem epoch_of_mem_callbacks {b : Batch} {c : CallbackId} (h : c ∈ b.callbacks) :
    c.1 = b.epoch := by
  unfold Batch.callbacks slots at h
  rw [List.filterMap_map, List.mem_filterMap] at h
  obtain ⟨⟨isSet, i⟩, -, hc⟩ := h
  cases isSet with
  | false => cases hc
  | true =>
    cases hc
    rfl

theorem callbacks_before (b : Batch) : b.callbacks.Pairwise Before := by
  unfold Batch.callbacks slots
  rw [List.filterMap_map, List.pairwise_filterMap]
  have hlt : (b.set.zipIdx.map Prod.snd).Pairwise (· < ·) := by
    rw [List.zipIdx_map_snd]
    exact List.pairwise_lt_range' 1
  refine (List.pairwise_map.mp hlt).imp ?_
  rintro ⟨x, i⟩ ⟨y, j⟩ hij c hc d hd
  cases x with
  | false => cases hc
  | true =>
    cases y with
    | false => cases hd
    | true =>
      cases hc
      cases hd
      exact .inr ⟨rfl, hij⟩

theorem flatMap_callbacks_before {batches : List Batch} {a n : Nat}
    (h : batches.map (·.epoch) = List.range' a n) :
    (batches.flatMap Batch.callbacks).Pairwise Before := by
  rw [List.pairwise_flatMap]
  refine ⟨fun b _ => callbacks_before b, ?_⟩
  have hlt : (batches.map (·.epoch)).Pairwise (· < ·) := by
    rw [h]
    exact List.pairwise_lt_range' 1
  refine (List.pairwise_map.mp hlt).imp ?_
  intro b b' hbb c hc d hd
  left
  rw [epoch_of_mem_callbacks hc, epoch_of_mem_callbacks hd]
  exact hbb

theorem nodup_of_before {l : List CallbackId} (h : l.Pairwise Before) : l.Nodup := by
  refine h.imp ?_
  rintro x y hxy rfl
  rcases hxy with hlt | ⟨-, hlt⟩
  · exact Nat.lt_irrefl _ hlt
  · exact Nat.lt_irrefl _ hlt

/-! ## §4 — The invariant. -/

/-- The calls that tell the callbacks of some batches a status. -/
def told (batches : List Batch) (status : StoreStatus) : List (CallbackId × StoreStatus) :=
  (batches.flatMap Batch.callbacks).map fun c => (c, status)

theorem map_fst_told (batches : List Batch) (status : StoreStatus) :
    (told batches status).map Prod.fst = batches.flatMap Batch.callbacks := by
  simp [told, Function.comp_def]

/-- The calls that the running completion calls still have to make. -/
def dueCalls (t : Threads) : List (CallbackId × StoreStatus) :=
  t.firing.flatMap fun f => f.1.map fun c => (c, f.2)

theorem dueCalls_of_none {t : Threads} (h : t.firing = []) : t.dueCalls = [] := by
  unfold dueCalls
  rw [h]
  rfl

theorem dueCalls_firing (t : Threads) (rest : List CallbackId) (status : StoreStatus) :
    dueCalls { t with firing := if rest = [] then [] else [] ++ [(rest, status)] }
      = rest.map fun c => (c, status) := by
  unfold dueCalls
  cases rest <;> simp

/-- What runs in turn keep: the calls made and due are those of the durable batches, in order, and
after a failure those of all others. -/
structure Inv (t : Threads) : Prop where
  epochs : t.accepted.map (·.epoch) = List.range' 1 t.accepted.length
  nextEpoch : t.controller.nextEpoch = t.accepted.length + 1
  durable : t.controller.durableEpoch ≤ t.accepted.length
  pending : t.controller.healthy = true → t.controller.pending.map (fun p => (p.epoch, p.callbacks))
    = (t.accepted.drop t.controller.durableEpoch).map fun b => (b.epoch, slots b.epoch b.set)
  poisoned : t.controller.healthy = false →
    t.controller.pending = [] ∧ t.controller.syncInProgressEnd = 0 ∧ t.controller.lastError ≠ .ok
  inFlight : t.controller.syncInProgressEnd ≠ 0 →
    t.controller.durableEpoch < t.controller.syncInProgressEnd ∧
      t.controller.syncInProgressEnd ≤ t.accepted.length ∧ t.firing = []
  outstanding : t.outstanding =
    if t.controller.syncInProgressEnd = 0 then [] else [t.controller.syncInProgressEnd]
  firing : t.firing = [] ∨ ∃ c rest status, t.firing = [(c :: rest, status)] ∧
    (status = .ok ↔ t.controller.healthy = true)
  called : t.calls ++ t.dueCalls = told (t.accepted.take t.controller.durableEpoch) .ok ++
    if t.controller.healthy then []
    else told (t.accepted.drop t.controller.durableEpoch) t.controller.lastError
  ranges : ∀ r ∈ t.ranges, ∀ e, 1 ≤ e → e ≤ r.last → e ∈ r.registered
  synced : ∀ e, 1 ≤ e → e ≤ t.controller.durableEpoch →
    ∃ r ∈ t.ranges, e ∈ r.registered ∧ .ok ∈ r.results
  unmarked : t.controller.healthy = true → .failed ∉ t.observed
  order : t.observed.Pairwise fun x y => Observation.IsFailure x → ∀ c, y ≠ .called c .ok

theorem inv_initial : Inv {} where
  epochs := rfl
  nextEpoch := rfl
  durable := Nat.le_refl 0
  pending _ := rfl
  poisoned h := by cases h
  inFlight h := absurd rfl h
  outstanding := rfl
  firing := .inl rfl
  called := rfl
  ranges _ hr := absurd hr List.not_mem_nil
  synced e h₁ h₂ := absurd (Nat.le_trans h₁ h₂) (Nat.not_succ_le_zero 0)
  unmarked _ := List.not_mem_nil
  order := .nil

section Steps

variable {t : Threads}

theorem Inv.pendingEpochs (h : Inv t) (hhealthy : t.controller.healthy = true) :
    t.controller.pending.map (·.epoch) = List.range' (t.controller.durableEpoch + 1)
      (t.accepted.length - t.controller.durableEpoch) := by
  have hfst := congrArg (List.map Prod.fst) (h.pending hhealthy)
  simp only [List.map_map, Function.comp_def] at hfst
  have hdrop := congrArg (List.drop t.controller.durableEpoch) h.epochs
  rw [← List.map_drop, List.drop_range', Nat.mul_one, Nat.add_comm] at hdrop
  exact hfst.trans hdrop

theorem register_healthy (h : t.controller.healthy = true) (entryCount byteSize : Nat)
    (set : List Bool) : t.register entryCount byteSize set = { t with
      controller := { t.controller with
        nextEpoch := t.controller.nextEpoch + 1
        pending := t.controller.pending ++ [⟨t.controller.nextEpoch, entryCount, byteSize,
          slots t.controller.nextEpoch set⟩] }
      accepted := t.accepted ++ [⟨t.controller.nextEpoch, set⟩] } := by
  unfold Threads.register registerFlushedBatch
  rw [if_neg (by simp [h])]

theorem register_unhealthy (h : t.controller.healthy = false) (entryCount byteSize : Nat)
    (set : List Bool) : t.register entryCount byteSize set = t := by
  unfold Threads.register registerFlushedBatch
  rw [if_pos (by simp [h])]

theorem Inv.register (h : Inv t) (entryCount byteSize : Nat) (set : List Bool) :
    Inv (t.register entryCount byteSize set) := by
  rcases Bool.eq_false_or_eq_true t.controller.healthy with hhealthy | hhealthy
  · rw [register_healthy hhealthy]
    have hle := h.durable
    have hcalled := h.called
    refine { h with
      epochs := ?_
      nextEpoch := ?_
      durable := ?_
      poisoned := fun hbad => absurd (hhealthy.symm.trans hbad) Bool.noConfusion
      pending := fun _ => ?_
      inFlight := fun hne => ?_
      called := ?_ }
    · rw [List.map_append, h.epochs, List.length_append, List.length_singleton, List.range'_concat,
        List.map_singleton, h.nextEpoch, Nat.one_mul, Nat.add_comm]
    · simp [h.nextEpoch]
    · simp only [List.length_append, List.length_singleton]
      omega
    · show (t.controller.pending ++ _).map _ = ((t.accepted ++ _).drop _).map _
      rw [List.drop_append_of_le_length hle, List.map_append, List.map_append, h.pending hhealthy]
      rfl
    · obtain ⟨hlt, hbound, hnone⟩ := h.inFlight hne
      refine ⟨hlt, ?_, hnone⟩
      simp only [List.length_append, List.length_singleton]
      exact Nat.le_succ_of_le hbound
    · show t.calls ++ t.dueCalls = told ((t.accepted ++ _).take _) .ok ++ _
      rw [List.take_append_of_le_length hle, hcalled, if_pos hhealthy]
      exact congrArg _ (if_pos hhealthy).symm
  · rw [register_unhealthy hhealthy]
    exact h

theorem Inv.acquire (h : Inv t) (hturn : t.firing = []) : Inv t.acquire := by
  unfold Threads.acquire acquireSyncRange
  by_cases hhealthy : t.controller.healthy = false
  · rw [if_pos (by simp [hhealthy])]
    exact h
  rw [if_neg (by simpa using hhealthy)]
  have hhealthy : t.controller.healthy = true := by simpa using hhealthy
  by_cases hbusy : t.controller.syncInProgressEnd ≠ 0
  · rw [if_pos hbusy]
    exact h
  rw [if_neg hbusy]
  have hidle := of_not_not hbusy
  cases hlast : t.controller.pending.getLast? with
  | none => exact h
  | some p =>
    -- the last pending epoch is the last one registered
    have hnumbers := h.pendingEpochs hhealthy
    have hmem : p.epoch ∈ t.controller.pending.map (·.epoch) :=
      List.mem_map_of_mem (List.mem_of_getLast? hlast)
    rw [hnumbers, List.mem_range'_1] at hmem
    have hout := h.outstanding
    rw [if_pos hidle] at hout
    refine { h with
      poisoned := fun hbad => absurd (hhealthy.symm.trans hbad) Bool.noConfusion
      inFlight := fun _ => ⟨?_, ?_, hturn⟩
      outstanding := ?_
      ranges := ?_
      synced := ?_ }
    · show t.controller.durableEpoch < p.epoch
      omega
    · show p.epoch ≤ t.accepted.length
      omega
    · show t.outstanding ++ [p.epoch] = if p.epoch = 0 then [] else [p.epoch]
      rw [hout, if_neg (by omega)]
      rfl
    · intro r hr e he₁ he₂
      rcases List.mem_append.mp hr with hr | hr
      · exact h.ranges r hr e he₁ he₂
      · rw [List.mem_singleton.mp hr] at he₂ ⊢
        have he₂ : e ≤ p.epoch := he₂
        show e ∈ t.accepted.map (·.epoch)
        rw [h.epochs, List.mem_range'_1]
        omega
    · intro e he₁ he₂
      obtain ⟨r, hr, hsynced⟩ := h.synced e he₁ he₂
      exact ⟨r, List.mem_append_left _ hr, hsynced⟩

variable {i endEpoch : Nat} {status : StoreStatus} {r : AcquiredRange}

theorem Inv.sync (h : Inv t) (hr : t.ranges[i]? = some r)
    (result : StoreStatus) :
    Inv { t with ranges := t.ranges.set i { r with results := r.results ++ [result] } } := by
  have hmem := List.mem_of_getElem? hr
  have hset : { r with results := r.results ++ [result] }
      ∈ t.ranges.set i { r with results := r.results ++ [result] } :=
    List.mem_set (List.getElem?_eq_some_iff.mp hr).1 _
  refine { h with ranges := ?_, synced := ?_ }
  · intro r' hr' e he₁ he₂
    rcases List.mem_or_eq_of_mem_set hr' with hold | rfl
    · exact h.ranges r' hold e he₁ he₂
    · exact h.ranges r hmem e he₁ he₂
  · intro e he₁ he₂
    obtain ⟨r', hr', hregistered, hok⟩ := h.synced e he₁ he₂
    by_cases hsame : r' = r
    · subst hsame
      exact ⟨_, hset, hregistered, List.mem_append_left _ hok⟩
    refine ⟨r', ?_, hregistered, hok⟩
    -- another range keeps its place
    obtain ⟨j, hj⟩ := List.mem_iff_getElem?.mp hr'
    have hne : i ≠ j := by
      rintro rfl
      exact hsame (Option.some.inj (hj.symm.trans hr))
    refine List.mem_iff_getElem?.mpr ⟨j, ?_⟩
    rw [List.getElem?_set_ne hne]
    exact hj

theorem Inv.healthy_of_busy (h : Inv t) (hbusy : t.controller.syncInProgressEnd ≠ 0) :
    t.controller.healthy = true := by
  by_contra hbad
  exact hbusy (h.poisoned (by simpa using hbad)).2.1

theorem Inv.callbacks_take (h : Inv t) (hhealthy : t.controller.healthy = true) (k : Nat) :
    (t.controller.pending.take k).flatMap (fun p => p.callbacks.filterMap id)
      = ((t.accepted.drop t.controller.durableEpoch).take k).flatMap Batch.callbacks := by
  have hmap := congrArg (List.take k) (h.pending hhealthy)
  rw [← List.map_take, ← List.map_take] at hmap
  have hflat := congrArg (List.flatMap fun q : Nat × List (Option CallbackId) => q.2.filterMap id) hmap
  rw [List.flatMap_map, List.flatMap_map] at hflat
  exact hflat

theorem Inv.onSyncSuccess (h : Inv t) (hbusy : t.controller.syncInProgressEnd ≠ 0) :
    t.controller.onSyncSuccess t.controller.syncInProgressEnd = ({ t.controller with
          syncInProgressEnd := 0
          durableEpoch := t.controller.syncInProgressEnd
          pending := t.controller.pending.drop
            (t.controller.syncInProgressEnd - t.controller.durableEpoch) },
        ((t.accepted.drop t.controller.durableEpoch).take
          (t.controller.syncInProgressEnd - t.controller.durableEpoch)).flatMap Batch.callbacks) := by
  obtain ⟨hlt, hle, -⟩ := h.inFlight hbusy
  have hhealthy := h.healthy_of_busy hbusy
  have hnumbers := h.pendingEpochs hhealthy
  obtain ⟨htake, hdrop⟩ := takeWhile_of_numbered hnumbers t.controller.syncInProgressEnd
  rw [Nat.add_sub_add_right] at htake hdrop
  -- the last of the covered epochs is the end of the range
  have hlast : (t.controller.pending.take (t.controller.syncInProgressEnd
      - t.controller.durableEpoch)).getLast?.map (·.epoch) = some t.controller.syncInProgressEnd := by
    have hget := congrArg (fun l => l[t.controller.syncInProgressEnd - t.controller.durableEpoch - 1]?)
      hnumbers
    simp only [List.getElem?_map] at hget
    rw [List.getElem?_range' (by omega)] at hget
    obtain ⟨p, hp, hepoch⟩ := Option.map_eq_some_iff.mp hget
    rw [List.getLast?_take, if_neg (by omega), hp, Option.some_or, Option.map_some, hepoch]
    congr 1
    omega
  unfold GroupCommitController.onSyncSuccess covered
  rw [if_neg (by simp [hbusy]), htake, hdrop, hlast, h.callbacks_take hhealthy]
  rfl

theorem onSync_ignored {c : GroupCommitController CallbackId}
    (h : c.syncInProgressEnd = 0 ∨ endEpoch ≠ c.syncInProgressEnd) :
    c.onSync endEpoch status = (c, []) := by
  unfold onSync onSyncSuccess onSyncFailure
  rw [if_pos h, if_pos h]
  exact ite_self _

theorem Inv.report_ignored (h : Inv t)
    (hlate : t.controller.syncInProgressEnd = 0 ∨ endEpoch ≠ t.controller.syncInProgressEnd) :
    Inv (t.report endEpoch status) := by
  have hout : t.outstanding.filter (· ≠ endEpoch) = t.outstanding := by
    rw [h.outstanding]
    split
    · rfl
    rename_i hbusy
    have hne : t.controller.syncInProgressEnd ≠ endEpoch := by
      rintro rfl
      rcases hlate with hidle | hne
      · exact hbusy hidle
      · exact hne rfl
    simp [hne]
  have hsame : t.report endEpoch status = t := by
    unfold Threads.report failures
    rw [onSync_ignored hlate, hout, if_pos (.inr hlate), List.append_nil]
    rfl
  rw [hsame]
  exact h

theorem Inv.report_success (h : Inv t) (hbusy : t.controller.syncInProgressEnd ≠ 0)
     (hr : r ∈ t.ranges) (hlast : r.last = t.controller.syncInProgressEnd)
    (hok : .ok ∈ r.results) : Inv (t.report t.controller.syncInProgressEnd .ok) := by
  obtain ⟨hlt, hle, hnone⟩ := h.inFlight hbusy
  have hhealthy := h.healthy_of_busy hbusy
  have hcalled := h.called
  rw [if_pos hhealthy, List.append_nil] at hcalled
  have hdue := dueCalls_of_none hnone
  unfold Threads.report failures onSync
  rw [if_pos rfl, h.onSyncSuccess hbusy, if_pos (.inl rfl), List.append_nil, hnone]
  generalize hfire : ((t.accepted.drop t.controller.durableEpoch).take
    (t.controller.syncInProgressEnd - t.controller.durableEpoch)).flatMap Batch.callbacks = fire
  refine { h with
    durable := hle
    pending := fun _ => ?_
    poisoned := fun hbad => absurd (hhealthy.symm.trans hbad) Bool.noConfusion
    inFlight := fun hne => absurd rfl hne
    outstanding := ?_
    firing := ?_
    called := ?_
    synced := ?_ }
  · have hdrop := congrArg
      (List.drop (t.controller.syncInProgressEnd - t.controller.durableEpoch)) (h.pending hhealthy)
    have hsum : t.controller.durableEpoch
        + (t.controller.syncInProgressEnd - t.controller.durableEpoch)
          = t.controller.syncInProgressEnd := by
      omega
    rw [← List.map_drop, ← List.map_drop, List.drop_drop, hsum] at hdrop
    exact hdrop
  · show t.outstanding.filter _ = []
    rw [h.outstanding, if_neg hbusy]
    simp
  · cases fire with
    | nil => exact .inl rfl
    | cons c rest => exact .inr ⟨c, rest, .ok, rfl, iff_of_true rfl hhealthy⟩
  · have hsplit : t.accepted.take t.controller.syncInProgressEnd
        = t.accepted.take t.controller.durableEpoch
          ++ (t.accepted.drop t.controller.durableEpoch).take
            (t.controller.syncInProgressEnd - t.controller.durableEpoch) := by
      rw [← List.take_add]
      congr 1
      omega
    show t.calls ++ dueCalls { t with firing := if fire = [] then [] else [] ++ [(fire, .ok)] }
      = told (t.accepted.take t.controller.syncInProgressEnd) .ok ++ _
    rw [hdue, List.append_nil] at hcalled
    rw [dueCalls_firing, hcalled, hsplit, ← hfire, if_pos hhealthy]
    simp only [told, List.flatMap_append, List.map_append, List.append_nil]
  · intro e he₁ he₂
    exact ⟨r, hr, h.ranges r hr e he₁ (hlast.symm ▸ he₂), hok⟩

theorem Inv.report_failure (h : Inv t) (hbusy : t.controller.syncInProgressEnd ≠ 0)
    (hstatus : status ≠ .ok) :
    Inv (t.report t.controller.syncInProgressEnd status) := by
  obtain ⟨hlt, hle, hnone⟩ := h.inFlight hbusy
  have hhealthy := h.healthy_of_busy hbusy
  have hcalled := h.called
  rw [if_pos hhealthy, List.append_nil] at hcalled
  have hdue := dueCalls_of_none hnone
  have hall := h.callbacks_take hhealthy t.controller.pending.length
  have hlength := congrArg List.length (h.pending hhealthy)
  rw [List.length_map, List.length_map] at hlength
  rw [List.take_length, hlength, List.take_length] at hall
  unfold Threads.report failures onSync GroupCommitController.onSyncFailure
  rw [if_neg hstatus, if_neg (by simp [hbusy]), if_neg (by simp [hstatus, hbusy]), hall, hnone]
  generalize hfire : (t.accepted.drop t.controller.durableEpoch).flatMap Batch.callbacks = fire
  refine { h with
    pending := fun hgood => absurd hgood Bool.noConfusion
    poisoned := fun _ => ⟨rfl, rfl, hstatus⟩
    inFlight := fun hne => absurd rfl hne
    outstanding := ?_
    firing := ?_
    called := ?_
    unmarked := fun hgood => absurd hgood Bool.noConfusion
    order := ?_ }
  · show t.outstanding.filter _ = []
    rw [h.outstanding, if_neg hbusy]
    simp
  · cases fire with
    | nil => exact .inl rfl
    | cons c rest => exact .inr ⟨c, rest, status, rfl, iff_of_false hstatus Bool.noConfusion⟩
  · have hcalls : calls { t with observed := t.observed ++ [.failed] } = t.calls := by
      unfold calls
      rw [List.filterMap_append]
      exact List.append_nil _
    show calls { t with observed := t.observed ++ [.failed] }
        ++ dueCalls { t with firing := if fire = [] then [] else [] ++ [(fire, status)] }
      = told (t.accepted.take t.controller.durableEpoch) .ok
        ++ told (t.accepted.drop t.controller.durableEpoch) status
    rw [hdue, List.append_nil] at hcalled
    rw [dueCalls_firing, hcalls, hcalled, ← hfire]
    rfl
  · refine List.pairwise_append.mpr ⟨h.order, List.pairwise_singleton _ _, ?_⟩
    intro x _ y hy _ c
    rw [List.mem_singleton.mp hy]
    exact Observation.noConfusion

theorem Inv.not_failure (h : Inv t) (hhealthy : t.controller.healthy = true) {x : Observation}
    (hx : x ∈ t.observed) : ¬ Observation.IsFailure x := by
  intro hfail
  cases x with
  | failed => exact h.unmarked hhealthy hx
  | called c status =>
    have hcall : (c, status) ∈ t.calls := List.mem_filterMap.mpr ⟨_, hx, rfl⟩
    have hcalled := h.called
    rw [if_pos hhealthy, List.append_nil] at hcalled
    have htold : (c, status) ∈ told (t.accepted.take t.controller.durableEpoch) .ok := by
      rw [← hcalled]
      exact List.mem_append_left _ hcall
    obtain ⟨d, -, hd⟩ := List.mem_map.mp htold
    exact hfail (Prod.mk.inj hd).2.symm

theorem Inv.call (h : Inv t) {callback : CallbackId} {rest : List CallbackId}
    (hi : t.firing[i]? = some (callback :: rest, status)) :
    Inv { t with
      firing := calling t.firing i rest status
      observed := t.observed ++ [.called callback status] } := by
  -- there is one running call
  rcases h.firing with hnone | ⟨c, rest', status', hone, hstatus⟩
  · rw [hnone] at hi
    cases hi
  · rw [hone] at hi
    cases i with
    | succ i => cases hi
    | zero =>
      cases hi
      have hfiring : calling t.firing 0 rest status
          = if rest = [] then [] else [(rest, status)] := by
        rw [hone]
        rfl
      rw [hfiring]
      have hbusy : t.controller.syncInProgressEnd = 0 := by
        by_contra hne
        have hnone := (h.inFlight hne).2.2
        rw [hone] at hnone
        cases hnone
      refine { h with
        inFlight := fun hne => absurd hbusy hne
        firing := ?_
        called := ?_
        unmarked := ?_
        order := ?_ }
      · cases rest with
        | nil => exact .inl rfl
        | cons c rest => exact .inr ⟨c, rest, status, rfl, hstatus⟩
      · rw [← h.called]
        have hbefore : t.dueCalls = (callback, status) :: rest.map fun c => (c, status) := by
          unfold dueCalls
          rw [hone]
          simp
        have hcalls : calls { t with observed := t.observed ++ [.called callback status] }
            = t.calls ++ [(callback, status)] := by
          unfold calls
          rw [List.filterMap_append]
          rfl
        show calls { t with observed := t.observed ++ [.called callback status] }
            ++ dueCalls { t with firing := if rest = [] then [] else [] ++ [(rest, status)] } = _
        rw [hbefore, dueCalls_firing, hcalls, List.append_assoc]
        rfl
      · intro hhealthy hmem
        rcases List.mem_append.mp hmem with hmem | hmem
        · exact h.unmarked hhealthy hmem
        · exact absurd (List.mem_singleton.mp hmem) Observation.noConfusion
      · refine List.pairwise_append.mpr ⟨h.order, List.pairwise_singleton _ _, ?_⟩
        intro x hx y hy hfail c heq
        rw [List.mem_singleton.mp hy] at heq
        have hok : status = .ok := (Observation.called.inj heq).2
        exact h.not_failure (hstatus.mp hok) hx hfail

theorem inv_step {e : ThreadEvent} {t' : Threads} (h : Inv t) (hturn : InTurn t e)
    (hn : t.next e = some t') : Inv t' := by
  cases e with
  | register entryCount byteSize set =>
    cases hn
    exact h.register entryCount byteSize set
  | acquire =>
    cases hn
    exact h.acquire (hturn rfl)
  | sync i result =>
    simp only [next] at hn
    split at hn
    · cases hn
    rename_i r hr
    cases hn
    exact h.sync hr result
  | report endEpoch status =>
    simp only [next] at hn
    split at hn
    case isFalse => cases hn
    case isTrue hreported =>
      cases hn
      obtain ⟨r, hr, hlast⟩ := List.any_eq_true.mp hreported
      simp only [Bool.and_eq_true, decide_eq_true_eq] at hlast
      by_cases hlate : t.controller.syncInProgressEnd = 0 ∨ endEpoch ≠ t.controller.syncInProgressEnd
      · exact h.report_ignored hlate
      rw [not_or, not_not] at hlate
      obtain ⟨hbusy, rfl⟩ := hlate
      by_cases hstatus : status = .ok
      · subst hstatus
        exact h.report_success hbusy hr hlast.1 hlast.2
      · exact h.report_failure hbusy hstatus
  | call i =>
    simp only [next] at hn
    split at hn
    · rename_i callback rest status hi
      cases hn
      exact h.call hi
    · cases hn

end Steps

/-! ## §5 — The guarantees. -/

section Guarantees

variable {t : Threads}

/-- The callbacks that have been called are a leading part of all callbacks. -/
theorem Inv.calls_prefix (h : Inv t) :
    t.calls.map Prod.fst <+: t.accepted.flatMap Batch.callbacks := by
  have hmap := congrArg (List.map Prod.fst) h.called
  rw [List.map_append, List.map_append, map_fst_told] at hmap
  have hcalls : t.calls.map Prod.fst <+: _ := ⟨_, hmap⟩
  refine hcalls.trans ?_
  split
  · refine ⟨(t.accepted.drop t.controller.durableEpoch).flatMap Batch.callbacks, ?_⟩
    rw [List.map_nil, List.append_nil, ← List.flatMap_append, List.take_append_drop]
  · rw [map_fst_told, ← List.flatMap_append, List.take_append_drop]

theorem Inv.okInOrder (h : Inv t) :
    (t.calls.filter (·.2 = .ok)).Pairwise fun x y => x.1.1 ≤ y.1.1 := by
  have hbefore := (flatMap_callbacks_before h.epochs).sublist h.calls_prefix.sublist
  refine ((List.pairwise_map.mp hbefore).filter _).imp ?_
  intro x y hxy
  rcases hxy with hlt | ⟨heq, -⟩
  · exact Nat.le_of_lt hlt
  · exact Nat.le_of_eq heq

/-- An accepted batch is durable or not. -/
theorem Inv.settled (h : Inv t) (hnone : t.firing = []) {b : Batch} (hb : b ∈ t.accepted) :
    t.Pending b ∨ t.Settled b := by
  have hnodup : (t.accepted.flatMap Batch.callbacks).Nodup :=
    nodup_of_before (flatMap_callbacks_before h.epochs)
  have hdue := dueCalls_of_none hnone
  have hcalled := congrArg (List.map Prod.fst) h.called
  rw [hdue, List.append_nil, List.map_append, map_fst_told] at hcalled
  have hsplit := List.take_append_drop t.controller.durableEpoch t.accepted
  rcases Bool.eq_false_or_eq_true t.controller.healthy with hhealthy | hhealthy
  · rw [if_pos hhealthy, List.map_nil, List.append_nil] at hcalled
    rw [← hsplit, List.flatMap_append] at hnodup
    have hepochs : (t.accepted.map (·.epoch)).Nodup := by
      rw [h.epochs]
      exact List.nodup_range' 1
    rw [← hsplit, List.map_append] at hepochs
    have hpending : t.controller.pending.map (·.epoch)
        = (t.accepted.drop t.controller.durableEpoch).map (·.epoch) := by
      have hmap := congrArg (List.map Prod.fst) (h.pending hhealthy)
      simpa [Function.comp_def] using hmap
    rw [← hsplit] at hb
    rcases List.mem_append.mp hb with hb | hb
    · right
      refine ⟨?_, ?_⟩
      · intro p hp heq
        have hmem : b.epoch ∈ (t.accepted.drop t.controller.durableEpoch).map (·.epoch) := by
          rw [← hpending, ← heq]
          exact List.mem_map_of_mem hp
        exact (List.nodup_append.mp hepochs).2.2 _ (List.mem_map_of_mem hb) _ hmem rfl
      · intro c hc
        rw [hcalled]
        exact List.count_eq_one_of_mem (List.nodup_append.mp hnodup).1
          (List.mem_flatMap.mpr ⟨b, hb, hc⟩)
    · left
      refine ⟨?_, ?_⟩
      · have hmem : b.epoch ∈ t.controller.pending.map (·.epoch) := by
          rw [hpending]
          exact List.mem_map_of_mem hb
        obtain ⟨p, hp, heq⟩ := List.mem_map.mp hmem
        exact ⟨p, hp, heq⟩
      · intro c hc
        rw [hcalled]
        refine List.count_eq_zero_of_not_mem fun hmem => ?_
        exact (List.nodup_append.mp hnodup).2.2 _ hmem _ (List.mem_flatMap.mpr ⟨b, hb, hc⟩) rfl
  · right
    rw [if_neg (by simp [hhealthy]), map_fst_told, ← List.flatMap_append, hsplit] at hcalled
    refine ⟨?_, ?_⟩
    · intro p hp
      rw [(h.poisoned hhealthy).1] at hp
      exact absurd hp List.not_mem_nil
    · intro c hc
      rw [hcalled]
      exact List.count_eq_one_of_mem hnodup (List.mem_flatMap.mpr ⟨b, hb, hc⟩)

theorem Inv.okSynced (h : Inv t) {c : CallbackId} (hc : (c, .ok) ∈ t.calls) :
    ∃ r ∈ t.ranges, c.1 ∈ r.registered ∧ .ok ∈ r.results := by
  have hmem : (c, .ok) ∈ t.calls ++ t.dueCalls := List.mem_append_left _ hc
  rw [h.called] at hmem
  rcases List.mem_append.mp hmem with hmem | hmem
  · obtain ⟨c', hflat, heq⟩ := List.mem_map.mp hmem
    obtain rfl : c' = c := (Prod.mk.inj heq).1
    obtain ⟨b, hb, hcb⟩ := List.mem_flatMap.mp hflat
    -- the batch is one of the first `durableEpoch` ones
    obtain ⟨k, hk⟩ := List.mem_iff_getElem?.mp hb
    rw [List.getElem?_take] at hk
    split at hk
    case isFalse => cases hk
    case isTrue hlt =>
      have hepoch := congrArg (·[k]?) h.epochs
      have hbound := h.durable
      simp only [List.getElem?_map, hk, Option.map_some] at hepoch
      rw [List.getElem?_range' (by omega)] at hepoch
      have hepoch := Option.some.inj hepoch
      rw [epoch_of_mem_callbacks hcb]
      exact h.synced b.epoch (by omega) (by omega)
  · split at hmem
    · exact absurd hmem List.not_mem_nil
    · rename_i hbad
      obtain ⟨c', -, heq⟩ := List.mem_map.mp hmem
      exact absurd (Prod.mk.inj heq).2 (h.poisoned (by simpa using hbad)).2.2

end Guarantees

/-- **The controller under several threads.** In every run in which no range is acquired while a
completion call is at its callbacks, at most one range is outstanding, `OK` means durable, every batch
is pending or settled exactly once, and `OK`s come in the order of registration and never after a
failure. -/
theorem callbacks_in_turn {t : Threads} (h : system.ReachableWith InTurn t) : Guarantees t := by
  have hinv : Inv t := by
    refine h.invariant ?_ fun t e t' hi hturn hn => inv_step hi hturn hn
    rintro t rfl
    exact inv_initial
  refine ⟨?_, hinv.epochs, fun c hc => hinv.okSynced hc, fun hnone b hb => hinv.settled hnone hb,
    hinv.okInOrder, hinv.order, ?_⟩
  · rw [hinv.outstanding]
    split
    · exact Nat.zero_le 1
    · exact Nat.le_refl 1
  · intro hhealthy
    rw [hinv.pendingEpochs hhealthy, hinv.nextEpoch, Nat.add_sub_cancel]

instance (t : Threads) (e : ThreadEvent) : Decidable (InTurn t e) :=
  inferInstanceAs (Decidable (_ → _))

/-- Two batches synced together, a repeated completion call, and a third batch whose sync fails while
a fourth is registered. -/
def failingRun : List ThreadEvent :=
  [.register 2 20 [true, false], .register 1 10 [true], .acquire, .sync 0 .ok, .report 2 .ok, .call 0,
    .report 2 .ok, .call 0, .register 1 10 [true], .acquire, .sync 1 (.error []),
    .register 1 10 [true], .report 3 (.error []), .call 0, .call 0]

theorem callbacks_in_turn_failing :
    ∃ t : Threads, system.ReachableWith InTurn t ∧ t.controller.healthy = false ∧
      t.calls = [((1, 0), .ok), ((2, 0), .ok), ((3, 0), .error []), ((4, 0), .error [])] ∧
      Guarantees t := by
  obtain ⟨t, hreach, hhealthy, hcalls⟩ := system.reachesWith InTurn failingRun rfl
    (P := fun t => t.controller.healthy = false ∧ t.calls
      = [((1, 0), .ok), ((2, 0), .ok), ((3, 0), .error []), ((4, 0), .error [])]) (by decide +kernel)
  exact ⟨t, hreach, hhealthy, hcalls, callbacks_in_turn hreach⟩

/-- A second thread acquires, syncs and reports while the first is before its callback. -/
def overtakingRun : List ThreadEvent :=
  [.register 1 10 [true], .acquire, .sync 0 .ok, .report 1 .ok, .register 1 10 [true], .acquire,
    .sync 1 .ok, .report 2 .ok, .call 1, .call 0]

/-- The second batch is told `OK` before the first, and while the first one is neither pending nor
told. -/
theorem callbacks_overtaken :
    ∃ t : Threads, system.Reachable t ∧ t.calls = [((2, 0), .ok), ((1, 0), .ok)] ∧ ¬ Guarantees t := by
  obtain ⟨t, hreach, hcalls⟩ := system.reaches overtakingRun rfl
    (P := fun t => t.calls = [((2, 0), .ok), ((1, 0), .ok)]) (by decide +kernel)
  refine ⟨t, hreach, hcalls, fun hg => ?_⟩
  have horder := hg.okInOrder
  rw [hcalls] at horder
  exact absurd horder (by decide)


end Threads

end GroupCommitController

end RollingRaft
