/-
# RollingRaft.Storage.Callbacks — every callback is called once, and `OK` means written and synced.

A callback travels from the buffer through a batch either back into the buffer, into an epoch of the
controller, to the executor, or to its call. `placed` counts in how many of these places it is: one,
in every state (`Ledger`). `OK` is only told for a batch that was written before a sync that
succeeded (`Sound`).
-/
import Mathlib.Data.List.TakeWhile
import RollingRaft.Lib.Accounting
import RollingRaft.Storage.LogPersister

namespace RollingRaft

open Lib

/-! ## §1 — Where a callback is. -/

/-- The batch of the running flush whose callbacks have not been passed on. -/
def FlushPhase.batch : FlushPhase → List PendingEntry
  | .swapped batch | .checked batch | .failed batch | .wrote batch => batch
  | .idle | .finishing => []

def DurableCallback.callback : DurableCallback → Nat
  | .direct t | .posting t => t

def PendingEpoch.waiting (p : PendingEpoch DurableCallback) : List Nat :=
  (p.callbacks.filterMap id).map DurableCallback.callback

/-- The sync a thread has in flight: its range, and its status once the persister has answered. -/
def SyncThread.inFlight : SyncThread → Option (Nat × Option StoreStatus)
  | .acquired endEpoch => some (endEpoch, none)
  | .synced endEpoch status => some (endEpoch, some status)
  | .off | .waiting | .going => none

def StopCall.inFlight : StopCall → Option (Nat × Option StoreStatus)
  | .acquired _ endEpoch => some (endEpoch, Option.none)
  | .synced _ endEpoch status => some (endEpoch, some status)
  | .none | .joining _ | .joined _ | .flushing _ | .done _ => Option.none

namespace LogPersister

variable {s s' : LogPersister}
  {c c' : GroupCommitController DurableCallback} {calls : List PersisterCall} {batch : List PendingEntry}

def registered (s : LogPersister) : List Nat :=
  match s.controller with
  | none => []
  | some c => c.pending.flatMap PendingEpoch.waiting

/-- In how many places a callback is. -/
def placed (s : LogPersister) (t : Nat) : Nat :=
  (s.invoked.map Prod.fst).count t + (s.posted.map Prod.fst).count t
    + (callbacksOf s.buffer).count t + (callbacksOf s.flush.batch).count t + s.registered.count t

@[simp] theorem callbacksOf_nil : callbacksOf [] = [] := rfl

@[simp] theorem callbacksOf_append (a b : List PendingEntry) :
    callbacksOf (a ++ b) = callbacksOf a ++ callbacksOf b := List.filterMap_append

theorem callbacksOf_singleton (p : PendingEntry) : callbacksOf [p] = p.callback.toList := by
  simp only [callbacksOf, List.filterMap_cons, List.filterMap_nil]
  cases p.callback <;> rfl

@[simp] theorem callbacksOf_clear (batch : List PendingEntry) :
    callbacksOf (batch.map fun p => { p with callback := none }) = [] := by
  simp [callbacksOf]

theorem map_fst_told (ts : List Nat) (status : StoreStatus) :
    (ts.map fun t => (t, status)).map Prod.fst = ts := by
  rw [List.map_map]
  exact List.map_id ts

theorem count_fire (callbacks : List DurableCallback) (t : Nat) :
    (callbacks.filterMap DurableCallback.direct?).count t
      + (callbacks.filterMap DurableCallback.posting?).count t
        = (callbacks.map DurableCallback.callback).count t := by
  induction callbacks with
  | nil => rfl
  | cons c callbacks ih =>
    cases c with
    | direct | posting =>
      simp only [List.filterMap_cons, DurableCallback.direct?, DurableCallback.posting?,
        List.map_cons, DurableCallback.callback, List.count_cons]
      omega

theorem callback_durable (s : LogPersister) (batch : List PendingEntry) :
    ((batch.map s.durableCallback).filterMap id).map DurableCallback.callback
      = callbacksOf batch := by
  induction batch with
  | nil => rfl
  | cons p batch ih =>
    have hp : (s.durableCallback p).map DurableCallback.callback = p.callback := by
      unfold durableCallback
      cases p.callback with
      | none => rfl
      | some t =>
        simp only [Option.map_some]
        split <;> rfl
    cases hcallback : p.callback with
    | none =>
      have hnone : s.durableCallback p = none := by simp [durableCallback, hcallback]
      simpa [callbacksOf, hnone, hcallback] using ih
    | some t =>
      obtain ⟨d, hd, hdt⟩ := Option.map_eq_some_iff.mp (hp.trans hcallback)
      simpa [callbacksOf, hd, hcallback, hdt] using ih

variable (status : StoreStatus) {callbacks : List (Option DurableCallback)} {first endEpoch : Nat}
  {action : FlushAction} {e : Event} {phase : FlushPhase} {stopping : StopCall}

theorem registered_register {n m : Nat} (h : c.registerFlushedBatch n m callbacks = .ok c') :
    c'.pending = c.pending ++ [⟨c.nextEpoch, n, m, callbacks⟩] ∧ c'.nextEpoch = c.nextEpoch + 1 ∧
      c'.syncInProgressEnd = c.syncInProgressEnd ∧ c'.healthy = c.healthy ∧ c.healthy = true := by
  unfold GroupCommitController.registerFlushedBatch at h
  split at h
  · split at h <;> cases h
  rename_i hhealthy
  cases h
  exact ⟨rfl, rfl, rfl, rfl, by simpa using hhealthy⟩

/-- A range is taken of a healthy controller with no sync in flight, up to its last epoch. -/
theorem acquire_spec (h : c.acquireSyncRange = some (c', first, endEpoch)) :
    c'.pending = c.pending ∧ c'.nextEpoch = c.nextEpoch ∧ c'.healthy = c.healthy ∧
      c'.syncInProgressEnd = endEpoch ∧ c.syncInProgressEnd = 0 ∧
      ∃ last, c.pending.getLast? = some last ∧ last.epoch = endEpoch := by
  unfold GroupCommitController.acquireSyncRange at h
  split at h
  · cases h
  split at h
  · cases h
  rename_i hzero
  split at h
  · cases h
  rename_i last hlast
  cases h
  exact ⟨rfl, rfl, rfl, rfl, by simpa using hzero, last, hlast, rfl⟩

theorem onSync_pending (c : GroupCommitController DurableCallback) (endEpoch : Nat)
    (status : StoreStatus) :
    ((c.onSync endEpoch status).2.map DurableCallback.callback)
        ++ (c.onSync endEpoch status).1.pending.flatMap PendingEpoch.waiting
      = c.pending.flatMap PendingEpoch.waiting := by
  have hwaiting : ∀ ps : List (PendingEpoch DurableCallback),
      (ps.flatMap fun p => p.callbacks.filterMap id).map DurableCallback.callback
        = ps.flatMap PendingEpoch.waiting := by
    intro ps
    rw [List.map_flatMap]
    rfl
  unfold GroupCommitController.onSync GroupCommitController.onSyncSuccess
    GroupCommitController.onSyncFailure
  split
  · split
    · rfl
    · rw [hwaiting, ← List.flatMap_append, GroupCommitController.covered,
        List.takeWhile_append_dropWhile]
  split
  · rfl
  rw [hwaiting]
  exact List.append_nil _

/-! ## §2 — A callback is in one place. -/

def Event.passes : Event → Nat
  | .append _ true _ => 1
  | _ => 0

theorem placed_fire (s : LogPersister) (callbacks : List DurableCallback) (status : StoreStatus)
    (t : Nat) :
    (s.fire callbacks status).placed t
      = s.placed t + (callbacks.map DurableCallback.callback).count t := by
  simp only [placed, fire, registered, List.map_append, map_fst_told, List.count_append]
  have := count_fire callbacks t
  omega

theorem placed_tell (phase : FlushPhase) (hbatch : s.flush.batch = batch)
    (hphase : callbacksOf phase.batch = []) (t : Nat) :
    ({ s.invokeAll batch status with flush := phase } : LogPersister).placed t = s.placed t := by
  simp only [placed, invokeAll, registered, List.map_append, map_fst_told, List.count_append,
    hbatch, hphase, List.count_nil]
  omega

theorem placed_fireBatch (hbatch : s.flush.batch = batch) (t : Nat) :
    ({ s.fire ((batch.map s.durableCallback).filterMap id) status with
        flush := .finishing } : LogPersister).placed t = s.placed t := by
  have hfire := count_fire ((batch.map s.durableCallback).filterMap id) t
  rw [callback_durable] at hfire
  have hnone : callbacksOf FlushPhase.finishing.batch = [] := rfl
  simp only [placed, fire, registered, List.map_append, map_fst_told, List.count_append, hbatch,
    hnone, List.count_nil]
  omega

/-- A flush moves callbacks, and loses none. -/
theorem placed_flushes (h : s.Flushes action s') (t : Nat) : s'.placed t = s.placed t := by
  cases h with
  | nothing hidle hempty => rfl
  | swap hidle hsome =>
    simp only [placed, registered, hidle, FlushPhase.batch, callbacksOf_nil, List.count_nil]
    omega
  | space _ hflush | finish hflush => simp only [placed, registered, hflush, FlushPhase.batch]
  | full status hflush hspace => simp only [placed, registered, fail, hflush, FlushPhase.batch]
  | write hflush hpersister => simp only [placed, registered, called, hflush, FlushPhase.batch]
  | @writeFails batch _ _ told hflush | @noPersister batch _ _ told hflush =>
    refine (placed_tell told (.failed _) ?_ (callbacksOf_clear batch) t).trans rfl
    exact congrArg FlushPhase.batch hflush
  | putBack hflush =>
    simp only [placed, registered, hflush, FlushPhase.batch, callbacksOf_append, callbacksOf_nil,
      List.count_append, List.count_nil]
    omega
  | register hflush hcontroller hregister =>
    obtain ⟨hpending, -⟩ := registered_register hregister
    simp only [placed, registered, hflush, hcontroller, hpending, FlushPhase.batch, callbacksOf_nil,
      List.count_nil, List.flatMap_append, List.flatMap_cons, List.flatMap_nil, List.append_nil,
      List.count_append, PendingEpoch.waiting, callback_durable]
    omega
  | @refused batch syncResult status hflush hstatus =>
    refine (placed_fireBatch (s := s.fail status) status ?_ t).trans rfl
    exact congrArg FlushPhase.batch hflush
  | sync hflush hcontroller hpersister =>
    exact (placed_tell .ok .finishing (congrArg FlushPhase.batch hflush) rfl t).trans rfl
  | syncFails hflush hcontroller hresult =>
    exact (placed_tell _ .finishing (congrArg FlushPhase.batch hflush) rfl t).trans rfl
  | unsynced hflush hpersister =>
    exact placed_tell .ok .finishing (congrArg FlushPhase.batch hflush) rfl t

theorem placed_report (s : LogPersister) (endEpoch : Nat) (status : StoreStatus) (t : Nat) :
    (s.report endEpoch status).placed t = s.placed t := by
  unfold report
  split
  · rfl
  rename_i c hc
  rw [placed_fire]
  have hsplit := congrArg (List.count t) (onSync_pending c endEpoch status)
  rw [List.count_append] at hsplit
  simp only [placed, registered, hc]
  omega

theorem count_nextCallback (s : LogPersister) (callback : Bool) (t : Nat) :
    (s.nextCallback callback).toList.count t
      = if t = s.passed then (if callback then 1 else 0) else 0 := by
  cases callback with
  | false => simp [nextCallback]
  | true =>
    simp only [nextCallback, if_true, Option.toList_some, List.count_singleton, beq_iff_eq]
    simp only [eq_comm]

theorem placed_push (s : LogPersister) (entry : RaftLogEntry) (callback : Bool) (t : Nat) :
    ((s.pass callback).push entry (s.nextCallback callback)).placed t
      = s.placed t + if t = s.passed then (if callback then 1 else 0) else 0 := by
  rw [← count_nextCallback]
  simp only [placed, registered, push, pass, callbacksOf_append, callbacksOf_singleton,
    List.count_append]
  omega

theorem placed_invoke (s : LogPersister) (callback : Bool) (status : StoreStatus) (t : Nat) :
    ((s.pass callback).invoke (s.nextCallback callback) status).placed t
      = s.placed t + if t = s.passed then (if callback then 1 else 0) else 0 := by
  rw [← count_nextCallback]
  cases hnext : s.nextCallback callback with
  | none =>
    show s.placed t = _
    simp
  | some u =>
    simp only [placed, registered, invoke, pass, List.map_append, List.count_append, List.map_cons,
      List.map_nil, Option.toList_some]
    omega

theorem Event.passes_append (entry : RaftLogEntry) (callback : Bool) (statvfs : Option Nat) :
    (Event.append entry callback statvfs).passes = if callback then 1 else 0 := by
  cases callback <;> rfl

theorem passed_pass (s : LogPersister) (callback : Bool) :
    (s.pass callback).passed = s.passed + if callback then 1 else 0 := by
  cases callback <;> rfl

/-- A step changes no count but that of the callback it passes. -/
theorem placed_moves (h : s.Moves e s') (t : Nat) :
    s'.placed t = s.placed t + if t = s.passed then e.passes else 0 := by
  -- every event but `append` passes nothing
  have hkeep : e.passes = 0 → s'.placed t = s.placed t →
      s'.placed t = s.placed t + if t = s.passed then e.passes else 0 := by
    intro he hs
    rw [hs, he, ite_self, Nat.add_zero]
  cases h with
  | @push entry callback statvfs text =>
    rw [Event.passes_append]
    exact placed_push s entry callback t
  | @drop entry callback statvfs told htold =>
    rw [Event.passes_append]
    exact placed_invoke s callback told t
  | flushBegins _ hf | flush _ _ hf | stopFlushBegins _ hf | stopFlush _ _ hf =>
    exact hkeep rfl (placed_flushes hf t)
  | @acquire _ _ _ _ _ hcontroller hrange | @stopAcquire _ _ _ _ _ _ _ _ hcontroller hrange =>
    refine hkeep rfl ?_
    have hpending := (acquire_spec hrange).1
    simp only [placed, registered, hcontroller, hpending]
  | report | stopReport => exact hkeep rfl (placed_report s _ _ t)
  | @runPosted position c hposted =>
    refine hkeep rfl ?_
    have herase := countP_eraseIdx ((· == t) ∘ Prod.fst) hposted
    simp only [placed, registered, List.count, List.map_append, List.countP_append, List.countP_map,
      List.map_cons, List.map_nil, List.countP_singleton]
    simp only [Function.comp_apply] at herase
    omega
  | _ => exact hkeep rfl rfl

/-- Callbacks are counted as they are passed, and a call is not undone. -/
theorem passed_moves (h : s.Moves e s') :
    s'.passed = s.passed + e.passes ∧ s.invoked <+: s'.invoked := by
  cases h with
  | @push entry callback statvfs text =>
    rw [Event.passes_append]
    exact ⟨passed_pass s callback, List.prefix_refl _⟩
  | @drop entry callback statvfs told htold =>
    rw [Event.passes_append, ← passed_pass]
    cases callback
    · exact ⟨rfl, List.prefix_refl _⟩
    · exact ⟨rfl, List.prefix_append _ _⟩
  | flushBegins _ hf | stopFlushBegins _ hf | flush _ _ hf | stopFlush _ _ hf =>
    obtain ⟨t, hprefix, rfl⟩ := hf.frame
    exact ⟨rfl, hprefix⟩
  | report | stopReport =>
    obtain ⟨more, posted, heq⟩ := report_eq s _ _
    rw [heq]
    exact ⟨rfl, List.prefix_append _ _⟩
  | runPosted hposted => exact ⟨rfl, List.prefix_append _ _⟩
  | _ => exact ⟨rfl, List.prefix_refl _⟩

/-- Every callback passed so far is in exactly one place. -/
def Ledger (s : LogPersister) : Prop := ∀ t, s.placed t = if t < s.passed then 1 else 0

theorem Ledger.step (hs : s.Ledger) (h : s.Moves e s') : s'.Ledger := by
  intro t
  have hpasses : e.passes = 0 ∨ e.passes = 1 := by
    unfold Event.passes
    split
    · exact .inr rfl
    · exact .inl rfl
  rw [placed_moves h, (passed_moves h).1, hs t]
  split_ifs <;> omega

/-! ## §3 — `OK` is told for what was written and then synced. -/

/-- The entry of the callback was in a batch whose write succeeded. -/
def Wrote (calls : List PersisterCall) (t : Nat) : Prop :=
  ∃ batch, .write batch .ok ∈ calls ∧ t ∈ callbacksOf batch

/-- It was, and a sync that succeeded followed. -/
def Durable (calls : List PersisterCall) (t : Nat) : Prop :=
  ∃ before after, calls = before ++ .sync .ok :: after ∧ Wrote before t

variable {t : Nat}

theorem Wrote.concat (h : Wrote calls t)
    (c : PersisterCall) : Wrote (calls ++ [c]) t := by
  obtain ⟨batch, hbatch, ht⟩ := h
  exact ⟨batch, List.mem_append_left _ hbatch, ht⟩

theorem Durable.concat (h : Durable calls t)
    (c : PersisterCall) : Durable (calls ++ [c]) t := by
  obtain ⟨before, after, rfl, hw⟩ := h
  exact ⟨before, after ++ [c], by simp, hw⟩

theorem Wrote.sync (h : Wrote calls t) :
    Durable (calls ++ [.sync .ok]) t := ⟨calls, [], rfl, h⟩

theorem wrote_of_mem
    (ht : t ∈ callbacksOf batch) : Wrote (calls ++ [.write batch .ok]) t :=
  ⟨batch, by simp, ht⟩

/-- The epochs of the controller: increasing, all given out, none left when it is unhealthy. -/
structure Epochs (c : GroupCommitController DurableCallback) : Prop where
  given : ∀ p ∈ c.pending, 0 < p.epoch ∧ p.epoch < c.nextEpoch
  sorted : c.pending.Pairwise fun p q => p.epoch < q.epoch
  range : c.syncInProgressEnd < c.nextEpoch
  unhealthy : c.healthy = false → c.pending = []

theorem Epochs.register {n m : Nat} (hc : Epochs c)
    (h : c.registerFlushedBatch n m callbacks = .ok c') : Epochs c' := by
  obtain ⟨hpending, hnext, hend, hhealthy, htrue⟩ := registered_register h
  have hrange := hc.range
  refine ⟨?_, ?_, by omega, ?_⟩
  · intro p hp
    rw [hpending] at hp
    rcases List.mem_append.mp hp with hp | hp
    · have := hc.given p hp
      omega
    · obtain rfl := List.mem_singleton.mp hp
      show 0 < c.nextEpoch ∧ c.nextEpoch < c'.nextEpoch
      omega
  · rw [hpending]
    refine List.pairwise_append.mpr ⟨hc.sorted, List.pairwise_singleton _ _, ?_⟩
    intro p hp q hq
    obtain rfl := List.mem_singleton.mp hq
    exact (hc.given p hp).2
  · intro hunhealthy
    rw [hhealthy, htrue] at hunhealthy
    exact absurd hunhealthy.symm Bool.false_ne_true

theorem Epochs.acquire (hc : Epochs c) (h : c.acquireSyncRange = some (c', first, endEpoch)) :
    Epochs c' := by
  obtain ⟨hpending, hnext, hhealthy, hend, -, last, hlast, hepoch⟩ := acquire_spec h
  have hlt := (hc.given last (List.mem_of_getLast? hlast)).2
  refine ⟨?_, by rw [hpending]; exact hc.sorted, by omega, by rw [hhealthy, hpending]; exact hc.unhealthy⟩
  intro p hp
  rw [hpending] at hp
  rw [hnext]
  exact hc.given p hp

/-- What a sync leaves pending was pending, and the rest of the controller but its range stays. -/
theorem onSync_spec (c : GroupCommitController DurableCallback) (endEpoch : Nat)
    (status : StoreStatus) :
    (c.onSync endEpoch status).1.pending.Sublist c.pending ∧
      (c.onSync endEpoch status).1.nextEpoch = c.nextEpoch ∧
      ((c.onSync endEpoch status).1.syncInProgressEnd = 0 ∨
        (c.onSync endEpoch status).1 = c) ∧
      ((c.onSync endEpoch status).1.healthy = c.healthy ∨
        (c.onSync endEpoch status).1.pending = []) := by
  unfold GroupCommitController.onSync GroupCommitController.onSyncSuccess
    GroupCommitController.onSyncFailure
  split
  · split
    · exact ⟨.refl _, rfl, .inr rfl, .inl rfl⟩
    · exact ⟨List.dropWhile_sublist _, rfl, .inl rfl, .inl rfl⟩
  split
  · exact ⟨.refl _, rfl, .inr rfl, .inl rfl⟩
  · exact ⟨List.nil_sublist _, rfl, .inl rfl, .inr rfl⟩

theorem Epochs.onSync (hc : Epochs c) (endEpoch : Nat) (status : StoreStatus) :
    Epochs (c.onSync endEpoch status).1 := by
  obtain ⟨hsub, hnext, hend, hhealthy⟩ := onSync_spec c endEpoch status
  refine ⟨?_, hc.sorted.sublist hsub, ?_, ?_⟩
  · intro p hp
    rw [hnext]
    exact hc.given p (hsub.subset hp)
  · have hrange := hc.range
    obtain hzero | hsame := hend
    · omega
    · rw [hsame]
      exact hrange
  · intro hunhealthy
    obtain hsame | hnil := hhealthy
    · have hnil := hc.unhealthy (hsame ▸ hunhealthy)
      rw [hnil] at hsub
      exact List.sublist_nil.mp hsub
    · exact hnil

/-- A sync of the range up to `endEpoch` is in flight, with the status it has returned, if any. -/
def InFlight (syncer : SyncThread) (stopping : StopCall) (endEpoch : Nat)
    (status : Option StoreStatus) : Prop :=
  syncer.inFlight = some (endEpoch, status) ∨ stopping.inFlight = some (endEpoch, status)

/-- What a status in flight stands for. -/
structure Covers (calls : List PersisterCall) (c : GroupCommitController DurableCallback)
    (endEpoch : Nat) (status : Option StoreStatus) : Prop where
  given : endEpoch < c.nextEpoch
  durable : status = some .ok → ∀ p ∈ c.pending, p.epoch ≤ endEpoch → ∀ t ∈ p.waiting,
    Durable calls t

/-- Who is told `OK`, and what the places a callback waits in know about its entry. -/
structure Sound (s : LogPersister) : Prop where
  told : ∀ t, (t, .ok) ∈ s.invoked ++ s.posted → Durable s.calls t
  batch : ∀ b, s.flush = .wrote b → s.persister = true ∧ ∀ t ∈ callbacksOf b, Wrote s.calls t
  pending : ∀ c, s.controller = some c → ∀ p ∈ c.pending, ∀ t ∈ p.waiting, Wrote s.calls t
  epochs : ∀ c, s.controller = some c → Epochs c
  sync : ∀ c, s.controller = some c → ∀ endEpoch status,
    InFlight s.syncer s.stopping endEpoch status → Covers s.calls c endEpoch status
  absent : s.persister = false → ∀ c, s.controller = some c → c.pending = []

theorem Covers.concat {status : Option StoreStatus} (h : Covers calls c endEpoch status)
    (call : PersisterCall) : Covers (calls ++ [call]) c endEpoch status := by
  refine ⟨h.given, ?_⟩
  intro hok p hp hle t ht
  exact (h.durable hok p hp hle t ht).concat call

theorem Sound.called (hs : s.Sound) (call : PersisterCall) : (s.called call).Sound where
  told t ht := (hs.told t ht).concat call
  batch b hb := ⟨(hs.batch b hb).1, fun t ht => ((hs.batch b hb).2 t ht).concat call⟩
  pending c hc p hp t ht := (hs.pending c hc p hp t ht).concat call
  epochs := hs.epochs
  sync c hc endEpoch status h := (hs.sync c hc endEpoch status h).concat call
  absent := hs.absent

theorem Sound.fail (hs : s.Sound) (status : StoreStatus) : (s.fail status).Sound :=
  ⟨hs.told, hs.batch, hs.pending, hs.epochs, hs.sync, hs.absent⟩

/-- Calling the callbacks of a batch directly: `OK` takes durable entries, an error nothing. -/
theorem Sound.invokeAll (hs : s.Sound) (batch : List PendingEntry) {status : StoreStatus}
    (hbatch : status = .ok → ∀ t ∈ callbacksOf batch, Durable s.calls t) :
    (s.invokeAll batch status).Sound := by
  refine ⟨?_, hs.batch, hs.pending, hs.epochs, hs.sync, hs.absent⟩
  intro t ht
  simp only [LogPersister.invokeAll, List.mem_append, List.mem_map, Prod.mk.injEq] at ht
  obtain (h | ⟨u, hu, rfl, h⟩) | h := ht
  · exact hs.told t (List.mem_append_left _ h)
  · exact hbatch h u hu
  · exact hs.told t (List.mem_append_right _ h)

theorem mem_fire {callbacks : List DurableCallback} {status told : StoreStatus}
    (h : (t, told) ∈ (s.fire callbacks status).invoked ++ (s.fire callbacks status).posted) :
    (t, told) ∈ s.invoked ++ s.posted ∨
      told = status ∧ t ∈ callbacks.map DurableCallback.callback := by
  have hmem (f : DurableCallback → Option Nat) (hf : ∀ d u, f d = some u → d.callback = u) :
      ∀ u ∈ callbacks.filterMap f, u ∈ callbacks.map DurableCallback.callback := by
    intro u hu
    obtain ⟨d, hd, hdu⟩ := List.mem_filterMap.mp hu
    exact List.mem_map.mpr ⟨d, hd, hf d u hdu⟩
  simp only [fire, List.mem_append, List.mem_map, Prod.mk.injEq] at h
  obtain (h | ⟨u, hu, rfl, rfl⟩) | (h | ⟨u, hu, rfl, rfl⟩) := h
  · exact .inl (List.mem_append_left _ h)
  · refine .inr ⟨rfl, hmem _ ?_ u hu⟩
    rintro (_ | _) <;> simp [DurableCallback.direct?, DurableCallback.callback]
  · exact .inl (List.mem_append_right _ h)
  · refine .inr ⟨rfl, hmem _ ?_ u hu⟩
    rintro (_ | _) <;> simp [DurableCallback.posting?, DurableCallback.callback]

theorem Sound.fire (hs : s.Sound) {callbacks : List DurableCallback} {status : StoreStatus}
    (hdurable : status = .ok → ∀ t ∈ callbacks.map DurableCallback.callback, Durable s.calls t) :
    (s.fire callbacks status).Sound := by
  refine ⟨?_, hs.batch, hs.pending, hs.epochs, hs.sync, hs.absent⟩
  intro t ht
  obtain h | ⟨hok, h⟩ := mem_fire ht
  · exact hs.told t h
  · exact hdurable hok.symm t h

theorem Sound.setFlush (hs : s.Sound) (hphase : ∀ b, phase ≠ .wrote b) :
    ({ s with flush := phase } : LogPersister).Sound :=
  ⟨hs.told, fun b hb => absurd hb (hphase b), hs.pending, hs.epochs, hs.sync, hs.absent⟩

theorem Sound.register (hs : s.Sound) (hflush : s.flush = .wrote batch)
    (hcontroller : s.controller = some c)
    (hregister : c.registerFlushedBatch batch.length (byteSize batch)
      (batch.map s.durableCallback) = .ok c') :
    ({ s with controller := some c', flush := .finishing } : LogPersister).Sound := by
  obtain ⟨hpersister, hwrote⟩ := hs.batch batch hflush
  obtain ⟨hpending, hnext, -⟩ := registered_register hregister
  refine ⟨hs.told, fun b hb => FlushPhase.noConfusion hb, ?_, ?_, ?_, ?_⟩
  · intro d hd p hp t ht
    obtain rfl := Option.some.inj hd
    rw [hpending] at hp
    rcases List.mem_append.mp hp with hp | hp
    · exact hs.pending c hcontroller p hp t ht
    · obtain rfl := List.mem_singleton.mp hp
      rw [PendingEpoch.waiting, callback_durable] at ht
      exact hwrote t ht
  · intro d hd
    obtain rfl := Option.some.inj hd
    exact (hs.epochs c hcontroller).register hregister
  · -- the new epoch lies behind every range that was taken before
    intro d hd endEpoch status hflight
    obtain rfl := Option.some.inj hd
    obtain ⟨hgiven, hdurable⟩ := hs.sync c hcontroller endEpoch status hflight
    refine ⟨by omega, ?_⟩
    intro hok p hp hle t ht
    rw [hpending] at hp
    rcases List.mem_append.mp hp with hp | hp
    · exact hdurable hok p hp hle t ht
    · obtain rfl := List.mem_singleton.mp hp
      have hle' : c.nextEpoch ≤ endEpoch := hle
      omega
  · intro hno
    exact absurd (hno.symm.trans hpersister) Bool.false_ne_true

theorem Sound.flushes (hs : s.Sound) (h : s.Flushes action s') : s'.Sound := by
  cases h with
  | nothing hidle hempty => exact hs
  | swap | space | full | putBack | finish =>
    exact ⟨hs.told, fun b hb => FlushPhase.noConfusion hb, hs.pending, hs.epochs, hs.sync, hs.absent⟩
  | @write batch hflush hpersister =>
    have hcalled := hs.called (.write batch .ok)
    refine ⟨hcalled.told, ?_, hcalled.pending, hcalled.epochs, hcalled.sync, hcalled.absent⟩
    intro b hb
    cases hb
    exact ⟨hpersister, fun t ht => wrote_of_mem ht⟩
  | @writeFails batch result status told hflush hpersister hresult htold =>
    have hfailed := (hs.called (.write batch result)).fail status
    exact (hfailed.invokeAll batch fun h => absurd h htold).setFlush fun b => FlushPhase.noConfusion
  | @noPersister batch result status told hflush hpersister htold =>
    have htell := (hs.fail status).invokeAll batch fun h => absurd h htold
    exact htell.setFlush fun b => FlushPhase.noConfusion
  | register hflush hcontroller hregister => exact hs.register hflush hcontroller hregister
  | @refused batch syncResult status hflush hstatus =>
    exact ((hs.fail status).fire fun h => absurd h hstatus).setFlush fun b => FlushPhase.noConfusion
  | @sync batch hflush hcontroller hpersister =>
    refine ((hs.called (.sync .ok)).invokeAll batch ?_).setFlush fun b => FlushPhase.noConfusion
    intro _ t ht
    exact ((hs.batch batch hflush).2 t ht).sync
  | @syncFails batch syncResult hflush hcontroller hresult =>
    have hfailed := (hs.called (.sync syncResult)).fail syncResult
    exact (hfailed.invokeAll batch fun h => absurd h hresult).setFlush
      fun b => FlushPhase.noConfusion
  | @unsynced batch syncResult hflush hpersister =>
    exact absurd (hpersister.symm.trans (hs.batch batch hflush).1) Bool.false_ne_true

theorem mem_onSync (h : t ∈ (c.onSync endEpoch .ok).2.map DurableCallback.callback) :
    ∃ p ∈ c.pending, p.epoch ≤ endEpoch ∧ t ∈ p.waiting := by
  simp only [GroupCommitController.onSync, if_true, GroupCommitController.onSyncSuccess] at h
  split at h
  · exact absurd h List.not_mem_nil
  rw [List.map_flatMap] at h
  obtain ⟨p, hp, ht⟩ := List.mem_flatMap.mp h
  refine ⟨p, (List.takeWhile_sublist _).subset hp, ?_, ht⟩
  have hle := List.mem_takeWhile_imp (show p ∈ c.pending.takeWhile (·.epoch ≤ endEpoch) from hp)
  exact of_decide_eq_true hle

theorem Sound.report (hs : s.Sound) {status : StoreStatus}
    (hflight : InFlight s.syncer s.stopping endEpoch (some status)) :
    (s.report endEpoch status).Sound := by
  unfold LogPersister.report
  split
  · exact hs
  rename_i c hc
  obtain ⟨hsub, hnext, -, -⟩ := onSync_spec c endEpoch status
  have htold : ({ s with controller := some (c.onSync endEpoch status).1 } : LogPersister).Sound := by
    refine ⟨hs.told, hs.batch, ?_, ?_, ?_, ?_⟩
    · intro d hd p hp
      obtain rfl := Option.some.inj hd
      exact hs.pending c hc p (hsub.subset hp)
    · intro d hd
      obtain rfl := Option.some.inj hd
      exact (hs.epochs c hc).onSync endEpoch status
    · intro d hd e st h
      obtain rfl := Option.some.inj hd
      obtain ⟨hgiven, hdurable⟩ := hs.sync c hc e st h
      exact ⟨by omega, fun hok p hp => hdurable hok p (hsub.subset hp)⟩
    · intro hno d hd
      obtain rfl := Option.some.inj hd
      rw [hs.absent hno c hc] at hsub
      exact List.sublist_nil.mp hsub
  refine htold.fire ?_
  rintro rfl t ht
  obtain ⟨p, hp, hle, htp⟩ := mem_onSync ht
  exact (hs.sync c hc endEpoch (some .ok) hflight).durable rfl p hp hle t htp

theorem Sound.setThreads (hs : s.Sound) {running healthy : Bool} {text : Bytes}
    {flusher : FlushThread} {syncer : SyncThread} {returns : List Nat}
    (hsyncer : ∀ x, syncer.inFlight = some x → s.syncer.inFlight = some x)
    (hstopping : ∀ x, stopping.inFlight = some x → s.stopping.inFlight = some x) :
    ({ s with running, healthy, lastError := text, flusher, syncer, stopping, returns } :
      LogPersister).Sound :=
  ⟨hs.told, hs.batch, hs.pending, hs.epochs,
    fun c hc endEpoch status h => hs.sync c hc endEpoch status (h.imp (hsyncer _) (hstopping _)),
    hs.absent⟩

variable {syncer : SyncThread}

/-- A range is taken: its end is an epoch that was given out, and no status is known yet. -/
theorem Sound.acquire (hs : s.Sound) (hcontroller : s.controller = some c)
    (hrange : c.acquireSyncRange = some (c', first, endEpoch))
    (hflight : ∀ e status, InFlight syncer stopping e status → InFlight s.syncer s.stopping e status ∨ e = endEpoch ∧ status = none) :
    ({ s with controller := some c', syncer := syncer, stopping := stopping } : LogPersister).Sound := by
  obtain ⟨hpending, hnext, -, -, -, last, hlast, hepoch⟩ := acquire_spec hrange
  have hc := hs.epochs c hcontroller
  refine ⟨hs.told, hs.batch, ?_, ?_, ?_, ?_⟩
  · intro d hd p hp
    obtain rfl := Option.some.inj hd
    exact hs.pending c hcontroller p (hpending ▸ hp)
  · intro d hd
    obtain rfl := Option.some.inj hd
    exact hc.acquire hrange
  · intro d hd e status h
    obtain rfl := Option.some.inj hd
    obtain hold | ⟨rfl, rfl⟩ := hflight e status h
    · obtain ⟨hgiven, hdurable⟩ := hs.sync c hcontroller e status hold
      refine ⟨by omega, ?_⟩
      rw [hpending]
      exact hdurable
    · have hlt := (hc.given last (List.mem_of_getLast? hlast)).2
      refine ⟨by omega, ?_⟩
      intro hok
      cases hok
  · intro hno d hd
    obtain rfl := Option.some.inj hd
    rw [hpending]
    exact hs.absent hno c hcontroller

/-- The persister has synced: what was pending before had been written before. -/
theorem Sound.synced (hs : s.Sound) {result : StoreStatus}
    (hacquired : InFlight s.syncer s.stopping endEpoch none)
    (hflight : ∀ e status, InFlight syncer stopping e status → InFlight s.syncer s.stopping e status ∨ e = endEpoch ∧ status = some result) :
    ({ s.called (.sync result) with syncer := syncer, stopping := stopping } : LogPersister).Sound := by
  have hcalled := hs.called (.sync result)
  refine ⟨hcalled.told, hcalled.batch, hcalled.pending, hcalled.epochs, ?_, hcalled.absent⟩
  intro c hc e status h
  obtain hold | ⟨rfl, rfl⟩ := hflight e status h
  · exact hcalled.sync c hc e status hold
  · refine ⟨(hs.sync c hc e none hacquired).given, ?_⟩
    intro hok p hp _ t ht
    obtain rfl := Option.some.inj hok
    exact (hs.pending c hc p hp t ht).sync

theorem Sound.moves (hs : s.Sound) (h : s.Moves e s') : s'.Sound := by
  cases h with
  | startAgain hrunning => exact hs
  | start | wake =>
    refine hs.setThreads ?_ fun _ h => h
    intro x h
    split at h <;> cases h
  | push | flushTest | stopAtOnce =>
    exact ⟨hs.told, hs.batch, hs.pending, hs.epochs, hs.sync, hs.absent⟩
  | @drop entry callback statvfs told htold =>
    cases callback with
    | false => exact ⟨hs.told, hs.batch, hs.pending, hs.epochs, hs.sync, hs.absent⟩
    | true =>
      have htell := hs.invokeAll [⟨entry, some s.passed⟩] fun h => absurd h htold
      exact ⟨htell.told, htell.batch, htell.pending, htell.epochs, htell.sync, htell.absent⟩
  | flushBegins hflusher hf =>
    exact (hs.flushes hf).setThreads (fun _ h => h) fun _ h => h
  | flush _ _ hf | stopFlush _ _ hf => exact hs.flushes hf
  | noRange hsyncer =>
    exact hs.setThreads (fun _ h => nomatch h) fun _ h => h
  | acquire hsyncer hcontroller hrange =>
    refine hs.acquire hcontroller hrange ?_
    rintro e status (h | h)
    · cases h
      exact .inr ⟨rfl, rfl⟩
    · exact .inl (.inr h)
  | sync hsyncer hpersister =>
    refine hs.synced (.inl (by rw [hsyncer]; rfl)) ?_
    rintro e status (h | h)
    · cases h
      exact .inr ⟨rfl, rfl⟩
    · exact .inl (.inr h)
  | @noSync endEpoch result hsyncer hpersister =>
    refine ⟨hs.told, hs.batch, hs.pending, hs.epochs, ?_, hs.absent⟩
    intro c hc e status h
    -- without a persister nothing is ever pending
    have hnone := hs.absent hpersister c hc
    obtain h | h := h
    · have hgiven := (hs.sync c hc endEpoch none (.inl (by rw [hsyncer]; rfl))).given
      cases h
      refine ⟨hgiven, ?_⟩
      intro _ p hp
      rw [hnone] at hp
      exact absurd hp List.not_mem_nil
    · exact hs.sync c hc e status (.inr h)
  | @report endEpoch status healthy text hsyncer =>
    have hs' := hs.report (.inl (by rw [hsyncer]; rfl) : InFlight s.syncer s.stopping endEpoch (some status))
    exact hs'.setThreads (fun _ h => nomatch h) fun _ h => h
  | @runPosted position c hposted =>
    refine ⟨?_, hs.batch, hs.pending, hs.epochs, hs.sync, hs.absent⟩
    intro t ht
    refine hs.told t ?_
    simp only [List.mem_append, List.mem_singleton] at ht ⊢
    obtain (h | h) | h := ht
    · exact .inl h
    · exact .inr (h ▸ List.mem_of_getElem? hposted)
    · exact .inr ((List.eraseIdx_sublist _ _).subset h)
  | stop | joined | stopNoRange | stopReturn =>
    exact hs.setThreads (fun _ h => h) fun _ h => nomatch h
  | stopFlushBegins hstopping hf =>
    exact (hs.flushes hf).setThreads (fun _ h => h) fun _ h => nomatch h
  | stopAcquire hstopping hidle hpersister hcontroller hrange =>
    refine hs.acquire hcontroller hrange ?_
    rintro e status (h | h)
    · exact .inl (.inl h)
    · cases h
      exact .inr ⟨rfl, rfl⟩
  | stopSync hstopping =>
    refine hs.synced (.inr (by rw [hstopping]; rfl)) ?_
    rintro e status (h | h)
    · exact .inl (.inl h)
    · cases h
      exact .inr ⟨rfl, rfl⟩
  | @stopReport before endEpoch status hstopping =>
    have hs' := hs.report (.inr (by rw [hstopping]; rfl) : InFlight s.syncer s.stopping endEpoch (some status))
    exact hs'.setThreads (fun _ h => h) fun _ h => nomatch h

end LogPersister

end RollingRaft
