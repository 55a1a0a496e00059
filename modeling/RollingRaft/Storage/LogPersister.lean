/-
# RollingRaft.Storage.LogPersister — the asynchronous batching in front of the persister.

`Append` puts an entry and its callback into a buffer. A flush thread takes the whole buffer, checks
the disk space, writes the batch and either syncs it inline or hands its callbacks to the
`GroupCommitController`; a sync thread syncs what was flushed and fires the callbacks. `Stop` joins
both threads, flushes once more and syncs once more.

The critical sections of these threads are the events of a transition system, so that an `Append`
may run between any two of them. What the disk answers (free space, the result of a write, of a
sync) is part of the event. At most one thread is inside `DoFlush`: the flush thread until it has
been joined, then the caller of `Stop`. Calling `Start` while a `Stop` is joining the threads
terminates the program, and is no event.

`passed`, `invoked`, `posted`, `accepted`, `calls` and `returns` record what callers and the
persister observe; the code's decisions never read them.
-/
import RollingRaft.Lib.Transition
import RollingRaft.Storage.GroupCommit

namespace RollingRaft

open Lib

/-! ## §1 — The state. -/

inductive SyncPolicy where
  | syncEveryWrite | syncByInterval | syncByBatchSize | syncAdaptive
  deriving DecidableEq

structure LogPersistenceConfig where
  syncPolicy : SyncPolicy := .syncAdaptive
  minDiskSpaceBytes : Nat := 100 * 1024 * 1024
  /-- Empty: the disk space is not checked. -/
  dataDir : Bytes := []
  /-- Is a `durable_callback_executor` set? -/
  durableCallbackExecutor : Bool := false
  deriving DecidableEq

/-- `PendingEntry`. A callback is known by the number of callbacks passed before it; an empty
`std::function` is nothing. -/
structure PendingEntry where
  entry : RaftLogEntry
  callback : Option Nat
  deriving DecidableEq

/-- A callback as the controller stores it: the user's own, or one that posts it to the executor. -/
inductive DurableCallback where
  | direct (callback : Nat)
  | posting (callback : Nat)
  deriving DecidableEq

/-- The callback that runs at once when the controller fires it. -/
def DurableCallback.direct? : DurableCallback → Option Nat
  | .direct t => some t
  | .posting _ => none

/-- The callback that goes to the executor. -/
def DurableCallback.posting? : DurableCallback → Option Nat
  | .direct _ => none
  | .posting t => some t

/-- How far the running `DoFlush` is. -/
inductive FlushPhase where
  | idle
  /-- The buffer has been taken; the disk space is checked next. -/
  | swapped (batch : List PendingEntry)
  /-- There is space; the batch is written next. -/
  | checked (batch : List PendingEntry)
  /-- The check or the write failed; the batch is put back next. -/
  | failed (batch : List PendingEntry)
  /-- The batch is written; it is registered or synced next. -/
  | wrote (batch : List PendingEntry)
  /-- `flush_in_progress_` is cleared next. -/
  | finishing
  deriving DecidableEq

/-- Where `BackgroundFlushLoop` stands, and where it returns to when its `DoFlush` is over. -/
inductive FlushThread where
  | off
  /-- `running_` is tested next. -/
  | testing
  | waiting
  deriving DecidableEq

/-- Where `BackgroundSyncLoop` stands. -/
inductive SyncThread where
  | off
  | waiting
  /-- `running_` was still set; `AcquireSyncRange` is called next. -/
  | going
  /-- A range is acquired and `persister_->Sync()` is called next. -/
  | acquired (endEpoch : Nat)
  /-- The sync has returned and the controller is told next. -/
  | synced (endEpoch : Nat) (status : StoreStatus)
  deriving DecidableEq

/-- Where the call of `Stop` that found `running_` set stands. `before` is the number of callbacks
passed when it was called. -/
inductive StopCall where
  | none
  | joining (before : Nat)
  | joined (before : Nat)
  | flushing (before : Nat)
  | acquired (before endEpoch : Nat)
  | synced (before endEpoch : Nat) (status : StoreStatus)
  | done (before : Nat)
  deriving DecidableEq

/-- A call of the underlying persister and its result. -/
inductive PersisterCall where
  | write (batch : List PendingEntry) (result : StoreStatus)
  | sync (result : StoreStatus)
  deriving DecidableEq

structure LogPersister where
  config : LogPersistenceConfig
  /-- Is `persister_` set? -/
  persister : Bool
  controller : Option (GroupCommitController DurableCallback)
  running : Bool := false
  healthy : Bool := true
  flushInProgress : Bool := false
  lastError : Bytes := []
  buffer : List PendingEntry := []
  flush : FlushPhase := .idle
  flusher : FlushThread := .off
  syncer : SyncThread := .off
  stopping : StopCall := .none
  /-- The number of callbacks passed to `Append`. -/
  passed : Nat := 0
  /-- The callbacks that have been called, with the status they received. -/
  invoked : List (Nat × StoreStatus) := []
  /-- The callbacks posted to the executor that it has not run. -/
  posted : List (Nat × StoreStatus) := []
  /-- The entries that `Append` put into the buffer, in order. -/
  accepted : List RaftLogEntry := []
  /-- The calls of the persister, in order. -/
  calls : List PersisterCall := []
  /-- For each call of `Stop` that has returned, the number of callbacks passed before it. -/
  returns : List Nat := []
  deriving DecidableEq

namespace LogPersister

/-- The constructor: a controller unless every write is synced. -/
def create (config : LogPersistenceConfig) (persister : Bool) : LogPersister :=
  { config, persister
    controller := if config.syncPolicy = .syncEveryWrite then none else some {} }

/-! ## §2 — Callbacks. -/

/-- `if (cb) cb(status)`. -/
def invoke (s : LogPersister) (callback : Option Nat) (status : StoreStatus) : LogPersister :=
  match callback with
  | none => s
  | some t => { s with invoked := s.invoked ++ [(t, status)] }

/-- The callbacks of a batch that are set. -/
def callbacksOf (batch : List PendingEntry) : List Nat := batch.filterMap (·.callback)

/-- Call every callback of a batch with one status. -/
def invokeAll (s : LogPersister) (batch : List PendingEntry) (status : StoreStatus) :
    LogPersister :=
  { s with invoked := s.invoked ++ (callbacksOf batch).map fun t => (t, status) }

/-- Fire durable callbacks: a wrapped one only posts the user's callback. -/
def fire (s : LogPersister) (callbacks : List DurableCallback) (status : StoreStatus) :
    LogPersister :=
  { s with
    invoked := s.invoked ++ (callbacks.filterMap DurableCallback.direct?).map fun t => (t, status)
    posted := s.posted ++ (callbacks.filterMap DurableCallback.posting?).map fun t => (t, status) }

/-- The callback `DoFlush` gives to the controller for a pending entry. -/
def durableCallback (s : LogPersister) (p : PendingEntry) : Option DurableCallback :=
  p.callback.map fun t => if s.config.durableCallbackExecutor then .posting t else .direct t

/-! ## §3 — `Append`. -/

/-- `CheckDiskSpace`; `statvfs` is the number of bytes available, or nothing when the call fails. -/
def checkDiskSpace (config : LogPersistenceConfig) (statvfs : Option Nat) : StoreStatus :=
  if config.dataDir = [] then .ok
  else
    match statvfs with
    | none => .error (ascii "Cannot check disk space for " ++ config.dataDir)
    | some available =>
      if available < config.minDiskSpaceBytes then
        .error (ascii "Insufficient disk space: available=" ++ ascii (toString available)
          ++ ascii " required=" ++ ascii (toString config.minDiskSpaceBytes))
      else .ok

/-- The push at the end of `Append`. -/
def push (s : LogPersister) (entry : RaftLogEntry) (callback : Option Nat) : LogPersister :=
  { s with buffer := s.buffer ++ [⟨entry, callback⟩], accepted := s.accepted ++ [entry] }

/-- The callback an `Append` passes, if any, is the next one. -/
def nextCallback (s : LogPersister) (callback : Bool) : Option Nat :=
  if callback then some s.passed else none

/-- Count the callback of an `Append`. -/
def pass (s : LogPersister) (callback : Bool) : LogPersister :=
  { s with passed := if callback then s.passed + 1 else s.passed }

/-- `Append`. `running_` is not looked at. -/
def append (s : LogPersister) (entry : RaftLogEntry) (callback : Bool) (statvfs : Option Nat) :
    LogPersister :=
  if !s.healthy then
    match checkDiskSpace s.config statvfs with
    | .ok =>
      { (s.pass callback).push entry (s.nextCallback callback) with healthy := true, lastError := [] }
    | _ =>
      (s.pass callback).invoke (s.nextCallback callback)
        (.error (ascii "Persister is unhealthy: " ++ s.lastError))
  else (s.pass callback).push entry (s.nextCallback callback)

/-! ## §4 — `DoFlush`, one critical section after the other. -/

inductive FlushAction where
  | swap
  | checkSpace (statvfs : Option Nat)
  | write (result : StoreStatus)
  | putBack
  /-- `RegisterFlushedBatch`, or the inline `Sync` with its result. -/
  | complete (syncResult : StoreStatus)
  | finish
  deriving DecidableEq

/-- `healthy_ = false` with the text of a status. -/
def fail (s : LogPersister) (status : StoreStatus) : LogPersister :=
  { s with healthy := false, lastError := status.toText }

def called (s : LogPersister) (c : PersisterCall) : LogPersister := { s with calls := s.calls ++ [c] }

/-- Bytes of a batch as the controller counts them. -/
def byteSize (batch : List PendingEntry) : Nat :=
  (batch.map fun p => p.entry.data.length + p.entry.command.length + 4 + 4).sum

/-- The disk space check of `DoFlush`. -/
def flushCheck (s : LogPersister) (batch : List PendingEntry) (statvfs : Option Nat) :
    LogPersister :=
  match checkDiskSpace s.config statvfs with
  | .ok =>
    { s with
      healthy := true
      lastError := if s.healthy then s.lastError else []
      flush := .checked batch }
  | status => { s.fail status with flush := .failed batch }

/-- `WriteBatch` and its failure branch: the callbacks are told and taken off the entries. -/
def flushWrite (s : LogPersister) (batch : List PendingEntry) (result : StoreStatus) :
    LogPersister :=
  let status := if s.persister then result else .error (ascii "Persister is null")
  let s := if s.persister then s.called (.write batch result) else s
  match status with
  | .ok => { s with flush := .wrote batch }
  | status =>
    { (s.fail status).invokeAll batch (.error (ascii "Flush failed: " ++ status.toText)) with
      flush := .failed (batch.map fun p => { p with callback := none }) }

/-- After a successful write: the callbacks go to the controller, or the batch is synced inline. -/
def flushComplete (s : LogPersister) (batch : List PendingEntry) (syncResult : StoreStatus) :
    LogPersister :=
  match s.controller with
  | some c =>
    let callbacks := batch.map s.durableCallback
    match c.registerFlushedBatch batch.length (byteSize batch) callbacks with
    | .ok c => { s with controller := some c, flush := .finishing }
    | .error status =>
      { (s.fail status).fire (callbacks.filterMap id) status with flush := .finishing }
  | none =>
    if s.persister then
      let s := s.called (.sync syncResult)
      match syncResult with
      | .ok => { s.invokeAll batch .ok with flush := .finishing }
      | status => { (s.fail status).invokeAll batch status with flush := .finishing }
    else { s.invokeAll batch .ok with flush := .finishing }

/-- One section of `DoFlush`. -/
def flushStep (s : LogPersister) : FlushAction → Option LogPersister
  | .swap =>
    if s.flush = .idle then
      if s.buffer = [] then some s
      else some { s with flush := .swapped s.buffer, buffer := [], flushInProgress := true }
    else none
  | .checkSpace statvfs =>
    match s.flush with
    | .swapped batch => some (s.flushCheck batch statvfs)
    | _ => none
  | .write result =>
    match s.flush with
    | .checked batch => some (s.flushWrite batch result)
    | _ => none
  | .putBack =>
    match s.flush with
    | .failed batch =>
      some { s with buffer := s.buffer ++ batch, flushInProgress := false, flush := .idle }
    | _ => none
  | .complete syncResult =>
    match s.flush with
    | .wrote batch => some (s.flushComplete batch syncResult)
    | _ => none
  | .finish =>
    match s.flush with
    | .finishing => some { s with flushInProgress := false, flush := .idle }
    | _ => none

/-! ## §5 — The sync thread and the sync of `Stop`. -/

/-- `persister_->Sync()` where the persister may be missing: the default status is `OK`. -/
def syncPersister (s : LogPersister) (result : StoreStatus) : LogPersister × StoreStatus :=
  if s.persister then (s.called (.sync result), result) else (s, .ok)

/-- Tell the controller the outcome of a sync, and fire what it hands back. -/
def report (s : LogPersister) (endEpoch : Nat) (status : StoreStatus) : LogPersister :=
  match s.controller with
  | none => s
  | some c =>
    { s with controller := some (c.onSync endEpoch status).1 }.fire (c.onSync endEpoch status).2 status

/-- One section of `BackgroundSyncLoop`. -/
inductive SyncAction where
  /-- The wait is over: `running_` is tested. -/
  | wake
  | acquire
  | sync (result : StoreStatus)
  | report
  deriving DecidableEq

def syncStep (s : LogPersister) : SyncAction → Option LogPersister
  | .wake =>
    if s.syncer = .waiting then some { s with syncer := if s.running then .going else .off }
    else none
  | .acquire =>
    if s.syncer = .going then
      match s.controller.bind (·.acquireSyncRange) with
      | some (c, _, endEpoch) => some { s with controller := some c, syncer := .acquired endEpoch }
      | none => some { s with syncer := .waiting }
    else none
  | .sync result =>
    match s.syncer with
    | .acquired endEpoch =>
      some { (s.syncPersister result).1 with
        syncer := .synced endEpoch (s.syncPersister result).2 }
    | _ => none
  | .report =>
    match s.syncer with
    | .synced endEpoch status =>
      let told := s.report endEpoch status
      some { (if status = .ok then told else told.fail status) with syncer := .waiting }
    | _ => none

/-! ## §6 — `Start`, `Stop` and the system. -/

inductive Event where
  | start
  | append (entry : RaftLogEntry) (callback : Bool) (statvfs : Option Nat)
  | flush (action : FlushAction)
  /-- The flush thread tests `running_`: it waits again or ends. -/
  | flushTest
  | sync (action : SyncAction)
  /-- The executor runs the posted callback at a position. -/
  | runPosted (position : Nat)
  | stop
  | stopJoined
  | stopFlush (action : FlushAction)
  | stopAcquire
  | stopSync (result : StoreStatus)
  | stopReport
  | stopReturn
  deriving DecidableEq

def start (s : LogPersister) : Option LogPersister :=
  if s.running then some s
  else if s.stopping = .none ∧ s.flusher = .off ∧ s.syncer = .off then
    some { s with
      running := true
      healthy := true
      flusher := .testing
      syncer := if s.config.syncPolicy = .syncEveryWrite then .off else .waiting }
  else none

/-- The first section of `Stop`: a call that finds `running_` cleared returns at once. -/
def stop (s : LogPersister) : Option LogPersister :=
  if s.running then some { s with running := false, stopping := .joining s.passed }
  else some { s with returns := s.passed :: s.returns }

/-- The last `DoFlush`, called by `Stop`. -/
def stopFlush (s : LogPersister) (action : FlushAction) : Option LogPersister :=
  match s.stopping with
  | .joined before =>
    if action = .swap then
      (s.flushStep .swap).map fun s' => { s' with stopping := .flushing before }
    else none
  | .flushing _ => if action = .swap then none else s.flushStep action
  | _ => none

/-- `AcquireSyncRange` in `Stop`; without a range there is nothing left to do. -/
def stopAcquire (s : LogPersister) : Option LogPersister :=
  match s.stopping with
  | .flushing before =>
    if s.flush = .idle then
      match (if s.persister then s.controller else none).bind (·.acquireSyncRange) with
      | some (c, _, endEpoch) =>
        some { s with controller := some c, stopping := .acquired before endEpoch }
      | none => some { s with stopping := .done before }
    else none
  | _ => none

/-- `DoFlush` in the flush thread. -/
def threadFlush (s : LogPersister) (action : FlushAction) : Option LogPersister :=
  match s.flusher with
  | .off => none
  | .waiting =>
    if action = .swap then (s.flushStep .swap).map fun s' => { s' with flusher := .testing }
    else none
  | .testing => if action = .swap then none else s.flushStep action

def next (s : LogPersister) : Event → Option LogPersister
  | .start => s.start
  | .append entry callback statvfs => some (s.append entry callback statvfs)
  | .flush action => s.threadFlush action
  | .flushTest =>
    if s.flusher = .testing ∧ s.flush = .idle then
      some { s with flusher := if s.running then .waiting else .off }
    else none
  | .sync action => s.syncStep action
  | .runPosted position =>
    match s.posted[position]? with
    | some c => some { s with posted := s.posted.eraseIdx position, invoked := s.invoked ++ [c] }
    | none => none
  | .stop => s.stop
  | .stopJoined =>
    match s.stopping with
    | .joining before =>
      if s.flusher = .off ∧ s.syncer = .off then some { s with stopping := .joined before }
      else none
    | _ => none
  | .stopFlush action => s.stopFlush action
  | .stopAcquire => s.stopAcquire
  | .stopSync result =>
    match s.stopping with
    | .acquired before endEpoch =>
      some { s.called (.sync result) with stopping := .synced before endEpoch result }
    | _ => none
  | .stopReport =>
    match s.stopping with
    | .synced before endEpoch status =>
      some { s.report endEpoch status with stopping := .done before }
    | _ => none
  | .stopReturn =>
    match s.stopping with
    | .done before => some { s with stopping := .none, returns := before :: s.returns }
    | _ => none

def system : TransitionSystem LogPersister Event where
  init s := ∃ config persister, s = create config persister
  next := next

/-! ## §7 — What a step can do.

Every branch of `next` once, with its guards and its result. The texts of errors are arbitrary
here: no fact below depends on them. -/

/-- A section of `DoFlush`. -/
inductive Flushes (s : LogPersister) : FlushAction → LogPersister → Prop
  | nothing (hidle : s.flush = .idle) (hempty : s.buffer = []) : Flushes s .swap s
  | swap (hidle : s.flush = .idle) (hsome : s.buffer ≠ []) :
      Flushes s .swap { s with flush := .swapped s.buffer, buffer := [], flushInProgress := true }
  | space {batch : List PendingEntry} {statvfs : Option Nat} (text : Bytes)
      (hflush : s.flush = .swapped batch) (hspace : checkDiskSpace s.config statvfs = .ok) :
      Flushes s (.checkSpace statvfs)
        { s with healthy := true, lastError := text, flush := .checked batch }
  | full {batch : List PendingEntry} {statvfs : Option Nat} (status : StoreStatus)
      (hflush : s.flush = .swapped batch) (hspace : checkDiskSpace s.config statvfs ≠ .ok) :
      Flushes s (.checkSpace statvfs) { s.fail status with flush := .failed batch }
  | write {batch : List PendingEntry} (hflush : s.flush = .checked batch)
      (hpersister : s.persister = true) :
      Flushes s (.write .ok) { s.called (.write batch .ok) with flush := .wrote batch }
  | writeFails {batch : List PendingEntry} {result status : StoreStatus} (told : StoreStatus)
      (hflush : s.flush = .checked batch) (hpersister : s.persister = true) (hresult : result ≠ .ok)
      (htold : told ≠ .ok) :
      Flushes s (.write result)
        { ((s.called (.write batch result)).fail status).invokeAll batch told with
          flush := .failed (batch.map fun p => { p with callback := none }) }
  | noPersister {batch : List PendingEntry} {result status : StoreStatus} (told : StoreStatus)
      (hflush : s.flush = .checked batch) (hpersister : s.persister = false) (htold : told ≠ .ok) :
      Flushes s (.write result)
        { (s.fail status).invokeAll batch told with
          flush := .failed (batch.map fun p => { p with callback := none }) }
  | putBack {batch : List PendingEntry} (hflush : s.flush = .failed batch) :
      Flushes s .putBack
        { s with buffer := s.buffer ++ batch, flushInProgress := false, flush := .idle }
  | register {batch : List PendingEntry} {syncResult : StoreStatus}
      {c c' : GroupCommitController DurableCallback} (hflush : s.flush = .wrote batch)
      (hcontroller : s.controller = some c)
      (hregister : c.registerFlushedBatch batch.length (byteSize batch)
        (batch.map s.durableCallback) = .ok c') :
      Flushes s (.complete syncResult) { s with controller := some c', flush := .finishing }
  | refused {batch : List PendingEntry} {syncResult status : StoreStatus}
      (hflush : s.flush = .wrote batch) (hstatus : status ≠ .ok) :
      Flushes s (.complete syncResult)
        { (s.fail status).fire ((batch.map s.durableCallback).filterMap id) status with
          flush := .finishing }
  | sync {batch : List PendingEntry} (hflush : s.flush = .wrote batch)
      (hcontroller : s.controller = none) (hpersister : s.persister = true) :
      Flushes s (.complete .ok)
        { (s.called (.sync .ok)).invokeAll batch .ok with flush := .finishing }
  | syncFails {batch : List PendingEntry} {syncResult : StoreStatus}
      (hflush : s.flush = .wrote batch) (hcontroller : s.controller = none)
      (hresult : syncResult ≠ .ok) :
      Flushes s (.complete syncResult)
        { ((s.called (.sync syncResult)).fail syncResult).invokeAll batch syncResult with
          flush := .finishing }
  | unsynced {batch : List PendingEntry} {syncResult : StoreStatus}
      (hflush : s.flush = .wrote batch) (hpersister : s.persister = false) :
      Flushes s (.complete syncResult) { s.invokeAll batch .ok with flush := .finishing }
  | finish (hflush : s.flush = .finishing) :
      Flushes s .finish { s with flushInProgress := false, flush := .idle }

variable {s s' : LogPersister} {batch : List PendingEntry}

theorem flushes_check {statvfs : Option Nat} (hflush : s.flush = .swapped batch) :
    s.Flushes (.checkSpace statvfs) (s.flushCheck batch statvfs) := by
  unfold flushCheck
  cases hspace : checkDiskSpace s.config statvfs with
  | ok => exact .space _ hflush hspace
  | corruption | error => exact .full _ hflush (hspace ▸ StoreStatus.noConfusion)

theorem flushes_write (hflush : s.flush = .checked batch) (result : StoreStatus) :
    s.Flushes (.write result) (s.flushWrite batch result) := by
  unfold flushWrite
  cases hp : s.persister with
  | false => exact .noPersister (.error _) hflush hp StoreStatus.noConfusion
  | true =>
    cases result with
    | ok => exact .write hflush hp
    | corruption | error =>
      exact .writeFails (.error _) hflush hp StoreStatus.noConfusion StoreStatus.noConfusion

theorem flushes_complete (hflush : s.flush = .wrote batch) (syncResult : StoreStatus) :
    s.Flushes (.complete syncResult) (s.flushComplete batch syncResult) := by
  unfold flushComplete
  cases hc : s.controller with
  | some c =>
    dsimp only
    cases hregister : c.registerFlushedBatch batch.length (byteSize batch)
      (batch.map s.durableCallback) with
    | ok c' => exact .register hflush hc hregister
    | error status => exact .refused hflush (c.register_error_ne_ok hregister)
  | none =>
    cases hp : s.persister with
    | false => exact .unsynced hflush hp
    | true =>
      cases syncResult with
      | ok => exact .sync hflush hc hp
      | corruption | error => exact .syncFails hflush hc StoreStatus.noConfusion

theorem flushes_of_flushStep {action : FlushAction} (h : s.flushStep action = some s') :
    s.Flushes action s' := by
  cases action with
  | swap =>
    simp only [flushStep] at h
    split at h
    case isFalse => cases h
    case isTrue hidle =>
      split at h <;> cases h
      · exact .nothing hidle ‹_›
      · exact .swap hidle ‹_›
  | checkSpace statvfs =>
    simp only [flushStep] at h
    split at h <;> cases h
    exact flushes_check ‹_›
  | write result =>
    simp only [flushStep] at h
    split at h <;> cases h
    exact flushes_write ‹_› result
  | complete syncResult =>
    simp only [flushStep] at h
    split at h <;> cases h
    exact flushes_complete ‹_› syncResult
  | putBack | finish =>
    simp only [flushStep] at h
    split at h <;> cases h
    constructor
    assumption

/-- A section of `DoFlush` leaves the threads and the calls of `Stop` alone, and undoes no call. -/
theorem Flushes.frame {action : FlushAction} (h : s.Flushes action s') :
    ∃ t : LogPersister, s.invoked <+: t.invoked ∧ s' = { t with
      running := s.running, flusher := s.flusher, syncer := s.syncer, stopping := s.stopping
      passed := s.passed, returns := s.returns } := by
  refine ⟨s', ?_, ?_⟩
  · cases h <;> first | exact List.prefix_refl _ | exact List.prefix_append _ _
  · cases h <;> rfl

theorem report_eq (s : LogPersister) (endEpoch : Nat) (status : StoreStatus) :
    ∃ more posted, s.report endEpoch status = { s with
      controller := s.controller.map fun c => (c.onSync endEpoch status).1
      invoked := s.invoked ++ more, posted := posted } := by
  unfold report
  split <;> rename_i hc
  · exact ⟨[], s.posted, by rw [hc, List.append_nil, Option.map_none, ← hc]⟩
  · exact ⟨_, _, by rw [hc]; rfl⟩

/-- A step of the system. -/
inductive Moves (s : LogPersister) : Event → LogPersister → Prop
  | startAgain (hrunning : s.running = true) : Moves s .start s
  | start (hrunning : s.running = false) (hstopping : s.stopping = .none)
      (hflusher : s.flusher = .off) (hsyncer : s.syncer = .off) :
      Moves s .start
        { s with
          running := true
          healthy := true
          flusher := .testing
          syncer := if s.config.syncPolicy = .syncEveryWrite then .off else .waiting }
  | push {entry : RaftLogEntry} {callback : Bool} {statvfs : Option Nat} (text : Bytes) :
      Moves s (.append entry callback statvfs)
        { (s.pass callback).push entry (s.nextCallback callback) with
          healthy := true, lastError := text }
  | drop {entry : RaftLogEntry} {callback : Bool} {statvfs : Option Nat} (told : StoreStatus)
      (htold : told ≠ .ok) :
      Moves s (.append entry callback statvfs)
        ((s.pass callback).invoke (s.nextCallback callback) told)
  | flushBegins {s' : LogPersister} (hflusher : s.flusher = .waiting) (h : s.Flushes .swap s') :
      Moves s (.flush .swap) { s' with flusher := .testing }
  | flush {action : FlushAction} {s' : LogPersister} (hflusher : s.flusher = .testing)
      (haction : action ≠ .swap) (h : s.Flushes action s') : Moves s (.flush action) s'
  | flushTest (hflusher : s.flusher = .testing) (hidle : s.flush = .idle) :
      Moves s .flushTest { s with flusher := if s.running then .waiting else .off }
  | wake (hsyncer : s.syncer = .waiting) :
      Moves s (.sync .wake) { s with syncer := if s.running then .going else .off }
  | noRange (hsyncer : s.syncer = .going) : Moves s (.sync .acquire) { s with syncer := .waiting }
  | acquire {c c' : GroupCommitController DurableCallback} {first endEpoch : Nat}
      (hsyncer : s.syncer = .going) (hcontroller : s.controller = some c)
      (hrange : c.acquireSyncRange = some (c', first, endEpoch)) :
      Moves s (.sync .acquire) { s with controller := some c', syncer := .acquired endEpoch }
  | sync {endEpoch : Nat} {result : StoreStatus} (hsyncer : s.syncer = .acquired endEpoch)
      (hpersister : s.persister = true) :
      Moves s (.sync (.sync result))
        { s.called (.sync result) with syncer := .synced endEpoch result }
  | noSync {endEpoch : Nat} {result : StoreStatus} (hsyncer : s.syncer = .acquired endEpoch)
      (hpersister : s.persister = false) :
      Moves s (.sync (.sync result)) { s with syncer := .synced endEpoch .ok }
  | report {endEpoch : Nat} {status : StoreStatus} (healthy : Bool) (text : Bytes)
      (hsyncer : s.syncer = .synced endEpoch status) :
      Moves s (.sync .report)
        { s.report endEpoch status with healthy := healthy, lastError := text, syncer := .waiting }
  | runPosted {position : Nat} {c : Nat × StoreStatus} (hposted : s.posted[position]? = some c) :
      Moves s (.runPosted position)
        { s with posted := s.posted.eraseIdx position, invoked := s.invoked ++ [c] }
  | stop (hrunning : s.running = true) :
      Moves s .stop { s with running := false, stopping := .joining s.passed }
  | stopAtOnce (hrunning : s.running = false) :
      Moves s .stop { s with returns := s.passed :: s.returns }
  | joined {before : Nat} (hstopping : s.stopping = .joining before) (hflusher : s.flusher = .off)
      (hsyncer : s.syncer = .off) : Moves s .stopJoined { s with stopping := .joined before }
  | stopFlushBegins {before : Nat} {s' : LogPersister} (hstopping : s.stopping = .joined before)
      (h : s.Flushes .swap s') : Moves s (.stopFlush .swap) { s' with stopping := .flushing before }
  | stopFlush {before : Nat} {action : FlushAction} {s' : LogPersister}
      (hstopping : s.stopping = .flushing before) (haction : action ≠ .swap)
      (h : s.Flushes action s') : Moves s (.stopFlush action) s'
  | stopAcquire {before : Nat} {c c' : GroupCommitController DurableCallback}
      {first endEpoch : Nat} (hstopping : s.stopping = .flushing before) (hidle : s.flush = .idle)
      (hpersister : s.persister = true) (hcontroller : s.controller = some c)
      (hrange : c.acquireSyncRange = some (c', first, endEpoch)) :
      Moves s .stopAcquire
        { s with controller := some c', stopping := .acquired before endEpoch }
  | stopNoRange {before : Nat} (hstopping : s.stopping = .flushing before) (hidle : s.flush = .idle)
      (hnone : s.persister = true → ∀ c, s.controller = some c → c.acquireSyncRange = none) :
      Moves s .stopAcquire { s with stopping := .done before }
  | stopSync {before endEpoch : Nat} {result : StoreStatus}
      (hstopping : s.stopping = .acquired before endEpoch) :
      Moves s (.stopSync result)
        { s.called (.sync result) with stopping := .synced before endEpoch result }
  | stopReport {before endEpoch : Nat} {status : StoreStatus}
      (hstopping : s.stopping = .synced before endEpoch status) :
      Moves s .stopReport { s.report endEpoch status with stopping := .done before }
  | stopReturn {before : Nat} (hstopping : s.stopping = .done before) :
      Moves s .stopReturn { s with stopping := .none, returns := before :: s.returns }

theorem moves_append (s : LogPersister) (entry : RaftLogEntry) (callback : Bool)
    (statvfs : Option Nat) :
    s.Moves (.append entry callback statvfs) (s.append entry callback statvfs) := by
  unfold append
  cases hhealthy : s.healthy with
  | false =>
    simp only [Bool.not_false, if_true]
    split
    · exact .push []
    · exact .drop _ StoreStatus.noConfusion
  | true =>
    simp only [Bool.not_true, Bool.false_eq_true, if_false]
    have h : (s.pass callback).push entry (s.nextCallback callback) =
        { (s.pass callback).push entry (s.nextCallback callback) with
          healthy := true, lastError := s.lastError } := by
      rw [← hhealthy]; rfl
    rw [h]
    exact .push s.lastError

theorem moves_sync {action : SyncAction} (h : s.syncStep action = some s') :
    s.Moves (.sync action) s' := by
  cases action with
  | wake =>
    simp only [syncStep] at h
    split at h <;> cases h
    exact .wake ‹_›
  | acquire =>
    simp only [syncStep] at h
    split at h
    case isFalse => cases h
    case isTrue hsyncer =>
      split at h <;> cases h
      · rename_i c first endEpoch hrange
        obtain ⟨c₀, hc₀, hrange⟩ := Option.bind_eq_some_iff.mp hrange
        exact .acquire hsyncer hc₀ hrange
      · exact .noRange hsyncer
  | sync result =>
    simp only [syncStep] at h
    split at h <;> cases h
    unfold syncPersister
    split
    · exact .sync ‹_› ‹_›
    · exact .noSync ‹_› (eq_false_of_ne_true ‹_›)
  | report =>
    simp only [syncStep] at h
    split at h <;> cases h
    split
    · exact .report _ _ ‹_›
    · exact .report _ _ ‹_›

theorem moves_stopAcquire (h : s.stopAcquire = some s') : s.Moves .stopAcquire s' := by
  unfold stopAcquire at h
  split at h
  case h_2 => cases h
  rename_i before hstopping
  split at h
  case isFalse => cases h
  rename_i hidle
  split at h <;> cases h
  · rename_i c first endEpoch hrange
    by_cases hp : s.persister = true
    · rw [if_pos hp] at hrange
      obtain ⟨c₀, hc₀, hrange⟩ := Option.bind_eq_some_iff.mp hrange
      exact .stopAcquire hstopping hidle hp hc₀ hrange
    rw [if_neg hp] at hrange
    cases hrange
  · rename_i hnone
    refine .stopNoRange hstopping hidle ?_
    intro hp c hc
    rw [if_pos hp, hc] at hnone
    exact hnone

/-- **What a step can do.** -/
theorem moves_of_next {e : Event} (h : s.next e = some s') : s.Moves e s' := by
  cases e with
  | start =>
    simp only [next, LogPersister.start] at h
    split at h
    · cases h
      exact .startAgain ‹_›
    split at h <;> cases h
    rename_i hrunning hguard
    exact .start (by simpa using hrunning) hguard.1 hguard.2.1 hguard.2.2
  | append entry callback statvfs =>
    cases h
    exact moves_append s entry callback statvfs
  | flush action =>
    simp only [next, threadFlush] at h
    split at h
    · cases h
    · split at h
      · subst action
        obtain ⟨s₁, hs₁, rfl⟩ := Option.map_eq_some_iff.mp h
        exact .flushBegins ‹_› (flushes_of_flushStep hs₁)
      · cases h
    · split at h
      · cases h
      · exact .flush ‹_› ‹_› (flushes_of_flushStep h)
  | flushTest =>
    simp only [next] at h
    split at h <;> cases h
    rename_i hguard
    exact .flushTest hguard.1 hguard.2
  | sync action => exact moves_sync h
  | runPosted position =>
    simp only [next] at h
    split at h <;> cases h
    exact .runPosted ‹_›
  | stop =>
    simp only [next, LogPersister.stop] at h
    split at h <;> cases h
    · exact .stop ‹_›
    · exact .stopAtOnce (eq_false_of_ne_true ‹_›)
  | stopJoined =>
    simp only [next] at h
    split at h
    · split at h <;> cases h
      rename_i hguard
      exact .joined ‹_› hguard.1 hguard.2
    · cases h
  | stopFlush action =>
    simp only [next, LogPersister.stopFlush] at h
    split at h
    · split at h
      · subst action
        obtain ⟨s₁, hs₁, rfl⟩ := Option.map_eq_some_iff.mp h
        exact .stopFlushBegins ‹_› (flushes_of_flushStep hs₁)
      · cases h
    · split at h
      · cases h
      · exact .stopFlush ‹_› ‹_› (flushes_of_flushStep h)
    · cases h
  | stopAcquire => exact moves_stopAcquire h
  | stopSync | stopReport | stopReturn =>
    simp only [next] at h
    split at h <;> cases h
    constructor
    assumption

/-! ## §8 — A small configuration. -/

/-- A persister that asks for 100 bytes of disk space and syncs every write. -/
def smallConfig : LogPersistenceConfig :=
  { syncPolicy := .syncEveryWrite, minDiskSpaceBytes := 100, dataDir := ascii "/d" }

theorem init_small : system.init (create smallConfig true) := ⟨smallConfig, true, rfl⟩

end LogPersister

end RollingRaft
