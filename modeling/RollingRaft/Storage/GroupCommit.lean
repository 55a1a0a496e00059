/-
# RollingRaft.Storage.GroupCommit — what the storage classes exchange, and `GroupCommitController`.

`RaftLogEntry` with all its fields, `Status` with the codes the storage classes produce, and the
controller that collects the callbacks of flushed batches in epochs until a sync covers them.

Clocks and thresholds (`ShouldSyncNow`, `NextSyncDelay`) only decide when the sync thread wakes up.
Its wait is bounded, so it may wake at any time, and they are left out.
-/
import RollingRaft.Types

namespace RollingRaft

open Lib

/-! ## §1 — Entries and statuses. -/

/-- `RaftLogEntry` as it is stored: the in-memory log keeps `LogEntry`. -/
structure RaftLogEntry where
  index : Index
  term : Term
  data : Bytes
  command : Bytes := []
  checksum : Nat := 0
  deriving DecidableEq

/-- `Status`, with the codes the storage classes use. -/
inductive StoreStatus where
  | ok
  | corruption (message : Bytes)
  | error (message : Bytes)
  deriving DecidableEq

/-- `Status::ToString`. -/
def StoreStatus.toText : StoreStatus → Bytes
  | .ok => ascii "OK"
  | .corruption message => ascii "Corruption: " ++ message
  | .error message => ascii "Error: " ++ message

/-! ## §2 — `GroupCommitController`. -/

/-- `PendingEpoch`: one flushed batch that no sync has covered. -/
structure PendingEpoch (κ : Type) where
  epoch : Nat
  entryCount : Nat
  byteSize : Nat
  callbacks : List (Option κ)
  deriving DecidableEq

structure GroupCommitController (κ : Type) where
  nextEpoch : Nat := 1
  durableEpoch : Nat := 0
  /-- The last epoch of the range being synced, `0` when no sync is in flight. -/
  syncInProgressEnd : Nat := 0
  pending : List (PendingEpoch κ) := []
  healthy : Bool := true
  lastError : StoreStatus := .ok
  deriving DecidableEq

namespace GroupCommitController

variable {κ : Type}

/-- `RegisterFlushedBatch`. The callbacks stay with the caller when it is refused. -/
def registerFlushedBatch (c : GroupCommitController κ) (entryCount byteSize : Nat)
    (callbacks : List (Option κ)) : Except StoreStatus (GroupCommitController κ) :=
  if !c.healthy then
    .error (if c.lastError = .ok then .error (ascii "Group commit controller is unhealthy")
      else c.lastError)
  else
    .ok { c with
      nextEpoch := c.nextEpoch + 1
      pending := c.pending ++ [⟨c.nextEpoch, entryCount, byteSize, callbacks⟩] }

theorem register_error_ne_ok (c : GroupCommitController κ) {entryCount byteSize : Nat}
    {callbacks : List (Option κ)} {status : StoreStatus}
    (h : c.registerFlushedBatch entryCount byteSize callbacks = .error status) : status ≠ .ok := by
  unfold registerFlushedBatch at h
  split at h
  · split at h <;> cases h
    · exact StoreStatus.noConfusion
    · assumption
  · cases h

/-- `AcquireSyncRange`: the range that a sync started now covers. -/
def acquireSyncRange (c : GroupCommitController κ) :
    Option (GroupCommitController κ × Nat × Nat) :=
  if !c.healthy then none
  else if c.syncInProgressEnd ≠ 0 then none
  else
    match c.pending.getLast? with
    | none => none
    | some last =>
      some ({ c with syncInProgressEnd := last.epoch }, c.durableEpoch + 1, last.epoch)

/-- The loop of `OnSyncSuccess` pops the leading epochs up to `endEpoch`. -/
def covered (c : GroupCommitController κ) (endEpoch : Nat) : List (PendingEpoch κ) :=
  c.pending.takeWhile (·.epoch ≤ endEpoch)

/-- `OnSyncSuccess`: the new state and the callbacks to fire. -/
def onSyncSuccess (c : GroupCommitController κ) (endEpoch : Nat) :
    GroupCommitController κ × List κ :=
  if c.syncInProgressEnd = 0 ∨ endEpoch ≠ c.syncInProgressEnd then (c, [])
  else
    ({ c with
        syncInProgressEnd := 0
        durableEpoch := ((c.covered endEpoch).getLast?.map (·.epoch)).getD c.durableEpoch
        pending := c.pending.dropWhile (·.epoch ≤ endEpoch) },
      (c.covered endEpoch).flatMap fun p => p.callbacks.filterMap id)

/-- `OnSyncFailure`: every pending epoch fails, also those flushed after the range was taken. -/
def onSyncFailure (c : GroupCommitController κ) (endEpoch : Nat) (error : StoreStatus) :
    GroupCommitController κ × List κ :=
  if c.syncInProgressEnd = 0 ∨ endEpoch ≠ c.syncInProgressEnd then (c, [])
  else
    ({ c with healthy := false, lastError := error, syncInProgressEnd := 0, pending := [] },
      c.pending.flatMap fun p => p.callbacks.filterMap id)

/-- What both callers of `persister_->Sync()` do with its status. -/
def onSync (c : GroupCommitController κ) (endEpoch : Nat) (status : StoreStatus) :
    GroupCommitController κ × List κ :=
  if status = .ok then c.onSyncSuccess endEpoch else c.onSyncFailure endEpoch status

end GroupCommitController

end RollingRaft
