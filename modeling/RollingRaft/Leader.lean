/-
# RollingRaft.Leader — a leader's timers and the responses it gets (`log_replicator.cpp`,
`snapshot_manager.cpp`).

A response carries the number of entries it acknowledges but not which request it answers: it is
attributed to the head of the peer's `inflight_` queue. `head` below is that entry.
-/
import RollingRaft.Handlers

namespace RollingRaft

open Lib

namespace RaftGroup

/-! ## §1 — Progress of a peer. -/

/-- `match_index_[peer]`, `0` when missing. -/
def matchOf (g : RaftGroup) (peer : NodeId) : Index := (g.rep.matchIndex.lookup peer).getD 0

/-- `next_index_[peer]`, `0` when missing. -/
def nextOf (g : RaftGroup) (peer : NodeId) : Index := (g.rep.nextIndex.lookup peer).getD 0

/-- Store both. Every access is by subscript, so both entries exist afterwards. -/
def setProgress (g : RaftGroup) (peer : NodeId) (matchIdx nextIdx : Index) : RaftGroup :=
  { g with rep := { g.rep with
      matchIndex := g.rep.matchIndex.insert peer matchIdx
      nextIndex := g.rep.nextIndex.insert peer nextIdx } }

def setInflight (g : RaftGroup) (peer : NodeId) (batches : List InflightEntry) : RaftGroup :=
  { g with rep := { g.rep with inflight := g.rep.inflight.insert peer batches } }

/-- `last_contact_time_[peer] = now`. -/
def noteContact (g : RaftGroup) (peer : NodeId) : RaftGroup :=
  { g with rep := { g.rep with lastContactTime := g.rep.lastContactTime.insert peer g.env.now } }

/-- `ScheduleAppendEntriesRetryLocked`, as far as it changes state. -/
def scheduleRetryLocked (g : RaftGroup) (peer : NodeId) : RaftGroup :=
  if !g.running || g.el.role ≠ .leader then g
  else
    let attempts := (g.rep.retryAttempts.lookup peer).getD 0 + 1
    if g.rt.maxRetryAttempts < attempts then
      { g with rep := { g.rep with retryAttempts := g.rep.retryAttempts.erase peer } }
    else { g with rep := { g.rep with retryAttempts := g.rep.retryAttempts.insert peer attempts } }

/-- `ScheduleAppendEntriesRetry`: an AppendEntries RPC failed. -/
def scheduleAppendEntriesRetry (g : RaftGroup) (peer : NodeId) (isHeartbeat : Bool) : RaftGroup :=
  let g :=
    if isHeartbeat then g
    else
      match g.rep.inflight.lookup peer with
      | some (head :: _) =>
        let g := g.setInflight peer []
        { g with rep := { g.rep with nextIndex := g.rep.nextIndex.insert peer head.startIndex } }
      | _ => g
  g.scheduleRetryLocked peer

/-- The timer of a retry, and the prompt resend after a rejected heartbeat. -/
def resend (g : RaftGroup) (peer : NodeId) : RaftGroup :=
  if g.el.role = .leader then g.sendAppendEntriesToPeer peer else g

/-- The quorum and lease bookkeeping of an acknowledgement. -/
def noteAck (g : RaftGroup) (peer : NodeId) : RaftGroup :=
  let g := g.noteContact peer
  let g := if g.opts.checkQuorumEnabled then
      { g with rep := { g.rep with quorumAcks := g.rep.quorumAcks.insert peer g.env.now } }
    else g
  let acks := 1 + g.rep.quorumAcks.entries.countP fun e =>
    g.within e.2 g.rt.electionTimeoutMs && g.mem.config.isVoter e.1
  let g := if g.mem.config.getMajority ≤ acks then
      { g with rep := { g.rep with
          leaderLeaseExpiry := g.env.now + (g.rt.electionTimeoutMs : Nat) } }
    else g
  g.ackReads peer

/-! ## §2 — Responses to AppendEntries. -/

/-- A response with no batch in flight: a late one. -/
def handleLateResponse (g : RaftGroup) (peer : NodeId) (success : Bool) : RaftGroup :=
  if success then g
  else
    (g.setProgress peer (g.matchOf peer)
      (max (add32 (g.matchOf peer) 1) (sub32 (g.nextOf peer) 1))).scheduleRetryLocked peer

/-- The last index that a success for the batch `head` acknowledges. -/
def ackedIndex (head : InflightEntry) (entriesCount : Nat) : Index :=
  sub32 (add32 head.startIndex entriesCount) 1

/-- The progress of a peer after a success for the batch `head`. -/
def advanceProgress (g : RaftGroup) (peer : NodeId) (head : InflightEntry) (entriesCount : Nat) :
    RaftGroup :=
  let newMatch := max (g.matchOf peer) (ackedIndex head entriesCount)
  g.setProgress peer newMatch (max (g.nextOf peer) (add32 newMatch 1))

/-- `retry_state_.erase(peer)`. -/
def clearRetry (g : RaftGroup) (peer : NodeId) : RaftGroup :=
  { g with rep := { g.rep with retryAttempts := g.rep.retryAttempts.erase peer } }

/-- `HandleAppendEntriesResponse` on success. -/
def appendSucceeded (g : RaftGroup) (peer : NodeId) (head : InflightEntry) (entriesCount : Nat) :
    RaftGroup :=
  let g := (((g.advanceProgress peer head entriesCount).clearRetry peer).noteAck peer).tryCommit
  if g.halt.isSome then g
  else if g.nextOf peer ≤ g.rep.log.getLastLogInfo.1 then
    (g.touchNextIndex peer).sendAppendEntriesToPeer peer
  else g.touchNextIndex peer

/-- The progress of a peer that rejected the batch `head`. -/
def rewindProgress (g : RaftGroup) (peer : NodeId) (head : InflightEntry) (conflictIndex : Index) :
    RaftGroup :=
  if 0 < conflictIndex then
    g.setProgress peer
      (if conflictIndex ≤ g.matchOf peer then conflictIndex - 1 else g.matchOf peer) conflictIndex
  else
    let next := max 1 (sub32 head.startIndex 1)
    g.setProgress peer (if next ≤ g.matchOf peer then next - 1 else g.matchOf peer) next

/-- `HandleAppendEntriesResponse` on failure: all batches in flight are given up. -/
def appendFailed (g : RaftGroup) (peer : NodeId) (head : InflightEntry) (conflictIndex : Index) :
    RaftGroup :=
  (((g.setInflight peer []).rewindProgress peer head conflictIndex).noteContact
    peer).scheduleRetryLocked peer

def handleAppendEntriesResponse (g : RaftGroup) (peer : NodeId) (resp : AppendEntriesResponse) :
    RaftGroup × Option Waiting :=
  if !g.running || g.el.role ≠ .leader then (g, none)
  else if g.el.currentTerm < resp.term then
    (g.stepDownElection resp.term, some (.stepDown true .nothing))
  else
    match g.rep.inflight.lookup peer with
    | some (head :: rest) =>
      let g := g.setInflight peer rest
      if resp.success then (g.appendSucceeded peer head resp.entriesCount, none)
      else (g.appendFailed peer head resp.conflictIndex, none)
    | _ => (g.handleLateResponse peer resp.success, none)

/-- A rejected heartbeat: rewind, or send a snapshot to a peer that is ahead. -/
def heartbeatRejected (g : RaftGroup) (peer : NodeId) (conflictIndex : Index) : RaftGroup :=
  let g := g.noteContact peer
  let last := g.rep.log.getLastLogInfo.1
  if 0 < conflictIndex then
    if last < conflictIndex then g.sendInstallSnapshotToPeer peer
    else
      let next := min conflictIndex (add32 last 1)
      g.setProgress peer (if next ≤ g.matchOf peer then sub32 next 1 else g.matchOf peer) next
  else
    g.setProgress peer (g.matchOf peer) (max (add32 (g.matchOf peer) 1) (sub32 (g.nextOf peer) 1))

/-- `HandleHeartbeatResponse`. A successful one does not move `match_index_`. -/
def handleHeartbeatResponse (g : RaftGroup) (peer : NodeId) (resp : AppendEntriesResponse) :
    RaftGroup × Option Waiting :=
  if !g.running || g.el.role ≠ .leader then (g, none)
  else if g.el.currentTerm < resp.term then
    (g.stepDownElection resp.term, some (.stepDown true .nothing))
  else if resp.success then (g.noteAck peer, none)
  else (g.heartbeatRejected peer resp.conflictIndex, none)

/-! ## §3 — The heartbeat timer and CheckQuorum. -/

/-- The voters heard of within the election timeout, and this node. -/
def ackedVoters (g : RaftGroup) : Finset NodeId :=
  (g.rep.quorumAcks.entries.filter fun e =>
    g.within e.2 g.rt.electionTimeoutMs && g.mem.config.isVoter e.1).foldl
      (fun s e => insert e.1 s) {g.serverId}

/-- `CheckQuorumLocked`; the replication lock is held, so the step-down is not interrupted. -/
def checkQuorum (g : RaftGroup) : RaftGroup :=
  if !g.running || g.el.role ≠ .leader then g
  else if g.electionQuorumSatisfied g.ackedVoters then g
  else (g.stepDownElection g.el.currentTerm).stepDownRest true

/-- `ShouldEnterQuiescedLocked`. -/
def shouldEnterQuiesced (g : RaftGroup) : Bool :=
  g.opts.quiescedModeEnabled && !g.qs.quiesced && 0 ≤ g.env.now - g.qs.lastActivityTime &&
    g.opts.quiescedIdleThresholdMs ≤ g.elapsed g.qs.lastActivityTime

/-- `OnHeartbeatTimeoutLocked`. -/
def onHeartbeatTimeout (g : RaftGroup) : RaftGroup :=
  if !g.running || g.el.role ≠ .leader then g
  else
    let g := if g.shouldEnterQuiesced then g.enterQuiesced else g
    if g.halt.isSome then g
    else if g.qs.quiesced && g.app.pendingReads.entries.isEmpty then g
    else
      let g := if g.opts.checkQuorumEnabled then g.checkQuorum else g
      if g.halt.isSome || g.el.role ≠ .leader then g else g.broadcastAppendEntries

/-- `CheckHeartbeatTimeoutLocked`. -/
def heartbeatTick (g : RaftGroup) : RaftGroup :=
  if !g.rep.heartbeatTimerEnabled || g.env.now < g.rep.heartbeatDeadline then g
  else
    let interval :=
      if g.qs.quiesced then g.opts.quiescedHeartbeatIntervalMs else g.rt.heartbeatIntervalMs
    ({ g with rep := { g.rep with
        heartbeatDeadline := g.rep.heartbeatDeadline + (interval : Nat) } }).onHeartbeatTimeout

/-! ## §4 — Snapshots: compaction, preparation, transfer. -/

/-- `ApplySnapshotLocked`. -/
def applySnapshot (g : RaftGroup) (index : Index) (term : Term) : RaftGroup :=
  if !g.running || g.el.role ≠ .leader then g
  else if index ≤ g.snap.lastSnapshotIndex then g
  else if index < g.rep.log.getLastLogInfo.1 then g
  else
    { g with
      rep := { g.rep with log := g.rep.log.setStartIndex (add32 index 1) }
      snap := { g.snap with lastSnapshotIndex := index, lastSnapshotTerm := term } }

/-- The locked part of `PrepareSnapshotForPeer`. -/
def installPrepared (g : RaftGroup) (peer : NodeId) (snapshot : Snapshot) : RaftGroup :=
  match g.snap.sends.lookup peer with
  | none => g
  | some st =>
    if !g.running || g.el.role ≠ .leader then g.setSend peer { st with inProgress := false }
    else if st.snapshot.isSome then g
    else
      let behind : Bool := match g.rep.nextIndex.lookup peer with
        | some next => next < g.rep.log.startIndex
        | none => false
      if behind then
        (g.setSend peer { st with
          snapshot := some snapshot.data, offset := 0, inProgress := true
          lastIncludedIndex := snapshot.lastIncludedIndex
          lastIncludedTerm := snapshot.lastIncludedTerm }).sendNextSnapshotChunk peer
      else g.setSend peer { st with inProgress := false }

/-- `PrepareSnapshotForPeer`: nothing is installed when no snapshot could be made. -/
def prepareSnapshotForPeer (g : RaftGroup) (peer : NodeId) (snapshot : Option Snapshot) :
    RaftGroup :=
  let g := match snapshot with
    | none => g
    | some snapshot => g.installPrepared peer snapshot
  { g with snap := { g.snap with creating := false } }

/-- `HandleInstallSnapshotResponse`, phase 1: whether phase 2 follows. -/
def handleInstallSnapshotResponse (g : RaftGroup) (respTerm : Term) :
    RaftGroup × Option Waiting × Bool :=
  if !g.running || g.el.role ≠ .leader then (g, none, false)
  else if g.el.currentTerm < respTerm then
    (g.stepDownElection respTerm, some (.stepDown true .nothing), false)
  else (g, none, true)

/-- `HandleInstallSnapshotResponse`, phase 2. The transfer is complete when the last chunk sent was
a short one, whichever request this response answers. -/
def snapshotResponded (g : RaftGroup) (peer : NodeId) (rpcSuccess : Bool) : RaftGroup :=
  match g.snap.sends.lookup peer with
  | none => g
  | some st =>
    if !rpcSuccess then g.setSend peer { st with inProgress := false }
    else if st.lastChunkSize < kSnapshotChunkSize then
      let g := g.setProgress peer st.lastIncludedIndex (add32 st.lastIncludedIndex 1)
      ({ g with snap := { g.snap with sends := g.snap.sends.erase peer } }).tryCommit
    else
      (g.setSend peer { st with
        offset := st.offset + st.lastChunkSize, inProgress := true }).sendNextSnapshotChunk peer

/-- The timer that resends a chunk. -/
def resendChunk (g : RaftGroup) (peer : NodeId) : RaftGroup :=
  if g.el.role = .leader then g.sendNextSnapshotChunk peer else g

/-! ## §5 — Persisted entries. -/

/-- `OnLogEntryPersisted` on failure, under `election_mtx_`. -/
def persistFailed (g : RaftGroup) (index : Index) : RaftGroup × Option Waiting :=
  if g.el.role = .leader then
    (g.stepDownElection g.el.currentTerm, some (.stepDown false (.failProposal index)))
  else (g, none)

/-- `OnLogEntryPersisted` on failure, under `replication_mtx_`. -/
def failProposal (g : RaftGroup) (index : Index) (errorMessage : Bytes) : RaftGroup :=
  match g.rep.pendingProposals.lookup index with
  | none => g
  | some cb =>
    ({ g with rep := { g.rep with
        pendingProposals := g.rep.pendingProposals.erase index } }).emit
      (.completed cb { errorMessage := errorMessage })

/-- `OnLogEntryPersisted` on success. -/
def persistSucceeded (g : RaftGroup) (index : Index) : RaftGroup :=
  if !g.running || g.el.role ≠ .leader then g
  else
    ({ g with rep := { g.rep with flushedIndex := max g.rep.flushedIndex index } }).tryCommit

/-! ## §6 — The guarded frame. -/

variable (g : RaftGroup) (peer : NodeId) (index : Index) (head : InflightEntry)
  (snapshot : Snapshot) (conflictIndex : Index)

theorem setInflight_guarded (batches : List InflightEntry) :
    GuardedFrame g (g.setInflight peer batches) :=
  .of_eq rfl rfl

theorem noteContact_guarded : GuardedFrame g (g.noteContact peer) :=
  .of_eq rfl rfl

theorem setSend_frame (st : SnapshotSendState) : ElectionFrame g (g.setSend peer st) :=
  .of_eq rfl

theorem scheduleRetryLocked_talks : Talks GuardedFrame g (g.scheduleRetryLocked peer) := by
  unfold scheduleRetryLocked
  split
  · exact .refl g
  dsimp only
  split <;> exact .of_eq_guarded rfl rfl rfl

theorem scheduleAppendEntriesRetry_talks (isHeartbeat : Bool) :
    Talks GuardedFrame g (g.scheduleAppendEntriesRetry peer isHeartbeat) := by
  refine Talks.trans ?_ (scheduleRetryLocked_talks _ peer)
  split
  · exact .refl g
  split
  · exact .of_eq_guarded rfl rfl rfl
  · exact .refl g

theorem resend_talks : Talks GuardedFrame g (g.resend peer) := by
  unfold resend
  split
  · exact .of_leader (sendAppendEntriesToPeer_talks g peer) ‹_›
  · exact .refl g

theorem noteAck_guarded : GuardedFrame g (g.noteAck peer) := by
  unfold noteAck
  dsimp only
  split <;> split <;> exact .of_eq rfl rfl

theorem handleLateResponse_talks (success : Bool) :
    Talks GuardedFrame g (g.handleLateResponse peer success) := by
  unfold handleLateResponse
  split
  · exact .refl g
  · exact (scheduleRetryLocked_talks _ peer).after_guarded rfl rfl rfl

theorem appendSucceeded_guarded (entriesCount : Nat) (hrole : g.el.role = .leader) :
    GuardedFrame g (g.appendSucceeded peer head entriesCount) := by
  have hprogress : GuardedFrame g ((g.advanceProgress peer head entriesCount).clearRetry peer) :=
    .of_eq rfl rfl
  have hcommit := (hprogress.trans (noteAck_guarded _ peer)).trans (tryCommit_guarded _)
  unfold appendSucceeded
  dsimp only
  split
  · exact hcommit
  split
  · have htouch := hcommit.trans (touchNextIndex_talks _ peer).frame
    exact htouch.trans (.of_leader (sendAppendEntriesToPeer_talks _ peer).frame (htouch.role.trans hrole))
  · exact hcommit.trans (touchNextIndex_talks _ peer).frame

theorem appendFailed_talks : Talks GuardedFrame g (g.appendFailed peer head conflictIndex) := by
  refine Talks.trans ?_ (scheduleRetryLocked_talks _ peer)
  unfold rewindProgress
  split <;> exact .of_eq_guarded rfl rfl rfl

theorem heartbeatRejected_guarded (hrole : g.el.role = .leader) :
    GuardedFrame g (g.heartbeatRejected peer conflictIndex) := by
  unfold heartbeatRejected
  dsimp only
  split
  · split
    · exact (noteContact_guarded g peer).trans
        (.of_leader (sendInstallSnapshotToPeer_talks _ peer).frame hrole)
    · exact .of_eq rfl rfl
  · exact .of_eq rfl rfl

theorem applySnapshot_guarded (term : Term) : GuardedFrame g (g.applySnapshot index term) := by
  unfold applySnapshot
  split
  · exact .refl g
  split
  · exact .refl g
  split
  · exact .refl g
  · exact .of_eq rfl rfl

theorem lookup_sends_of_empty {g : RaftGroup} (hsends : g.snap.sends = ∅) (peer : NodeId) :
    g.snap.sends.lookup peer = none := by
  rw [hsends]
  rfl

theorem installPrepared_talks : Talks ElectionFrame g (g.installPrepared peer snapshot) := by
  unfold installPrepared
  split
  · exact .refl g
  split
  · exact .of_eq rfl rfl
  split
  · exact .refl g
  dsimp only
  split
  · split
    · exact (sendNextSnapshotChunk_talks _ peer).after rfl rfl
    · exact .of_eq rfl rfl
  · exact .of_eq rfl rfl

theorem installPrepared_guarded : GuardedFrame g (g.installPrepared peer snapshot) := by
  refine ⟨(installPrepared_talks g peer snapshot).frame, fun hrole => ?_⟩
  unfold installPrepared
  split
  · exact ⟨fun _ ho _ => ho, id⟩
  rename_i st hlookup
  rw [if_pos (by simp [hrole])]
  refine ⟨fun _ ho _ => ho, fun hsends => ?_⟩
  rw [lookup_sends_of_empty hsends] at hlookup
  cases hlookup

theorem prepareSnapshotForPeer_talks (snapshot : Option Snapshot) :
    Talks GuardedFrame g (g.prepareSnapshotForPeer peer snapshot) := by
  cases snapshot with
  | none => exact .of_eq_guarded rfl rfl rfl
  | some snapshot =>
    have hprepared : Talks GuardedFrame g (g.installPrepared peer snapshot) :=
      ⟨installPrepared_guarded g peer snapshot, (installPrepared_talks g peer snapshot).quiet⟩
    exact hprepared.trans (.of_eq_guarded rfl rfl rfl)

theorem snapshotResponded_frame (rpcSuccess : Bool) :
    ElectionFrame g (g.snapshotResponded peer rpcSuccess) := by
  unfold snapshotResponded
  split
  · exact .refl g
  split
  · exact setSend_frame g peer _
  split
  · exact (tryCommit_guarded _).toElectionFrame.after rfl
  · exact (setSend_frame g peer _).trans (sendNextSnapshotChunk_talks _ peer).frame

/-- A transfer that a follower still held would go on here. -/
theorem snapshotResponded_guarded {g : RaftGroup} {peer : NodeId} {rpcSuccess : Bool}
    (h : g.el.role ≠ .leader → g.snap.sends = ∅) :
    GuardedFrame g (g.snapshotResponded peer rpcSuccess) := by
  by_cases hrole : g.el.role = .leader
  · exact .of_leader (snapshotResponded_frame g peer rpcSuccess) hrole
  unfold snapshotResponded
  rw [lookup_sends_of_empty (h hrole)]
  exact .refl g

theorem resendChunk_talks : Talks GuardedFrame g (g.resendChunk peer) := by
  unfold resendChunk
  split
  · exact .of_leader (sendNextSnapshotChunk_talks g peer) ‹_›
  · exact .refl g

theorem failProposal_guarded (message : Bytes) : GuardedFrame g (g.failProposal index message) := by
  unfold failProposal
  split
  · exact .refl g
  · exact (GuardedFrame.emit _ (by trivial) rfl).after rfl rfl

theorem persistSucceeded_guarded : GuardedFrame g (g.persistSucceeded index) := by
  unfold persistSucceeded
  split
  · exact .refl g
  · exact (tryCommit_guarded _).after rfl rfl

end RaftGroup

end RollingRaft
