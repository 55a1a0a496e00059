/-
# RollingRaft.Applier — committing, applying and reads (`log_replicator.cpp`,
`state_machine_applier.cpp`, `client_session_manager.cpp`).

`ApplyCommittedLocked` hands committed entries to the apply thread; configuration changes take
effect at once. The apply thread takes a batch of tasks, reads `last_applied_`, runs the tasks
one by one without any of the group's locks and publishes the new `last_applied_` at the end. These
are separate steps here, since a snapshot may be installed between any two of them.
-/
import RollingRaft.Membership

namespace RollingRaft

open Lib

/-! ## §1 — The session manager. -/

def maxSessions : Nat := 10000

/-- `TouchSession`: a session becomes the most recently used one. -/
def touchSession (sessions : List SessionEntry) (e : SessionEntry) : List SessionEntry :=
  e :: sessions.filter (·.sessionId ≠ e.sessionId)

/-- `IsDuplicate`: the cached result, when the session has seen this sequence number or a later
one. -/
def isDuplicate (sessions : List SessionEntry) (sessionId seqNum : Nat) :
    List SessionEntry × Option ApplyResult :=
  match sessions.find? (·.sessionId = sessionId) with
  | none => (sessions, none)
  | some e => (touchSession sessions e, if seqNum ≤ e.lastSeq then some e.lastResult else none)

/-- `RecordResult`: a new session may push out the least recently used one. -/
def recordResult (sessions : List SessionEntry) (sessionId seqNum : Nat) (result : ApplyResult) :
    List SessionEntry :=
  match sessions.find? (·.sessionId = sessionId) with
  | some _ => touchSession sessions ⟨sessionId, seqNum, result⟩
  | none =>
    let kept := if maxSessions ≤ sessions.length then sessions.dropLast else sessions
    ⟨sessionId, seqNum, result⟩ :: kept

namespace RaftGroup

/-! ## §2 — Handing committed entries to the apply thread. -/

def enqueueTask (g : RaftGroup) (t : ApplyTask) : RaftGroup :=
  { g with app := { g.app with applyQueue := g.app.applyQueue ++ [t] } }

/-- The callback of a committed configuration change is invoked with success. -/
def completeConfigChange (g : RaftGroup) (i : Index) : RaftGroup :=
  match g.rep.pendingProposals.lookup i with
  | none => g
  | some cb =>
    ({ g with rep := { g.rep with pendingProposals := g.rep.pendingProposals.erase i } }).emit
      (.completed cb { success := true, appliedIndex := i })

/-- A regular entry takes its callback and session along to the apply thread. -/
def enqueueEntry (g : RaftGroup) (i : Index) (e : LogEntry) : RaftGroup :=
  let session := (g.rep.proposalSessions.lookup i).getD (0, 0)
  let task : ApplyTask :=
    { index := i, data := e.data, callback := g.rep.pendingProposals.lookup i
      sessionId := session.1, seqNum := session.2 }
  ({ g with rep := { g.rep with
      pendingProposals := g.rep.pendingProposals.erase i
      proposalSessions := g.rep.proposalSessions.erase i } }).enqueueTask task

/-- One round of `ApplyCommittedLocked`. -/
def enqueueNext (g : RaftGroup) : RaftGroup :=
  let i := add32 g.app.lastEnqueued 1
  let g := { g with app := { g.app with lastEnqueued := i } }
  match g.rep.log.getEntry i with
  | none => { g with halt := some .abort }
  | some e =>
    if startsWith e.data (ascii "CONFIG_CHANGE:") then
      ((g.applyConfigChange e.data).completeConfigChange i).enqueueTask
        { index := i, isConfigChange := true }
    else g.enqueueEntry i e

/-- The loop of `ApplyCommittedLocked`; `last_enqueued_` moves by one a round. -/
def enqueueWhileCommitted (g : RaftGroup) : Nat → RaftGroup
  | 0 => g
  | rounds + 1 =>
    if g.app.lastEnqueued < g.rep.commitIndex then
      let g := g.enqueueNext
      if g.halt.isSome then g else g.enqueueWhileCommitted rounds
    else g

/-- `ApplyCommittedLocked`. -/
def applyCommitted (g : RaftGroup) : RaftGroup :=
  g.enqueueWhileCommitted (g.rep.commitIndex - g.app.lastEnqueued)

/-! ## §3 — Committing. -/

/-- How many of the nodes that satisfy `p` hold the log up to `index`, as this leader knows. -/
def replicas (g : RaftGroup) (index : Index) (p : NodeId → Bool) : Nat :=
  (if p g.serverId then 1 else 0) + g.rep.matchIndex.entries.countP fun e => index ≤ e.2 && p e.1

/-- `TryCommitLocked`'s test of one index. -/
def canCommit (g : RaftGroup) (index : Index) : Bool :=
  let c := g.mem.config
  c.jointMajoritySatisfied
    (g.replicas index fun id => c.isJoint && id ∈ c.oldNodes) (g.replicas index c.isVoter)

/-- The loop of `TryCommitLocked`, from `index` downwards. -/
def tryCommitFrom (g : RaftGroup) : Index → RaftGroup
  | 0 => g
  | i + 1 =>
    if g.rep.commitIndex < i + 1 then
      if g.getLogTerm (i + 1) ≠ g.el.currentTerm then g
      else if g.canCommit (i + 1) then
        ({ g with rep := { g.rep with commitIndex := i + 1 } }).applyCommitted
      else g.tryCommitFrom i
    else g

/-- `TryCommitLocked`: entries beyond `flushed_index_` are not considered. -/
def tryCommit (g : RaftGroup) : RaftGroup :=
  g.tryCommitFrom (min g.rep.log.getLastLogInfo.1 g.rep.flushedIndex)

/-! ## §4 — Reads. -/

/-- The reads that `ProcessPendingReadsLocked` completes. -/
def readIsReady (g : RaftGroup) (r : PendingReadIndex) : Bool :=
  (!r.heartbeatsSent || g.mem.config.quorumSatisfied r.acks) && r.readIndex ≤ g.app.lastApplied

def completeRead (g : RaftGroup) (e : Sigma fun _ : Nat => PendingReadIndex) : RaftGroup :=
  ({ g with app := { g.app with pendingReads := g.app.pendingReads.erase e.1 } }).emit
    (.readReady e.2.callback)

/-- `ProcessPendingReadsLocked`. -/
def processPendingReads (g : RaftGroup) : RaftGroup :=
  (g.app.pendingReads.entries.filter fun e => g.readIsReady e.2).foldl completeRead g

/-- `HandleReadIndexAckLocked`. -/
def handleReadIndexAck (g : RaftGroup) (peer : NodeId) (readId : Nat) : RaftGroup :=
  match g.app.pendingReads.lookup readId with
  | none => g
  | some r =>
    let r := { r with acks := insert peer r.acks }
    let g := { g with app := { g.app with pendingReads := g.app.pendingReads.insert readId r } }
    if !r.heartbeatsSent then
      if r.readIndex ≤ g.app.lastApplied then g.processPendingReads else g
    else if g.mem.config.quorumSatisfied r.acks && r.readIndex ≤ g.app.lastApplied then
      g.completeRead ⟨readId, r⟩
    else g

/-- An acknowledgement by `peer` counts for every pending read. -/
def ackReads (g : RaftGroup) (peer : NodeId) : RaftGroup :=
  { g with app := { g.app with
      pendingReads := g.app.pendingReads.entries.foldl
        (fun m e => m.insert e.1 { e.2 with acks := insert peer e.2.acks }) g.app.pendingReads } }

/-- The empty AppendEntries request of a ReadIndex round. -/
def sendReadHeartbeat (readId : Nat) (g : RaftGroup) (peer : NodeId) : RaftGroup :=
  let g := g.touchNextIndex peer
  let req := { g.appendRequest ((g.rep.nextIndex.lookup peer).getD 0) with entries := [] }
  if (Request.appendEntries req).serializes g.opts.json && (g.mem.peerMap.lookup peer).isSome then
    g.emit (.sent peer (.appendEntries req) (.readHeartbeat readId g.out.length))
  else g

/-- The peers `BroadcastReadIndexHeartbeatsLocked` sends to: those without a recent heartbeat, and
as many of the others as a majority needs. -/
def readHeartbeatPeers (g : RaftGroup) : List NodeId :=
  let recent := fun peer =>
    match g.rep.lastHeartbeatSent.lookup peer with
    | some t => g.within t g.rt.heartbeatIntervalMs
    | none => false
  let skip := g.mem.peerMap.keys.filter recent
  let send := g.mem.peerMap.keys.filter (!recent ·)
  let c := g.mem.config
  let majority := if c.isJoint then max c.getMajority c.getOldMajority else c.getMajority
  if send.length + 1 < majority then send ++ skip.take (majority - 1 - send.length) else send

/-- `BroadcastReadIndexHeartbeatsLocked`. -/
def broadcastReadIndexHeartbeats (g : RaftGroup) (readId : Nat) : RaftGroup :=
  let g := g.readHeartbeatPeers.foldl (sendReadHeartbeat readId) g
  match g.app.pendingReads.lookup readId with
  | none => g
  | some r =>
    { g with app := { g.app with
        pendingReads := g.app.pendingReads.insert readId { r with heartbeatsSent := true } } }

/-! ## §5 — The apply thread. -/

def kBatchSize : Nat := 64

def applyTake (g : RaftGroup) : Option RaftGroup :=
  if g.app.thread.working || g.app.thread.stopped || g.app.applyQueue.isEmpty then none
  else
    some { g with app := { g.app with
      applyQueue := g.app.applyQueue.drop kBatchSize
      thread := { working := true, batch := g.app.applyQueue.take kBatchSize } } }

/-- The thread reads `last_applied_`. -/
def applyLoad (g : RaftGroup) : Option RaftGroup :=
  if g.app.thread.working && g.app.thread.newLastApplied.isNone then
    some { g with app := { g.app with
      thread := { g.app.thread with newLastApplied := some g.app.lastApplied } } }
  else none

/-- The callback of a task, when it has one. -/
def runCallback (g : RaftGroup) (cb : Option ProposalCallback) (result : ApplyResult) : RaftGroup :=
  match cb with
  | none => g
  | some cb => g.emit (.completed cb result)

/-- The thread runs its next task; `result` is what the state machine returns, should it be asked.
A task that a snapshot has overtaken is reported as a success without asking. -/
def applyTask (g : RaftGroup) (result : ApplyResult) : Option RaftGroup :=
  match g.app.thread.newLastApplied, g.app.thread.batch with
  | some last, t :: rest =>
    let next := fun last =>
      { g with app := { g.app with
          thread := { g.app.thread with batch := rest, newLastApplied := some last } } }
    if t.index ≤ last then
      some ((next last).runCallback t.callback { success := true, appliedIndex := t.index })
    else if t.isConfigChange then some (next t.index)
    else
      let g := (next t.index).emit (.applied t.index t.data result)
      let g := if t.sessionId = 0 then g else
        { g with app := { g.app with
            sessions := recordResult g.app.sessions t.sessionId t.seqNum result } }
      some (g.runCallback t.callback result)
  | _, _ => none

/-- The thread publishes `last_applied_` and completes the reads that waited for it. -/
def applyPublish (g : RaftGroup) : Option RaftGroup :=
  match g.app.thread.newLastApplied, g.app.thread.batch with
  | some last, [] =>
    some ({ g with app := { g.app with
      lastApplied := last, thread := {} } }).processPendingReads
  | _, _ => none

/-! ## §6 — The guarded frame. -/

variable (g : RaftGroup)

theorem completeConfigChange_guarded (i : Index) : GuardedFrame g (g.completeConfigChange i) := by
  unfold completeConfigChange
  split
  · exact .refl g
  · exact (GuardedFrame.emit _ (by trivial) rfl).after rfl rfl

theorem enqueueNext_guarded : GuardedFrame g g.enqueueNext := by
  have hstart : GuardedFrame g
      { g with app := { g.app with lastEnqueued := add32 g.app.lastEnqueued 1 } } :=
    .of_eq rfl rfl
  unfold enqueueNext
  dsimp only
  split
  · exact .of_eq rfl rfl
  split
  · exact ((hstart.trans (applyConfigChange_guarded _ _)).trans
      (completeConfigChange_guarded _ _)).trans (.of_eq rfl rfl)
  · exact hstart.trans (.of_eq rfl rfl)

theorem enqueueWhileCommitted_guarded (rounds : Nat) :
    GuardedFrame g (g.enqueueWhileCommitted rounds) := by
  induction rounds generalizing g with
  | zero => exact .refl g
  | succ rounds ih =>
    rw [enqueueWhileCommitted]
    split
    · dsimp only
      split
      · exact enqueueNext_guarded g
      · exact (enqueueNext_guarded g).trans (ih _)
    · exact .refl g

theorem applyCommitted_guarded : GuardedFrame g g.applyCommitted :=
  enqueueWhileCommitted_guarded g _

theorem tryCommitFrom_guarded (index : Index) : GuardedFrame g (g.tryCommitFrom index) := by
  induction index with
  | zero => exact .refl g
  | succ i ih =>
    rw [tryCommitFrom]
    split
    · split
      · exact .refl g
      · split
        · exact (applyCommitted_guarded _).after rfl rfl
        · exact ih
    · exact .refl g

theorem tryCommit_guarded : GuardedFrame g g.tryCommit := tryCommitFrom_guarded g _

theorem completeRead_guarded (e : Sigma fun _ : Nat => PendingReadIndex) :
    GuardedFrame g (g.completeRead e) :=
  (GuardedFrame.emit _ (by trivial) rfl).after rfl rfl

theorem processPendingReads_guarded : GuardedFrame g g.processPendingReads :=
  foldl_frame completeRead_guarded _ g

theorem handleReadIndexAck_guarded (peer : NodeId) (readId : Nat) :
    GuardedFrame g (g.handleReadIndexAck peer readId) := by
  unfold handleReadIndexAck
  split
  · exact .refl g
  dsimp only
  split
  · split
    · exact (processPendingReads_guarded _).after rfl rfl
    · exact .of_eq rfl rfl
  split
  · exact (completeRead_guarded _ _).after rfl rfl
  · exact .of_eq rfl rfl

theorem sendReadHeartbeat_talks (readId : Nat) (g : RaftGroup) (peer : NodeId) :
    Talks ElectionFrame g (sendReadHeartbeat readId g peer) := by
  unfold sendReadHeartbeat
  dsimp only
  split
  · exact (Talks.emit _ (by exact ⟨rfl, rfl⟩) rfl).after rfl rfl
  · exact .of_eq rfl rfl

theorem broadcastReadIndexHeartbeats_frame (readId : Nat) :
    ElectionFrame g (g.broadcastReadIndexHeartbeats readId) := by
  have hsent := (foldl_frame (sendReadHeartbeat_talks readId) g.readHeartbeatPeers g).frame
  unfold broadcastReadIndexHeartbeats
  dsimp only
  split
  · exact hsent
  · exact hsent.trans (.of_eq rfl)

theorem runCallback_guarded (cb : Option ProposalCallback) (result : ApplyResult) :
    GuardedFrame g (g.runCallback cb result) := by
  unfold runCallback
  split
  · exact .refl g
  · exact .emit g trivial rfl

theorem applyTask_guarded {g g' : RaftGroup} {result : ApplyResult}
    (h : g.applyTask result = some g') : GuardedFrame g g' := by
  unfold applyTask at h
  split at h
  · dsimp only at h
    split at h
    · cases h
      exact (runCallback_guarded _ _ _).after rfl rfl
    split at h
    · cases h
      exact .of_eq rfl rfl
    cases h
    refine GuardedFrame.trans ?_ (runCallback_guarded _ _ _)
    split
    · exact (GuardedFrame.emit _ (by trivial) rfl).after rfl rfl
    exact ((GuardedFrame.emit _ (by trivial) rfl).after rfl rfl).trans (.of_eq rfl rfl)
  · cases h

theorem applyPublish_guarded {g g' : RaftGroup} (h : g.applyPublish = some g') :
    GuardedFrame g g' := by
  unfold applyPublish at h
  split at h
  · cases h
    exact (processPendingReads_guarded _).after rfl rfl
  · cases h

end RaftGroup

end RollingRaft
