/-
# RollingRaft.Handlers — AppendEntries and InstallSnapshot on the receiving side
(`rpc_handlers.cpp`).

Both handlers check terms under `election_mtx_`, let go of it, and do their work under
`replication_mtx_` without looking at role or term again. The two phases are separate functions;
what a handler carries from one to the next is in `Call`.
-/
import RollingRaft.Election

namespace RollingRaft

open Lib

/-- A received snapshot whose last chunk has arrived. -/
structure ReceivedSnapshot where
  index : Index
  term : Term
  data : Bytes
  deriving DecidableEq

/-- A call between two of its sections, holding none of the group's locks. `respTerm` is the term
that the response was given in the first phase. -/
inductive FollowerCall where
  /-- `HandleAppendEntries` between its phases. -/
  | append (reply : ReplyTo) (respTerm : Term) (req : AppendEntriesRequest)
  /-- `HandleInstallSnapshot` between phases 1 and 2. -/
  | chunk (reply : ReplyTo) (respTerm : Term) (req : InstallSnapshotRequest)
  /-- `HandleInstallSnapshot`, phase 2b. -/
  | restore (reply : ReplyTo) (respTerm : Term) (received : ReceivedSnapshot)
  /-- `HandleInstallSnapshot` between phases 2b and 2c. -/
  | install (reply : ReplyTo) (respTerm : Term) (received : ReceivedSnapshot)
  deriving DecidableEq

namespace RaftGroup

/-! ## §1 — Phase 1: terms. -/

/-- Record who leads; the address is updated when it is known. -/
def noteLeader (g : RaftGroup) (leaderId : NodeId) : RaftGroup :=
  { g with el := { g.el with
      leaderId := leaderId
      leaderAddr := (g.mem.peerMap.lookup leaderId).getD g.el.leaderAddr } }

/-- `HandleAppendEntries`, the rest of phase 1 after a step-down. -/
def appendEntriesRest (g : RaftGroup) (reply : ReplyTo) (req : AppendEntriesRequest) :
    RaftGroup × Option FollowerCall :=
  if req.term < g.el.currentTerm then
    (g.emit (.replied reply (.append { term := g.el.currentTerm })), none)
  else
    let g := g.noteLeader req.leaderId
    let g := { g with el := { g.el with
      lastLeaderContact := g.env.now, hasLeaderContact := true } }
    (g.resetElectionTimer, some (.append reply g.el.currentTerm req))

/-- `HandleInstallSnapshot`, the rest of phase 1 after a step-down. -/
def installSnapshotRest (g : RaftGroup) (reply : ReplyTo) (req : InstallSnapshotRequest) :
    RaftGroup × Option FollowerCall :=
  ((g.noteLeader req.leaderId).resetElectionTimer, some (.chunk reply g.el.currentTerm req))

/-- `HandleAppendEntries`, phase 1. -/
def handleAppendEntries (g : RaftGroup) (reply : ReplyTo) (req : AppendEntriesRequest) :
    RaftGroup × Option Waiting × Option FollowerCall :=
  let g := g.recordActivity false
  if !g.mem.config.isVoter req.leaderId then
    (g.emit (.replied reply (.append { term := g.el.currentTerm })), none, none)
  else if g.el.currentTerm < req.term then
    (g.stepDownElection req.term, some (.stepDown true (.appendEntries reply req)), none)
  else
    let r := g.appendEntriesRest reply req
    (r.1, none, r.2)

/-- `HandleInstallSnapshot`, phase 1. -/
def handleInstallSnapshot (g : RaftGroup) (reply : ReplyTo) (req : InstallSnapshotRequest) :
    RaftGroup × Option Waiting × Option FollowerCall :=
  if !g.mem.config.isVoter req.leaderId || req.term < g.el.currentTerm then
    (g.emit (.replied reply (.snapshot g.el.currentTerm)), none, none)
  else if g.el.currentTerm < req.term then
    (g.stepDownElection req.term, some (.stepDown true (.installSnapshot reply req)), none)
  else
    let r := g.installSnapshotRest reply req
    (r.1, none, r.2)

/-! ## §2 — AppendEntries, phase 2: the log. -/

def setLog (g : RaftGroup) (l : RaftLog) : RaftGroup := { g with rep := { g.rep with log := l } }

/-- The first loop: cut the log at the first entry of another term. -/
def truncateConflict (g : RaftGroup) : List LogEntry → RaftGroup
  | [] => g
  | e :: es =>
    if g.getLogTerm e.index ≠ 0 && g.getLogTerm e.index ≠ e.term then
      g.setLog (g.rep.log.truncateSuffix e.index)
    else g.truncateConflict es

/-- The second loop: append what is not there yet. An entry that does not extend the log ends it,
with the index that was expected. -/
def appendNew (g : RaftGroup) : List LogEntry → RaftGroup × Option Index
  | [] => (g, none)
  | e :: es =>
    if e.index < g.rep.log.startIndex then g.appendNew es
    else if g.getLogTerm e.index ≠ 0 && g.getLogTerm e.index = e.term then g.appendNew es
    else if e.index ≠ g.rep.log.newIndex then (g, some g.rep.log.newIndex)
    else (g.setLog (g.rep.log.append e.term e.data).1).appendNew es

def storeEntries (g : RaftGroup) (entries : List LogEntry) : RaftGroup × Option Index :=
  (g.truncateConflict entries).appendNew entries

/-- The update of `commit_index_` on a follower. -/
def followCommit (g : RaftGroup) (leaderCommit : Index) : RaftGroup :=
  if g.rep.commitIndex < leaderCommit then
    ({ g with rep := { g.rep with
        commitIndex := min leaderCommit g.rep.log.getLastLogInfo.1 } }).applyCommitted
  else g

/-- The checks on `prev_log`: the conflict index of a rejection. -/
def prevLogConflict (g : RaftGroup) (req : AppendEntriesRequest) : Option Index :=
  if 0 < req.prevLogIndex && add32 req.prevLogIndex 1 < g.rep.log.startIndex then
    some g.rep.log.startIndex
  else if 0 < req.prevLogIndex && g.getLogTerm req.prevLogIndex ≠ req.prevLogTerm then
    some req.prevLogIndex
  else none

/-- `HandleAppendEntries`, phase 2. -/
def replicate (g : RaftGroup) (respTerm : Term) (req : AppendEntriesRequest) :
    RaftGroup × AppendEntriesResponse :=
  match g.prevLogConflict req with
  | some i => (g, { term := respTerm, conflictIndex := i })
  | none =>
    let r := g.storeEntries req.entries
    match r.2 with
    | some i => (r.1, { term := respTerm, conflictIndex := i })
    | none =>
      (r.1.followCommit req.leaderCommit,
        { term := respTerm, success := true, entriesCount := req.entries.length })

/-- A node that aborted sends no more. -/
def replyUnlessHalted (g : RaftGroup) (reply : ReplyTo) (response : Response) : RaftGroup :=
  if g.halt.isSome then g else g.emit (.replied reply response)

/-! ## §3 — InstallSnapshot, phase 2: the snapshot. -/

def resetReceive (g : RaftGroup) : RaftGroup :=
  { g with snap := { g.snap with
      recvFile := none, recvIndex := 0, recvTerm := 0, recvExpectedOffset := 0 } }

/-- A chunk at offset 0 starts a transfer; it is not written when the file cannot be created. -/
def startReceive (g : RaftGroup) (req : InstallSnapshotRequest) : RaftGroup × Bool :=
  ({ g with snap := { g.snap with
      recvFile := some [], recvIndex := req.lastIncludedIndex, recvTerm := req.lastIncludedTerm
      recvExpectedOffset := 0 } }).write

/-- A later chunk has to continue the transfer; anything else ends it. -/
def continueReceive (g : RaftGroup) (req : InstallSnapshotRequest) : RaftGroup × Bool :=
  if g.snap.recvFile.isNone || req.lastIncludedIndex ≠ g.snap.recvIndex
      || req.lastIncludedTerm ≠ g.snap.recvTerm || req.offset ≠ g.snap.recvExpectedOffset then
    (g.resetReceive, false)
  else (g, true)

/-- Find the transfer a chunk belongs to; `false` when the chunk is dropped. -/
def openReceive (g : RaftGroup) (req : InstallSnapshotRequest) : RaftGroup × Bool :=
  if req.offset = 0 then g.startReceive req else g.continueReceive req

/-- A chunk is written to the file; the last one hands the file over. -/
def storeChunk (g : RaftGroup) (req : InstallSnapshotRequest) :
    RaftGroup × Option ReceivedSnapshot :=
  let file := g.snap.recvFile.getD [] ++ req.data
  if req.done then
    let g := g.resetReceive
    ({ g with snap := { g.snap with restoreInProgress := true } },
      some ⟨req.lastIncludedIndex, req.lastIncludedTerm, file⟩)
  else
    ({ g with snap := { g.snap with
        recvFile := some file
        recvExpectedOffset := g.snap.recvExpectedOffset + req.data.length } }, none)

/-- `HandleInstallSnapshot`, phase 2: the received snapshot when this was its last chunk. -/
def receiveChunk (g : RaftGroup) (req : InstallSnapshotRequest) :
    RaftGroup × Option ReceivedSnapshot :=
  if req.offset = 0 && g.snap.restoreInProgress then (g, none)
  else
    let r := g.openReceive req
    if !r.2 then (r.1, none)
    else
      let w := r.1.write
      if w.2 then w.1.storeChunk req else (w.1, none)

/-- `HandleInstallSnapshot`, phase 2c, unless a newer snapshot or commit overtook it. -/
def installReceived (g : RaftGroup) (received : ReceivedSnapshot) : RaftGroup :=
  if received.index ≤ g.snap.lastSnapshotIndex || received.index < g.rep.commitIndex then g
  else
    { g with
      rep := { g.rep with
        log := g.rep.log.setStartIndex (add32 received.index 1), commitIndex := received.index }
      snap := { g.snap with
        lastSnapshotIndex := received.index, lastSnapshotTerm := received.term }
      app := { g.app with
        lastApplied := received.index, applyQueue := [], lastEnqueued := received.index } }

/-- The end of phases 2b and 2c. -/
def endRestore (g : RaftGroup) : RaftGroup :=
  { g with snap := { g.snap with restoreInProgress := false } }

/-- One section of a follower's call; `restored` is the outcome of `RestoreStream` in phase 2b. -/
def runFollowerCall (g : RaftGroup) (restored : Bool) : FollowerCall → RaftGroup × Option FollowerCall
  | .append reply respTerm req =>
    let r := g.replicate respTerm req
    (r.1.replyUnlessHalted reply (.append r.2), none)
  | .chunk reply respTerm req =>
    let r := g.receiveChunk req
    match r.2 with
    | some received => (r.1, some (.restore reply respTerm received))
    | none => (r.1.emit (.replied reply (.snapshot respTerm)), none)
  | .restore reply respTerm received =>
    if restored then
      (g.emit (.restored received.index received.term received.data),
        some (.install reply respTerm received))
    else (g.endRestore.emit (.replied reply (.snapshot respTerm)), none)
  | .install reply respTerm received =>
    ((g.installReceived received).endRestore.emit (.replied reply (.snapshot respTerm)), none)

/-! ## §4 — The guarded frame. -/

variable (g : RaftGroup) (reply : ReplyTo) (entries : List LogEntry) (req : InstallSnapshotRequest)

theorem appendEntriesRest_talks (req : AppendEntriesRequest) :
    Talks GuardedFrame g (g.appendEntriesRest reply req).1 := by
  unfold appendEntriesRest
  split
  · exact ⟨.emit g trivial rfl, .emit g rfl⟩
  · exact .of_eq_guarded rfl rfl rfl

theorem installSnapshotRest_talks : Talks GuardedFrame g (g.installSnapshotRest reply req).1 :=
  .of_eq_guarded rfl rfl rfl

theorem setLog_guarded (l : RaftLog) : GuardedFrame g (g.setLog l) :=
  .of_eq rfl rfl

theorem truncateConflict_guarded : GuardedFrame g (g.truncateConflict entries) := by
  induction entries with
  | nil => exact .refl g
  | cons e es ih =>
    rw [truncateConflict]
    split
    · exact setLog_guarded g _
    · exact ih

theorem appendNew_guarded : GuardedFrame g (g.appendNew entries).1 := by
  induction entries generalizing g with
  | nil => exact .refl g
  | cons e es ih =>
    rw [appendNew]
    split
    · exact ih g
    split
    · exact ih g
    split
    · exact .refl g
    · exact (setLog_guarded g _).trans (ih _)

theorem followCommit_guarded (leaderCommit : Index) :
    GuardedFrame g (g.followCommit leaderCommit) := by
  unfold followCommit
  split
  · exact (applyCommitted_guarded _).after rfl rfl
  · exact .refl g

theorem replicate_guarded (respTerm : Term) (req : AppendEntriesRequest) :
    GuardedFrame g (g.replicate respTerm req).1 := by
  unfold replicate storeEntries
  split
  · exact .refl g
  have hstore := (truncateConflict_guarded g req.entries).trans (appendNew_guarded _ req.entries)
  dsimp only
  split
  · exact hstore
  · exact hstore.trans (followCommit_guarded _ _)

/-- Nothing differs but the snapshot that is being received, and how writes will end. -/
def Receives (g g' : RaftGroup) : Prop :=
  ∃ env file index term offset restoring, g' = { g with
    env := env
    snap := { g.snap with
      recvFile := file, recvIndex := index, recvTerm := term, recvExpectedOffset := offset
      restoreInProgress := restoring } }

theorem receiveChunk_receives : Receives g (g.receiveChunk req).1 := by
  unfold receiveChunk openReceive continueReceive storeChunk
  dsimp only
  repeat' split
  all_goals exact ⟨_, _, _, _, _, _, rfl⟩

theorem receiveChunk_guarded : GuardedFrame g (g.receiveChunk req).1 := by
  obtain ⟨_, _, _, _, _, _, heq⟩ := receiveChunk_receives g req
  rw [heq]
  exact .of_eq rfl rfl

theorem installReceived_guarded (received : ReceivedSnapshot) :
    GuardedFrame g (g.installReceived received) := by
  unfold installReceived
  split <;> exact .of_eq rfl rfl

theorem endRestore_guarded : GuardedFrame g g.endRestore :=
  .of_eq rfl rfl

theorem runFollowerCall_guarded (restored : Bool) (c : FollowerCall) :
    GuardedFrame g (g.runFollowerCall restored c).1 := by
  cases c with
  | append reply respTerm req =>
    show GuardedFrame g ((g.replicate respTerm req).1.replyUnlessHalted reply _)
    unfold replyUnlessHalted
    split
    · exact replicate_guarded g respTerm req
    · exact (replicate_guarded g respTerm req).trans (.emit _ (by trivial) rfl)
  | chunk reply respTerm req =>
    rw [runFollowerCall]
    split
    · exact receiveChunk_guarded g req
    · exact (receiveChunk_guarded g req).trans (.emit _ (by trivial) rfl)
  | restore reply respTerm received =>
    rw [runFollowerCall]
    split
    · exact .emit g trivial rfl
    · exact (endRestore_guarded g).trans (.emit _ (by trivial) rfl)
  | install reply respTerm received =>
    exact ((installReceived_guarded g received).trans (endRestore_guarded _)).trans
      (.emit _ (by trivial) rfl)

end RaftGroup

end RollingRaft
