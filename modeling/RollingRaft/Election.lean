/-
# RollingRaft.Election — roles, elections and votes (`election_manager.cpp`, `quiesced_mode.cpp`,
and the vote handlers of `rpc_handlers.cpp`).

Election state is guarded by `election_mtx_`, but `BecomeFollowerLocked` and `BecomeLeaderLocked`
take `replication_mtx_` half-way, when role and term have already changed. So a section that runs
into one of them stops there: it returns what it is `Waiting` for, and `stepDownRest` or
`becomeLeaderRest` is what it does once it has the replication lock. In between, sections that need
only the replication lock run and see the new role and term.
-/
import RollingRaft.Applier

namespace RollingRaft

open Lib

/-- What a section that stepped down does afterwards, still holding `election_mtx_`. -/
inductive Rest where
  | nothing
  | requestVote (reply : ReplyTo) (req : RequestVoteRequest)
  | appendEntries (reply : ReplyTo) (req : AppendEntriesRequest)
  | installSnapshot (reply : ReplyTo) (req : InstallSnapshotRequest)
  /-- `OnLogEntryPersisted` goes on to fail the proposal at `index`. -/
  | failProposal (index : Index)
  deriving DecidableEq

/-- A section that holds `election_mtx_` and waits for `replication_mtx_`. -/
inductive Waiting where
  /-- Inside `BecomeFollowerLockedImpl`. -/
  | stepDown (persistState : Bool) (rest : Rest)
  /-- Inside `BecomeLeaderLocked`. -/
  | lead
  deriving DecidableEq

namespace RaftGroup

/-! ## §1 — Timers and quiesced mode. -/

/-- `CancelElectionTimerLocked`. -/
def cancelElectionTimer (g : RaftGroup) : RaftGroup :=
  { g with el := { g.el with electionTimerEnabled := false } }

/-- `ResetElectionTimerLocked`: a random timeout between the base timeout and twice that. -/
def resetElectionTimer (g : RaftGroup) : RaftGroup :=
  let base := if g.qs.quiesced then g.opts.quiescedElectionTimeoutMs else g.rt.electionTimeoutMs
  { g with el := { g.el with
      electionDeadline := g.env.now + (base + g.env.draw % (base + 1) : Nat)
      electionTimerEnabled := true } }

/-- `StartHeartbeatTimerLocked`. -/
def startHeartbeatTimer (g : RaftGroup) : RaftGroup :=
  { g with rep := { g.rep with
      heartbeatTimerEnabled := true
      heartbeatDeadline := g.env.now + (g.rt.heartbeatIntervalMs : Nat) } }

/-- `StopHeartbeatTimerLocked`. -/
def stopHeartbeatTimer (g : RaftGroup) : RaftGroup :=
  { g with rep := { g.rep with heartbeatTimerEnabled := false } }

/-- `StartSnapshotCheckTimerLocked`. -/
def startSnapshotCheckTimer (g : RaftGroup) : RaftGroup :=
  if g.snap.checkTimerEnabled then g
  else
    { g with snap := { g.snap with
        checkTimerEnabled := true
        checkDeadline := g.env.now + (g.rt.snapshotCheckIntervalMs : Nat) } }

/-- `ExitQuiescedLocked`. A leader takes `replication_mtx_` here; a caller that holds it already
(`replicationHeld`) locks it a second time. -/
def exitQuiesced (g : RaftGroup) (replicationHeld : Bool) : RaftGroup :=
  if g.qs.quiesced then
    let g := { g with qs := { g.qs with quiesced := false, consecutiveQuiescedTimeouts := 0 } }
    if g.el.role = .leader then
      if replicationHeld then { g with halt := some .deadlock } else g.startHeartbeatTimer
    else g
  else g

/-- `EnterQuiescedLocked`, which is called with `replication_mtx_` held. -/
def enterQuiesced (g : RaftGroup) : RaftGroup :=
  if g.qs.quiesced then g
  else
    let g := { g with qs := { g.qs with quiesced := true, consecutiveQuiescedTimeouts := 0 } }
    if g.el.role = .leader then { g with halt := some .deadlock } else g

/-- `RecordActivityLocked`. -/
def recordActivity (g : RaftGroup) (replicationHeld : Bool) : RaftGroup :=
  ({ g with qs := { g.qs with lastActivityTime := g.env.now } }).exitQuiesced replicationHeld

/-! ## §2 — Becoming a follower. -/

/-- `BecomeFollowerLockedImpl` up to `replication_mtx_`. The vote is kept within a term. -/
def stepDownElection (g : RaftGroup) (term : Term) : RaftGroup :=
  { g with el := { g.el with
      role := .follower
      votedFor := if g.el.currentTerm < term then -1 else g.el.votedFor
      currentTerm := term
      votesReceived := ∅
      preVotesReceived := ∅
      leaderId := -1
      leaderAddr := [] } }

/-- `BecomeFollowerLockedImpl` from `replication_mtx_` on. -/
def stepDownRest (g : RaftGroup) (persistState : Bool) : RaftGroup :=
  let g := { g with
    rep := { g.rep with heartbeatTimerEnabled := false, inflight := ∅ }
    snap := { g.snap with checkTimerEnabled := false, sends := ∅ } }
  if persistState then
    let r := g.resetElectionTimer.saveState
    if r.2 then r.1 else { r.1 with halt := some .abort }
  else g.cancelElectionTimer

/-! ## §3 — Becoming a candidate, becoming a leader. -/

/-- `ElectionQuorumSatisfiedLocked`. -/
def electionQuorumSatisfied (g : RaftGroup) (voters : Finset NodeId) : Bool :=
  g.mem.config.quorumSatisfied voters

/-- What a vote request says about this node's log. -/
def voteRequest (g : RaftGroup) (term : Term) : RequestVoteRequest where
  term := term
  candidateId := g.serverId
  lastLogIndex := g.rep.log.getLastLogInfo.1
  lastLogTerm := g.rep.log.getLastLogInfo.2

/-- `BroadcastRequestVoteLocked`. -/
def broadcastRequestVote (g : RaftGroup) : RaftGroup :=
  g.mem.peerMap.keys.foldl (fun g peer =>
    g.emit (.sent peer (.requestVote (g.voteRequest g.el.currentTerm)) (.vote g.el.currentTerm))) g

/-- `BroadcastPreVoteLocked`. -/
def broadcastPreVote (g : RaftGroup) : RaftGroup :=
  g.mem.peerMap.keys.foldl (fun g peer =>
    g.emit (.sent peer (.preVote (g.voteRequest g.el.preVoteTerm)) (.preVote g.el.preVoteTerm))) g

/-- The progress `BecomeLeaderLocked` starts with for every peer. -/
def forPeers {α : Type} (g : RaftGroup) (value : α) : Map NodeId α :=
  g.mem.peerMap.keys.foldl (fun m peer => m.insert peer value) ∅

/-- `BecomeLeaderLocked` up to `replication_mtx_`. -/
def becomeLeaderElection (g : RaftGroup) : RaftGroup :=
  { g with
    el := { g.el with
      role := .leader, leaderId := g.serverId, leaderAddr := g.opts.listenAddr
      electionTimerEnabled := false }
    rep := { g.rep with
      nextIndex := g.forPeers (add32 g.rep.log.getLastLogInfo.1 1)
      matchIndex := g.forPeers 0
      retryAttempts := ∅, inflight := ∅, clientSessions := ∅
      quorumAcks := g.forPeers g.env.now
      lastContactTime := g.forPeers g.env.now }
    snap := { g.snap with sends := ∅ } }

/-- `BecomeLeaderLocked` from `replication_mtx_` on: a leader in joint mode proposes FINALIZE
again, and every leader sends its first round. -/
def becomeLeaderRest (g : RaftGroup) : RaftGroup :=
  let g := g.startHeartbeatTimer.startSnapshotCheckTimer
  let g := if g.mem.config.isJoint then g.appendFinalize g.mem.config.nodes else g
  g.broadcastAppendEntries

def candidacy (g : RaftGroup) : RaftGroup :=
  { g with el := { g.el with
      role := .candidate
      currentTerm := add32 g.el.currentTerm 1
      votedFor := g.serverId
      votesReceived := {g.serverId} } }

/-- `BecomeCandidateLocked`. -/
def becomeCandidate (g : RaftGroup) : RaftGroup × Option Waiting :=
  let r := g.candidacy.saveState
  if !r.2 then ({ r.1 with halt := some .abort }, none)
  else if r.1.electionQuorumSatisfied r.1.el.votesReceived then
    (r.1.becomeLeaderElection, some .lead)
  else (r.1.broadcastRequestVote.resetElectionTimer, none)

/-! ## §4 — Timeouts. -/

/-- The pre-vote round `OnElectionTimeoutLocked` starts. The election timer is not re-armed. -/
def startPreVote (g : RaftGroup) : RaftGroup × Option Waiting :=
  let g := { g with el := { g.el with
    preVoteRunning := true
    preVotesReceived := {g.serverId}
    preVoteTerm := add32 g.el.currentTerm 1 } }
  if g.electionQuorumSatisfied g.el.preVotesReceived then
    ({ g with el := { g.el with preVoteRunning := false } }).becomeCandidate
  else (g.broadcastPreVote, none)

/-- The end of `OnElectionTimeoutLocked`. -/
def startElection (g : RaftGroup) : RaftGroup × Option Waiting :=
  if g.opts.preVoteEnabled then g.startPreVote else g.becomeCandidate

/-- `OnElectionTimeoutLocked`. -/
def onElectionTimeout (g : RaftGroup) : RaftGroup × Option Waiting :=
  if !g.running || g.el.role = .leader then (g, none)
  else if g.qs.quiesced then
    let g := { g with qs := { g.qs with
      consecutiveQuiescedTimeouts := g.qs.consecutiveQuiescedTimeouts + 1 } }
    if g.opts.quiescedMaxConsecutiveTimeouts ≤ g.qs.consecutiveQuiescedTimeouts then
      (g.exitQuiesced false).startElection
    else (g.resetElectionTimer, none)
  else g.startElection

/-- The election part of `OnStoreTick`. -/
def electionTick (g : RaftGroup) : RaftGroup × Option Waiting :=
  if g.running && g.el.electionTimerEnabled && g.el.electionDeadline ≤ g.env.now then
    g.onElectionTimeout
  else (g, none)

/-- The timer that `OnElectionTimeoutLocked` sets for a pre-vote round. -/
def onPreVoteTimeout (g : RaftGroup) : RaftGroup :=
  if g.el.preVoteRunning then
    ({ g with el := { g.el with
        preVoteRunning := false, preVotesReceived := ∅ } }).resetElectionTimer
  else g

/-! ## §5 — Votes. -/

/-- The candidate's log is at least as up to date as what `GetLastLogInfo` says about ours. -/
def logIsUpToDate (g : RaftGroup) (req : RequestVoteRequest) : Bool :=
  let last := g.rep.log.getLastLogInfo
  last.2 < req.lastLogTerm || (req.lastLogTerm = last.2 && last.1 ≤ req.lastLogIndex)

/-- Leader stickiness: a leader has been heard of within the election timeout. -/
def hasRecentLeader (g : RaftGroup) : Bool :=
  g.opts.checkQuorumEnabled && g.el.hasLeaderContact &&
    g.within g.el.lastLeaderContact g.rt.electionTimeoutMs

/-- `HandleRequestVote` after the step-down. The answer is positive only when the vote is saved, but
the vote stays in memory when the save fails. -/
def voteRest (g : RaftGroup) (req : RequestVoteRequest) : RaftGroup × VoteResponse :=
  let no : VoteResponse := ⟨g.el.currentTerm, false⟩
  if req.term < g.el.currentTerm then (g, no)
  else if !g.mem.config.isVoter req.candidateId then (g, no)
  else if !g.logIsUpToDate req then (g, no)
  else if g.hasRecentLeader then (g, no)
  else if g.el.votedFor = -1 || g.el.votedFor = req.candidateId then
    let g := { g with el := { g.el with votedFor := req.candidateId } }
    let r := g.resetElectionTimer.saveState
    (r.1, ⟨g.el.currentTerm, r.2⟩)
  else (g, no)

/-- `HandleRequestVote`'s rest, with the answer sent. -/
def answerVote (g : RaftGroup) (reply : ReplyTo) (req : RequestVoteRequest) : RaftGroup :=
  let r := g.voteRest req
  r.1.emit (.replied reply (.vote r.2))

def handleRequestVote (g : RaftGroup) (reply : ReplyTo) (req : RequestVoteRequest) :
    RaftGroup × Option Waiting :=
  if g.el.currentTerm < req.term then
    (g.stepDownElection req.term, some (.stepDown true (.requestVote reply req)))
  else (g.answerVote reply req, none)

/-- The answer of `HandlePreVote`, which changes nothing. -/
def preVoteGranted (g : RaftGroup) (req : RequestVoteRequest) : Bool :=
  g.el.currentTerm < req.term && g.mem.config.isVoter req.candidateId && g.logIsUpToDate req &&
    !g.hasRecentLeader

def handlePreVote (g : RaftGroup) (reply : ReplyTo) (req : RequestVoteRequest) : RaftGroup :=
  g.emit (.replied reply (.vote ⟨g.el.currentTerm, g.preVoteGranted req⟩))

def handleRequestVoteResponse (g : RaftGroup) (peer : NodeId) (resp : VoteResponse)
    (originalTerm : Term) : RaftGroup × Option Waiting :=
  if !g.running || g.el.role ≠ .candidate then (g, none)
  else if g.el.currentTerm < resp.term then
    (g.stepDownElection resp.term, some (.stepDown true .nothing))
  else if originalTerm ≠ g.el.currentTerm || resp.term < g.el.currentTerm then (g, none)
  else if resp.voteGranted then
    let g := { g with el := { g.el with votesReceived := insert peer g.el.votesReceived } }
    if g.electionQuorumSatisfied g.el.votesReceived then (g.becomeLeaderElection, some .lead)
    else (g, none)
  else (g, none)

/-- `HandlePreVoteResponse`. A candidate takes no part in pre-vote rounds. -/
def handlePreVoteResponse (g : RaftGroup) (peer : NodeId) (resp : VoteResponse)
    (originalPreVoteTerm : Term) : RaftGroup × Option Waiting :=
  if !g.running || !g.el.preVoteRunning then (g, none)
  else if g.el.role = .candidate || g.el.role = .leader then (g, none)
  else if originalPreVoteTerm ≠ g.el.preVoteTerm then (g, none)
  else if g.el.currentTerm < resp.term then
    let g := { g with el := { g.el with preVoteRunning := false } }
    (g.stepDownElection resp.term, some (.stepDown true .nothing))
  else if resp.voteGranted then
    let g := { g with el := { g.el with preVotesReceived := insert peer g.el.preVotesReceived } }
    if g.electionQuorumSatisfied g.el.preVotesReceived then
      ({ g with el := { g.el with
          preVoteRunning := false, preVotesReceived := ∅ } }).becomeCandidate
    else (g, none)
  else (g, none)

/-! ## §6 — The guarded frame. -/

variable (g : RaftGroup) (held : Bool)

theorem resetElectionTimer_talks : Talks GuardedFrame g g.resetElectionTimer :=
  .of_eq_guarded rfl rfl rfl

theorem exitQuiesced_talks : Talks GuardedFrame g (g.exitQuiesced held) := by
  unfold exitQuiesced
  split
  · dsimp only
    split
    · split <;> exact .of_eq_guarded rfl rfl rfl
    · exact .of_eq_guarded rfl rfl rfl
  · exact .refl g

theorem recordActivity_talks : Talks GuardedFrame g (g.recordActivity held) :=
  (exitQuiesced_talks _ held).after_guarded rfl rfl rfl

theorem stepDownRest_talks (persistState : Bool) :
    Talks GuardedFrame g (g.stepDownRest persistState) := by
  have hclear : Talks GuardedFrame g { g with
      rep := { g.rep with heartbeatTimerEnabled := false, inflight := ∅ }
      snap := { g.snap with checkTimerEnabled := false, sends := ∅ } } :=
    ⟨⟨.of_eq rfl, fun _ => ⟨fun _ ho _ => ho, fun _ => rfl⟩⟩, .of_core rfl rfl⟩
  unfold stepDownRest
  dsimp only
  split
  · have hsave := (hclear.trans (resetElectionTimer_talks _)).trans ⟨.saveState _, .saveState _⟩
    split
    · exact hsave
    · exact hsave.trans (.of_eq_guarded rfl rfl rfl)
  · exact hclear.trans (.of_eq_guarded rfl rfl rfl)

theorem becomeLeaderRest_frame : ElectionFrame g g.becomeLeaderRest := by
  have htimers : ElectionFrame g g.startHeartbeatTimer.startSnapshotCheckTimer := by
    unfold startSnapshotCheckTimer
    split <;> exact .of_eq rfl
  unfold becomeLeaderRest
  dsimp only
  split
  · exact (htimers.trans (appendFinalize_frame _ _)).trans (broadcastAppendEntries_talks _).frame
  · exact htimers.trans (broadcastAppendEntries_talks _).frame

end RaftGroup

end RollingRaft
