/-
# RollingRaft.Proposal — what users and clients ask of a node (`raft_node_core.cpp`,
`HandleClientRequest`).

`HandleClientRequest` checks leadership and the client's session under both locks, releases
`election_mtx_` but keeps `replication_mtx_`, and only then appends (`proposeAndWait`). It waits for
the result without locks, takes `replication_mtx_` again and, holding it, `election_mtx_`.
-/
import RollingRaft.Leader

namespace RollingRaft

open Lib

/-- How the first section of `HandleClientRequest` ends. -/
inductive ClientNext where
  | respond (resp : ClientResponse)
  /-- On to `ReadIndex`, all locks released. -/
  | read
  /-- On to `ProposeAndWaitLocked`, with `replication_mtx_` held. -/
  | propose
  deriving DecidableEq

namespace RaftGroup

/-- `Status::NotLeader(leader_id_, leader_addr_)`. -/
def notLeaderStatus (g : RaftGroup) : Status := .notLeader g.el.leaderId g.el.leaderAddr

def notRunningStatus : Status := .error (ascii "Node not running")

/-! ## §1 — Client requests. -/

def setSession (g : RaftGroup) (clientId : Nat) (s : ClientSession) : RaftGroup :=
  { g with rep := { g.rep with clientSessions := g.rep.clientSessions.insert clientId s } }

/-- `client_sessions_[id]`: a new session is value-initialised. -/
def sessionOf (g : RaftGroup) (clientId : Nat) : ClientSession :=
  (g.rep.clientSessions.lookup clientId).getD {}

/-- `HandleClientRequest` under both locks. An old sequence number and a repeated one are both
answered from the session. -/
def handleClientRequest (g : RaftGroup) (req : ClientRequest) : RaftGroup × ClientNext :=
  let g := g.recordActivity true
  if g.halt.isSome then (g, .respond {})
  else if g.el.role ≠ .leader then
    (g, .respond { error := ascii "Not leader", leaderId := g.el.leaderId
                   leaderAddr := g.el.leaderAddr })
  else if req.readOnly then (g, .read)
  else
    let session := g.sessionOf req.clientId
    let g := g.setSession req.clientId session
    if req.seq ≤ session.lastSeq then
      (g, .respond { success := true, response := session.lastResponse
                     lastAppliedIndex := session.lastIndex
                     leaderId := g.serverId, leaderAddr := g.opts.listenAddr })
    else (g, .propose)

/-- A synchronous write of the new entry: `none` when it fails. An entry that is not found is not
written. -/
def flushNow (g : RaftGroup) (index : Index) : RaftGroup × Bool :=
  if (g.rep.log.getEntry index).isSome then
    let w := g.write
    if w.2 then
      ({ w.1 with rep := { w.1.rep with flushedIndex := max w.1.rep.flushedIndex index } }, true)
    else (w.1, false)
  else (g, true)

/-- `pending_proposals_[index] = callback`. -/
def awaitProposal (g : RaftGroup) (index : Index) (callback : ProposalCallback) : RaftGroup :=
  { g with rep := { g.rep with pendingProposals := g.rep.pendingProposals.insert index callback } }

/-- `ProposeAndWaitLocked` up to the wait: the index waited for, or nothing when the entry could not
be written. The role is not checked. -/
def proposeAndWait (g : RaftGroup) (command : Bytes) (call : Nat) : RaftGroup × Option Index :=
  let c := g.createEntry command
  let f := c.1.flushNow c.2
  if f.2 then ((f.1.awaitProposal c.2 (.client call)).broadcastAppendEntries, some c.2)
  else (f.1, none)

def proposalTimedOut (g : RaftGroup) (index : Index) : RaftGroup × ApplyResult :=
  ({ g with rep := { g.rep with pendingProposals := g.rep.pendingProposals.erase index } },
    { errorMessage := ascii "Command execution timeout" })

/-- The end of `HandleClientRequest`, under both locks again. -/
def finishClientRequest (g : RaftGroup) (req : ClientRequest) (result : ApplyResult) :
    RaftGroup × ClientResponse :=
  let session := g.sessionOf req.clientId
  let session := if result.success then
      { lastSeq := req.seq, lastResponse := result.response, lastIndex := result.appliedIndex
        lastTerm := g.el.currentTerm }
    else session
  (g.setSession req.clientId session,
    { success := result.success, response := result.response, error := result.errorMessage
      lastAppliedIndex := result.appliedIndex
      leaderId := g.serverId, leaderAddr := g.opts.listenAddr })

/-! ## §2 — Propose and ProposeBatch. -/

/-- The session of a proposal is kept for the applier; session 0 is none. -/
def noteProposalSession (g : RaftGroup) (index : Index) (sessionId seqNum : Nat) : RaftGroup :=
  if sessionId = 0 then g else
    { g with rep := { g.rep with
        proposalSessions := g.rep.proposalSessions.insert index (sessionId, seqNum) } }

/-- `Propose`, once the session manager has let it pass. -/
def proposeEntry (g : RaftGroup) (command : Bytes) (call sessionId seqNum : Nat) : RaftGroup :=
  let c := g.createEntry command
  let g := (c.1.noteProposalSession c.2 sessionId seqNum).flushLater c.2
  (g.awaitProposal c.2 (.propose call)).broadcastAppendEntries

def propose (g : RaftGroup) (command : Bytes) (call sessionId seqNum : Nat) :
    RaftGroup × Status :=
  let g := g.recordActivity true
  if g.halt.isSome || !g.running then (g, notRunningStatus)
  else if g.el.role ≠ .leader then (g, g.notLeaderStatus)
  else if sessionId = 0 then (g.proposeEntry command call sessionId seqNum, .ok)
  else
    let d := isDuplicate g.app.sessions sessionId seqNum
    let g := { g with app := { g.app with sessions := d.1 } }
    match d.2 with
    | some cached => (g.emit (.completed (.propose call) cached), .ok)
    | none => (g.proposeEntry command call sessionId seqNum, .ok)

/-- One command of a batch is appended. -/
def appendBatch (g : RaftGroup) : List Bytes → RaftGroup × List Index
  | [] => (g, [])
  | command :: rest =>
    let c := g.createEntry command
    let r := c.1.appendBatch rest
    (r.1, c.2 :: r.2)

/-- The commands of a batch are handed to the persister and wait for their results. -/
def registerBatch (g : RaftGroup) (call : Nat) : Nat → List Index → RaftGroup
  | _, [] => g
  | slot, index :: rest =>
    ((g.flushLater index).awaitProposal index (.batch call slot)).registerBatch call (slot + 1) rest

def proposeBatch (g : RaftGroup) (commands : List Bytes) (call : Nat) : RaftGroup × Status :=
  let g := g.recordActivity true
  if g.halt.isSome || !g.running then (g, notRunningStatus)
  else if g.el.role ≠ .leader then (g, g.notLeaderStatus)
  else if commands.isEmpty then (g, .error (ascii "Empty batch"))
  else
    let b := g.appendBatch commands
    ((b.1.registerBatch call 0 b.2).broadcastAppendEntries.tryCommit, .ok)

/-! ## §3 — Membership calls. -/

def pendingChangeStatus : Status :=
  .error (ascii "A membership change is already in progress; wait for it to commit")

/-- `CONFIG_CHANGE:JOINT:old:new`. -/
def jointCommand (g : RaftGroup) (old new : List NodeId) : Bytes :=
  ascii "CONFIG_CHANGE:JOINT:" ++ nodesToJson g.opts.json old ++ ascii ":"
    ++ nodesToJson g.opts.json new

/-- The entry of a configuration change is appended and written; the change is then pending. -/
def proposeConfigChange (g : RaftGroup) (cmd : Bytes) : RaftGroup × Bool :=
  let c := g.createEntry cmd
  let f := c.1.flushNow c.2
  if f.2 then ({ f.1 with mem := { f.1.mem with pendingConfigChange := true } }, true) else (f.1, false)

/-- A node that joins is replicated to at once. -/
def admitPeer (g : RaftGroup) (id : NodeId) (addr : Bytes) : RaftGroup :=
  { g with
    mem := { g.mem with peerMap := g.mem.peerMap.insert id addr }
    rep := { g.rep with
      nextIndex := g.rep.nextIndex.insert id (add32 g.rep.log.getLastLogInfo.1 1)
      matchIndex := g.rep.matchIndex.insert id 0 } }

/-- The checks that all membership calls begin with; `wrong` is the call's own. -/
def membershipCheck (g : RaftGroup) (wrong : Option Bytes) : Option Status :=
  if !g.running then some notRunningStatus
  else if g.el.role ≠ .leader then some g.notLeaderStatus
  else
    match wrong with
    | some message => some (.error message)
    | none => if g.mem.pendingConfigChange then some pendingChangeStatus else none

def addNode (g : RaftGroup) (id : NodeId) (addr : Bytes) : RaftGroup × Status :=
  let wrong := if g.mem.config.contains id then some (ascii "Node already in cluster") else none
  match g.membershipCheck wrong with
  | some status => (g, status)
  | none =>
    let old := g.mem.config.nodes
    let p := g.proposeConfigChange (g.jointCommand old (old ++ [id]))
    if p.2 then ((p.1.admitPeer id addr).broadcastAppendEntries, .ok) else (p.1, .flushFailed)

def addLearner (g : RaftGroup) (id : NodeId) (addr : Bytes) : RaftGroup × Status :=
  let wrong := if g.mem.config.contains id then some (ascii "Node already in cluster") else none
  match g.membershipCheck wrong with
  | some status => (g, status)
  | none =>
    let p := g.proposeConfigChange
      (ascii "CONFIG_CHANGE:ADD_LEARNER:" ++ ascii (toString id) ++ ascii ":" ++ addr)
    if p.2 then ((p.1.admitPeer id addr).broadcastAppendEntries, .ok) else (p.1, .flushFailed)

def promoteLearner (g : RaftGroup) (id : NodeId) : RaftGroup × Status :=
  let wrong := if id ∈ g.mem.config.learners then none else some (ascii "Node is not a learner")
  match g.membershipCheck wrong with
  | some status => (g, status)
  | none =>
    let old := g.mem.config.nodes
    let p := g.proposeConfigChange (g.jointCommand old (old ++ [id]))
    if p.2 then (p.1.broadcastAppendEntries, .ok) else (p.1, .flushFailed)

/-- `RemoveNode`. A leader that removes itself steps down. -/
def removeNode (g : RaftGroup) (id : NodeId) : RaftGroup × Option Waiting × Status :=
  let wrong := if g.mem.config.contains id then none else some (ascii "Node not in cluster")
  match g.membershipCheck wrong with
  | some status => (g, none, status)
  | none =>
    let old := g.mem.config.nodes
    let p := g.proposeConfigChange (g.jointCommand old (old.filter (· ≠ id)))
    if p.2 then
      let g := (p.1.erasePeer id).broadcastAppendEntries
      if id = g.serverId then
        (g.stepDownElection g.el.currentTerm, some (.stepDown true .nothing), .ok)
      else (g, none, .ok)
    else (p.1, none, .flushFailed)

def transferLeadershipTo (g : RaftGroup) (target : NodeId) : RaftGroup × Option Waiting × Status :=
  if !g.running then (g, none, notRunningStatus)
  else if g.el.role ≠ .leader then (g, none, g.notLeaderStatus)
  else if target = g.serverId then
    (g, none, .error (ascii "Cannot transfer leadership to self"))
  else if (g.mem.peerMap.lookup target).isNone then
    (g, none, .error (ascii "Target node not in cluster"))
  else
    let g := g.sendAppendEntriesToPeer target
    (g.stepDownElection g.el.currentTerm, some (.stepDown true .nothing), .ok)

/-! ## §4 — ReadIndex. -/

/-- `ReadIndex` on a leader: a read under a valid lease needs no heartbeats. -/
def leaderReadIndex (g : RaftGroup) (call : Nat) : RaftGroup :=
  let leaseValid : Bool := g.rt.leaderLeaseEnabled && g.env.now < g.rep.leaderLeaseExpiry
  let readId := g.app.nextReadId
  let r : PendingReadIndex :=
    if leaseValid then { readIndex := g.rep.commitIndex, callback := call }
    else { readIndex := g.rep.commitIndex, callback := call, heartbeatsSent := true
           acks := {g.serverId} }
  let g := { g with app := { g.app with
    nextReadId := readId + 1, pendingReads := g.app.pendingReads.insert readId r } }
  if leaseValid then g.processPendingReads else g.broadcastReadIndexHeartbeats readId

/-- `ReadIndex`; `none` is the forwarding of a follower's request to the leader it knows. -/
def readIndex (g : RaftGroup) (call : Nat) : RaftGroup × Option Status :=
  let g := g.recordActivity false
  if !g.running then (g, some notRunningStatus)
  else if g.el.role = .leader then (g.leaderReadIndex call, some .ok)
  else if g.el.leaderId < 0 || g.el.leaderAddr.isEmpty then (g, some g.notLeaderStatus)
  else (g, none)

/-- `ReadIndex` on a node whose forwarded read was answered with a higher term: `election_mtx_` is
held, `replication_mtx_` is not. -/
def forwardedReadIndex (g : RaftGroup) (respTerm : Term) : Option (RaftGroup × Waiting) :=
  if g.el.currentTerm < respTerm then
    some (g.stepDownElection respTerm, .stepDown true .nothing)
  else none

/-- `ReadIndex` on a node whose forwarded read was answered with another term: the read is enqueued
with both locks held. -/
def enqueueRead (g : RaftGroup) (call : Nat) (respTerm : Term) (readIdx : Index) :
    Option RaftGroup :=
  if g.el.currentTerm < respTerm then none
  else
    some ({ g with app := { g.app with
      nextReadId := g.app.nextReadId + 1
      pendingReads := g.app.pendingReads.insert g.app.nextReadId
        { readIndex := readIdx, callback := call } } }).processPendingReads

/-- `HandleReadIndexRequest`: the role at this moment decides. -/
def handleReadIndexRequest (g : RaftGroup) : RaftGroup :=
  let g := g.recordActivity false
  g.emit (.readAnswered (if g.el.role = .leader then
      { term := g.el.currentTerm, readIndex := g.rep.commitIndex, leaderValid := true }
    else { term := g.el.currentTerm }))

/-! ## §5 — The frames. -/

variable (g : RaftGroup) (req : ClientRequest) (index : Index) (command : Bytes)
  (commands : List Bytes) (id : NodeId) (call : Nat) (addr : Bytes) (sessionId seqNum : Nat)

theorem handleReadIndexRequest_talks : Talks GuardedFrame g g.handleReadIndexRequest :=
  (recordActivity_talks g false).trans ⟨.emit _ (by trivial) rfl, .emit _ rfl⟩

theorem setSession_guarded (clientId : Nat) (s : ClientSession) :
    GuardedFrame g (g.setSession clientId s) :=
  .of_eq rfl rfl

theorem handleClientRequest_guarded : GuardedFrame g (g.handleClientRequest req).1 := by
  have hrecord := (recordActivity_talks g true).frame
  unfold handleClientRequest
  dsimp only
  split
  · exact hrecord
  split
  · exact hrecord
  split
  · exact hrecord
  · split <;> exact hrecord.trans (setSession_guarded _ _ _)

theorem handleClientRequest_propose {g : RaftGroup} {req : ClientRequest}
    (h : (g.handleClientRequest req).2 = .propose) : g.el.role = .leader := by
  rw [← (recordActivity_talks g true).frame.role]
  unfold handleClientRequest at h
  dsimp only at h
  split at h
  · cases h
  split at h
  · cases h
  · exact of_not_not ‹_›

theorem flushNow_talks : Talks ElectionFrame g (g.flushNow index).1 := by
  unfold flushNow
  split
  · dsimp only
    split <;> exact .of_eq rfl rfl
  · exact .refl g

theorem awaitProposal_frame (callback : ProposalCallback) :
    ElectionFrame g (g.awaitProposal index callback) :=
  .of_eq rfl

theorem noteProposalSession_frame :
    ElectionFrame g (g.noteProposalSession index sessionId seqNum) := by
  unfold noteProposalSession
  split
  · exact .refl g
  · exact .of_eq rfl

/-- The entry and the messages of `ProposeAndWaitLocked` carry the term of the moment. -/
theorem proposeAndWait_frame : ElectionFrame g (g.proposeAndWait command call).1 := by
  have hflush := (createEntry_frame g command).trans
    (flushNow_talks (g.createEntry command).1 (g.createEntry command).2).frame
  unfold proposeAndWait
  dsimp only
  split
  · exact (hflush.trans (awaitProposal_frame _ _ _)).trans (broadcastAppendEntries_talks _).frame
  · exact hflush

theorem finishClientRequest_guarded (result : ApplyResult) :
    GuardedFrame g (g.finishClientRequest req result).1 :=
  setSession_guarded g _ _

theorem proposeEntry_frame : ElectionFrame g (g.proposeEntry command call sessionId seqNum) := by
  have hnote := (createEntry_frame g command).trans
    (noteProposalSession_frame _ (g.createEntry command).2 sessionId seqNum)
  exact ((hnote.trans (flushLater_talks _ _).frame).trans (awaitProposal_frame _ _ _)).trans
    (broadcastAppendEntries_talks _).frame

theorem propose_guarded : GuardedFrame g (g.propose command call sessionId seqNum).1 := by
  have hrecord := (recordActivity_talks g true).frame
  unfold propose
  dsimp only
  split
  · exact hrecord
  split
  · exact hrecord
  rename_i hrole
  have hrole := of_not_not hrole
  split
  · exact hrecord.trans (.of_leader (proposeEntry_frame _ _ _ _ _) hrole)
  split
  · exact hrecord.trans ((GuardedFrame.emit _ (by trivial) rfl).after rfl rfl)
  exact hrecord.trans (.of_leader ((proposeEntry_frame _ _ _ _ _).after rfl) hrole)

theorem appendBatch_frame : ElectionFrame g (g.appendBatch commands).1 := by
  induction commands generalizing g with
  | nil => exact .refl g
  | cons command rest ih => exact (createEntry_frame g command).trans (ih _)

theorem registerBatch_frame (slot : Nat) (indices : List Index) :
    ElectionFrame g (g.registerBatch call slot indices) := by
  induction indices generalizing g slot with
  | nil => exact .refl g
  | cons index rest ih =>
    exact ((flushLater_talks g index).frame.trans (awaitProposal_frame _ _ _)).trans (ih _ _)

theorem proposeBatch_guarded : GuardedFrame g (g.proposeBatch commands call).1 := by
  have hrecord := (recordActivity_talks g true).frame
  unfold proposeBatch
  dsimp only
  split
  · exact hrecord
  split
  · exact hrecord
  split
  · exact hrecord
  rename_i hrole _
  refine (hrecord.trans (.of_leader ?_ (of_not_not hrole))).trans (tryCommit_guarded _)
  exact ((appendBatch_frame _ commands).trans (registerBatch_frame _ call 0 _)).trans
    (broadcastAppendEntries_talks _).frame

theorem membershipCheck_none {g : RaftGroup} {wrong : Option Bytes}
    (h : g.membershipCheck wrong = none) : g.el.role = .leader := by
  unfold membershipCheck at h
  split at h
  · cases h
  split at h
  · cases h
  · exact of_not_not ‹_›

theorem proposeConfigChange_frame (cmd : Bytes) :
    ElectionFrame g (g.proposeConfigChange cmd).1 := by
  have hflush := (createEntry_frame g cmd).trans
    (flushNow_talks (g.createEntry cmd).1 (g.createEntry cmd).2).frame
  unfold proposeConfigChange
  dsimp only
  split
  · exact hflush.trans (.of_eq rfl)
  · exact hflush

theorem admitPeer_frame : ElectionFrame g (g.admitPeer id addr) :=
  .of_eq rfl

theorem addNode_guarded : GuardedFrame g (g.addNode id addr).1 := by
  unfold addNode
  dsimp only
  split
  · exact .refl g
  refine .of_leader ?_ (membershipCheck_none ‹_›)
  split
  · exact ((proposeConfigChange_frame g _).trans (admitPeer_frame _ id addr)).trans
      (broadcastAppendEntries_talks _).frame
  · exact proposeConfigChange_frame g _

theorem addLearner_guarded : GuardedFrame g (g.addLearner id addr).1 := by
  unfold addLearner
  dsimp only
  split
  · exact .refl g
  refine .of_leader ?_ (membershipCheck_none ‹_›)
  split
  · exact ((proposeConfigChange_frame g _).trans (admitPeer_frame _ id addr)).trans
      (broadcastAppendEntries_talks _).frame
  · exact proposeConfigChange_frame g _

theorem promoteLearner_guarded : GuardedFrame g (g.promoteLearner id).1 := by
  unfold promoteLearner
  dsimp only
  split
  · exact .refl g
  refine .of_leader ?_ (membershipCheck_none ‹_›)
  split
  · exact (proposeConfigChange_frame g _).trans (broadcastAppendEntries_talks _).frame
  · exact proposeConfigChange_frame g _

theorem leaderReadIndex_frame : ElectionFrame g (g.leaderReadIndex call) := by
  unfold leaderReadIndex
  dsimp only
  split
  · exact (processPendingReads_guarded _).toElectionFrame.after rfl
  · exact (broadcastReadIndexHeartbeats_frame _ _).after rfl

theorem readIndex_guarded : GuardedFrame g (g.readIndex call).1 := by
  have hrecord := (recordActivity_talks g false).frame
  unfold readIndex
  dsimp only
  split
  · exact hrecord
  split
  · exact hrecord.trans (.of_leader (leaderReadIndex_frame _ call) ‹_›)
  · split <;> exact hrecord

end RaftGroup

end RollingRaft
