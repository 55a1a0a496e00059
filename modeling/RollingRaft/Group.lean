/-
# RollingRaft.Group — the state of one Raft group on one node (`raft_group.h`).

The fields are grouped by the lock that guards them: election, replication, snapshot, membership,
applier. A node with persistence is modelled: `persister_` and `log_persister_` are set, and the
branches for a missing persister, which the code marks as a test path, are left out. So are
metrics, log lines, events and user callbacks for role changes, which no modelled function reads.

A section of code that runs under one set of locks is a function on `RaftGroup`. What it asks of
its surroundings while it runs (the clock, a random timeout, whether a save succeeds) is in `env`;
what it does to them is appended to `out`, each item with the role and term of the moment.
-/
import RollingRaft.RaftLog
import RollingRaft.ClusterConfig
import RollingRaft.Rpc

namespace RollingRaft

open Lib

/-! ## §1 — Configuration. -/

/-- The fields of `RaftNodeConfig` that the modelled functions read, and the JSON library. -/
structure Options where
  serverId : NodeId
  listenAddr : Bytes := []
  peers : List (NodeId × Bytes) := []
  checkQuorumEnabled : Bool := true
  preVoteEnabled : Bool := true
  quiescedModeEnabled : Bool := false
  quiescedIdleThresholdMs : Nat := 2000
  quiescedHeartbeatIntervalMs : Nat := 5000
  quiescedElectionTimeoutMs : Nat := 10000
  quiescedMaxConsecutiveTimeouts : Nat := 3
  json : JsonText

/-- `RuntimeConfig::Values`, likewise. -/
structure RuntimeConfig where
  electionTimeoutMs : Nat := 300
  heartbeatIntervalMs : Nat := 50
  maxEntriesPerAppend : Nat := 100
  maxPipelineWindow : Nat := 128
  maxRetryAttempts : Nat := 5
  snapshotCheckIntervalMs : Nat := 5000
  leaderLeaseEnabled : Bool := true
  deriving DecidableEq

/-! ## §2 — Proposals, sessions, reads, snapshots in transfer. -/

structure ApplyResult where
  success : Bool := false
  response : Bytes := []
  appliedIndex : Nat := 0
  errorMessage : Bytes := []
  deriving DecidableEq

/-- Whom the callback of a proposal belongs to. -/
inductive ProposalCallback where
  /-- The promise of a `HandleClientRequest` call. -/
  | client (call : Nat)
  /-- The callback of a `Propose` call. -/
  | propose (call : Nat)
  /-- One slot of the results of a `ProposeBatch` call. -/
  | batch (call slot : Nat)
  deriving DecidableEq

structure ClientSession where
  lastSeq : Nat := 0
  lastResponse : Bytes := []
  lastIndex : Index := 0
  lastTerm : Term := 0
  deriving DecidableEq

/-- An element of `ClientSessionManager::sessions_`: the list of these is in LRU order, most recent
first. -/
structure SessionEntry where
  sessionId : Nat
  lastSeq : Nat
  lastResult : ApplyResult
  deriving DecidableEq

structure InflightEntry where
  startIndex : Index
  count : Nat
  deriving DecidableEq

structure ApplyTask where
  index : Index
  data : Bytes := []
  callback : Option ProposalCallback := none
  isConfigChange : Bool := false
  sessionId : Nat := 0
  seqNum : Nat := 0
  deriving DecidableEq

/-- `PendingReadIndex`; `callback` numbers the `ReadIndex` call. -/
structure PendingReadIndex where
  readIndex : Index
  callback : Nat
  acks : Finset NodeId := ∅
  heartbeatsSent : Bool := false
  deriving DecidableEq

/-- What `CreateSnapshot` returns: the bytes its `Read` serves, and its meta data. -/
structure Snapshot where
  data : Bytes
  lastIncludedIndex : Index
  lastIncludedTerm : Term
  deriving DecidableEq

structure SnapshotSendState where
  snapshot : Option Bytes := none
  offset : Nat := 0
  lastIncludedIndex : Index := 0
  lastIncludedTerm : Term := 0
  inProgress : Bool := false
  lastChunkSize : Nat := 0
  deriving DecidableEq

/-! ## §3 — State by lock. -/

/-- Guarded by `election_mtx_`. -/
structure ElectionState where
  role : Role := .follower
  currentTerm : Term := 0
  votedFor : NodeId := -1
  leaderId : NodeId := -1
  leaderAddr : Bytes := []
  votesReceived : Finset NodeId := ∅
  preVotesReceived : Finset NodeId := ∅
  preVoteRunning : Bool := false
  preVoteTerm : Term := 0
  hasLeaderContact : Bool := false
  lastLeaderContact : Time := 0
  electionTimerEnabled : Bool := false
  electionDeadline : Time := 0
  deriving DecidableEq

/-- The quiesced-mode fields. -/
structure QuiescedState where
  quiesced : Bool := false
  lastActivityTime : Time := 0
  consecutiveQuiescedTimeouts : Nat := 0
  deriving DecidableEq

/-- Guarded by `replication_mtx_`. `awaitingFlush` lists the entries handed to the log persister
whose completion callback has not run. -/
structure ReplicationState where
  log : RaftLog := {}
  commitIndex : Index := 0
  flushedIndex : Index := 0
  nextIndex : Map NodeId Index := ∅
  matchIndex : Map NodeId Index := ∅
  retryAttempts : Map NodeId Nat := ∅
  inflight : Map NodeId (List InflightEntry) := ∅
  lastHeartbeatSent : Map NodeId Time := ∅
  leaderLeaseExpiry : Time := 0
  quorumAcks : Map NodeId Time := ∅
  lastContactTime : Map NodeId Time := ∅
  heartbeatTimerEnabled : Bool := false
  heartbeatDeadline : Time := 0
  pendingProposals : Map Index ProposalCallback := ∅
  clientSessions : Map Nat ClientSession := ∅
  proposalSessions : Map Index (Nat × Nat) := ∅
  awaitingFlush : List Index := []

/-- Guarded by `snapshot_mtx_`. `creating` is `snapshot_in_progress_`; `recvFile` is the temporary
file of a transfer that is being received. -/
structure SnapshotState where
  lastSnapshotIndex : Index := 0
  lastSnapshotTerm : Term := 0
  sends : Map NodeId SnapshotSendState := ∅
  creating : Bool := false
  recvFile : Option Bytes := none
  recvIndex : Index := 0
  recvTerm : Term := 0
  recvExpectedOffset : Nat := 0
  restoreInProgress : Bool := false
  checkTimerEnabled : Bool := false
  checkDeadline : Time := 0

/-- Guarded by `membership_mtx_`. -/
structure MembershipState where
  config : ClusterConfig := {}
  pendingConfigChange : Bool := false
  peerMap : Map NodeId Bytes := ∅

/-- Where the apply thread is in its loop: waiting, or working on a batch; `newLastApplied` is set
once it has read `last_applied_`. A thread that has been joined is `stopped`. -/
structure ApplyThread where
  working : Bool := false
  batch : List ApplyTask := []
  newLastApplied : Option Index := none
  stopped : Bool := false
  deriving DecidableEq

/-- Guarded by `applier_mtx_` and `apply_queue_mtx_`, the apply thread and the session manager. -/
structure ApplierState where
  lastApplied : Index := 0
  lastEnqueued : Index := 0
  applyQueue : List ApplyTask := []
  thread : ApplyThread := {}
  pendingReads : Map Nat PendingReadIndex := ∅
  nextReadId : Nat := 1
  sessions : List SessionEntry := []

structure PersistentState where
  currentTerm : Term := 0
  votedFor : NodeId := -1
  config : ClusterConfig := {}
  deriving DecidableEq

/-! ## §4 — Surroundings. -/

/-- What a section is given by its surroundings: the clock, the random part of an election timeout,
the outcomes of the calls to `SaveState` it makes, and those of its writes to the log (`AppendSync`)
and to snapshot files, in order. -/
structure Env where
  now : Time := 0
  draw : Nat := 0
  saves : List SaveResult := []
  writes : List Bool := []
  deriving DecidableEq

/-- What a section does to its surroundings. -/
inductive Act where
  /-- `SendRpc`. -/
  | sent (peer : NodeId) (request : Request) (callback : Callback)
  /-- A request is answered. -/
  | replied (reply : ReplyTo) (response : Response)
  /-- A client's request is answered. -/
  | responded (request : ClientRequest) (response : ClientResponse)
  /-- A log entry made on this node by `RaftLog::Append`, not copied from a request. -/
  | created (entry : LogEntry)
  /-- The callback of a proposal is invoked. -/
  | completed (callback : ProposalCallback) (result : ApplyResult)
  /-- The state machine applies an entry. -/
  | applied (index : Index) (data : Bytes) (result : ApplyResult)
  /-- The state machine is replaced by a received snapshot. -/
  | restored (index : Index) (term : Term) (data : Bytes)
  /-- The callback of a `ReadIndex` call is invoked. -/
  | readReady (callback : Nat)
  /-- A forwarded read is answered. -/
  | readAnswered (response : ReadIndexResponse)
  deriving DecidableEq

/-- An act, with the role and term the node has when it does it, and the time. -/
structure Output where
  role : Role
  term : Term
  act : Act
  time : Time
  deriving DecidableEq

/-- Why a process is not going on: `std::abort`, a thread that locks a mutex it already holds, or it
has not been started since it last went down. -/
inductive Halt where
  | abort | deadlock | down
  deriving DecidableEq

/-- One Raft group on one node. -/
structure RaftGroup where
  opts : Options
  rt : RuntimeConfig := {}
  running : Bool := true
  el : ElectionState := {}
  qs : QuiescedState := {}
  rep : ReplicationState := {}
  snap : SnapshotState := {}
  mem : MembershipState := {}
  app : ApplierState := {}
  disk : Option PersistentState := none
  env : Env := {}
  out : List Output := []
  halt : Option Halt := none

namespace RaftGroup

def serverId (g : RaftGroup) : NodeId := g.opts.serverId

def emit (g : RaftGroup) (a : Act) : RaftGroup :=
  { g with out := g.out ++ [⟨g.el.role, g.el.currentTerm, a, g.env.now⟩] }

/-- `GetLogTermLocked`: the snapshot boundary answers from the snapshot's meta data. -/
def getLogTerm (g : RaftGroup) (i : Index) : Term :=
  if i = 0 then 0
  else if i = g.snap.lastSnapshotIndex then g.snap.lastSnapshotTerm
  else g.rep.log.getLogTerm i

/-- `CurrentPersistentStateLocked`. -/
def persistentState (g : RaftGroup) : PersistentState :=
  { currentTerm := g.el.currentTerm, votedFor := g.el.votedFor, config := g.mem.config }

/-- `SaveState(CurrentPersistentStateLocked())`, and whether it returned OK. -/
def saveState (g : RaftGroup) : RaftGroup × Bool :=
  let rest := { g.env with saves := g.env.saves.tail }
  match g.env.saves.headD .ok with
  | .ok => ({ g with env := rest, disk := some g.persistentState }, true)
  | .failedWritten => ({ g with env := rest, disk := some g.persistentState }, false)
  | .failed => ({ g with env := rest }, false)

/-- `AppendSync`, or a write to a snapshot file, as far as the caller sees it. -/
def write (g : RaftGroup) : RaftGroup × Bool :=
  ({ g with env := { g.env with writes := g.env.writes.tail } }, g.env.writes.headD true)

/-- Milliseconds since `t` as the code compares them, `static_cast<uint32_t>(elapsed)`: after 49 days
they start again from zero. -/
def elapsed (g : RaftGroup) (t : Time) : Nat :=
  (g.env.now - t).toNat % 2 ^ 32

/-- `elapsed >= 0 && static_cast<uint32_t>(elapsed) < bound`. -/
def within (g : RaftGroup) (t : Time) (bound : Nat) : Bool :=
  0 ≤ g.env.now - t && g.elapsed t < bound

end RaftGroup

end RollingRaft
