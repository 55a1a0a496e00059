/-
# RollingRaft.Process — one node as the interleaving of its lock-delimited sections.

A process is a group, the calls that are between two of their sections, and possibly one section
that holds `election_mtx_` and waits for `replication_mtx_`. Every event runs one section, and only
when the locks it needs are free. Timers, threads and callers are free to run at any time, in any
order and any number of times, which is more than the timer service and the network do.

Within a section nothing else runs. What a process has done is kept in `group.out` over all its
incarnations, so the history of a node is in its state.
-/
import RollingRaft.Lib.Transition
import RollingRaft.Proposal

namespace RollingRaft

open Lib

/-! ## §1 — Calls between sections. -/

/-- `HandleClientRequest` between its sections; `call` numbers the call. -/
inductive ClientCall where
  /-- Leadership and session are checked, `replication_mtx_` is held, nothing is appended yet. -/
  | propose (call : Nat) (req : ClientRequest)
  /-- Waiting for the result of the entry at `index`, without locks. -/
  | waiting (call : Nat) (req : ClientRequest) (index : Index)
  /-- The result is there, `replication_mtx_` is held again, `election_mtx_` is not. -/
  | finish (call : Nat) (req : ClientRequest) (result : ApplyResult)
  deriving DecidableEq

/-- What is left of phase 2 of `HandleAppendEntries`, with `replication_mtx_` held. -/
inductive ReplicateStage where
  /-- The second loop has `rest` before it. -/
  | store (rest : List LogEntry)
  /-- In the loop of `ApplyCommittedLocked`. -/
  | apply
  /-- `success_` is still to be set. -/
  | succeed
  deriving DecidableEq

/-- A section under `replication_mtx_` alone that has begun, when such sections run in parts. -/
inductive Begun where
  /-- `ProposeAndWaitLocked` has written its entry and is sending it; `peers` are left. -/
  | send (call : Nat) (req : ClientRequest) (index : Index) (peers : List NodeId)
  | replicate (reply : ReplyTo) (respTerm : Term) (req : AppendEntriesRequest)
      (stage : ReplicateStage)
  deriving DecidableEq

/-- A call between two of its sections, or in the middle of one. -/
inductive Call where
  | follower (c : FollowerCall)
  | client (c : ClientCall)
  /-- `HandleInstallSnapshotResponse` between its phases. -/
  | snapshotResponse (peer : NodeId) (rpcSuccess : Bool)
  /-- `OnLogEntryPersisted` after a failed write, about to fail the proposal at `index`. -/
  | failProposal (index : Index)
  | begun (b : Begun)
  deriving DecidableEq

/-- The call holds `replication_mtx_`. -/
def Call.holdsReplication : Call → Bool
  | .client (.propose _ _) => true
  | .client (.finish _ _ _) => true
  | .begun _ => true
  | _ => false

/-- The locks a section takes, of `election_mtx_` and `replication_mtx_`. -/
structure Locks where
  election : Bool
  replication : Bool
  deriving DecidableEq

namespace Locks

def none : Locks := ⟨false, false⟩
def e : Locks := ⟨true, false⟩
def r : Locks := ⟨false, true⟩
def er : Locks := ⟨true, true⟩

end Locks

/-- What the next section of a call takes; what the call holds it does not take again. -/
def Call.needs : Call → Locks
  | .follower (.restore _ _ _) => .none
  | .follower _ => .r
  | .client (.propose _ _) => .none
  | .client (.waiting _ _ _) => .r
  | .client (.finish _ _ _) => .e
  | .snapshotResponse _ _ => .er
  | .failProposal _ => .r
  | .begun _ => .none

/-! ## §2 — Events. -/

/-- What a restarting node finds on its disk besides its state: the snapshot, with the bytes that the
state machine is restored from, and the log entries that follow it. -/
structure Recovered where
  snapshot : Option (Index × Term) := none
  entries : List LogEntry := []
  snapshotData : Bytes := []
  deriving DecidableEq

/-- What the surroundings add to the next section of a call: whether restoring a snapshot succeeded,
whether a wait timed out, the text of a write error. -/
structure CallInput where
  restored : Bool := true
  timedOut : Bool := false
  message : Bytes := []
  deriving DecidableEq

inductive Event where
  /-- A request arrives. -/
  | request (reply : ReplyTo) (req : Request)
  /-- The response to a request arrives. -/
  | response (peer : NodeId) (callback : Callback) (resp : Response)
  /-- An RPC fails or times out. -/
  | rpcFailed (peer : NodeId) (callback : Callback)
  /-- The section that waits for `replication_mtx_` gets it. -/
  | resume
  /-- A call runs its next section. -/
  | run (i : Nat) (input : CallInput)
  | electionTick
  | preVoteTimeout
  | heartbeatTick
  | resend (peer : NodeId)
  | resendChunk (peer : NodeId)
  /-- `RunAutoSnapshotIfNeeded` or `TriggerSnapshot` has a snapshot. -/
  | compact (index : Index) (term : Term)
  | prepareSnapshot (peer : NodeId) (snapshot : Option Snapshot)
  /-- The log persister reports on an entry. -/
  | persisted (index : Index) (ok : Bool)
  | applyTake
  | applyLoad
  | applyTask (result : ApplyResult)
  | applyPublish
  | clientRequest (req : ClientRequest)
  | propose (command : Bytes) (sessionId seqNum : Nat)
  | proposeBatch (commands : List Bytes)
  | addNode (id : NodeId) (addr : Bytes)
  | addLearner (id : NodeId) (addr : Bytes)
  | promoteLearner (id : NodeId)
  | removeNode (id : NodeId)
  | transferLeadership (target : NodeId)
  | readIndex
  /-- The leader answers a read that was forwarded to it, with a higher term. -/
  | forwardedReadIndex (respTerm : Term)
  /-- It answers with a term that is not higher. -/
  | enqueueRead (respTerm : Term) (readIdx : Index)
  | readIndexRequest
  /-- The runtime configuration is replaced. -/
  | configure (rt : RuntimeConfig)
  | stop
  | stopTimers
  /-- A stopped node fails what still waits. -/
  | drain
  | crash
  | restart (recovered : Recovered)

/-- The locks of the sections that are not part of a call. -/
def Event.needs : Event → Locks
  | .request _ _ => .e
  | .response _ (.vote _) _ => .e
  | .response _ (.preVote _) _ => .e
  | .response _ (.snapshot _) _ => .e
  | .response _ (.append _ _) _ => .er
  | .response _ (.readHeartbeat _ _) _ => .r
  | .rpcFailed _ (.snapshot _) => .e
  | .rpcFailed _ _ => .er
  | .electionTick | .preVoteTimeout | .resendChunk _ | .forwardedReadIndex _ => .e
  | .persisted _ false => .e
  | .heartbeatTick | .resend _ | .compact _ _ | .prepareSnapshot _ _ | .persisted _ true => .er
  | .clientRequest _ | .propose _ _ _ | .proposeBatch _ => .er
  | .addNode _ _ | .addLearner _ _ | .promoteLearner _ | .removeNode _ => .er
  | .transferLeadership _ | .readIndex | .enqueueRead _ _ | .readIndexRequest => .er
  | .stopTimers => .er
  | .drain => .r
  | .resume | .run _ _ | .applyTake | .applyLoad | .applyTask _ | .applyPublish => .none
  | .configure _ | .stop | .crash | .restart _ => .none

/-! ## §3 — Sections. -/

/-- How a section ends: the group, the lock it still waits for, the calls that go on later. -/
structure SectionEnd where
  group : RaftGroup
  waiting : Option Waiting := none
  calls : List Call := []

namespace SectionEnd

def ofWaiting (r : RaftGroup × Option Waiting) : SectionEnd := { group := r.1, waiting := r.2 }

def ofFollower (r : RaftGroup × Option FollowerCall) : SectionEnd :=
  { group := r.1, calls := (r.2.map Call.follower).toList }

def ofHandler (r : RaftGroup × Option Waiting × Option FollowerCall) : SectionEnd :=
  { group := r.1, waiting := r.2.1, calls := (r.2.2.map Call.follower).toList }

end SectionEnd

namespace RaftGroup

def onRequest (g : RaftGroup) (reply : ReplyTo) : Request → SectionEnd
  | .requestVote req => .ofWaiting (g.handleRequestVote reply req)
  | .preVote req => { group := g.handlePreVote reply req }
  | .appendEntries req => .ofHandler (g.handleAppendEntries reply req)
  | .installSnapshot req => .ofHandler (g.handleInstallSnapshot reply req)

/-- `HandleInstallSnapshotResponse`, phase 1. -/
def onSnapshotResponse (g : RaftGroup) (peer : NodeId) (respTerm : Term) (rpcSuccess : Bool) :
    SectionEnd :=
  let r := g.handleInstallSnapshotResponse respTerm
  { group := r.1, waiting := r.2.1
    calls := if r.2.2 then [.snapshotResponse peer rpcSuccess] else [] }

/-- The callback of an RPC that got a response; a response of the wrong kind does not parse. -/
def onResponse (g : RaftGroup) (peer : NodeId) : Callback → Response → Option SectionEnd
  | .vote originalTerm, .vote resp =>
    some (.ofWaiting (g.handleRequestVoteResponse peer resp originalTerm))
  | .preVote originalTerm, .vote resp =>
    some (.ofWaiting (g.handlePreVoteResponse peer resp originalTerm))
  | .append true _, .append resp => some (.ofWaiting (g.handleHeartbeatResponse peer resp))
  | .append false _, .append resp => some (.ofWaiting (g.handleAppendEntriesResponse peer resp))
  | .readHeartbeat readId _, .append resp =>
    some { group := if resp.success then g.handleReadIndexAck peer readId else g }
  | .snapshot _, .snapshot respTerm => some (g.onSnapshotResponse peer respTerm true)
  | _, _ => none

def onRpcFailed (g : RaftGroup) (peer : NodeId) : Callback → SectionEnd
  | .append isHeartbeat _ => { group := g.scheduleAppendEntriesRetry peer isHeartbeat }
  | .snapshot _ => g.onSnapshotResponse peer 0 false
  | _ => { group := g }

/-- `OnLogEntryPersisted`, first section. -/
def onPersisted (g : RaftGroup) (index : Index) (ok : Bool) : Option SectionEnd :=
  if index ∈ g.rep.awaitingFlush then
    let g := { g with rep := { g.rep with awaitingFlush := g.rep.awaitingFlush.erase index } }
    if ok then some { group := g.persistSucceeded index }
    else
      let r := g.persistFailed index
      some { group := r.1, waiting := r.2
             calls := if r.2.isSome then [] else [.failProposal index] }
  else none

/-- `HandleClientRequest`, first section. -/
def onClientRequest (g : RaftGroup) (call : Nat) (req : ClientRequest) : SectionEnd :=
  let r := g.handleClientRequest req
  match r.2 with
  | .respond resp =>
    { group := if r.1.halt.isSome then r.1 else r.1.emit (.responded req resp) }
  | .read => { group := r.1 }
  | .propose => { group := r.1, calls := [.client (.propose call req)] }

/-- The result a promise was given. -/
def promised (g : RaftGroup) (call : Nat) : Option ApplyResult :=
  g.out.findSome? fun o =>
    match o.act with
    | .completed (.client c) result => if c = call then some result else none
    | _ => none

/-- The next section of a `HandleClientRequest` call. -/
def runClientCall (g : RaftGroup) (input : CallInput) : ClientCall → Option SectionEnd
  | .propose call req =>
    let r := g.proposeAndWait req.command call
    match r.2 with
    | some index => some { group := r.1, calls := [.client (.waiting call req index)] }
    | none => some { group := r.1
                     calls := [.client (.finish call req { errorMessage := input.message })] }
  | .waiting call req index =>
    if input.timedOut then
      let r := g.proposalTimedOut index
      some { group := r.1, calls := [.client (.finish call req r.2)] }
    else
      (g.promised call).map fun result =>
        { group := g, calls := [.client (.finish call req result)] }
  | .finish _ req result =>
    let r := g.finishClientRequest req result
    some { group := r.1.emit (.responded req r.2) }

def runCall (g : RaftGroup) (input : CallInput) : Call → Option SectionEnd
  | .follower c => some (.ofFollower (g.runFollowerCall input.restored c))
  | .client c => g.runClientCall input c
  | .snapshotResponse peer rpcSuccess => some { group := g.snapshotResponded peer rpcSuccess }
  | .failProposal index => some { group := g.failProposal index input.message }
  | .begun _ => none

/-- What follows a step-down, `election_mtx_` still held. -/
def runRest (g : RaftGroup) : Rest → SectionEnd
  | .nothing => { group := g }
  | .requestVote reply req => { group := g.answerVote reply req }
  | .appendEntries reply req => .ofFollower (g.appendEntriesRest reply req)
  | .installSnapshot reply req => .ofFollower (g.installSnapshotRest reply req)
  | .failProposal index => { group := g, calls := [.failProposal index] }

/-- The section that waited for `replication_mtx_` goes on. -/
def runWaiting (g : RaftGroup) : Waiting → SectionEnd
  | .stepDown persistState rest =>
    let g := g.stepDownRest persistState
    if g.halt.isSome then { group := g } else g.runRest rest
  | .lead => { group := g.becomeLeaderRest }

/-- `DoGracefulShutdown` joins the apply thread and reports a failure to whoever still waits. -/
def drain (g : RaftGroup) : Option RaftGroup :=
  if g.running || g.app.thread.working then none
  else
    let stopped : ApplyResult := { errorMessage := ascii "Node stopped" }
    let cbs := g.app.applyQueue.filterMap (·.callback) ++ g.rep.pendingProposals.entries.map (·.2)
    some (cbs.foldl (fun g cb => g.emit (.completed cb stopped))
      { g with app := { g.app with applyQueue := [], thread := { stopped := true } }
               rep := { g.rep with pendingProposals := ∅ } })

/-- The timers `DoGracefulShutdown` cancels. -/
def stopTimers (g : RaftGroup) : RaftGroup :=
  if g.running then g
  else
    let g := g.cancelElectionTimer.stopHeartbeatTimer
    { g with snap := { g.snap with checkTimerEnabled := false } }

/-- The sections that are not part of a call; `call` numbers a new one. -/
def onEvent (g : RaftGroup) (call : Nat) : Event → Option SectionEnd
  | .request reply req => some (g.onRequest reply req)
  | .response peer callback resp => g.onResponse peer callback resp
  | .rpcFailed peer callback => some (g.onRpcFailed peer callback)
  | .electionTick => some (.ofWaiting g.electionTick)
  | .preVoteTimeout => some { group := g.onPreVoteTimeout }
  | .heartbeatTick => some { group := g.heartbeatTick }
  | .resend peer => some { group := g.resend peer }
  | .resendChunk peer => some { group := g.resendChunk peer }
  | .compact index term => some { group := g.applySnapshot index term }
  | .prepareSnapshot peer snapshot => some { group := g.prepareSnapshotForPeer peer snapshot }
  | .persisted index ok => g.onPersisted index ok
  | .applyTake => g.applyTake.map fun g => { group := g }
  | .applyLoad => g.applyLoad.map fun g => { group := g }
  | .applyTask result => (g.applyTask result).map fun g => { group := g }
  | .applyPublish => g.applyPublish.map fun g => { group := g }
  | .clientRequest req => some (g.onClientRequest call req)
  | .propose command sessionId seqNum =>
    some { group := (g.propose command call sessionId seqNum).1 }
  | .proposeBatch commands => some { group := (g.proposeBatch commands call).1 }
  | .addNode id addr => some { group := (g.addNode id addr).1 }
  | .addLearner id addr => some { group := (g.addLearner id addr).1 }
  | .promoteLearner id => some { group := (g.promoteLearner id).1 }
  | .removeNode id => let r := g.removeNode id; some { group := r.1, waiting := r.2.1 }
  | .transferLeadership target =>
    let r := g.transferLeadershipTo target; some { group := r.1, waiting := r.2.1 }
  | .readIndex => some { group := (g.readIndex call).1 }
  | .forwardedReadIndex respTerm =>
    (g.forwardedReadIndex respTerm).map fun r => { group := r.1, waiting := some r.2 }
  | .enqueueRead respTerm readIdx =>
    (g.enqueueRead call respTerm readIdx).map fun g => { group := g }
  | .readIndexRequest => some { group := g.handleReadIndexRequest }
  | .configure rt => some { group := { g with rt := rt } }
  | .stop => some { group := { g with running := false } }
  | .stopTimers => some { group := g.stopTimers }
  | .drain => g.drain.map fun g => { group := g }
  | .resume | .run _ _ | .crash | .restart _ => none

/-! ## §4 — Starting. -/

/-- A new `RaftGroup`: the peers and the seed configuration. What has been done before stays. -/
def fresh (g : RaftGroup) : RaftGroup :=
  { opts := g.opts
    mem :=
      { config := { nodes := g.opts.serverId :: g.opts.peers.map (·.1), version := 1 }
        peerMap := g.opts.peers.foldl (fun m p => m.insert p.1 p.2) ∅ }
    disk := g.disk, env := g.env, out := g.out }

/-- `Start`: restore term, vote and configuration. -/
def loadState (g : RaftGroup) : RaftGroup :=
  match g.disk with
  | none => g
  | some s =>
    { g with
      el := { g.el with currentTerm := s.currentTerm, votedFor := s.votedFor }
      mem := { g.mem with config := if 0 < s.config.version then s.config else g.mem.config } }

/-- `Start`: restore the snapshot. -/
def loadSnapshot (g : RaftGroup) (snapshot : Option (Index × Term)) : RaftGroup :=
  match snapshot with
  | none => g
  | some (index, term) =>
    { g with
      snap := { g.snap with lastSnapshotIndex := index, lastSnapshotTerm := term }
      rep := { g.rep with
        log := g.rep.log.setStartIndex (add32 index 1), commitIndex := index }
      app := { g.app with lastApplied := index, lastEnqueued := index } }

/-- `Start`: restore the log. -/
def loadLog (g : RaftGroup) (entries : List LogEntry) : RaftGroup :=
  let log := match entries with
    | [] => g.rep.log
    | e :: _ =>
      if e.index = g.rep.log.startIndex then g.rep.log else g.rep.log.setStartIndex e.index
  let log := entries.foldl RaftLog.appendLogEntry log
  { g with rep := { g.rep with log := log, flushedIndex := log.getLastLogInfo.1 } }

/-- `Start`, which ends in `BecomeFollowerLocked(current_term_)`. -/
def start (g : RaftGroup) (recovered : Recovered) : RaftGroup :=
  let g := ((g.fresh.loadState).loadSnapshot recovered.snapshot).loadLog recovered.entries
  (g.stepDownElection g.el.currentTerm).stepDownRest true

end RaftGroup

/-! ## §5 — Processes. -/

structure Process where
  group : RaftGroup
  waiting : Option Waiting := none
  calls : List Call := []
  nextCall : Nat := 1

namespace Process

/-- A process that has never been started. -/
def initial (opts : Options) : Process := { group := { opts := opts, halt := some .down } }

/-- Some call holds `replication_mtx_`. -/
def replicationHeld (p : Process) : Bool := p.calls.any Call.holdsReplication

/-- The locks are free. -/
def canTake (p : Process) (l : Locks) : Bool :=
  (!l.election || p.waiting.isNone) && (!l.replication || !p.replicationHeld)

def absorb (p : Process) (o : SectionEnd) : Process :=
  { p with
    group := o.group, waiting := o.waiting <|> p.waiting, calls := p.calls ++ o.calls
    nextCall := p.nextCall + 1 }

/-- The group as a section finds it. -/
def entered (p : Process) (env : Env) : RaftGroup := { p.group with env := env }

/-- One event. A process that is down takes no event but a restart. -/
def next (p : Process) (step : Event × Env) : Option Process :=
  match step.1 with
  | .restart recovered =>
    if p.group.halt.isSome then
      some { group := (p.entered step.2).start recovered, nextCall := p.nextCall + 1 }
    else none
  | .crash => some { p with group := { p.group with halt := some .down } }
  | .resume =>
    match p.waiting with
    | some w =>
      if p.group.halt.isNone && p.canTake .r then
        some (({ p with waiting := none }).absorb ((p.entered step.2).runWaiting w))
      else none
    | none => none
  | .run i input =>
    match p.calls[i]? with
    | some c =>
      if p.group.halt.isNone && p.canTake c.needs then
        ((p.entered step.2).runCall input c).map fun o =>
          ({ p with calls := p.calls.eraseIdx i }).absorb o
      else none
    | none => none
  | event =>
    if p.group.halt.isNone && p.canTake event.needs then
      ((p.entered step.2).onEvent p.nextCall event).map p.absorb
    else none

/-- A process on its own: any message may arrive. -/
def system (opts : Options) : TransitionSystem Process (Event × Env) where
  init p := p = initial opts
  next := next

end Process

/-- A JSON library for runs that never ask it. -/
def unusedJson : JsonText := ⟨fun _ => .error [], fun _ => .error [], fun _ => 0⟩

def nodeOne : Options :=
  { serverId := 1, peers := [(2, []), (3, [])], json := unusedJson }

/-- A JSON library for runs that write texts and read none. -/
def unreadJson : JsonText := ⟨fun _ => .error [], fun _ => .ok [], fun _ => 0⟩

/-- Node 1 of three, which holds no pre-votes and sends its requests. -/
def votingOne : Options := { nodeOne with preVoteEnabled := false, json := unreadJson }

end RollingRaft
