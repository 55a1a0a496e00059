/-
# RollingRaft.Transport — one peer's shared connection: who gets which response.

All Raft groups of a store send to a peer through one `PeerConnection`, which owns a `TcpConnection`
at a time. A request is stored in the connection's `pending_callbacks_` table under its correlation
id and answered through that table; every group counts its correlation ids from 1 on its own.

The model follows a request from `SendRpc` on: the posted task, the peer's buffered sends, the
callback table, the write queue, the wire, the server's reply, and every way a callback is invoked:
response, timeout, write error, close, drained or overflowing buffer, stopped transport. Sockets
and strands are schedulers here: each queued handler is an event that may run at any time, and the
server may answer the requests of a connection in any order or not at all.

Two things are kept that the code does not have: the number of the `SendRpc` call that a callback
belongs to, and, in a reply, the request the server produced it for.
-/
import Mathlib.Data.List.AList
import Mathlib.Algebra.BigOperators.Group.List.Basic
import RollingRaft.Lib.Transition
import RollingRaft.Json

namespace RollingRaft

open Lib

/-! ## §1 — Requests, replies and callback invocations. -/

/-- The RPCs a group sends to a peer. -/
inductive RpcType where
  | requestVote | appendEntries | installSnapshot | preVote
  deriving DecidableEq

/-- A request handed to `SendRpc`, together with its callback: `call` is the number of the call. -/
structure RpcRequest where
  call : Nat
  groupId : Nat
  type : RpcType
  correlationId : Nat
  deriving DecidableEq

/-- The id a server writes into its response: `DeserializeRequest` reads the request's id with
`j.value("correlation_id", 0)`, an `int`, and the handler copies it. -/
def echoedId (correlationId : Nat) : Nat := Json.toUInt64 (Json.toInt32 correlationId)

/-- A response text: the request it was produced for and the id it carries (`0` when the response
has none, as in the error response for an unknown group). -/
structure RpcReply where
  request : RpcRequest
  correlationId : Nat
  deriving DecidableEq

inductive SendError where
  | requestTimeout | sendFailed | connectionClosed | sendQueueFull | transportStopped
  | connectionFailed
  deriving DecidableEq

/-- The arguments a callback is invoked with. -/
inductive Outcome where
  | success (reply : RpcReply)
  | failure (error : SendError)
  deriving DecidableEq

/-- One invocation of the callback of `request`. -/
structure Invocation where
  request : RpcRequest
  outcome : Outcome
  deriving DecidableEq

/-! ## §2 — `TcpConnection`. -/

/-- A client connection. `sendPosts` are the strand tasks of `Send` that have not run, `inWrite` the
ids captured by the write handlers that have not run, `armedTimers` the ids captured by the
timeout handlers, and `wire` and `replies` what travels to and from the server. -/
structure TcpConnection where
  pendingCallbacks : AList fun _ : Nat => RpcRequest
  armedTimers : List Nat
  sendPosts : List RpcRequest
  writeQueue : List RpcRequest
  writeInProgress : Bool
  inWrite : List (List Nat)
  batchingEnabled : Bool
  connected : Bool
  wire : List RpcRequest
  replies : List RpcReply
  deriving DecidableEq

namespace TcpConnection

def fresh : TcpConnection where
  pendingCallbacks := ∅
  armedTimers := []
  sendPosts := []
  writeQueue := []
  writeInProgress := false
  inWrite := []
  batchingEnabled := true
  connected := false
  wire := []
  replies := []

/-- `Send`: the callback is stored before anything is written; an entry under the same id is
overwritten. -/
def send (c : TcpConnection) (r : RpcRequest) : TcpConnection :=
  { c with pendingCallbacks := c.pendingCallbacks.insert r.correlationId r
           armedTimers := r.correlationId :: c.armedTimers
           sendPosts := c.sendPosts ++ [r] }

/-- `DoWrite`: everything queued in one write, or one message with batching off. -/
def doWrite (c : TcpConnection) : TcpConnection :=
  match c.writeQueue with
  | [] => { c with writeInProgress := false }
  | r :: rest =>
    if c.batchingEnabled then
      { c with inWrite := c.inWrite ++ [(r :: rest).map (·.correlationId)]
               wire := c.wire ++ r :: rest, writeQueue := [] }
    else
      { c with inWrite := c.inWrite ++ [[r.correlationId]], wire := c.wire ++ [r]
               writeQueue := rest }

/-- The strand task of `Send`. -/
def runSendPost (c : TcpConnection) : TcpConnection :=
  match c.sendPosts with
  | [] => c
  | r :: rest =>
    let c := { c with sendPosts := rest, writeQueue := c.writeQueue ++ [r] }
    if c.writeInProgress then c else doWrite { c with writeInProgress := true }

/-- Take the callback stored under `id` out of the table and invoke it with an error. -/
def failCallback (c : TcpConnection) (id : Nat) (error : SendError) :
    TcpConnection × List Invocation :=
  match c.pendingCallbacks.lookup id with
  | some r => ({ c with pendingCallbacks := c.pendingCallbacks.erase id }, [⟨r, .failure error⟩])
  | none => (c, [])

def failCallbacks (c : TcpConnection) (error : SendError) : List Nat → TcpConnection × List Invocation
  | [] => (c, [])
  | id :: ids =>
    let first := c.failCallback id error
    let others := first.1.failCallbacks error ids
    (others.1, first.2 ++ others.2)

/-- The handler of a finished write: on an error it fails the callbacks of the ids it captured; then
it continues with the queue. -/
def writeHandler (c : TcpConnection) (i : Nat) (ok : Bool) : TcpConnection × List Invocation :=
  match c.inWrite[i]? with
  | none => (c, [])
  | some ids =>
    let c := { c with inWrite := c.inWrite.eraseIdx i }
    if ok then (doWrite c, [])
    else
      let failed := c.failCallbacks .sendFailed ids
      (doWrite { failed.1 with connected := false }, failed.2)

/-- A timeout handler captured only the id, so it takes whatever callback is stored there. -/
def timeout (c : TcpConnection) (id : Nat) : TcpConnection × List Invocation :=
  if id ∈ c.armedTimers then c.failCallback id .requestTimeout else (c, [])

/-- The server answers a request it received, with or without a correlation id. -/
def serverAnswer (c : TcpConnection) (i : Nat) (withId : Bool) : TcpConnection :=
  match c.wire[i]? with
  | none => c
  | some r =>
    { c with wire := c.wire.eraseIdx i
             replies := c.replies ++ [⟨r, if withId then echoedId r.correlationId else 0⟩] }

/-- `HandleMessage` of a client connection with `ExtractCallbackLocked`: the callback stored under
the id the response carries, if any. -/
def handleMessage (c : TcpConnection) (i : Nat) : TcpConnection × List Invocation :=
  match c.replies[i]? with
  | none => (c, [])
  | some reply =>
    let c := { c with replies := c.replies.eraseIdx i }
    if reply.correlationId = 0 then (c, [])
    else
      match c.pendingCallbacks.lookup reply.correlationId with
      | some r =>
        ({ c with pendingCallbacks := c.pendingCallbacks.erase reply.correlationId },
          [⟨r, .success reply⟩])
      | none => (c, [])

/-- `Close`: every stored callback is invoked with an error. -/
def close (c : TcpConnection) : TcpConnection × List Invocation :=
  ({ c with pendingCallbacks := ∅, connected := false },
    c.pendingCallbacks.entries.map fun e => ⟨e.2, .failure .connectionClosed⟩)

/-- The strand task `Close` posts: the queued writes are dropped and their callbacks failed. -/
def drainWriteQueue (c : TcpConnection) : TcpConnection × List Invocation :=
  let failed := c.failCallbacks .connectionClosed (c.writeQueue.map (·.correlationId))
  ({ failed.1 with writeQueue := [], writeInProgress := false }, failed.2)

end TcpConnection

/-! ## §3 — `PeerConnection` and `SendRpc`. -/

inductive PeerState where
  | disconnected | connecting | connected | failed
  deriving DecidableEq

/-- `conn_` is an index into the connections created so far. -/
structure PeerConnection where
  state : PeerState
  conn : Option Nat
  pendingSends : List RpcRequest
  deriving DecidableEq

def kMaxPendingSends : Nat := 1000

/-- The transport towards one peer node. `peers` lists the `PeerConnection`s created for it, of which
`peers_` holds the last; `nextCorrelationId` is the counter of each group; `posted`, `rejected` and
`enqueued` are the tasks of `SendRpc` and `EnqueueSend` that have not run. -/
structure Transport where
  running : Bool
  nextCorrelationId : Nat → Nat
  calls : Nat
  posted : List RpcRequest
  rejected : List RpcRequest
  enqueued : List (Nat × RpcRequest)
  peers : List PeerConnection
  conns : List TcpConnection
  invoked : List Invocation

namespace Transport

def initial : Transport where
  running := true
  nextCorrelationId := fun _ => 1
  calls := 0
  posted := []
  rejected := []
  enqueued := []
  peers := []
  conns := []
  invoked := []

/-- A group sends an RPC: it draws the next correlation id of its own counter, then `SendRpc`. -/
def sendRpc (s : Transport) (groupId : Nat) (type : RpcType) : Transport :=
  let id := s.nextCorrelationId groupId
  let r : RpcRequest := { call := s.calls, groupId, type, correlationId := id }
  let s := { s with calls := s.calls + 1
                    nextCorrelationId := fun g =>
                      if g = groupId then (id + 1) % 2 ^ 64 else s.nextCorrelationId g }
  if s.running then { s with posted := s.posted ++ [r] }
  else { s with rejected := s.rejected ++ [r] }

/-- A group object is created (again): its counter starts at 1. -/
def createGroup (s : Transport) (groupId : Nat) : Transport :=
  { s with nextCorrelationId := fun g => if g = groupId then 1 else s.nextCorrelationId g }

/-- Run an operation of connection `k` and record its invocations. -/
def onConn (s : Transport) (k : Nat) (op : TcpConnection → TcpConnection × List Invocation) :
    Transport :=
  match s.conns[k]? with
  | none => s
  | some c => { s with conns := s.conns.set k (op c).1, invoked := s.invoked ++ (op c).2 }

def setPeer (s : Transport) (p : Nat) (peer : PeerConnection) : Transport :=
  { s with peers := s.peers.set p peer }

/-- `StartConnecting`: only from `kDisconnected` or `kFailed`; a new connection object. -/
def startConnecting (s : Transport) (p : Nat) : Transport :=
  match s.peers[p]? with
  | none => s
  | some peer =>
    if peer.state = .disconnected ∨ peer.state = .failed then
      { s.setPeer p { peer with state := .connecting, conn := some s.conns.length } with
        conns := s.conns ++ [.fresh] }
    else s

/-- The posted task of `SendRpc`: `GetOrCreatePeerConnection`, then `EnqueueSend` posts to its
strand. A peer that is neither connected nor connecting is replaced. -/
def runPosted (s : Transport) (i : Nat) : Transport :=
  match s.posted[i]? with
  | none => s
  | some r =>
    let s := { s with posted := s.posted.eraseIdx i }
    match s.peers.getLast? with
    | some peer =>
      if peer.state = .connected ∨ peer.state = .connecting then
        { s with enqueued := s.enqueued ++ [(s.peers.length - 1, r)] }
      else
        { s with peers := s.peers ++ [⟨.disconnected, none, []⟩]
                 enqueued := s.enqueued ++ [(s.peers.length, r)] }
    | none =>
      { s with peers := [⟨.disconnected, none, []⟩], enqueued := s.enqueued ++ [(0, r)] }

/-- The callback posted by `SendRpc` on a stopped transport. -/
def runRejected (s : Transport) (i : Nat) : Transport :=
  match s.rejected[i]? with
  | none => s
  | some r =>
    { s with rejected := s.rejected.eraseIdx i
             invoked := s.invoked ++ [⟨r, .failure .transportStopped⟩] }

/-- Buffer a send; at the cap the oldest one is dropped with an error. -/
def buffer (s : Transport) (p : Nat) (peer : PeerConnection) (r : RpcRequest) : Transport :=
  let sends := peer.pendingSends ++ [r]
  if kMaxPendingSends ≤ sends.length then
    { s.setPeer p { peer with pendingSends := sends.tail } with
      invoked := s.invoked ++ (sends.head?.map fun d => ⟨d, .failure .sendQueueFull⟩).toList }
  else s.setPeer p { peer with pendingSends := sends }

/-- The connection `EnqueueSend` sends on: the peer is connected and its socket is. -/
def liveConn (s : Transport) (peer : PeerConnection) : Option Nat :=
  match peer.state, peer.conn with
  | .connected, some k => if (s.conns[k]?.map (·.connected)) = some true then some k else none
  | _, _ => none

/-- `EnqueueSend` on the strand of peer `p`. A connected peer whose socket dropped goes to `kFailed`
and reconnects, with the send buffered. -/
def enqueueSend (s : Transport) (p : Nat) (r : RpcRequest) : Transport :=
  match s.peers[p]? with
  | none => s
  | some peer =>
    match s.liveConn peer with
    | some k => s.onConn k fun c => (c.send r, [])
    | none =>
      if peer.state = .connected then
        startConnecting
          (s.setPeer p { peer with state := .failed, pendingSends := peer.pendingSends ++ [r] }) p
      else if peer.state = .connecting then s.buffer p peer r
      else (s.buffer p peer r).startConnecting p

/-- The posted task of `EnqueueSend`. -/
def runEnqueueSend (s : Transport) (i : Nat) : Transport :=
  match s.enqueued[i]? with
  | none => s
  | some (p, r) => { s with enqueued := s.enqueued.eraseIdx i }.enqueueSend p r

/-- `DrainPendingSendsWithError`. -/
def drainPendingSends (s : Transport) (p : Nat) (peer : PeerConnection) (error : SendError) :
    Transport :=
  { s.setPeer p { peer with pendingSends := [] } with
    invoked := s.invoked ++ peer.pendingSends.map fun r => ⟨r, .failure error⟩ }

/-- `OnConnect` for the connection `k` of the callback. A callback for a replaced connection, or one
that lost the race, closes the connection; success flushes the buffered sends. -/
def onConnect (s : Transport) (p k : Nat) (ok : Bool) : Transport :=
  match s.peers[p]? with
  | none => s
  | some peer =>
    if peer.conn ≠ some k then s.onConn k TcpConnection.close
    else if ok then
      if peer.state = .connecting then
        (s.setPeer p { peer with state := .connected, pendingSends := [] }).onConn k fun c =>
          (peer.pendingSends.foldl TcpConnection.send { c with connected := true }, [])
      else s.onConn k TcpConnection.close
    else if peer.state = .connecting then
      (s.onConn k TcpConnection.close).drainPendingSends p { peer with state := .failed }
        .connectionFailed
    else s

/-- `if (conn_) conn_->Close()`. -/
def closeConn (s : Transport) : Option Nat → Transport
  | some k => s.onConn k TcpConnection.close
  | none => s

/-- `PeerConnection::Close`. -/
def closePeer (s : Transport) (p : Nat) : Transport :=
  match s.peers[p]? with
  | none => s
  | some peer =>
    if peer.state = .disconnected then s
    else
      (s.closeConn peer.conn).drainPendingSends p { peer with state := .disconnected, conn := none }
        .transportStopped

/-- The events of the transport; the handlers of sockets, timers and strands run in any order. -/
inductive Event where
  | sendRpc (groupId : Nat) (type : RpcType)
  | createGroup (groupId : Nat)
  | runPosted (i : Nat)
  | runRejected (i : Nat)
  | runEnqueueSend (i : Nat)
  | startConnecting (p : Nat)
  | onConnect (p k : Nat) (ok : Bool)
  | closePeer (p : Nat)
  | runSendPost (k : Nat)
  | writeHandler (k i : Nat) (ok : Bool)
  | timeout (k id : Nat)
  | serverAnswer (k i : Nat) (withId : Bool)
  | handleMessage (k i : Nat)
  | readError (k : Nat)
  | drainWriteQueue (k : Nat)
  | setBatching (k : Nat) (enabled : Bool)
  | stop
  deriving DecidableEq

def next (s : Transport) : Event → Transport
  | .sendRpc g type => s.sendRpc g type
  | .createGroup g => s.createGroup g
  | .runPosted i => s.runPosted i
  | .runRejected i => s.runRejected i
  | .runEnqueueSend i => s.runEnqueueSend i
  | .startConnecting p => s.startConnecting p
  | .onConnect p k ok => s.onConnect p k ok
  | .closePeer p => s.closePeer p
  | .runSendPost k => s.onConn k fun c => (c.runSendPost, [])
  | .writeHandler k i ok => s.onConn k fun c => c.writeHandler i ok
  | .timeout k id => s.onConn k fun c => c.timeout id
  | .serverAnswer k i withId => s.onConn k fun c => (c.serverAnswer i withId, [])
  | .handleMessage k i => s.onConn k fun c => c.handleMessage i
  | .readError k => s.onConn k fun c => ({ c with connected := false }, [])
  | .drainWriteQueue k => s.onConn k TcpConnection.drainWriteQueue
  | .setBatching k enabled => s.onConn k fun c => ({ c with batchingEnabled := enabled }, [])
  | .stop => { s with running := false }

def system : TransitionSystem Transport Event where
  init s := s = initial
  next s e := some (s.next e)

end Transport

end RollingRaft
