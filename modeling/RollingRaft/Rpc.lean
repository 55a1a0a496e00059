/-
# RollingRaft.Rpc — the Raft messages (`rpc.h`) and when a request can be sent at all.

Group ids belong to the transport and are left out. A request is sent as the
text of a JSON object; building that text can fail, since the JSON library refuses strings that are
not valid UTF-8, and then nothing is sent. `serializes` is that test, with the library's printer as
a parameter. Decoding a text gives back the request it was made from, so messages are passed as
values.
-/
import RollingRaft.Types
import RollingRaft.Json

namespace RollingRaft

open Lib

structure RequestVoteRequest where
  term : Term
  candidateId : NodeId
  lastLogIndex : Index
  lastLogTerm : Term
  deriving DecidableEq

/-- `RequestVoteResponse` and `PreVoteResponse`. -/
structure VoteResponse where
  term : Term
  voteGranted : Bool
  deriving DecidableEq

structure AppendEntriesRequest where
  term : Term
  leaderId : NodeId
  prevLogIndex : Index
  prevLogTerm : Term
  entries : List LogEntry
  leaderCommit : Index
  deriving DecidableEq

structure AppendEntriesResponse where
  term : Term
  success : Bool := false
  conflictIndex : Index := 0
  entriesCount : Nat := 0
  deriving DecidableEq

structure InstallSnapshotRequest where
  term : Term
  leaderId : NodeId
  lastIncludedIndex : Index
  lastIncludedTerm : Term
  offset : Nat
  data : Bytes
  done : Bool
  deriving DecidableEq

/-- The RPCs between nodes; a `PreVoteRequest` has the fields of a `RequestVoteRequest`. -/
inductive Request where
  | requestVote (req : RequestVoteRequest)
  | preVote (req : RequestVoteRequest)
  | appendEntries (req : AppendEntriesRequest)
  | installSnapshot (req : InstallSnapshotRequest)
  deriving DecidableEq

namespace Request

def term : Request → Term
  | requestVote req => req.term
  | preVote req => req.term
  | appendEntries req => req.term
  | installSnapshot req => req.term

def isLeaderRequest : Request → Bool
  | appendEntries _ => true
  | installSnapshot _ => true
  | _ => false

/-- `RaftMessageType`. -/
def typeCode : Request → Nat
  | requestVote _ => 0
  | appendEntries _ => 2
  | installSnapshot _ => 4
  | preVote _ => 10

private def field (key : String) (value : Json) : Bytes × Json := (ascii key, value)

private def signed (i : Int) : Json := if 0 ≤ i then .unsigned i.toNat else .integer i

/-- An element of `SerializeEntries`. -/
private def entryJson (e : LogEntry) : Json :=
  .object [field "index" (.unsigned e.index), field "term" (.unsigned e.term),
    field "data" (.string e.data)]

/-- The object `SerializeRequest` builds. -/
def toJson (r : Request) : Json :=
  .object <| field "type" (.unsigned r.typeCode) :: field "term" (.unsigned r.term) :: match r with
    | requestVote req | preVote req =>
      [field "candidate_id" (signed req.candidateId),
        field "last_log_index" (.unsigned req.lastLogIndex),
        field "last_log_term" (.unsigned req.lastLogTerm)]
    | appendEntries req =>
      [field "leader_id" (signed req.leaderId), field "prev_log_index" (.unsigned req.prevLogIndex),
        field "prev_log_term" (.unsigned req.prevLogTerm),
        field "leader_commit" (.unsigned req.leaderCommit),
        field "entries" (.array (req.entries.map entryJson))]
    | installSnapshot req =>
      [field "leader_id" (signed req.leaderId),
        field "last_included_index" (.unsigned req.lastIncludedIndex),
        field "last_included_term" (.unsigned req.lastIncludedTerm),
        field "offset" (.unsigned req.offset), field "data" (.string req.data),
        field "done" (.bool req.done)]

/-- `SerializeRequest` succeeds. -/
def serializes (js : JsonText) (r : Request) : Bool := (js.dump r.toJson).isOk

end Request

/-- The callback a request is sent with: what it captures besides the peer. `id` tells the requests
of a node apart, as the correlation id does: it is the number of things the node had done before it
sent this one. The code of the callback does not look at it. -/
inductive Callback where
  /-- `HandleRequestVoteResponse` with `original_term`. -/
  | vote (originalTerm : Term)
  /-- `HandlePreVoteResponse` with `original_pre_vote_term`. -/
  | preVote (originalPreVoteTerm : Term)
  /-- `HandleHeartbeatResponse` or `HandleAppendEntriesResponse`. -/
  | append (isHeartbeat : Bool) (id : Nat)
  /-- `HandleReadIndexAckLocked`. -/
  | readHeartbeat (readId id : Nat)
  /-- `HandleInstallSnapshotResponse`. -/
  | snapshot (id : Nat)
  deriving DecidableEq

/-- Where the response to a request goes: the node that sent it, and the callback it waits with. -/
structure ReplyTo where
  peer : NodeId
  callback : Callback
  deriving DecidableEq

/-- The responses between nodes. -/
inductive Response where
  | vote (resp : VoteResponse)
  | append (resp : AppendEntriesResponse)
  | snapshot (term : Term)
  deriving DecidableEq

/-- The `term` field of a response. -/
def Response.term : Response → Term
  | .vote resp => resp.term
  | .append resp => resp.term
  | .snapshot term => term

/-- What a leader answers to a read that a follower forwards. -/
structure ReadIndexResponse where
  term : Term
  readIndex : Index := 0
  leaderValid : Bool := false
  deriving DecidableEq

/-- `Status`, as far as these calls return it. -/
inductive Status where
  | ok
  | error (message : Bytes)
  | notLeader (leaderId : NodeId) (leaderAddr : Bytes)
  /-- The status of an `AppendSync` that failed. -/
  | flushFailed
  deriving DecidableEq

structure ClientRequest where
  command : Bytes
  clientId : Nat
  seq : Nat
  readOnly : Bool := false
  deriving DecidableEq

structure ClientResponse where
  success : Bool := false
  response : Bytes := []
  error : Bytes := []
  leaderId : NodeId := -1
  leaderAddr : Bytes := []
  lastAppliedIndex : Nat := 0
  deriving DecidableEq

end RollingRaft
