/-
# RollingRaft.Protocol.Messages — the RPC messages with all their fields (`rpc.h`).

`Rpc.lean` has the messages as the nodes exchange them; these are the objects the protocol writes and
reads, with the correlation and group ids of the header and the fields at the widths of their C++
types. A default value is that of the class's default constructor, and the class of an object is the
constructor of its body.
-/
import RollingRaft.Protocol.JsonValue

namespace RollingRaft.Rpc

open Lib

inductive RaftMessageType where
  | invalid
  | requestVoteRequest | requestVoteResponse
  | appendEntriesRequest | appendEntriesResponse
  | installSnapshotRequest | installSnapshotResponse
  | clientRequest | clientResponse
  | configChangeRequest | configChangeResponse
  | preVoteRequest | preVoteResponse
  | readIndexRequest | readIndexResponse
  deriving DecidableEq

namespace RaftMessageType

def code : RaftMessageType → Int
  | invalid => -1
  | requestVoteRequest => 0
  | requestVoteResponse => 1
  | appendEntriesRequest => 2
  | appendEntriesResponse => 3
  | installSnapshotRequest => 4
  | installSnapshotResponse => 5
  | clientRequest => 6
  | clientResponse => 7
  | configChangeRequest => 8
  | configChangeResponse => 9
  | preVoteRequest => 10
  | preVoteResponse => 11
  | readIndexRequest => 12
  | readIndexResponse => 13

def all : List RaftMessageType :=
  [invalid, requestVoteRequest, requestVoteResponse, appendEntriesRequest, appendEntriesResponse,
    installSnapshotRequest, installSnapshotResponse, clientRequest, clientResponse,
    configChangeRequest, configChangeResponse, preVoteRequest, preVoteResponse, readIndexRequest,
    readIndexResponse]

end RaftMessageType

/-- `IntToMessageType`. The enumeration is an `int8_t`: the low byte decides, and a value without a
name is `none`. -/
def intToMessageType (typeId : Int) : Option RaftMessageType :=
  RaftMessageType.all.find? fun t => t.code = (typeId + 128) % 256 - 128

theorem intToMessageType_code (t : RaftMessageType) : intToMessageType t.code = some t := by
  cases t <;> decide +kernel

/-! ## §1 — Requests. -/

/-- `RequestVoteRequest` and `PreVoteRequest`. -/
structure VoteRequest where
  term : UInt32 := 0
  candidateId : Int32 := -1
  lastLogIndex : UInt32 := 0
  lastLogTerm : UInt32 := 0
  deriving DecidableEq

/-- `RaftLogEntry`. -/
structure Entry where
  index : UInt32 := 0
  term : UInt32 := 0
  data : Bytes := []
  command : Bytes := []
  checksum : UInt32 := 0
  deriving DecidableEq

structure AppendEntriesRequest where
  term : UInt32 := 0
  leaderId : Int32 := -1
  prevLogIndex : UInt32 := 0
  prevLogTerm : UInt32 := 0
  entries : List Entry := []
  leaderCommit : UInt32 := 0
  deriving DecidableEq

structure InstallSnapshotRequest where
  term : UInt32 := 0
  leaderId : Int32 := -1
  lastIncludedIndex : UInt32 := 0
  lastIncludedTerm : UInt32 := 0
  offset : UInt32 := 0
  data : Bytes := []
  done : Bool := false
  deriving DecidableEq

structure ClientRequest where
  command : Bytes := []
  clientId : UInt64 := 0
  seq : UInt64 := 0
  readOnly : Bool := false
  deriving DecidableEq

/-- `ConfigChangeRequest::Type`. -/
inductive ChangeType where
  | addNode | removeNode
  deriving DecidableEq

structure ConfigChangeRequest where
  changeType : ChangeType := .addNode
  nodeId : Int32 := -1
  nodeAddr : Bytes := []
  deriving DecidableEq

/-- The classes derived from `RaftRequest`. -/
inductive RequestBody where
  | requestVote (r : VoteRequest)
  | appendEntries (r : AppendEntriesRequest)
  | installSnapshot (r : InstallSnapshotRequest)
  | client (r : ClientRequest)
  | configChange (r : ConfigChangeRequest)
  | preVote (r : VoteRequest)
  | readIndex
  deriving DecidableEq

/-! ## §2 — Responses. -/

/-- `RequestVoteResponse` and `PreVoteResponse`. -/
structure VoteResponse where
  term : UInt32 := 0
  voteGranted : Bool := false
  deriving DecidableEq

structure AppendEntriesResponse where
  term : UInt32 := 0
  success : Bool := false
  conflictIndex : UInt32 := 0
  entriesCount : UInt32 := 0
  deriving DecidableEq

structure InstallSnapshotResponse where
  term : UInt32 := 0
  deriving DecidableEq

structure ClientResponse where
  success : Bool := false
  response : Bytes := []
  error : Bytes := []
  errorCode : Bytes := []
  lastAppliedIndex : UInt32 := 0
  leaderId : Int32 := -1
  leaderAddr : Bytes := []
  deriving DecidableEq

structure ConfigChangeResponse where
  success : Bool := false
  error : Bytes := []
  deriving DecidableEq

structure ReadIndexResponse where
  term : UInt32 := 0
  readIndex : UInt32 := 0
  leaderValid : Bool := false
  deriving DecidableEq

/-- The classes derived from `RaftResponse`. -/
inductive ResponseBody where
  | requestVote (r : VoteResponse)
  | appendEntries (r : AppendEntriesResponse)
  | installSnapshot (r : InstallSnapshotResponse)
  | client (r : ClientResponse)
  | configChange (r : ConfigChangeResponse)
  | preVote (r : VoteResponse)
  | readIndex (r : ReadIndexResponse)
  deriving DecidableEq

/-! ## §3 — Whole messages. -/

/-- The fields of the two base classes. -/
structure Headed (β : Type) where
  correlationId : UInt64 := 0
  groupId : UInt64 := 0
  body : β
  deriving DecidableEq

abbrev RaftRequest := Headed RequestBody

abbrev RaftResponse := Headed ResponseBody

/-- `type_`, as the constructor of the class sets it. -/
def RequestBody.type : RequestBody → RaftMessageType
  | .requestVote _ => .requestVoteRequest
  | .appendEntries _ => .appendEntriesRequest
  | .installSnapshot _ => .installSnapshotRequest
  | .client _ => .clientRequest
  | .configChange _ => .configChangeRequest
  | .preVote _ => .preVoteRequest
  | .readIndex => .readIndexRequest

def ResponseBody.type : ResponseBody → RaftMessageType
  | .requestVote _ => .requestVoteResponse
  | .appendEntries _ => .appendEntriesResponse
  | .installSnapshot _ => .installSnapshotResponse
  | .client _ => .clientResponse
  | .configChange _ => .configChangeResponse
  | .preVote _ => .preVoteResponse
  | .readIndex _ => .readIndexResponse

/-- A default-constructed object of the same class. -/
def RequestBody.fresh : RequestBody → RequestBody
  | .requestVote _ => .requestVote {}
  | .appendEntries _ => .appendEntries {}
  | .installSnapshot _ => .installSnapshot {}
  | .client _ => .client {}
  | .configChange _ => .configChange {}
  | .preVote _ => .preVote {}
  | .readIndex => .readIndex

def ResponseBody.fresh : ResponseBody → ResponseBody
  | .requestVote _ => .requestVote {}
  | .appendEntries _ => .appendEntries {}
  | .installSnapshot _ => .installSnapshot {}
  | .client _ => .client {}
  | .configChange _ => .configChange {}
  | .preVote _ => .preVote {}
  | .readIndex _ => .readIndex {}

end RollingRaft.Rpc
