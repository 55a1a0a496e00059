/-
# RollingRaft.Protocol.JsonProtocol — the messages as JSON text (`json_protocol.cpp`).

Writing is a sequence of assignments `j[key] = field`. Reading takes an object of the caller's class:
the class is chosen by the `type` of the TEXT, the two header fields are stored first, then the
object is cast to the chosen class without a check and its fields are assigned in order. An exception
leaves the object as the assignments before it made it. `Decoded.badCast` is the undefined behaviour
of a cast to a class the object does not have.

The header is read with `j.value(key, 0)`, so through an `int`: `storedId` is what a 64-bit id
becomes that way.
-/
import Mathlib.Data.List.Nodup
import RollingRaft.Protocol.Messages

namespace RollingRaft.Rpc

open Lib

/-! ## §1 — Keys. -/

/-- The member names of the messages. -/
inductive Key where
  | correlationId | groupId | type | term | candidateId | lastLogIndex | lastLogTerm | leaderId
  | prevLogIndex | prevLogTerm | leaderCommit | entries | index | data | command | checksum
  | lastIncludedIndex | lastIncludedTerm | offset | done | clientId | seq | readOnly | voteGranted
  | success | conflictIndex | entriesCount | response | error | errorCode | lastAppliedIndex
  | leaderAddr | readIndex | leaderValid
  deriving DecidableEq

namespace Key

def name : Key → String
  | correlationId => "correlation_id"
  | groupId => "group_id"
  | type => "type"
  | term => "term"
  | candidateId => "candidate_id"
  | lastLogIndex => "last_log_index"
  | lastLogTerm => "last_log_term"
  | leaderId => "leader_id"
  | prevLogIndex => "prev_log_index"
  | prevLogTerm => "prev_log_term"
  | leaderCommit => "leader_commit"
  | entries => "entries"
  | index => "index"
  | data => "data"
  | command => "command"
  | checksum => "checksum"
  | lastIncludedIndex => "last_included_index"
  | lastIncludedTerm => "last_included_term"
  | offset => "offset"
  | done => "done"
  | clientId => "client_id"
  | seq => "seq"
  | readOnly => "read_only"
  | voteGranted => "vote_granted"
  | success => "success"
  | conflictIndex => "conflict_index"
  | entriesCount => "entries_count"
  | response => "response"
  | error => "error"
  | errorCode => "error_code"
  | lastAppliedIndex => "last_applied_index"
  | leaderAddr => "leader_addr"
  | readIndex => "read_index"
  | leaderValid => "leader_valid"

def text (k : Key) : Bytes := ascii k.name

def all : List Key :=
  [correlationId, groupId, type, term, candidateId, lastLogIndex, lastLogTerm, leaderId,
    prevLogIndex, prevLogTerm, leaderCommit, entries, index, data, command, checksum,
    lastIncludedIndex, lastIncludedTerm, offset, done, clientId, seq, readOnly, voteGranted,
    success, conflictIndex, entriesCount, response, error, errorCode, lastAppliedIndex, leaderAddr,
    readIndex, leaderValid]

theorem mem_all (k : Key) : k ∈ all := by
  cases k <;> decide

theorem nodup_texts : (all.map text).Nodup := by
  decide +kernel

theorem text_inj {a b : Key} : a.text = b.text ↔ a = b :=
  ⟨List.inj_on_of_nodup_map nodup_texts (mem_all a) (mem_all b), fun h => h ▸ rfl⟩

theorem validUtf8_text (k : Key) : validUtf8 k.text = true := by
  have h : ∀ k ∈ all, validUtf8 k.text = true := by
    decide +kernel
  exact h k (mem_all k)

end Key

/-- `j[key] = value` for each field in order. -/
def object (fields : List (Key × Json)) : Json :=
  .ofFields (fields.map fun f => (f.1.text, f.2))

theorem lookup_map_text (fields : List (Key × Json)) (k : Key) :
    (fields.map fun f => (f.1.text, f.2)).lookup k.text = fields.lookup k := by
  induction fields with
  | nil => rfl
  | cons f fields ih =>
    rw [List.map_cons, List.lookup_cons, List.lookup_cons, ih]
    have hbeq : (k.text == f.1.text) = (k == f.1) := by
      rw [Bool.eq_iff_iff, beq_iff_eq, beq_iff_eq, Key.text_inj]
    rw [hbeq]

theorem get?_object (fields : List (Key × Json)) (k : Key) :
    (object fields).get? k.text = fields.reverse.lookup k := by
  rw [object, Json.get?_ofFields, ← List.map_reverse, lookup_map_text]

variable {fields : List (Key × Json)}

theorem canonical_object (h : ∀ f ∈ fields, f.2.canonical = true) :
    (object fields).canonical = true := by
  apply Json.canonical_ofFields
  intro f hf
  obtain ⟨g, hg, rfl⟩ := List.mem_map.mp hf
  exact h g hg

theorem textsValid_object (h : ∀ f ∈ fields, f.2.textsValid = true) :
    (object fields).textsValid = true := by
  apply Json.textsValid_ofFields
  intro f hf
  obtain ⟨g, hg, rfl⟩ := List.mem_map.mp hf
  exact ⟨g.1.validUtf8_text, h g hg⟩

/-! ## §2 — Writing. -/

/-- `Status`, as far as the protocol returns it. -/
inductive ProtocolStatus where
  | ok
  | protocolError (message : Bytes)
  | serializeError (message : Bytes)
  | deSerializeError (message : Bytes)
  deriving DecidableEq

/-- `static_cast<int>(type_)`. -/
def typeField (t : RaftMessageType) : Key × Json := (.type, .ofInt t.code)

/-- An element of `SerializeEntries`. -/
def entryFields (e : Entry) : List (Key × Json) :=
  [(.index, .ofUInt32 e.index), (.term, .ofUInt32 e.term), (.data, .string e.data),
    (.command, .string e.command), (.checksum, .ofUInt32 e.checksum)]

def serializeEntries (entries : List Entry) : Json :=
  .array (entries.map fun e => object (entryFields e))

def voteRequestFields (r : VoteRequest) : List (Key × Json) :=
  [(.term, .ofUInt32 r.term), (.candidateId, .ofInt32 r.candidateId),
    (.lastLogIndex, .ofUInt32 r.lastLogIndex), (.lastLogTerm, .ofUInt32 r.lastLogTerm)]

/-- The cases of the `switch` of `SerializeRequest`; `none` is its default. -/
def requestFields : RequestBody → Option (List (Key × Json))
  | .requestVote r => some (typeField .requestVoteRequest :: voteRequestFields r)
  | .appendEntries r => some
      [typeField .appendEntriesRequest, (.term, .ofUInt32 r.term), (.leaderId, .ofInt32 r.leaderId),
        (.prevLogIndex, .ofUInt32 r.prevLogIndex), (.prevLogTerm, .ofUInt32 r.prevLogTerm),
        (.leaderCommit, .ofUInt32 r.leaderCommit), (.entries, serializeEntries r.entries)]
  | .installSnapshot r => some [typeField .installSnapshotRequest, (.term, .ofUInt32 r.term),
        (.leaderId, .ofInt32 r.leaderId), (.lastIncludedIndex, .ofUInt32 r.lastIncludedIndex),
        (.lastIncludedTerm, .ofUInt32 r.lastIncludedTerm), (.offset, .ofUInt32 r.offset),
        (.data, .string r.data), (.done, .bool r.done)]
  | .client r => some
      [typeField .clientRequest, (.command, .string r.command), (.clientId, .ofUInt64 r.clientId),
        (.seq, .ofUInt64 r.seq), (.readOnly, .bool r.readOnly)]
  | .preVote r => some (typeField .preVoteRequest :: voteRequestFields r)
  | .readIndex => some [typeField .readIndexRequest]
  | .configChange _ => none

def voteResponseFields (r : VoteResponse) : List (Key × Json) :=
  [(.term, .ofUInt32 r.term), (.voteGranted, .bool r.voteGranted)]

/-- An empty error code is not written. -/
def errorCodeField (r : ClientResponse) : List (Key × Json) :=
  if r.errorCode.isEmpty then [] else [(.errorCode, .string r.errorCode)]

/-- The cases of the `switch` of `SerializeResponse`. -/
def responseFields : ResponseBody → Option (List (Key × Json))
  | .requestVote r => some (typeField .requestVoteResponse :: voteResponseFields r)
  | .appendEntries r => some
      [typeField .appendEntriesResponse, (.term, .ofUInt32 r.term), (.success, .bool r.success),
        (.conflictIndex, .ofUInt32 r.conflictIndex), (.entriesCount, .ofUInt32 r.entriesCount)]
  | .installSnapshot r => some [typeField .installSnapshotResponse, (.term, .ofUInt32 r.term)]
  | .client r => some
      ([typeField .clientResponse, (.success, .bool r.success), (.response, .string r.response),
        (.error, .string r.error)] ++ errorCodeField r ++
        [(.lastAppliedIndex, .ofUInt32 r.lastAppliedIndex), (.leaderId, .ofInt32 r.leaderId),
          (.leaderAddr, .string r.leaderAddr)])
  | .preVote r => some (typeField .preVoteResponse :: voteResponseFields r)
  | .readIndex r => some
      [typeField .readIndexResponse, (.term, .ofUInt32 r.term), (.readIndex, .ofUInt32 r.readIndex),
        (.leaderValid, .bool r.leaderValid)]
  | .configChange _ => none

section Serialize

variable (js : JsonText) {β : Type}

/-- What `SerializeRequest` and `SerializeResponse` share. -/
def serializeMessage (kind : String) (fields : β → Option (List (Key × Json))) (m : Headed β) :
    Except ProtocolStatus Bytes :=
  match fields m.body with
  | none => .error (.protocolError (ascii "Unknown " ++ ascii kind ++ ascii " type"))
  | some fields =>
    match js.dump (object ((.correlationId, .ofUInt64 m.correlationId)
        :: (.groupId, .ofUInt64 m.groupId) :: fields)) with
    | .ok text => .ok text
    | .error what =>
      .error (.serializeError (ascii "Failed to serialize " ++ ascii kind ++ ascii ": " ++ what))

def serializeRequest (req : RaftRequest) : Except ProtocolStatus Bytes :=
  serializeMessage js "request" requestFields req

def serializeResponse (res : RaftResponse) : Except ProtocolStatus Bytes :=
  serializeMessage js "response" responseFields res

end Serialize

/-! ## §3 — Assignments. -/

/-- One assignment `object.field = j[key]`; an optional one is made when the key is there. -/
structure Assign (σ : Type) where
  key : Key
  optional : Bool
  store : Json → Except Bytes (σ → σ)

section Assignments

variable {σ α : Type}

def required (key : Key) (get : Json → Except Bytes α) (put : α → σ → σ) : Assign σ :=
  ⟨key, false, fun v => (get v).map put⟩

def optional (key : Key) (get : Json → Except Bytes α) (put : α → σ → σ) : Assign σ :=
  ⟨key, true, fun v => (get v).map put⟩

/-- `j[key]` of a key that is not there is `null`. -/
def Assign.run (a : Assign σ) (j : Json) (object : σ) : Except Bytes σ :=
  match j.get? a.key.text with
  | some v => (a.store v).map fun put => put object
  | none => if a.optional then .ok object else (a.store .null).map fun put => put object

/-- The assignments in order, up to the first exception. -/
def assignAll (j : Json) : List (Assign σ) → σ → σ × Option Bytes
  | [], object => (object, none)
  | a :: assigns, object =>
    match a.run j object with
    | .ok object => assignAll j assigns object
    | .error what => (object, some what)

/-- The check for the fields a class requires. -/
def missesRequired (j : Json) (assigns : List (Assign σ)) : Bool :=
  assigns.any fun a => !a.optional && !j.contains a.key.text

end Assignments

/-! ## §4 — Reading. -/

/-- How a decoder ends: with a status and the object as it was left, or in a cast to a class that
the object does not have. -/
inductive Decoded (ρ : Type) where
  | returned (status : ProtocolStatus) (object : ρ)
  | badCast
  deriving DecidableEq

/-- `catch (const std::exception& e)`. -/
def decodingThrew (what : Bytes) : ProtocolStatus :=
  .deSerializeError (ascii "Deserialization error: " ++ what)

/-- The exception of `parse`: its text tells a `parse_error` from the others. -/
def parsingThrew (what : Bytes) : ProtocolStatus :=
  if startsWith what (ascii "[json.exception.parse_error.") then
    .deSerializeError (ascii "JSON parse error: " ++ what)
  else decodingThrew what

/-- What a `uint64_t` has become that was read as an `int`. -/
def storedId (i : Int) : UInt64 := UInt64.ofInt i

section Classes

variable {σ ρ : Type}

/-- One case of the `switch`: the required fields, the cast, the assignments and what follows them.
`object` is the caller's object when it has the class, and `wrap` puts it back. -/
def decodeClass (j : Json) (missing : String) (assigns : List (Assign σ))
    (finish : σ → σ × ProtocolStatus) (object : Option σ) (wrap : σ → ρ) (whole : ρ) : Decoded ρ :=
  if missesRequired j assigns then .returned (.deSerializeError (ascii missing)) whole
  else
    match object with
    | none => .badCast
    | some object =>
      match assignAll j assigns object with
      | (object, some what) => .returned (decodingThrew what) (wrap object)
      | (object, none) => .returned (finish object).2 (wrap (finish object).1)

/-- Nothing follows the assignments. -/
def decodeFields (j : Json) (missing : String) (assigns : List (Assign σ)) (object : Option σ)
    (wrap : σ → ρ) (whole : ρ) : Decoded ρ :=
  decodeClass j missing assigns (fun object => (object, .ok)) object wrap whole

end Classes

section Decode

variable (js : JsonLibrary)

def entryAssigns : List (Assign Entry) :=
  [required .index (·.getUInt32 js) fun v e => { e with index := v },
    required .term (·.getUInt32 js) fun v e => { e with term := v },
    optional .data (·.asString) fun v e => { e with data := v },
    optional .command (·.asString) fun v e => { e with command := v },
    optional .checksum (·.getUInt32 js) fun v e => { e with checksum := v }]

/-- The loop of `DeserializeEntries`. -/
def pushEntries : List Json → List Entry → List Entry × ProtocolStatus
  | [], entries => (entries, .ok)
  | j :: items, entries =>
    if missesRequired j (entryAssigns js) then
      (entries, .deSerializeError (ascii "Missing entry fields"))
    else
      match assignAll j (entryAssigns js) {} with
      | (_, some what) => (entries, decodingThrew what)
      | (entry, none) => pushEntries items (entries ++ [entry])

/-- `DeserializeEntries`: no array is no entries. -/
def deserializeEntries (j : Json) (entries : List Entry) : List Entry × ProtocolStatus :=
  match j.get? Key.entries.text with
  | some (.array items) => pushEntries js items entries
  | _ => (entries, .ok)

def voteRequestAssigns : List (Assign VoteRequest) :=
  [required .term (·.getUInt32 js) fun v r => { r with term := v },
    required .candidateId (·.getInt32 js.toJsonText) fun v r => { r with candidateId := v },
    required .lastLogIndex (·.getUInt32 js) fun v r => { r with lastLogIndex := v },
    required .lastLogTerm (·.getUInt32 js) fun v r => { r with lastLogTerm := v }]

def appendEntriesAssigns : List (Assign AppendEntriesRequest) :=
  [required .term (·.getUInt32 js) fun v r => { r with term := v },
    required .leaderId (·.getInt32 js.toJsonText) fun v r => { r with leaderId := v },
    required .prevLogIndex (·.getUInt32 js) fun v r => { r with prevLogIndex := v },
    required .prevLogTerm (·.getUInt32 js) fun v r => { r with prevLogTerm := v },
    required .leaderCommit (·.getUInt32 js) fun v r => { r with leaderCommit := v }]

def installSnapshotAssigns : List (Assign InstallSnapshotRequest) :=
  [required .term (·.getUInt32 js) fun v r => { r with term := v },
    required .leaderId (·.getInt32 js.toJsonText) fun v r => { r with leaderId := v },
    required .lastIncludedIndex (·.getUInt32 js) fun v r => { r with lastIncludedIndex := v },
    required .lastIncludedTerm (·.getUInt32 js) fun v r => { r with lastIncludedTerm := v },
    required .offset (·.getUInt32 js) fun v r => { r with offset := v },
    required .done (·.getBool) fun v r => { r with done := v },
    required .data (·.asString) fun v r => { r with data := v }]

def clientRequestAssigns : List (Assign ClientRequest) :=
  [required .command (·.asString) fun v r => { r with command := v },
    required .clientId (·.getUInt64 js) fun v r => { r with clientId := v },
    required .seq (·.getUInt64 js) fun v r => { r with seq := v },
    optional .readOnly (·.getBool) fun v r => { r with readOnly := v }]

def voteResponseAssigns : List (Assign VoteResponse) :=
  [required .term (·.getUInt32 js) fun v r => { r with term := v },
    required .voteGranted (·.getBool) fun v r => { r with voteGranted := v }]

def appendEntriesResponseAssigns : List (Assign AppendEntriesResponse) :=
  [required .term (·.getUInt32 js) fun v r => { r with term := v },
    required .success (·.getBool) fun v r => { r with success := v },
    optional .conflictIndex (·.getUInt32 js) fun v r => { r with conflictIndex := v },
    optional .entriesCount (·.getUInt32 js) fun v r => { r with entriesCount := v }]

def installSnapshotResponseAssigns : List (Assign InstallSnapshotResponse) :=
  [required .term (·.getUInt32 js) fun v r => { r with term := v }]

/-- `error_code.clear()` follows the first assignment. -/
def clientResponseAssigns : List (Assign ClientResponse) :=
  [required .success (·.getBool) fun v r => { r with success := v, errorCode := [] },
    optional .response (·.asString) fun v r => { r with response := v },
    optional .error (·.asString) fun v r => { r with error := v },
    optional .errorCode (·.asString) fun v r => { r with errorCode := v },
    optional .lastAppliedIndex (·.getUInt32 js) fun v r => { r with lastAppliedIndex := v },
    optional .leaderId (·.getInt32 js.toJsonText) fun v r => { r with leaderId := v },
    optional .leaderAddr (·.asString) fun v r => { r with leaderAddr := v }]

def readIndexResponseAssigns : List (Assign ReadIndexResponse) :=
  [required .term (·.getUInt32 js) fun v r => { r with term := v },
    required .readIndex (·.getUInt32 js) fun v r => { r with readIndex := v },
    required .leaderValid (·.getBool) fun v r => { r with leaderValid := v }]

/-- `static_cast<Class&>(req)`, where it is defined. -/
def RequestBody.asRequestVote : RequestBody → Option VoteRequest
  | .requestVote r => some r
  | _ => none

def RequestBody.asAppendEntries : RequestBody → Option AppendEntriesRequest
  | .appendEntries r => some r
  | _ => none

def RequestBody.asInstallSnapshot : RequestBody → Option InstallSnapshotRequest
  | .installSnapshot r => some r
  | _ => none

def RequestBody.asClient : RequestBody → Option ClientRequest
  | .client r => some r
  | _ => none

def RequestBody.asPreVote : RequestBody → Option VoteRequest
  | .preVote r => some r
  | _ => none

def ResponseBody.asRequestVote : ResponseBody → Option VoteResponse
  | .requestVote r => some r
  | _ => none

def ResponseBody.asAppendEntries : ResponseBody → Option AppendEntriesResponse
  | .appendEntries r => some r
  | _ => none

def ResponseBody.asInstallSnapshot : ResponseBody → Option InstallSnapshotResponse
  | .installSnapshot r => some r
  | _ => none

def ResponseBody.asClient : ResponseBody → Option ClientResponse
  | .client r => some r
  | _ => none

def ResponseBody.asPreVote : ResponseBody → Option VoteResponse
  | .preVote r => some r
  | _ => none

def ResponseBody.asReadIndex : ResponseBody → Option ReadIndexResponse
  | .readIndex r => some r
  | _ => none

/-- The entries of an AppendEntries request follow its other fields. -/
def finishAppendEntries (j : Json) (r : AppendEntriesRequest) :
    AppendEntriesRequest × ProtocolStatus :=
  let (entries, status) := deserializeEntries js j r.entries
  ({ r with entries := entries }, status)

/-- The `switch` of `DeserializeRequest`. -/
def decodeRequestBody (j : Json) (type : Option RaftMessageType) (body : RequestBody) :
    Decoded RequestBody :=
  match type with
  | some .requestVoteRequest =>
    decodeFields j "Missing required fields for RequestVote" (voteRequestAssigns js)
      body.asRequestVote .requestVote body
  | some .appendEntriesRequest =>
    decodeClass j "Missing required fields for AppendEntries" (appendEntriesAssigns js)
      (finishAppendEntries js j) body.asAppendEntries .appendEntries body
  | some .installSnapshotRequest =>
    decodeFields j "Missing required fields for InstallSnapshot" (installSnapshotAssigns js)
      body.asInstallSnapshot .installSnapshot body
  | some .clientRequest =>
    decodeFields j "Missing required fields for ClientRequest" (clientRequestAssigns js)
      body.asClient .client body
  | some .preVoteRequest =>
    decodeFields j "Missing required fields for PreVote" (voteRequestAssigns js)
      body.asPreVote .preVote body
  | some .readIndexRequest => .returned .ok body
  | _ => .returned (.protocolError (ascii "Unsupported request type")) body

/-- The `switch` of `DeserializeResponse`. -/
def decodeResponseBody (j : Json) (type : Option RaftMessageType) (body : ResponseBody) :
    Decoded ResponseBody :=
  match type with
  | some .requestVoteResponse =>
    decodeFields j "Missing required fields for RequestVoteResponse" (voteResponseAssigns js)
      body.asRequestVote .requestVote body
  | some .appendEntriesResponse =>
    decodeFields j "Missing required fields for AppendEntriesResponse"
      (appendEntriesResponseAssigns js) body.asAppendEntries .appendEntries body
  | some .installSnapshotResponse =>
    decodeFields j "Missing required fields for InstallSnapshotResponse"
      (installSnapshotResponseAssigns js) body.asInstallSnapshot .installSnapshot body
  | some .clientResponse =>
    decodeFields j "Missing required fields for ClientResponse" (clientResponseAssigns js)
      body.asClient .client body
  | some .preVoteResponse =>
    decodeFields j "Missing required fields for PreVoteResponse" (voteResponseAssigns js)
      body.asPreVote .preVote body
  | some .readIndexResponse =>
    decodeFields j "Missing required fields for ReadIndexResponse" (readIndexResponseAssigns js)
      body.asReadIndex .readIndex body
  | _ => .returned (.protocolError (ascii "Unsupported response type")) body

/-- `std::to_string` of an `int`. -/
def toText (i : Int) : Bytes := ascii (toString i)

variable {β : Type}

/-- The rest of a message after its `type`: the header is stored before the body is looked at. -/
def decodeRest (j : Json) (type : Option RaftMessageType)
    (decode : Json → Option RaftMessageType → β → Decoded β) (m : Headed β) : Decoded (Headed β) :=
  match j.valueInt js.toJsonText Key.correlationId.text with
  | .error what => .returned (decodingThrew what) m
  | .ok correlationId =>
    let m := { m with correlationId := storedId correlationId }
    match j.valueInt js.toJsonText Key.groupId.text with
    | .error what => .returned (decodingThrew what) m
    | .ok groupId =>
      let m := { m with groupId := storedId groupId }
      match decode j type m.body with
      | .returned status body => .returned status { m with body := body }
      | .badCast => .badCast

/-- What `DeserializeRequest` and `DeserializeResponse` share. -/
def deserializeMessage (kind : String) (decode : Json → Option RaftMessageType → β → Decoded β)
    (input : Bytes) (m : Headed β) : Decoded (Headed β) :=
  match js.parse input with
  | .error what => .returned (parsingThrew what) m
  | .ok j =>
    match j.get? Key.type.text with
    | none => .returned (.deSerializeError (ascii "Missing 'type' field in " ++ ascii kind)) m
    | some v =>
      match v.asInt32 js.toJsonText with
      | .error what => .returned (decodingThrew what) m
      | .ok typeId =>
        if intToMessageType typeId = some .invalid then
          .returned (.protocolError
            (ascii "Unknown " ++ ascii kind ++ ascii " type: " ++ toText typeId)) m
        else decodeRest js j (intToMessageType typeId) decode m

def deserializeRequest (input : Bytes) (req : RaftRequest) : Decoded RaftRequest :=
  deserializeMessage js "request" (decodeRequestBody js) input req

def deserializeResponse (input : Bytes) (res : RaftResponse) : Decoded RaftResponse :=
  deserializeMessage js "response" (decodeResponseBody js) input res

end Decode

end RollingRaft.Rpc
