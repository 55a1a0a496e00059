/-
# RollingRaft.Protocol.ByteTransfer — which bytes a leader can replicate.

`Propose` takes any byte string and a state machine writes any snapshot, but both travel inside JSON
strings. A request with bytes that are not valid UTF-8 is not serialised; then nothing is sent, the
next index of the peer stays, and the next attempt builds the same request again. A snapshot is cut
every 64 KiB whatever its bytes are, so a valid snapshot can have an invalid piece. The text travels
as one frame, which the receiver refuses from 100 MiB on, and is handed to the group whose id the
receiver reads in it. So a request goes out and arrives exactly when each of its byte strings is
valid UTF-8, its text is short enough and the group's id is read as it is.
-/
import RollingRaft.Protocol.GroupRouting

namespace RollingRaft

open Lib

/-! ## §1 — What a request carries. -/

namespace Request

def payload : Request → List Bytes
  | .appendEntries req => req.entries.map (·.data)
  | .installSnapshot req => [req.data]
  | _ => []

/-- The request as the node fills it in. -/
def toMessage (correlationId groupId : UInt64) : Request → Rpc.RaftRequest
  | .requestVote req => ⟨correlationId, groupId, .requestVote
      ⟨.ofNat req.term, .ofInt req.candidateId, .ofNat req.lastLogIndex, .ofNat req.lastLogTerm⟩⟩
  | .preVote req => ⟨correlationId, groupId, .preVote
      ⟨.ofNat req.term, .ofInt req.candidateId, .ofNat req.lastLogIndex, .ofNat req.lastLogTerm⟩⟩
  | .appendEntries req => ⟨correlationId, groupId, .appendEntries
      { term := .ofNat req.term, leaderId := .ofInt req.leaderId
        prevLogIndex := .ofNat req.prevLogIndex, prevLogTerm := .ofNat req.prevLogTerm
        entries := req.entries.map fun e =>
          { index := .ofNat e.index, term := .ofNat e.term, data := e.data }
        leaderCommit := .ofNat req.leaderCommit }⟩
  | .installSnapshot req => ⟨correlationId, groupId, .installSnapshot
      { term := .ofNat req.term, leaderId := .ofInt req.leaderId
        lastIncludedIndex := .ofNat req.lastIncludedIndex
        lastIncludedTerm := .ofNat req.lastIncludedTerm
        offset := .ofNat req.offset, data := req.data, done := req.done }⟩

end Request

/-- The byte strings a follower finds in a message. -/
def Rpc.RequestBody.payload : Rpc.RequestBody → List Bytes
  | .appendEntries r => r.entries.map (·.data)
  | .installSnapshot r => [r.data]
  | _ => []

/-- `Send` writes the length of a text into 32 bits, and `DoReadHeader` refuses no bytes and those
from 100 MiB on; this is the body of the first frame. -/
def receivedBody (text : Bytes) : Option Bytes :=
  let length := text.length % 2 ^ 32
  if 0 < length ∧ length < maxBodyLength then some (text.take length) else none
where
  maxBodyLength : Nat := 100 * 1024 * 1024

theorem receivedBody_eq_iff {text : Bytes} : receivedBody text = some text ↔
    0 < text.length ∧ text.length < receivedBody.maxBodyLength := by
  unfold receivedBody receivedBody.maxBodyLength
  dsimp only
  rw [Option.ite_none_right_eq_some, Option.some_inj, List.take_eq_self_iff]
  omega

/-- Who listens: a node with one group, which has the id `0`, or a store. -/
inductive Host where
  | node
  | store (s : Store)

namespace Host

/-- The group that `HandleMessage` hands a body to. -/
def handleMessage (js : JsonText) (body : Bytes) : Host → Option UInt64
  | .node => if extractGroupId js body = 0 then some 0 else none
  | .store s => s.handleMessage js body

def Hosts (id : UInt64) : Host → Prop
  | .node => id = 0
  | .store s => id ∈ s.groups

/-- A group gets what is meant for it exactly when its id is read as it is. -/
theorem handleMessage_iff {js : JsonText} {body : Bytes} {id : UInt64} {host : Host}
    (hhost : host.Hosts id) (hread : extractGroupId js body = readBack id) :
    host.handleMessage js body = some id ↔ Rpc.Survives id := by
  cases host with
  | node =>
    obtain rfl := hhost
    have hzero : readBack 0 = 0 := by decide
    simp [handleMessage, hread, hzero, Rpc.Survives]
  | store s =>
    rw [handleMessage, handleMessage_eq_find, hread, s.find_eq_some_iff, ← Rpc.storedId_toInt32_iff]
    refine ⟨fun h => h.1.symm, fun h => ⟨h.symm, ?_⟩⟩
    rw [readBack, h]
    exact hhost

end Host

namespace Request

variable {js : JsonLibrary} {host : Host} {c id : UInt64}

/-- The request, with its ids, is serialised, its text is received, handed to the group, and read
there with the same bytes. -/
def Arrives (js : JsonLibrary) (host : Host) (c id : UInt64) (r : Request) : Prop :=
  ∃ text received, Rpc.serializeRequest js.toJsonText (r.toMessage c id) = .ok text ∧
    receivedBody text = some text ∧ host.handleMessage js.toJsonText text = some id ∧
    Rpc.deserializeRequest js text ⟨0, 0, (r.toMessage c id).body.fresh⟩ = .returned .ok received ∧
    received.body.payload = r.payload

/-- The text of the request passes the check of its length. -/
def fits (js : JsonText) (c id : UInt64) (r : Request) : Bool :=
  match Rpc.serializeRequest js (r.toMessage c id) with
  | .ok text => 0 < text.length && text.length < receivedBody.maxBodyLength
  | .error _ => false

theorem payload_toMessage (r : Request) (c g : UInt64) :
    (r.toMessage c g).body.payload = r.payload := by
  cases r with
  | appendEntries req => simp [toMessage, Rpc.RequestBody.payload, payload]
  | _ => rfl

theorem serialize_of_valid (hexact : js.Exact) {r : Request}
    (h : ∀ b ∈ r.payload, validUtf8 b = true) (c g : UInt64) : ∃ text received,
    Rpc.serializeRequest js.toJsonText (r.toMessage c g) = .ok text ∧
      Rpc.deserializeRequest js text ⟨0, 0, (r.toMessage c g).body.fresh⟩ = .returned .ok received ∧
      received.body.payload = r.payload := by
  have hstrings : ∀ s ∈ (r.toMessage c g).body.strings, validUtf8 s = true := by
    cases r with
    | appendEntries req =>
      intro s hs
      simp only [toMessage, Rpc.RequestBody.strings, List.flatMap_map, List.mem_flatMap,
        List.mem_cons, List.not_mem_nil, or_false] at hs
      obtain ⟨e, he, rfl | rfl⟩ := hs
      · exact h e.data (List.mem_map.mpr ⟨e, he, rfl⟩)
      · rfl
    | _ =>
      intro s hs
      cases hs
  have hchunk : validUtf8 (r.toMessage c g).body.chunk = true := by
    cases r with
    | installSnapshot req => exact h req.data List.mem_cons_self
    | _ => rfl
  obtain ⟨fields, hfields⟩ : ∃ fields,
      Rpc.requestFields (r.toMessage c g).body = some fields := by
    cases r <;> exact ⟨_, rfl⟩
  have htype : (r.toMessage c g).body.type ≠ .invalid := by
    cases r <;> exact fun h => by cases h
  obtain ⟨text, hserialize, hread⟩ := Rpc.serialize_deserialize hexact hfields htype
    (Rpc.hasHeader_request _ _ hfields) (Rpc.canonical_requestFields hfields)
    (Rpc.textsValid_requestFields hfields hstrings hchunk) (Rpc.decode_requestFields js _ _ hfields)
  exact ⟨text, _, hserialize, hread, payload_toMessage r c g⟩

theorem textsValid_entries {entries : List Rpc.Entry} {e : Rpc.Entry} (he : e ∈ entries)
    (h : validUtf8 e.data = false) : (Rpc.serializeEntries entries).textsValid = false := by
  apply Bool.eq_false_iff.mpr
  intro hvalid
  rw [Rpc.serializeEntries, Json.textsValid, Json.itemsValid_iff] at hvalid
  have hentry := hvalid _ (List.mem_map.mpr ⟨e, he, rfl⟩)
  have hdata : (Rpc.object (Rpc.entryFields e)).get? Rpc.Key.data.text = some (.string e.data) :=
    Rpc.get?_object _ _
  have hstring : validUtf8 e.data = true := Json.textsValid_of_get? hentry hdata
  rw [h] at hstring
  cases hstring

theorem serializeRequest_invalid (hrefuses : js.Refuses) {r : Request} {b : Bytes}
    (hb : b ∈ r.payload) (hinvalid : validUtf8 b = false) (c g : UInt64) (text : Bytes) :
    Rpc.serializeRequest js.toJsonText (r.toMessage c g) ≠ .ok text := by
  obtain ⟨fields, key, v, hfields, hget, hv⟩ : ∃ fields key v,
      Rpc.requestFields (r.toMessage c g).body = some fields ∧
        (Rpc.messageObject c g fields).get? (Rpc.Key.text key) = some v ∧ v.textsValid = false := by
    cases r with
    | requestVote | preVote => cases hb
    | installSnapshot req =>
      cases List.mem_singleton.mp hb
      exact ⟨_, .data, .string req.data, rfl, Rpc.get?_object _ _, hinvalid⟩
    | appendEntries req =>
      obtain ⟨e, he, rfl⟩ := List.mem_map.mp hb
      exact ⟨_, .entries, _, rfl, Rpc.get?_object _ _,
        textsValid_entries (List.mem_map.mpr ⟨e, he, rfl⟩) hinvalid⟩
  have hids : (r.toMessage c g).correlationId = c ∧ (r.toMessage c g).groupId = g := by
    cases r <;> exact ⟨rfl, rfl⟩
  exact Rpc.serializeMessage_refused hrefuses hfields (by rw [hids.1, hids.2]; exact hget) hv text

/-- The receiver reads the id of the group, through an `int`. -/
theorem extractGroupId_toMessage (hexact : js.Exact) (hrefuses : js.Refuses) {r : Request}
    {text : Bytes} (h : Rpc.serializeRequest js.toJsonText (r.toMessage c id) = .ok text) :
    extractGroupId js.toJsonText text = readBack id := by
  have heta : (⟨c, id, (r.toMessage c id).body⟩ : Rpc.RaftRequest) = r.toMessage c id := by
    cases r <;> rfl
  have htext : (GroupRequest.rpc c (r.toMessage c id).body).text? js.toJsonText id = some text := by
    rw [GroupRequest.text?, heta, h]
    rfl
  exact GroupRequest.extractGroupId_rpc hexact hrefuses htext

/-- **A request arrives** exactly when its bytes are valid UTF-8, its text is short enough and the id
of the group is read as it is. -/
theorem arrives_iff (hexact : js.Exact) (hrefuses : js.Refuses) (hhost : host.Hosts id) (r : Request) :
    r.Arrives js host c id ↔
      (∀ b ∈ r.payload, validUtf8 b = true) ∧ Rpc.Survives id ∧ r.fits js.toJsonText c id = true := by
  have hfits {text : Bytes} (h : Rpc.serializeRequest js.toJsonText (r.toMessage c id) = .ok text) :
      r.fits js.toJsonText c id = true ↔ receivedBody text = some text := by
    rw [receivedBody_eq_iff, fits, h]
    simp
  constructor
  · rintro ⟨text, received, hserialize, hbody, hgroup, -⟩
    refine ⟨fun b hb => ?_, ?_, (hfits hserialize).mpr hbody⟩
    · by_contra hinvalid
      exact serializeRequest_invalid hrefuses hb (Bool.eq_false_iff.mpr hinvalid) c id text hserialize
    · have hread := extractGroupId_toMessage hexact hrefuses hserialize
      exact (Host.handleMessage_iff hhost hread).mp hgroup
  · rintro ⟨hvalid, hsurvives, hshort⟩
    obtain ⟨text, received, hserialize, hreceived⟩ := serialize_of_valid hexact hvalid c id
    have hread := extractGroupId_toMessage hexact hrefuses hserialize
    exact ⟨text, received, hserialize, (hfits hserialize).mp hshort,
      (Host.handleMessage_iff hhost hread).mpr hsurvives, hreceived⟩

/-! ## §2 — When a node sends. -/

theorem fieldsValid_texts (fields : List (Rpc.Key × Json)) :
    Json.fieldsValid (fields.map fun f => (f.1.text, f.2)) = fields.all fun f => f.2.textsValid := by
  induction fields with
  | nil => rfl
  | cons f fields ih =>
    rw [List.map_cons, Json.fieldsValid, f.1.validUtf8_text, ih, List.all_cons, Bool.true_and]

theorem itemsValid_entries (entries : List LogEntry) (entryJson : LogEntry → Json)
    (h : ∀ e, (entryJson e).textsValid = validUtf8 e.data) :
    Json.itemsValid (entries.map entryJson) = (entries.map (·.data)).all validUtf8 := by
  induction entries with
  | nil => rfl
  | cons e entries ih =>
    rw [List.map_cons, Json.itemsValid, h, ih, List.map_cons, List.all_cons]

theorem textsValid_toJson (r : Request) : r.toJson.textsValid = r.payload.all validUtf8 := by
  cases r with
  | requestVote req | preVote req =>
    refine (fieldsValid_texts [(.type, .unsigned _), (.term, .unsigned req.term),
      (.candidateId, .ofInt req.candidateId), (.lastLogIndex, .unsigned req.lastLogIndex),
      (.lastLogTerm, .unsigned req.lastLogTerm)]).trans ?_
    simp [Json.textsValid, payload]
  | appendEntries req =>
    refine (fieldsValid_texts [(.type, .unsigned _), (.term, .unsigned req.term),
      (.leaderId, .ofInt req.leaderId), (.prevLogIndex, .unsigned req.prevLogIndex),
      (.prevLogTerm, .unsigned req.prevLogTerm), (.leaderCommit, .unsigned req.leaderCommit),
      (.entries, .array _)]).trans ?_
    simp only [List.all_cons, List.all_nil, Json.textsValid, Json.textsValid_ofInt, Bool.true_and,
      Bool.and_true]
    refine itemsValid_entries req.entries _ fun e => ?_
    refine (fieldsValid_texts [(.index, .unsigned e.index), (.term, .unsigned e.term),
      (.data, .string e.data)]).trans ?_
    simp [Json.textsValid]
  | installSnapshot req =>
    refine (fieldsValid_texts [(.type, .unsigned _), (.term, .unsigned req.term),
      (.leaderId, .ofInt req.leaderId), (.lastIncludedIndex, .unsigned req.lastIncludedIndex),
      (.lastIncludedTerm, .unsigned req.lastIncludedTerm), (.offset, .unsigned req.offset),
      (.data, .string req.data), (.done, .bool req.done)]).trans ?_
    simp [Json.textsValid, payload]

theorem serializes_iff (hrefuses : js.Refuses) (hprints : js.PrintsValid) (r : Request) :
    r.serializes js.toJsonText = true ↔ ∀ b ∈ r.payload, validUtf8 b = true := by
  rw [← List.all_eq_true, ← textsValid_toJson]
  cases hvalid : r.toJson.textsValid with
  | false =>
    obtain ⟨what, hdump⟩ := hrefuses _ hvalid
    rw [serializes, hdump]
    rfl
  | true =>
    obtain ⟨text, hdump⟩ := hprints _ hvalid
    rw [serializes, hdump]
    exact ⟨fun _ => rfl, fun _ => rfl⟩

end Request

/-! ## §3 — The leader's attempts. -/

/-- The two functions that send what a peer lacks: `SendAppendEntriesToPeerLocked` and
`SendNextSnapshotChunkLocked`. -/
inductive SendCall where
  | entries
  | chunk
  deriving DecidableEq

namespace SendCall

open RaftGroup

def run (g : RaftGroup) (peer : NodeId) : SendCall → RaftGroup
  | .entries => g.sendAppendEntriesToPeer peer
  | .chunk => g.sendNextSnapshotChunk peer

/-- The request the call has for the peer: the entries from its next index on, unless they are
compacted away or the pipeline is full, or the next piece of the snapshot in transfer. -/
def due (g : RaftGroup) (peer : NodeId) : SendCall → Option Request
  | .entries =>
    match g.rep.nextIndex.lookup peer with
    | none => none
    | some nextIdx =>
      if nextIdx < g.rep.log.startIndex then none
      else if !(g.appendRequest nextIdx).entries.isEmpty
          && g.rt.maxPipelineWindow ≤ g.inflightCount peer then none
      else some (.appendEntries (g.appendRequest nextIdx))
  | .chunk =>
    match g.snap.sends.lookup peer with
    | none => none
    | some st =>
      match st.snapshot with
      | none => none
      | some data =>
        if !st.inProgress then none
        else some (.installSnapshot
          (g.snapshotRequest st ((data.drop st.offset).take kSnapshotChunkSize)))

/-- The call sends the request, and only that. -/
def Sends (g : RaftGroup) (peer : NodeId) (call : SendCall) (r : Request) : Prop :=
  ∃ callback, (call.run g peer).out
    = g.out ++ [⟨g.el.role, g.el.currentTerm, .sent peer r callback, g.env.now⟩]

variable {g : RaftGroup} {peer : NodeId} {r : Request}

theorem run_entries (hdue : entries.due g peer = some r) : ∃ nextIdx req,
    r = .appendEntries req ∧ entries.run g peer
      = if r.serializes g.opts.json && (g.mem.peerMap.lookup peer).isSome then
          (g.trackSend peer nextIdx req).emit
            (.sent peer r (.append req.entries.isEmpty g.out.length))
        else g := by
  simp only [due] at hdue
  cases hnext : g.rep.nextIndex.lookup peer with
  | none => rw [hnext] at hdue; cases hdue
  | some nextIdx =>
    rw [hnext] at hdue
    dsimp only at hdue
    split at hdue
    · cases hdue
    rename_i hstart
    split at hdue
    · cases hdue
    rename_i hwindow
    cases hdue
    refine ⟨nextIdx, g.appendRequest nextIdx, rfl, ?_⟩
    show g.sendAppendEntriesToPeer peer = _
    simp only [sendAppendEntriesToPeer, hnext, if_neg hstart, if_neg hwindow]

theorem run_chunk (hdue : chunk.due g peer = some r) : ∃ st st',
    chunk.run g peer = if r.serializes g.opts.json && (g.mem.peerMap.lookup peer).isSome then
          (g.setSend peer st).emit (.sent peer r (.snapshot g.out.length))
        else g.setSend peer st' := by
  simp only [due] at hdue
  cases hst : g.snap.sends.lookup peer with
  | none => rw [hst] at hdue; cases hdue
  | some st =>
    rw [hst] at hdue
    dsimp only at hdue
    cases hdata : st.snapshot with
    | none => rw [hdata] at hdue; cases hdue
    | some data =>
      rw [hdata] at hdue
      dsimp only at hdue
      split at hdue
      · cases hdue
      rename_i hprogress
      cases hdue
      let size := ((data.drop st.offset).take kSnapshotChunkSize).length
      refine ⟨{ st with lastChunkSize := size },
        { st with lastChunkSize := size, inProgress := false }, ?_⟩
      show g.sendNextSnapshotChunk peer = _
      simp only [sendNextSnapshotChunk, hst, hdata, if_neg hprogress]
      rfl

variable {call : SendCall}

theorem sends_of_serializes (hpeer : (g.mem.peerMap.lookup peer).isSome = true)
    (hdue : call.due g peer = some r) (hr : r.serializes g.opts.json = true) :
    call.Sends g peer r := by
  have hgo : (r.serializes g.opts.json && (g.mem.peerMap.lookup peer).isSome) = true := by
    rw [hr, hpeer]
    rfl
  cases call with
  | entries =>
    obtain ⟨nextIdx, req, -, hrun⟩ := run_entries hdue
    rw [if_pos hgo] at hrun
    refine ⟨.append req.entries.isEmpty g.out.length, ?_⟩
    rw [hrun]
    unfold trackSend
    split <;> rfl
  | chunk =>
    obtain ⟨st, st', hrun⟩ := run_chunk hdue
    rw [if_pos hgo] at hrun
    refine ⟨.snapshot g.out.length, ?_⟩
    rw [hrun]
    rfl

theorem run_of_not_serializes (hdue : call.due g peer = some r)
    (hr : r.serializes g.opts.json = false) :
    (call.run g peer).out = g.out ∧ (call = .entries → call.run g peer = g) := by
  have hstop : ¬ (r.serializes g.opts.json && (g.mem.peerMap.lookup peer).isSome) = true := by
    rw [hr]
    exact Bool.false_ne_true
  cases call with
  | entries =>
    obtain ⟨nextIdx, req, -, hrun⟩ := run_entries hdue
    rw [if_neg hstop] at hrun
    exact ⟨by rw [hrun], fun _ => hrun⟩
  | chunk =>
    obtain ⟨st, st', hrun⟩ := run_chunk hdue
    rw [if_neg hstop] at hrun
    refine ⟨by rw [hrun]; rfl, fun h => by cases h⟩

/-- **Which bytes reach a follower.** Whatever state the leader is in, what it has for a peer with an
address is sent and arrives with the same bytes exactly when each command of the batch, or the piece
of the snapshot, is valid UTF-8, the text of the request is shorter than 100 MiB and the id of the
group survives its way through an `int`. -/
theorem sends_and_arrives_iff {js : JsonLibrary} (hexact : js.Exact) (hrefuses : js.Refuses)
    (hprints : js.PrintsValid) (g : RaftGroup) (hjson : g.opts.json = js.toJsonText) (peer : NodeId)
    (hpeer : (g.mem.peerMap.lookup peer).isSome = true) (call : SendCall) (r : Request)
    (hdue : call.due g peer = some r) (host : Host) (c id : UInt64) (hhost : host.Hosts id) :
    (call.Sends g peer r ∧ r.Arrives js host c id) ↔
      (∀ b ∈ r.payload, validUtf8 b = true) ∧ Rpc.Survives id ∧ r.fits js.toJsonText c id = true := by
  rw [Request.arrives_iff hexact hrefuses hhost]
  refine ⟨fun h => h.2, fun h => ⟨?_, h⟩⟩
  apply sends_of_serializes hpeer hdue
  rw [hjson]
  exact (Request.serializes_iff hrefuses hprints r).mpr h.1

/-! ## §4 — Two runs. -/

/-- Node 1 of three, with a library that reads its own texts. -/
def textOne : Options := { votingOne with json := strictJson.toJsonText }

/-- Node 1 is elected and accepts a command. -/
def leaderAccepts (command : Bytes) : List (Event × Env) :=
  [ (.restart {}, { now := 0 }), (.electionTick, { now := 1000 }),
    (.response 2 (.vote 1) (.vote ⟨1, true⟩), { now := 1000 }), (.resume, { now := 1000 }),
    (.propose command 0 0, { now := 1001 }) ]

/-- The request that carries the command to a follower that has nothing. -/
def carrying (command : Bytes) : Request :=
  .appendEntries { term := 1, leaderId := 1, prevLogIndex := 0, prevLogTerm := 0
                   entries := [⟨1, 1, command⟩], leaderCommit := 0 }

/-- The command `FF` is accepted, and from then on the leader sends nothing to its followers: the
attempt to send it changes nothing, so every later attempt is the same. -/
theorem invalidCommand_stops :
    ∃ p, (Process.system textOne).Reachable p ∧ p.group.el.role = .leader ∧
      (p.group.mem.peerMap.lookup 2).isSome = true ∧
      p.group.rep.log.getEntry 1 = some ⟨1, 1, [0xFF]⟩ ∧
      SendCall.entries.due p.group 2 = some (carrying [0xFF]) ∧
      SendCall.entries.run p.group 2 = p.group ∧
      ∀ host c id, ¬ (SendCall.entries.Sends p.group 2 (carrying [0xFF]) ∧
        (carrying [0xFF]).Arrives strictJson host c id) := by
  obtain ⟨p, hreach, hrole, hpeer, hentry, hdue, hserializes⟩ := (Process.system textOne).reaches
    (leaderAccepts [0xFF]) rfl (P := fun p => p.group.el.role = .leader ∧
      (p.group.mem.peerMap.lookup 2).isSome = true ∧
      p.group.rep.log.getEntry 1 = some ⟨1, 1, [0xFF]⟩ ∧
      SendCall.entries.due p.group 2 = some (carrying [0xFF]) ∧
      (carrying [0xFF]).serializes p.group.opts.json = false) (by decide +kernel)
  have hrun := run_of_not_serializes hdue hserializes
  refine ⟨p, hreach, hrole, hpeer, hentry, hdue, hrun.2 rfl, ?_⟩
  rintro host c id ⟨⟨callback, hsent⟩, -⟩
  rw [hrun.1] at hsent
  simpa using congrArg List.length hsent

/-- A leader whose follower 2 lacks the entry with the command. -/
def leaderWith (command : Bytes) : RaftGroup where
  opts := textOne
  el := { role := .leader, currentTerm := 1 }
  rep := { log := { entries := [⟨1, 1, command⟩] }, nextIndex := AList.singleton 2 1 }
  mem := { peerMap := AList.singleton 2 [] }

/-- To group 5 of a store. -/
theorem validCommand_carried :
    strictJson.Exact ∧ strictJson.Refuses ∧ strictJson.PrintsValid ∧
      (leaderWith [0x41]).opts.json = strictJson.toJsonText ∧
      ((leaderWith [0x41]).mem.peerMap.lookup 2).isSome = true ∧
      SendCall.entries.due (leaderWith [0x41]) 2 = some (carrying [0x41]) ∧
      (Host.store twoGroups).Hosts 5 ∧
      SendCall.entries.Sends (leaderWith [0x41]) 2 (carrying [0x41]) ∧
      (carrying [0x41]).Arrives strictJson (.store twoGroups) 1 5 := by
  have hpeer : ((leaderWith [0x41]).mem.peerMap.lookup 2).isSome = true := by
    decide +kernel
  have hdue : SendCall.entries.due (leaderWith [0x41]) 2 = some (carrying [0x41]) := by
    decide +kernel
  have hhost : (Host.store twoGroups).Hosts 5 := List.mem_cons_self
  exact ⟨strictJson_exact, strictJson_refuses, strictJson_printsValid, rfl, hpeer, hdue, hhost,
    (sends_and_arrives_iff strictJson_exact strictJson_refuses strictJson_printsValid
      (leaderWith [0x41]) rfl 2 hpeer .entries (carrying [0x41]) hdue _ 1 5 hhost).mpr
      (by decide +kernel)⟩

end SendCall

end RollingRaft
