/-
# RollingRaft.Protocol.RoundTrip — which messages come back unchanged.

Every field of a class is written at a key of its own and read back at its own width, so a body comes
back whatever its values are (`decode_requestFields`, `decode_responseFields`). The two ids of the
header do not: they are read through an `int` and sign-extended, so exactly the ids below `2^31` or
at least `2^64 - 2^31` survive. And the two ConfigChange classes are not written at all.
-/
import Mathlib
import RollingRaft.Protocol.JsonProtocol
import RollingRaft.Protocol.StrictJson

namespace RollingRaft.Rpc

open Lib

variable {fields : List (Key × Json)} {body : RequestBody}

/-! ## §1 — Reading what was written. -/

/-- The assignments find what they need: each reads its field, and only an optional one is left
out. -/
inductive Reads {σ : Type} (j : Json) : List (Assign σ) → σ → σ → Prop
  | nil {r : σ} : Reads j [] r r
  | field {a : Assign σ} {assigns : List (Assign σ)} {v : Json} {put : σ → σ} {object r : σ}
      (hget : j.get? a.key.text = some v) (hstore : a.store v = .ok put)
      (rest : Reads j assigns (put object) r) : Reads j (a :: assigns) object r
  | absent {a : Assign σ} {assigns : List (Assign σ)} {object r : σ}
      (hget : j.get? a.key.text = none) (hopt : a.optional = true)
      (rest : Reads j assigns object r) : Reads j (a :: assigns) object r

section Reading

variable {σ ρ α : Type} {j v : Json} {key : Key} {get : Json → Except Bytes α} {put : α → σ → σ}
  {a : α} {assigns : List (Assign σ)} {object r : σ}

theorem Reads.missesRequired_eq (h : Reads j assigns object r) :
    missesRequired j assigns = false := by
  unfold missesRequired
  induction h with
  | nil => rfl
  | field hget hstore rest ih =>
    rw [List.any_cons, ih, Json.contains, hget]
    simp
  | absent hget hopt rest ih =>
    rw [List.any_cons, ih, hopt]
    rfl

theorem Reads.assignAll_eq (h : Reads j assigns object r) :
    assignAll j assigns object = (r, none) := by
  induction h with
  | nil => rfl
  | field hget hstore rest ih => simp only [assignAll, Assign.run, hget, hstore, Except.map, ih]
  | absent hget hopt rest ih => simp only [assignAll, Assign.run, hget, hopt, if_true, ih]

theorem Reads.decodeClass {missing : String} {finish : σ → σ × ProtocolStatus} {wrap : σ → ρ}
    {whole : ρ} (h : Reads j assigns object r) :
    decodeClass j missing assigns finish (some object) wrap whole
      = .returned (finish r).2 (wrap (finish r).1) := by
  simp only [Rpc.decodeClass, h.missesRequired_eq, h.assignAll_eq, Bool.false_eq_true, if_false]

theorem Reads.required (hget : fields.reverse.lookup key = some v) (hv : get v = .ok a)
    (rest : Reads (Rpc.object fields) assigns (put a object) r) :
    Reads (Rpc.object fields) (required key get put :: assigns) object r :=
  .field ((get?_object _ _).trans hget) (by simp only [Rpc.required, hv, Except.map]) rest

theorem Reads.optional (hget : fields.reverse.lookup key = some v) (hv : get v = .ok a)
    (rest : Reads (Rpc.object fields) assigns (put a object) r) :
    Reads (Rpc.object fields) (optional key get put :: assigns) object r :=
  .field ((get?_object _ _).trans hget) (by simp only [Rpc.optional, hv, Except.map]) rest

end Reading

def messageObject (c g : UInt64) (fields : List (Key × Json)) : Json :=
  object ((.correlationId, .ofUInt64 c) :: (.groupId, .ofUInt64 g) :: fields)

variable (js : JsonLibrary) (c g : UInt64)

theorem canonical_messageObject (h : ∀ f ∈ fields, f.2.canonical = true) :
    (messageObject c g fields).canonical = true := by
  apply canonical_object
  intro f hf
  simp only [List.mem_cons] at hf
  rcases hf with rfl | rfl | hf
  · exact Json.canonical_ofUInt64 _
  · exact Json.canonical_ofUInt64 _
  · exact h f hf

variable (t : RaftMessageType) (r : AppendEntriesRequest)

theorem reads_voteRequest (r : VoteRequest) :
    Reads (messageObject c g (typeField t :: voteRequestFields r)) (voteRequestAssigns js) {} r :=
  .required rfl (Json.getUInt32_ofUInt32 js r.term) <|
  .required rfl (Json.getInt32_ofInt32 js.toJsonText r.candidateId) <|
  .required rfl (Json.getUInt32_ofUInt32 js r.lastLogIndex) <|
  .required rfl (Json.getUInt32_ofUInt32 js r.lastLogTerm) .nil

theorem reads_entry (e : Entry) : Reads (object (entryFields e)) (entryAssigns js) {} e :=
  .required rfl (Json.getUInt32_ofUInt32 js e.index) <|
  .required rfl (Json.getUInt32_ofUInt32 js e.term) <|
  .optional rfl rfl <|
  .optional rfl rfl <|
  .optional rfl (Json.getUInt32_ofUInt32 js e.checksum) .nil

theorem pushEntries_serialize (entries done : List Entry) :
    pushEntries js (entries.map fun e => object (entryFields e)) done = (done ++ entries, .ok) := by
  induction entries generalizing done with
  | nil => rw [List.append_nil]; rfl
  | cons e entries ih =>
    have hread := reads_entry js e
    simp only [List.map_cons, pushEntries, hread.missesRequired_eq, hread.assignAll_eq,
      Bool.false_eq_true, if_false]
    rw [ih, List.append_assoc, List.singleton_append]

theorem reads_appendEntries (hfields : requestFields (.appendEntries r) = some fields) :
    Reads (messageObject c g fields) (appendEntriesAssigns js) {} { r with entries := [] } := by
  cases hfields
  exact .required rfl (Json.getUInt32_ofUInt32 js r.term) <|
    .required rfl (Json.getInt32_ofInt32 js.toJsonText r.leaderId) <|
    .required rfl (Json.getUInt32_ofUInt32 js r.prevLogIndex) <|
    .required rfl (Json.getUInt32_ofUInt32 js r.prevLogTerm) <|
    .required rfl (Json.getUInt32_ofUInt32 js r.leaderCommit) .nil

theorem finishAppendEntries_serialize (hfields : requestFields (.appendEntries r) = some fields) :
    finishAppendEntries js (messageObject c g fields) { r with entries := [] } = (r, .ok) := by
  have hget : (messageObject c g fields).get? Key.entries.text
      = some (serializeEntries r.entries) := by
    cases hfields
    exact get?_object _ _
  rw [finishAppendEntries, deserializeEntries, hget, serializeEntries]
  simp only [pushEntries_serialize, List.nil_append]

theorem reads_installSnapshot (r : InstallSnapshotRequest)
    (hfields : requestFields (.installSnapshot r) = some fields) :
    Reads (messageObject c g fields) (installSnapshotAssigns js) {} r := by
  cases hfields
  exact .required rfl (Json.getUInt32_ofUInt32 js r.term) <|
    .required rfl (Json.getInt32_ofInt32 js.toJsonText r.leaderId) <|
    .required rfl (Json.getUInt32_ofUInt32 js r.lastIncludedIndex) <|
    .required rfl (Json.getUInt32_ofUInt32 js r.lastIncludedTerm) <|
    .required rfl (Json.getUInt32_ofUInt32 js r.offset) <|
    .required rfl rfl <|
    .required rfl rfl .nil

theorem reads_clientRequest (r : ClientRequest)
    (hfields : requestFields (.client r) = some fields) :
    Reads (messageObject c g fields) (clientRequestAssigns js) {} r := by
  cases hfields
  exact .required rfl rfl <|
    .required rfl (Json.getUInt64_ofUInt64 js r.clientId) <|
    .required rfl (Json.getUInt64_ofUInt64 js r.seq) <|
    .optional rfl rfl .nil

/-- **The body of a request comes back**, of every class that is written. -/
theorem decode_requestFields (hfields : requestFields body = some fields) :
    decodeRequestBody js (messageObject c g fields) (some body.type) body.fresh
      = .returned .ok body := by
  cases body with
  | requestVote r =>
    cases hfields
    exact (reads_voteRequest js c g .requestVoteRequest r).decodeClass
  | appendEntries r =>
    refine (reads_appendEntries js c g r hfields).decodeClass.trans ?_
    rw [finishAppendEntries_serialize js c g r hfields]
  | installSnapshot r => exact (reads_installSnapshot js c g r hfields).decodeClass
  | client r => exact (reads_clientRequest js c g r hfields).decodeClass
  | configChange r => cases hfields
  | preVote r =>
    cases hfields
    exact (reads_voteRequest js c g .preVoteRequest r).decodeClass
  | readIndex => rfl

theorem reads_voteResponse (r : VoteResponse) :
    Reads (messageObject c g (typeField t :: voteResponseFields r)) (voteResponseAssigns js) {} r :=
  .required rfl (Json.getUInt32_ofUInt32 js r.term) <|
  .required rfl rfl .nil

theorem reads_appendEntriesResponse (r : AppendEntriesResponse)
    (hfields : responseFields (.appendEntries r) = some fields) :
    Reads (messageObject c g fields) (appendEntriesResponseAssigns js) {} r := by
  cases hfields
  exact .required rfl (Json.getUInt32_ofUInt32 js r.term) <|
    .required rfl rfl <|
    .optional rfl (Json.getUInt32_ofUInt32 js r.conflictIndex) <|
    .optional rfl (Json.getUInt32_ofUInt32 js r.entriesCount) .nil

theorem reads_installSnapshotResponse (r : InstallSnapshotResponse)
    (hfields : responseFields (.installSnapshot r) = some fields) :
    Reads (messageObject c g fields) (installSnapshotResponseAssigns js) {} r := by
  cases hfields
  exact .required rfl (Json.getUInt32_ofUInt32 js r.term) .nil

/-- An empty error code is cleared and not read, any other is read. -/
theorem reads_clientResponse (r : ClientResponse)
    (hfields : responseFields (.client r) = some fields) :
    Reads (messageObject c g fields) (clientResponseAssigns js) {} r := by
  obtain ⟨success, response, error, errorCode, lastAppliedIndex, leaderId, leaderAddr⟩ := r
  have hint := Json.getInt32_ofInt32 js.toJsonText leaderId
  have hindex := Json.getUInt32_ofUInt32 js lastAppliedIndex
  cases errorCode with
  | nil =>
    cases hfields
    exact .required rfl rfl <|
      .optional rfl rfl <|
      .optional rfl rfl <|
      .absent (get?_object _ _) rfl <|
      .optional rfl hindex <|
      .optional rfl hint <|
      .optional rfl rfl .nil
  | cons b code =>
    cases hfields
    exact .required rfl rfl <|
      .optional rfl rfl <|
      .optional rfl rfl <|
      .optional rfl rfl <|
      .optional rfl hindex <|
      .optional rfl hint <|
      .optional rfl rfl .nil

theorem reads_readIndexResponse (r : ReadIndexResponse)
    (hfields : responseFields (.readIndex r) = some fields) :
    Reads (messageObject c g fields) (readIndexResponseAssigns js) {} r := by
  cases hfields
  exact .required rfl (Json.getUInt32_ofUInt32 js r.term) <|
    .required rfl (Json.getUInt32_ofUInt32 js r.readIndex) <|
    .required rfl rfl .nil

/-- **The body of a response comes back**, of every class that is written. -/
theorem decode_responseFields {body : ResponseBody} (hfields : responseFields body = some fields) :
    decodeResponseBody js (messageObject c g fields) (some body.type) body.fresh
      = .returned .ok body := by
  cases body with
  | requestVote r =>
    cases hfields
    exact (reads_voteResponse js c g .requestVoteResponse r).decodeClass
  | appendEntries r => exact (reads_appendEntriesResponse js c g r hfields).decodeClass
  | installSnapshot r => exact (reads_installSnapshotResponse js c g r hfields).decodeClass
  | client r => exact (reads_clientResponse js c g r hfields).decodeClass
  | configChange r => cases hfields
  | preVote r =>
    cases hfields
    exact (reads_voteResponse js c g .preVoteResponse r).decodeClass
  | readIndex r => exact (reads_readIndexResponse js c g r hfields).decodeClass

/-! ## §2 — The header. -/

/-- An id that reading it through an `int` does not change. -/
def Survives (n : UInt64) : Prop := n.toNat < 2 ^ 31 ∨ 2 ^ 64 - 2 ^ 31 ≤ n.toNat

instance (n : UInt64) : Decidable (Survives n) := inferInstanceAs (Decidable (_ ∨ _))

theorem toNat_storedId (i : Int) : (storedId i).toNat = (i % 2 ^ 64).toNat := by
  have hlt : (i % 2 ^ 64).toNat < 2 ^ 64 := by omega
  rw [storedId, UInt64.ofInt, UInt64.toNat_ofNat', Nat.mod_eq_of_lt hlt]

theorem storedId_toInt32_iff (n : UInt64) : storedId (Json.toInt32 n.toNat) = n ↔ Survives n := by
  have hn := n.toNat_lt
  rw [← UInt64.toNat_inj, toNat_storedId, Json.toInt32, Survives]
  omega

theorem valueInt_of_get? {j v : Json} {key : Bytes} (h : j.get? key = some v) :
    j.valueInt js.toJsonText key = v.asInt32 js.toJsonText := by
  cases j with
  | object fields => simp only [Json.valueInt, h]
  | _ => cases h

theorem asInt32_ofUInt64 (n : UInt64) :
    (Json.ofUInt64 n).asInt32 js.toJsonText = .ok (Json.toInt32 n.toNat) := rfl

/-- The members every message starts with. -/
structure HasHeader (fields : List (Key × Json)) (t : RaftMessageType) : Prop where
  correlationId : (messageObject c g fields).get? Key.correlationId.text = some (.ofUInt64 c)
  groupId : (messageObject c g fields).get? Key.groupId.text = some (.ofUInt64 g)
  type : (messageObject c g fields).get? Key.type.text = some (.ofInt t.code)

theorem hasHeader_request
    (hfields : requestFields body = some fields) : HasHeader c g fields body.type := by
  cases body with
  | configChange r => cases hfields
  | _ =>
    cases hfields
    exact ⟨get?_object _ _, get?_object _ _, get?_object _ _⟩

theorem hasHeader_response {body : ResponseBody}
    (hfields : responseFields body = some fields) : HasHeader c g fields body.type := by
  cases body with
  | configChange r => cases hfields
  | client r =>
    obtain ⟨success, response, error, errorCode, lastAppliedIndex, leaderId, leaderAddr⟩ := r
    cases errorCode <;> (cases hfields; exact ⟨get?_object _ _, get?_object _ _, get?_object _ _⟩)
  | _ =>
    cases hfields
    exact ⟨get?_object _ _, get?_object _ _, get?_object _ _⟩

section Messages

variable {js c g} {β : Type} {kind : String} {fields : List (Key × Json)}
  {decode : Json → Option RaftMessageType → β → Decoded β} {t : RaftMessageType}
  {write : β → Option (List (Key × Json))} {fresh : β}

/-- The whole message: the body comes back, each id as it reads through an `int`. -/
theorem deserializeMessage_object {input : Bytes} {body : β} {c' g' : UInt64}
    (hparse : js.parse input = .ok (messageObject c g fields)) (htype : t ≠ .invalid)
    (hheader : HasHeader c g fields t)
    (hdecode : decode (messageObject c g fields) (some t) fresh = .returned .ok body) :
    deserializeMessage js kind decode input ⟨c', g', fresh⟩
      = .returned .ok ⟨storedId (Json.toInt32 c.toNat), storedId (Json.toInt32 g.toNat), body⟩ := by
  have hcode : (Json.ofInt t.code).asInt32 js.toJsonText = .ok t.code :=
    Json.asInt32_ofInt js.toJsonText (by cases t <;> decide) (by cases t <;> decide)
  have hvalid : ¬ some t = some RaftMessageType.invalid := fun h => htype (Option.some.inj h)
  simp only [deserializeMessage, hparse, hheader.type, hcode, intToMessageType_code, hvalid,
    if_false, decodeRest, valueInt_of_get? js hheader.correlationId,
    valueInt_of_get? js hheader.groupId, asInt32_ofUInt64, hdecode]

variable {m : Headed β}

/-- A message of a class that is written, with valid texts, is serialised, and its text is read as
the same body under the ids that an `int` leaves. -/
theorem serialize_deserialize
    (hexact : js.Exact) (hfields : write m.body = some fields) (htype : t ≠ .invalid)
    (hheader : HasHeader m.correlationId m.groupId fields t)
    (hcanonical : ∀ f ∈ fields, f.2.canonical = true) (htexts : ∀ f ∈ fields, f.2.textsValid = true)
    (hdecode : decode (messageObject m.correlationId m.groupId fields) (some t) fresh
      = .returned .ok m.body) :
    ∃ text, serializeMessage js.toJsonText kind write m = .ok text ∧
      deserializeMessage js kind decode text ⟨0, 0, fresh⟩
        = .returned .ok ⟨storedId (Json.toInt32 m.correlationId.toNat),
            storedId (Json.toInt32 m.groupId.toNat), m.body⟩ := by
  obtain ⟨text, hdump, hparse⟩ : ∃ text,
      js.dump (messageObject m.correlationId m.groupId fields) = .ok text ∧
        js.parse text = .ok (messageObject m.correlationId m.groupId fields) := by
    apply hexact
    · exact canonical_messageObject _ _ hcanonical
    · apply textsValid_object
      intro f hf
      simp only [List.mem_cons] at hf
      rcases hf with rfl | rfl | hf
      · rfl
      · rfl
      · exact htexts f hf
  refine ⟨text, ?_, deserializeMessage_object hparse htype hheader hdecode⟩
  rw [messageObject] at hdump
  simp only [serializeMessage, hfields, hdump]

theorem roundTrips_iff_survives
    (hexact : js.Exact) (hfields : write m.body = some fields) (htype : t ≠ .invalid)
    (hheader : HasHeader m.correlationId m.groupId fields t)
    (hcanonical : ∀ f ∈ fields, f.2.canonical = true) (htexts : ∀ f ∈ fields, f.2.textsValid = true)
    (hdecode : decode (messageObject m.correlationId m.groupId fields) (some t) fresh
      = .returned .ok m.body) :
    (∃ text, serializeMessage js.toJsonText kind write m = .ok text ∧
        deserializeMessage js kind decode text ⟨0, 0, fresh⟩ = .returned .ok m) ↔
      Survives m.correlationId ∧ Survives m.groupId := by
  obtain ⟨text, hserialize, hback⟩ : ∃ text, serializeMessage js.toJsonText kind write m = .ok text ∧
      deserializeMessage js kind decode text ⟨0, 0, fresh⟩ = _ :=
    serialize_deserialize hexact hfields htype hheader hcanonical htexts hdecode
  rw [← storedId_toInt32_iff, ← storedId_toInt32_iff]
  constructor
  · rintro ⟨text', htext', hsame⟩
    cases hserialize.symm.trans htext'
    obtain ⟨mc, mg, mb⟩ := m
    rw [hback] at hsame
    simpa using hsame
  · rintro ⟨hc, hg⟩
    refine ⟨text, hserialize, hback.trans ?_⟩
    rw [hc, hg]

theorem serializeMessage_refused {key : Key}
    {v : Json} (hrefuses : js.Refuses) (hfields : write m.body = some fields)
    (hget : (messageObject m.correlationId m.groupId fields).get? key.text = some v)
    (hv : v.textsValid = false) (text : Bytes) :
    serializeMessage js.toJsonText kind write m ≠ .ok text := by
  have hobject : (messageObject m.correlationId m.groupId fields).textsValid = false := by
    apply Bool.eq_false_iff.mpr
    intro hvalid
    rw [Json.textsValid_of_get? hvalid hget] at hv
    cases hv
  obtain ⟨what, hdump⟩ := hrefuses _ hobject
  rw [messageObject] at hdump
  simp only [serializeMessage, hfields, hdump]
  intro h
  cases h

end Messages

/-! ## §3 — The string fields. -/

def RequestBody.strings : RequestBody → List Bytes
  | .appendEntries r => r.entries.flatMap fun e => [e.data, e.command]
  | .client r => [r.command]
  | .configChange r => [r.nodeAddr]
  | _ => []

def ResponseBody.strings : ResponseBody → List Bytes
  | .client r => [r.response, r.error, r.errorCode, r.leaderAddr]
  | .configChange r => [r.error]
  | _ => []

/-- `data_` of an InstallSnapshot request is a `vector<char>` and is written as a string. -/
def RequestBody.chunk : RequestBody → Bytes
  | .installSnapshot r => r.data
  | _ => []

/-- A request or a response. -/
inductive Message where
  | request (m : RaftRequest)
  | response (m : RaftResponse)

namespace Message

def correlationId : Message → UInt64
  | request m => m.correlationId
  | response m => m.correlationId

def groupId : Message → UInt64
  | request m => m.groupId
  | response m => m.groupId

/-- The `std::string` fields. -/
def strings : Message → List Bytes
  | request m => m.body.strings
  | response m => m.body.strings

/-- The bytes of a snapshot chunk, if it carries one. -/
def chunk : Message → Bytes
  | request m => m.body.chunk
  | response _ => []

def isConfigChange : Message → Bool
  | request m => m.body.type = .configChangeRequest
  | response m => m.body.type = .configChangeResponse

/-- Written and read into a fresh object of its class, the message is there again. -/
def RoundTrips (js : JsonLibrary) : Message → Prop
  | request m => ∃ text, serializeRequest js.toJsonText m = .ok text ∧
      deserializeRequest js text ⟨0, 0, m.body.fresh⟩ = .returned .ok m
  | response m => ∃ text, serializeResponse js.toJsonText m = .ok text ∧
      deserializeResponse js text ⟨0, 0, m.body.fresh⟩ = .returned .ok m

end Message

theorem canonical_typeField : (typeField t).2.canonical = true := by
  cases t <;> decide

theorem textsValid_typeField : (typeField t).2.textsValid = true := by
  cases t <;> rfl

theorem canonical_serializeEntries (entries : List Entry) :
    (serializeEntries entries).canonical = true := by
  rw [serializeEntries, Json.canonical, Json.itemsCanonical_iff]
  intro j hj
  obtain ⟨e, -, rfl⟩ := List.mem_map.mp hj
  apply canonical_object
  simp [entryFields, Json.canonical]

theorem textsValid_serializeEntries {entries : List Entry}
    (h : ∀ s ∈ entries.flatMap fun e => [e.data, e.command], validUtf8 s = true) :
    (serializeEntries entries).textsValid = true := by
  rw [serializeEntries, Json.textsValid, Json.itemsValid_iff]
  intro j hj
  obtain ⟨e, he, rfl⟩ := List.mem_map.mp hj
  have hdata : validUtf8 e.data = true := h _ (List.mem_flatMap.mpr ⟨e, he, by simp⟩)
  have hcommand : validUtf8 e.command = true := h _ (List.mem_flatMap.mpr ⟨e, he, by simp⟩)
  apply textsValid_object
  simp [entryFields, Json.textsValid, hdata, hcommand]

theorem canonical_requestFields
    (hfields : requestFields body = some fields) : ∀ f ∈ fields, f.2.canonical = true := by
  cases body with
  | configChange r => cases hfields
  | _ =>
    cases hfields
    simp [voteRequestFields, canonical_typeField, canonical_serializeEntries, Json.canonical]

theorem textsValid_requestFields
    (hfields : requestFields body = some fields) (hstrings : ∀ s ∈ body.strings, validUtf8 s = true)
    (hchunk : validUtf8 body.chunk = true) : ∀ f ∈ fields, f.2.textsValid = true := by
  cases body with
  | configChange r => cases hfields
  | appendEntries r =>
    cases hfields
    simp [textsValid_typeField, textsValid_serializeEntries hstrings]
  | _ =>
    cases hfields
    simp_all [voteRequestFields, textsValid_typeField, Json.textsValid, RequestBody.strings,
      RequestBody.chunk]

theorem printable_responseFields {body : ResponseBody}
    (hfields : responseFields body = some fields)
    (hstrings : ∀ s ∈ body.strings, validUtf8 s = true) :
    (∀ f ∈ fields, f.2.canonical = true) ∧ ∀ f ∈ fields, f.2.textsValid = true := by
  cases body with
  | configChange r => cases hfields
  | client r =>
    cases hfields
    unfold errorCodeField
    split <;> simp_all [canonical_typeField, textsValid_typeField, Json.canonical, Json.textsValid,
      ResponseBody.strings]
  | _ =>
    cases hfields
    simp [voteResponseFields, canonical_typeField, textsValid_typeField, Json.canonical, Json.textsValid]

/-! ## §4 — The result. -/

section Result

variable {js}

theorem request_roundTrips_iff (hexact : js.Exact) (hrefuses : js.Refuses) (m : RaftRequest)
    (hstrings : ∀ s ∈ m.body.strings, validUtf8 s = true) :
    (Message.request m).RoundTrips js ↔ Survives m.correlationId ∧ Survives m.groupId ∧
      m.body.type ≠ .configChangeRequest ∧ validUtf8 m.body.chunk = true := by
  show (∃ text, serializeMessage js.toJsonText "request" requestFields m = .ok text ∧
    deserializeMessage js "request" (decodeRequestBody js) text ⟨0, 0, m.body.fresh⟩
      = .returned .ok m) ↔ _
  cases hfields : requestFields m.body with
  | none =>
    have htype : m.body.type = .configChangeRequest := by
      cases hbody : m.body with
      | configChange r => rfl
      | _ => rw [hbody] at hfields; cases hfields
    refine ⟨fun ⟨text, htext, _⟩ => ?_, fun h => absurd htype h.2.2.1⟩
    simp only [serializeMessage, hfields] at htext
    cases htext
  | some fields =>
    have htype : m.body.type ≠ .configChangeRequest ∧ m.body.type ≠ .invalid := by
      cases hbody : m.body with
      | configChange r => rw [hbody] at hfields; cases hfields
      | _ => exact ⟨by simp [RequestBody.type], by simp [RequestBody.type]⟩
    by_cases hchunk : validUtf8 m.body.chunk = true
    · refine (roundTrips_iff_survives hexact hfields htype.2 (hasHeader_request _ _ hfields)
        (canonical_requestFields hfields) (textsValid_requestFields hfields hstrings hchunk)
        (decode_requestFields js _ _ hfields)).trans ?_
      simp [htype.1, hchunk]
    refine ⟨fun ⟨text, htext, _⟩ => ?_, fun h => absurd h.2.2.2 hchunk⟩
    -- only a snapshot carries a chunk
    cases hbody : m.body with
    | installSnapshot r =>
      have hget : (messageObject m.correlationId m.groupId fields).get? Key.data.text
          = some (.string r.data) := by
        rw [hbody] at hfields
        cases hfields
        exact get?_object _ _
      rw [hbody] at hchunk
      exact absurd htext (serializeMessage_refused hrefuses hfields hget
        (Bool.eq_false_iff.mpr hchunk) text)
    | _ => rw [hbody] at hchunk; exact absurd rfl hchunk

theorem response_roundTrips_iff (hexact : js.Exact) (m : RaftResponse)
    (hstrings : ∀ s ∈ m.body.strings, validUtf8 s = true) :
    (Message.response m).RoundTrips js ↔ Survives m.correlationId ∧ Survives m.groupId ∧
      m.body.type ≠ .configChangeResponse := by
  show (∃ text, serializeMessage js.toJsonText "response" responseFields m = .ok text ∧
    deserializeMessage js "response" (decodeResponseBody js) text ⟨0, 0, m.body.fresh⟩
      = .returned .ok m) ↔ _
  cases hfields : responseFields m.body with
  | none =>
    have htype : m.body.type = .configChangeResponse := by
      cases hbody : m.body with
      | configChange r => rfl
      | _ => rw [hbody] at hfields; cases hfields
    refine ⟨fun ⟨text, htext, _⟩ => ?_, fun h => absurd htype h.2.2⟩
    simp only [serializeMessage, hfields] at htext
    cases htext
  | some fields =>
    have htype : m.body.type ≠ .configChangeResponse ∧ m.body.type ≠ .invalid := by
      cases hbody : m.body with
      | configChange r => rw [hbody] at hfields; cases hfields
      | _ => exact ⟨by simp [ResponseBody.type], by simp [ResponseBody.type]⟩
    obtain ⟨hcanonical, htexts⟩ := printable_responseFields hfields hstrings
    refine (roundTrips_iff_survives hexact hfields htype.2 (hasHeader_response _ _ hfields)
      hcanonical htexts (decode_responseFields js _ _ hfields)).trans ?_
    simp [htype.1]

/-- **Which messages come back.** Whatever its fields are, a message with valid strings is written
and read back unchanged exactly when its two ids survive the detour through an `int`, it is no
ConfigChange message, and the snapshot chunk it may carry is valid UTF-8. -/
theorem message_roundTrips_iff (hexact : js.Exact) (hrefuses : js.Refuses) (m : Message)
    (hstrings : ∀ s ∈ m.strings, validUtf8 s = true) :
    m.RoundTrips js ↔ Survives m.correlationId ∧ Survives m.groupId ∧ m.isConfigChange = false ∧
      validUtf8 m.chunk = true := by
  cases m with
  | request m =>
    refine (request_roundTrips_iff hexact hrefuses m hstrings).trans ?_
    simp [Message.correlationId, Message.groupId, Message.isConfigChange, Message.chunk]
  | response m =>
    refine (response_roundTrips_iff hexact m hstrings).trans ?_
    simp [Message.correlationId, Message.groupId, Message.isConfigChange, Message.chunk, validUtf8,
      utf8Run]

def survivingVote : Message := .request ⟨7, 2 ^ 64 - 1, .requestVote ⟨3, -2, 9, 2⟩⟩

theorem message_roundTrips_vote :
    strictJson.Exact ∧ strictJson.Refuses ∧ (∀ s ∈ survivingVote.strings, validUtf8 s = true) ∧
      survivingVote.RoundTrips strictJson := by
  have hstrings : ∀ s ∈ survivingVote.strings, validUtf8 s = true := by
    intro s hs
    cases hs
  exact ⟨strictJson_exact, strictJson_refuses, hstrings,
    (message_roundTrips_iff strictJson_exact strictJson_refuses survivingVote hstrings).mpr
      (by decide +kernel)⟩

/-- A heartbeat sent after `2^31` requests. -/
def lateHeartbeat : RaftRequest := ⟨2 ^ 31, 1, .appendEntries { leaderId := 1 }⟩

/-- The heartbeat with correlation id `2^31` arrives with the id `2^64 - 2^31`. -/
theorem heartbeat_id_extended :
    (∀ s ∈ lateHeartbeat.body.strings, validUtf8 s = true) ∧
      deserializeRequest strictJson
        ((serializeRequest strictJson.toJsonText lateHeartbeat).toOption.getD [])
        ⟨0, 0, .appendEntries {}⟩
          = .returned .ok { lateHeartbeat with correlationId := 2 ^ 64 - 2 ^ 31 } ∧
      ¬ (Message.request lateHeartbeat).RoundTrips strictJson := by
  have hstrings : ∀ s ∈ lateHeartbeat.body.strings, validUtf8 s = true := by
    intro s hs
    cases hs
  refine ⟨hstrings, by decide +kernel, ?_⟩
  rw [request_roundTrips_iff strictJson_exact strictJson_refuses lateHeartbeat hstrings]
  decide +kernel

end Result

end RollingRaft.Rpc
