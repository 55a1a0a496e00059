/-
# RollingRaft.Protocol.GroupRouting — which group of a store a request reaches.

A group id is written as a 64-bit number and read by five readers: the transport peeks at the RPC
body before the group sees it, four admin endpoints read it from their JSON body and two from the
query of the path. The JSON readers go through an `int`, as the decoder of the messages does; the
query readers do not. So an id above `2^31` can arrive as the id of another group of the store, and
`Misread` says when. The query of a config request is searched for `group_id=` anywhere, also inside
another parameter.

A read that a follower forwards carries no group id at all and reaches no group.
-/
import RollingRaft.MetricsHttpServer
import RollingRaft.Protocol.RoundTrip

namespace RollingRaft

open Lib Rpc

variable {js : JsonText} {g : UInt64}

/-! ## §1 — The receiving store. -/

/-- The groups a `RaftStore` hosts; `CreateGroup` refuses the id `0`. -/
structure Store where
  groups : List UInt64
  nonzero : 0 ∉ groups

namespace Store

variable (s : Store)

/-- The group that an id is looked up as, by `OnIncomingRpc` and by the admin handlers: the id `0` is
refused before the lookup. -/
def find (id : UInt64) : Option UInt64 :=
  if id = 0 then none else if id ∈ s.groups then some id else none

theorem find_eq_some_iff {id x : UInt64} : s.find id = some x ↔ x = id ∧ id ∈ s.groups := by
  unfold find
  split
  · rename_i hzero
    subst hzero
    exact ⟨fun h => (by cases h), fun h => absurd h.2 s.nonzero⟩
  split
  · rename_i hmem
    exact ⟨fun h => ⟨(Option.some.inj h).symm, hmem⟩, fun h => congrArg some h.1.symm⟩
  rename_i hmem
  exact ⟨fun h => (by cases h), fun h => absurd h.2 hmem⟩

end Store

section Readers

variable (js : JsonText)

def extractGroupId (body : Bytes) : UInt64 :=
  match js.parse body with
  | .error _ => 0
  | .ok j =>
    match j.valueInt js (ascii "group_id") with
    | .ok v => storedId v
    | .error _ => 0

/-- `TcpConnection::HandleMessage` on a server connection of a store: an id of `0` goes to the legacy
handler, which only answers with an error, any other to `OnIncomingRpc`. -/
def Store.handleMessage (s : Store) (body : Bytes) : Option UInt64 :=
  if extractGroupId js body = 0 then none else s.find (extractGroupId js body)

end Readers

def HandlerCall.groupId : HandlerCall → Option Nat
  | .statusProvider => none
  | .addMember _ _ groupId => some groupId
  | .removeMember _ groupId => some groupId
  | .triggerSnapshot groupId => some groupId
  | .transferLeadership _ groupId => some groupId
  | .configProvider groupId => some groupId
  | .configUpdater _ groupId => some groupId

def Store.handleHttp (js : JsonText) (srv : MetricsHttpServer) (s : Store) (request : Bytes) :
    Option UInt64 :=
  (buildResponse js srv request).calls.findSome? fun call =>
    call.groupId.bind fun id => s.find (.ofNat id)

/-! ## §2 — The requests. -/

def serializeClientRequest (js : JsonText) (req : Rpc.ClientRequest) (groupId : UInt64) :
    Except Bytes Bytes :=
  js.dump (object [typeField .clientRequest, (.command, .string req.command),
    (.clientId, .ofUInt64 req.clientId), (.seq, .ofUInt64 req.seq), (.readOnly, .bool req.readOnly),
    (.groupId, .ofUInt64 groupId)])

/-- `SerializeReadIndexRequest`: no group id. -/
def serializeReadIndexRequest (js : JsonText) (correlationId : UInt64) : Except Bytes Bytes :=
  js.dump (object [typeField .readIndexRequest, (.correlationId, .ofUInt64 correlationId)])

/-- A request for a group. -/
inductive GroupRequest where
  /-- An RPC of a member: `SerializeRequest` with `group_id_` of its group. -/
  | rpc (correlationId : UInt64) (body : RequestBody)
  /-- A read that a follower forwards. -/
  | forwardedRead (correlationId : UInt64)
  /-- A client's request with `ClientOptions::group_id`. -/
  | client (req : Rpc.ClientRequest)
  /-- An HTTP request to the admin server. -/
  | admin (request : Bytes)

namespace GroupRequest

/-- The text of the request on an RPC connection, when there is one. -/
def text? (js : JsonText) (g : UInt64) : GroupRequest → Option Bytes
  | .rpc correlationId body => (serializeRequest js ⟨correlationId, g, body⟩).toOption
  | .forwardedRead correlationId => (serializeReadIndexRequest js correlationId).toOption
  | .client req => (serializeClientRequest js req g).toOption
  | .admin _ => none

/-- The group that executes a request for group `g` on the receiving node. -/
def executedBy (js : JsonText) (srv : MetricsHttpServer) (s : Store) (g : UInt64) :
    GroupRequest → Option UInt64
  | .admin request => s.handleHttp js srv request
  | r => (r.text? js g).bind (s.handleMessage js)

end GroupRequest

/-! ## §3 — Naming a group over HTTP. -/

/-- What follows the first `?` of a path. -/
def queryOf (path : Bytes) : Option Bytes :=
  (findByte 63 path).map fun q => substrFrom path (q + 1)

def groupIdKey : Bytes := ascii "group_id="

/-- A parameter can start here: at the start of the query or after an `&`. -/
def StartsParameter (lead : Bytes) : Prop := lead = [] ∨ lead.getLast? = some 38

/-- The first parameter `group_id` of the query has the decimal text of `g` as its value. -/
def NamedInQuery (path : Bytes) (g : UInt64) : Prop :=
  ∃ query lead rest, queryOf path = some query ∧
    query = lead ++ groupIdKey ++ (decimal (g.toNat + 1) g.toNat ++ rest) ∧ StartsParameter lead ∧
    (rest = [] ∨ rest.head? = some 38) ∧
    ∀ lead' rest', query = lead' ++ groupIdKey ++ rest' → StartsParameter lead' →
      lead.length ≤ lead'.length

/-- The body is a JSON object whose `group_id` is the number `g`. -/
def NamedInBody (js : JsonText) (body : Bytes) (g : UInt64) : Prop :=
  ∃ j, js.parse body = .ok j ∧ j.get? (ascii "group_id") = some (.unsigned g.toNat)

/-- An admin endpoint is told its group in the query or in the body. -/
def AdminRoute.Names (js : JsonText) (path body : Bytes) (g : UInt64) : AdminRoute → Prop
  | .removeMember | .configGet => NamedInQuery path g
  | _ => NamedInBody js body g

/-- The request names `g` where its endpoint looks for it. -/
def GroupRequest.Names (js : JsonText) (srv : MetricsHttpServer) (g : UInt64) : GroupRequest → Prop
  | .admin request => ∀ a,
      route srv request (extractPath request) (extractMethod request) = .admin a →
        a.Names js (extractPath request) (extractBody request) g
  | _ => True

/-! ## §4 — The readers. -/

/-- What a JSON reader makes of the id `g`. -/
def readBack (g : UInt64) : UInt64 := storedId (Json.toInt32 g.toNat)

/-- A JSON reader takes `g` for another group of the store. -/
def Misread (s : Store) (g : UInt64) : Prop := readBack g ≠ g ∧ readBack g ∈ s.groups

theorem ofNat_toUInt64 (i : Int) : UInt64.ofNat (Json.toUInt64 i) = storedId i := by
  rw [← UInt64.toNat_inj, toNat_storedId, UInt64.toNat_ofNat', Json.toUInt64]
  omega

theorem find_readBack (s : Store) (g : UInt64) :
    (∀ x, s.find (readBack g) = some x → x = g) ↔ ¬ Misread s g := by
  constructor
  · rintro h ⟨hne, hmem⟩
    exact hne (h (readBack g) (s.find_eq_some_iff.mpr ⟨rfl, hmem⟩))
  · intro h x hx
    obtain ⟨rfl, hmem⟩ := s.find_eq_some_iff.mp hx
    by_contra hne
    exact h ⟨hne, hmem⟩

theorem handleMessage_eq_find (js : JsonText) (s : Store) (body : Bytes) :
    s.handleMessage js body = s.find (extractGroupId js body) := by
  unfold Store.handleMessage Store.find
  split <;> rfl

variable {body path : Bytes} {srv : MetricsHttpServer} {a : AdminRoute}

theorem extractGroupId_of_parse {j : Json} (hparse : js.parse body = .ok j)
    (hget : j.get? (ascii "group_id") = some (.unsigned g.toNat)) :
    extractGroupId js body = readBack g := by
  cases j with
  | object fields => simp only [extractGroupId, hparse, Json.valueInt, hget, Json.asInt32, readBack]
  | _ => cases hget

theorem bodyGroupId_of_named (h : NamedInBody js body g) :
    UInt64.ofNat (bodyGroupId js body) = readBack g := by
  obtain ⟨j, hparse, hget⟩ := h
  have hvalue : j.valueInt js (ascii "group_id") = .ok (Json.toInt32 g.toNat) := by
    cases j with
    | object fields => simp only [Json.valueInt, hget, Json.asInt32]
    | _ => cases hget
  have hbody : bodyGroupId js body = Json.toUInt64 (Json.toInt32 g.toNat) := by
    simp only [bodyGroupId, hparse, bind, Except.bind, hvalue]
  rw [hbody, ofNat_toUInt64, readBack]

/-- The query of a DELETE: the parameter counts only when it comes first. -/
theorem removeGroupId_of_named (h : NamedInQuery path g) :
    removeGroupId path = 0 ∨ removeGroupId path = g.toNat := by
  obtain ⟨query, lead, rest, hquery, hsplit, -, hrest, hleast⟩ := h
  obtain ⟨q, hq, hq'⟩ := Option.map_eq_some_iff.mp hquery
  unfold removeGroupId
  rw [hq]
  dsimp only
  rw [hq']
  split
  · rename_i hstart
    right
    -- the query starts with the key, so nothing leads it
    obtain ⟨tail, htail⟩ := startsWith_iff.mp hstart
    have hlead : lead = [] := by
      have hle := hleast [] tail htail.symm (.inl rfl)
      exact List.eq_nil_of_length_eq_zero (Nat.le_zero.mp hle)
    rw [hsplit, hlead, List.nil_append]
    show (stoull (List.drop groupIdKey.length (groupIdKey ++ _))).getD 0 = _
    rw [List.drop_left, stoull_decimal g.toNat_lt ?_]
    · rfl
    · intro b hb
      rcases hrest with rfl | hand
      · cases hb
      · cases hand.symm.trans hb
        decide
  · exact .inl rfl

/-- The value of a parameter is the text up to the next `&`, or to the end. -/
theorem value_upTo_and (lead : Bytes) {value rest : Bytes} (hvalue : 38 ∉ value)
    (hrest : rest = [] ∨ rest.head? = some 38) :
    (∀ e, findFrom (ascii "&") (lead ++ (value ++ rest)) lead.length = some e →
        substr (lead ++ (value ++ rest)) lead.length (e - lead.length) = value) ∧
      (findFrom (ascii "&") (lead ++ (value ++ rest)) lead.length = none →
        substrFrom (lead ++ (value ++ rest)) lead.length = value) := by
  have hand : ascii "&" = [38] := by
    decide +kernel
  have hdrop : (lead ++ (value ++ rest)).drop lead.length = value ++ rest := List.drop_left
  rw [hand, findFrom, if_pos (by simp), hdrop, substrFrom, hdrop]
  rcases hrest with rfl | hhead
  · have hnone : find [38] (value ++ []) = none := by
      rw [List.append_nil]
      exact findByte_of_not_mem hvalue
    rw [hnone, Option.map_none]
    exact ⟨fun e he => (by cases he), fun _ => List.append_nil value⟩
  · obtain ⟨tail, rfl⟩ : ∃ tail, rest = 38 :: tail := by
      cases rest with
      | nil => cases hhead
      | cons b tail => exact ⟨tail, by rw [Option.some.inj hhead]⟩
    have hsome : find [38] (value ++ 38 :: tail) = some value.length := findByte_append hvalue tail
    rw [hsome, Option.map_some]
    refine ⟨fun e he => ?_, fun h => (by cases h)⟩
    cases he
    rw [Nat.add_sub_cancel, substr, hdrop, List.take_left]

/-- The first `group_id=` of the query, at the end of `lead`, and the text up to the next `&`. -/
structure FirstKey (path lead value : Bytes) : Prop where
  split : ∃ query rest, queryOf path = some query ∧
    query = (lead ++ groupIdKey) ++ (value ++ rest) ∧ (rest = [] ∨ rest.head? = some 38) ∧
    find groupIdKey query = some lead.length
  noAnd : 38 ∉ value

theorem FirstKey.extract {lead value : Bytes} (h : FirstKey path lead value) :
    extractGroupIdFromQuery path = (stoull value).getD 0 := by
  obtain ⟨⟨query, rest, hquery, hsplit, hrest, hfind⟩, hvalue⟩ := h
  obtain ⟨q, hq, hq'⟩ := Option.map_eq_some_iff.mp hquery
  have hstart : lead.length + groupIdKey.length = (lead ++ groupIdKey).length := by simp
  obtain ⟨hsome, hnone⟩ := value_upTo_and (lead ++ groupIdKey) hvalue hrest
  rw [← hsplit] at hsome hnone
  unfold groupIdKey at hfind hstart hsome hnone
  unfold extractGroupIdFromQuery
  simp only [hq, hq', hfind]
  rw [hstart]
  split
  · rename_i e he
    rw [hsome e he]
  rename_i he
  rw [hnone he]

theorem firstKey_of_find {query : Bytes} {at0 : Nat} (hquery : queryOf path = some query)
    (hfind : find groupIdKey query = some at0) :
    ∃ value, FirstKey path (query.take at0) value := by
  have hle : at0 ≤ query.length := by
    by_contra hlt
    have hpre := find_isPrefix hfind
    rw [List.drop_eq_nil_of_le (by omega), List.prefix_nil] at hpre
    exact absurd hpre (by decide +kernel)
  let tail := query.drop (at0 + groupIdKey.length)
  refine ⟨tail.takeWhile (· ≠ 38), ⟨query, tail.dropWhile (· ≠ 38), hquery, ?_, ?_, ?_⟩, ?_⟩
  · rw [List.takeWhile_append_dropWhile]
    exact find_split hfind
  · rcases hrest : tail.dropWhile (· ≠ 38) with _ | ⟨b, rest⟩
    · exact .inl hrest
    · have hb := List.head?_dropWhile_not (· ≠ (38 : UInt8)) tail
      rw [hrest] at hb
      right
      rw [hrest]
      simpa using hb
  · rw [hfind, List.length_take, Nat.min_eq_left hle]
  · intro hmem
    have hne := List.all_eq_true.mp List.all_takeWhile _ hmem
    simp at hne

/-- The first `group_id=` is the parameter that names `g`, or lies inside another one. -/
theorem firstKey_of_named (h : NamedInQuery path g) :
    (∃ lead, FirstKey path lead (decimal (g.toNat + 1) g.toNat)) ∨
      ∃ lead value, FirstKey path lead value ∧ ¬ StartsParameter lead := by
  obtain ⟨query, lead, rest, hquery, hsplit, -, hrest, hleast⟩ := h
  obtain ⟨at0, hfind, hle⟩ : ∃ at0, find groupIdKey query = some at0 ∧ at0 ≤ lead.length := by
    apply find_le_of_isPrefix
    · rw [hsplit, List.append_assoc, List.drop_left]
      exact List.prefix_append _ _
    · rw [hsplit]
      simp
  by_cases hstarts : StartsParameter (query.take at0)
  · left
    have hat0 : at0 = lead.length := by
      have hfirst := hleast (query.take at0) _ (find_split hfind) hstarts
      rw [List.length_take] at hfirst
      omega
    refine ⟨lead, ⟨query, rest, hquery, hsplit, hrest, hat0 ▸ hfind⟩, ?_⟩
    intro hmem
    exact absurd (isDigit_of_mem_decimal hmem) (by decide)
  · obtain ⟨value, hfirst⟩ := firstKey_of_find hquery hfind
    exact .inr ⟨_, value, hfirst, hstarts⟩

theorem FirstKey.extract_named {lead : Bytes}
    (h : FirstKey path lead (decimal (g.toNat + 1) g.toNat)) :
    extractGroupIdFromQuery path = g.toNat := by
  have hend : ∀ b, ([] : Bytes).head? = some b → isDigit b = false := fun b hb => by cases hb
  have hstoull := stoull_decimal g.toNat_lt hend
  rw [List.append_nil] at hstoull
  rw [h.extract, hstoull, Option.getD_some]

/-- The first `group_id=` of the query begins no parameter: it is the end of a longer name or part of
a value. The number read behind it is `id`. -/
def StrayId (path : Bytes) (id : Nat) : Prop :=
  ∃ lead value, FirstKey path lead value ∧ ¬ StartsParameter lead ∧ stoull value = some id

/-! ## §5 — Admin requests. -/

/-- The id an admin endpoint hands to its handler. -/
def AdminRoute.groupId (js : JsonText) (path body : Bytes) : AdminRoute → Nat
  | .removeMember => removeGroupId path
  | .configGet => extractGroupIdFromQuery path
  | _ => bodyGroupId js body

/-- The admin endpoint whose handler a request calls. -/
def calledRoute (js : JsonText) (srv : MetricsHttpServer) (request : Bytes) : Option AdminRoute :=
  if authorized srv request then
    match route srv request (extractPath request) (extractMethod request) with
    | .admin a =>
      if (serveAdmin js srv (extractPath request) (extractBody request) a).calls.isEmpty then none
      else some a
    | _ => none
  else none

theorem exists_of_bind_eq_ok {ε α β : Type} {x : Except ε α} {f : α → Except ε β} {b : β}
    (h : x >>= f = .ok b) : ∃ a, x = .ok a ∧ f a = .ok b := by
  cases x with
  | error what => cases h
  | ok a => exact ⟨a, rfl, h⟩

theorem transferArgs_groupId {targetId : Int} {groupId : Nat}
    (h : transferArgs js body = .ok (targetId, groupId)) : groupId = bodyGroupId js body := by
  obtain ⟨j, hparse, h⟩ := exists_of_bind_eq_ok h
  have hread : ∀ t, (do
      let id ← j.valueInt js (ascii "group_id")
      pure (t, Json.toUInt64 id) : Except Bytes (Int × Nat)) = .ok (targetId, groupId) →
      groupId = bodyGroupId js body := by
    intro t h
    obtain ⟨n, hn, h⟩ := exists_of_bind_eq_ok h
    cases h
    simp only [bodyGroupId, hparse, bind, Except.bind, hn]
  split at h
  · obtain ⟨t, -, h⟩ := exists_of_bind_eq_ok h
    exact hread t h
  · exact hread (-1) h

theorem serveAdmin_groupId {call : HandlerCall} (h : call ∈ (serveAdmin js srv path body a).calls) :
    call.groupId = some (a.groupId js path body) := by
  cases a with
  | addMember =>
    simp only [serveAdmin, serveAddMember] at h
    split at h
    · cases h
    cases List.mem_singleton.mp h
    rfl
  | removeMember =>
    simp only [serveAdmin, serveRemoveMember] at h
    split at h
    · cases h
    cases List.mem_singleton.mp h
    rfl
  | transferLeadership =>
    simp only [serveAdmin, serveTransferLeadership] at h
    split at h
    · cases h
    rename_i targetId groupId hargs
    cases List.mem_singleton.mp h
    exact congrArg some (transferArgs_groupId hargs)
  | triggerSnapshot | configGet | configPatch =>
    cases List.mem_singleton.mp h
    rfl

theorem findSome?_of_forall {α β : Type} {f : α → Option β} {l : List α} {o : Option β}
    (h : ∀ a ∈ l, f a = o) : l.findSome? f = if l.isEmpty then none else o := by
  cases l with
  | nil => rfl
  | cons a l =>
    rw [List.findSome?_cons, h a List.mem_cons_self]
    cases o with
    | some b => rfl
    | none =>
      refine List.findSome?_eq_none_iff.mpr fun b hb => ?_
      exact h b (List.mem_cons_of_mem a hb)

theorem handleHttp_eq (js : JsonText) (srv : MetricsHttpServer) (s : Store) (request : Bytes) :
    s.handleHttp js srv request = (calledRoute js srv request).bind fun a =>
      s.find (.ofNat (a.groupId js (extractPath request) (extractBody request))) := by
  unfold Store.handleHttp calledRoute buildResponse
  split
  · cases hroute : route srv request (extractPath request) (extractMethod request) with
    | admin a =>
      dsimp only
      rw [serve, findSome?_of_forall fun call hcall => by rw [serveAdmin_groupId hcall]]
      split <;> rfl
    | ready | status =>
      rw [serve]
      split <;> rfl
    | _ => rfl
  · rfl

/-! ## §6 — Requests on an RPC connection. -/

theorem parse_of_dump {js : JsonLibrary} (hexact : js.Exact) (hrefuses : js.Refuses) {j : Json}
    {text : Bytes} (hcanonical : j.canonical = true) (hdump : js.dump j = .ok text) :
    js.parse text = .ok j := by
  have hvalid : j.textsValid = true := by
    by_contra hno
    obtain ⟨what, hthrown⟩ := hrefuses j (Bool.eq_false_iff.mpr hno)
    cases hdump.symm.trans hthrown
  obtain ⟨text', hdump', hparse⟩ := hexact j hcanonical hvalid
  cases hdump.symm.trans hdump'
  exact hparse

theorem dump_of_toOption {ε α : Type} {x : Except ε α} {a : α} (h : x.toOption = some a) :
    x = .ok a := by
  cases x with
  | error what => cases h
  | ok a' => cases h; rfl

namespace GroupRequest

variable {js : JsonLibrary} {g c : UInt64} {text : Bytes} {body : RequestBody}

theorem text_rpc (h : (GroupRequest.rpc c body).text? js.toJsonText g = some text) :
    ∃ fields, requestFields body = some fields ∧ js.dump (messageObject c g fields) = .ok text := by
  have hserialize := dump_of_toOption h
  unfold serializeRequest serializeMessage at hserialize
  split at hserialize
  · cases hserialize
  rename_i fields hfields
  refine ⟨fields, hfields, ?_⟩
  rw [messageObject]
  split at hserialize
  · rename_i hdump
    cases hserialize
    exact hdump
  · cases hserialize

theorem extractGroupId_rpc (hexact : js.Exact) (hrefuses : js.Refuses)
    (h : (GroupRequest.rpc c body).text? js.toJsonText g = some text) :
    extractGroupId js.toJsonText text = readBack g := by
  obtain ⟨fields, hfields, hdump⟩ := text_rpc h
  have hcanonical := canonical_messageObject c g (canonical_requestFields hfields)
  exact extractGroupId_of_parse (parse_of_dump hexact hrefuses hcanonical hdump)
    (hasHeader_request c g hfields).groupId

theorem extractGroupId_client (hexact : js.Exact) (hrefuses : js.Refuses) {req : Rpc.ClientRequest}
    (h : (GroupRequest.client req).text? js.toJsonText g = some text) :
    extractGroupId js.toJsonText text = readBack g := by
  have hparse := parse_of_dump hexact hrefuses (canonical_object (by
    simp [canonical_typeField, Json.canonical])) (dump_of_toOption h)
  exact extractGroupId_of_parse hparse (get?_object _ .groupId)

/-- A forwarded read has no group id, so it is read as the id `0`. -/
theorem extractGroupId_forwardedRead (hexact : js.Exact) (hrefuses : js.Refuses)
    (h : (GroupRequest.forwardedRead c).text? js.toJsonText g = some text) :
    extractGroupId js.toJsonText text = 0 := by
  have hparse := parse_of_dump hexact hrefuses (canonical_object (by
    simp [canonical_typeField])) (dump_of_toOption h)
  have hget : (object [typeField .readIndexRequest, (.correlationId, .ofUInt64 c)]).get?
      (ascii "group_id") = none := get?_object _ .groupId
  have hvalue : (object [typeField .readIndexRequest, (.correlationId, .ofUInt64 c)]).valueInt
      js.toJsonText (ascii "group_id") = .ok 0 := by
    rw [object, Json.ofFields] at hget ⊢
    simp only [Json.valueInt, hget]
  simp only [extractGroupId, hparse, hvalue]
  decide

end GroupRequest

/-! ## §7 — Routing. -/

/-- The readers of an endpoint take `g` for no other group of the store: a DELETE reads the id
exactly, a config request may be misled by another parameter, and the others read it through an
`int`. -/
def AdminRoute.Routed (s : Store) (g : UInt64) (path : Bytes) : AdminRoute → Prop
  | .removeMember => True
  | .configGet => ∀ id, StrayId path id → UInt64.ofNat id ≠ g → UInt64.ofNat id ∉ s.groups
  | _ => ¬ Misread s g

/-- No reader on the way takes `g` for another group of the store. -/
def GroupRequest.Routed (js : JsonText) (srv : MetricsHttpServer) (s : Store) (g : UInt64) :
    GroupRequest → Prop
  | .forwardedRead _ => True
  | .admin request => ∀ a, calledRoute js srv request = some a →
      a.Routed s g (extractPath request)
  | r => r.text? js g = none ∨ ¬ Misread s g

theorem route_of_calledRoute {request : Bytes} (h : calledRoute js srv request = some a) :
    route srv request (extractPath request) (extractMethod request) = .admin a := by
  unfold calledRoute at h
  split at h
  · split at h
    · rename_i a' hroute
      split at h
      · cases h
      cases h
      exact hroute
    · cases h
  · cases h

/-- An endpoint that is told `g` reaches `g` or no group exactly when it is routed. -/
theorem AdminRoute.find_iff_routed {s : Store} (h : a.Names js path body g) :
    (∀ x, s.find (.ofNat (a.groupId js path body)) = some x → x = g) ↔ a.Routed s g path := by
  have hbody (hnamed : NamedInBody js body g) :
      (∀ x, s.find (.ofNat (bodyGroupId js body)) = some x → x = g) ↔ ¬ Misread s g := by
    rw [bodyGroupId_of_named hnamed]
    exact find_readBack s g
  cases a with
  | removeMember =>
    refine ⟨fun _ => trivial, fun _ x hx => ?_⟩
    obtain ⟨rfl, hmem⟩ := s.find_eq_some_iff.mp hx
    show UInt64.ofNat (removeGroupId path) = g
    change UInt64.ofNat (removeGroupId path) ∈ s.groups at hmem
    rcases removeGroupId_of_named h with hzero | hown
    · rw [hzero] at hmem
      exact absurd hmem s.nonzero
    · rw [hown, UInt64.ofNat_toNat]
  | configGet =>
    constructor
    · rintro hall id ⟨lead, value, hfirst, -, hvalue⟩ hne hmem
      have hid : extractGroupIdFromQuery path = id := by
        rw [hfirst.extract, hvalue, Option.getD_some]
      refine hne (hall _ (s.find_eq_some_iff.mpr ⟨?_, ?_⟩))
      · exact congrArg UInt64.ofNat hid.symm
      · show UInt64.ofNat (extractGroupIdFromQuery path) ∈ s.groups
        rw [hid]
        exact hmem
    · intro hrouted x hx
      obtain ⟨rfl, hmem⟩ := s.find_eq_some_iff.mp hx
      change UInt64.ofNat (extractGroupIdFromQuery path) ∈ s.groups at hmem
      show UInt64.ofNat (extractGroupIdFromQuery path) = g
      rcases firstKey_of_named h with ⟨lead, hfirst⟩ | ⟨lead, value, hfirst, hstray⟩
      · rw [hfirst.extract_named, UInt64.ofNat_toNat]
      · rw [hfirst.extract] at hmem ⊢
        cases hvalue : stoull value with
        | none =>
          -- a value that is no number is read as the id `0`, which no group has
          rw [hvalue] at hmem
          exact absurd hmem s.nonzero
        | some id =>
          rw [hvalue, Option.getD_some] at hmem
          by_contra hne
          exact hrouted id ⟨lead, value, hfirst, hstray, hvalue⟩ hne hmem
  | addMember | triggerSnapshot | transferLeadership | configPatch => exact hbody h

theorem text_iff_routed {s : Store} {o : Option Bytes}
    (h : ∀ text, o = some text → extractGroupId js text = readBack g) :
    (∀ x, o.bind (s.handleMessage js) = some x → x = g) ↔ o = none ∨ ¬ Misread s g := by
  cases o with
  | none => exact ⟨fun _ => .inl rfl, fun _ x hx => (by cases hx)⟩
  | some text =>
    rw [Option.bind_some, handleMessage_eq_find, h text rfl, find_readBack]
    simp

/-- A request of group `g` is executed by `g` or by no group exactly when no reader takes `g` for
another group of the store. -/
theorem GroupRequest.executedBy_own_iff {js : JsonLibrary} (hexact : js.Exact)
    (hrefuses : js.Refuses) (srv : MetricsHttpServer) (s : Store) (g : UInt64) (r : GroupRequest)
    (hnames : r.Names js.toJsonText srv g) :
    (∀ x, r.executedBy js.toJsonText srv s g = some x → x = g) ↔
      r.Routed js.toJsonText srv s g := by
  cases r with
  | rpc c body => exact text_iff_routed fun text h => extractGroupId_rpc hexact hrefuses h
  | client req => exact text_iff_routed fun text h => extractGroupId_client hexact hrefuses h
  | forwardedRead c =>
    refine ⟨fun _ => trivial, fun _ x hx => ?_⟩
    obtain ⟨text, htext, hx⟩ := Option.bind_eq_some_iff.mp hx
    rw [handleMessage_eq_find, extractGroupId_forwardedRead hexact hrefuses htext] at hx
    cases hx
  | admin request =>
    have hcalled : ∀ a, calledRoute js.toJsonText srv request = some a →
        a.Names js.toJsonText (extractPath request) (extractBody request) g :=
      fun a ha => hnames a (route_of_calledRoute ha)
    show (∀ x, s.handleHttp js.toJsonText srv request = some x → x = g) ↔ ∀ a, _ → _
    rw [handleHttp_eq]
    cases ha : calledRoute js.toJsonText srv request with
    | none => simp
    | some a =>
      rw [Option.bind_some, AdminRoute.find_iff_routed (hcalled a ha)]
      exact ⟨fun h a' ha' => Option.some.inj ha' ▸ h, fun h => h a rfl⟩

def openServer : MetricsHttpServer where
  adminToken := []
  registry := none
  statusProvider := none
  addMemberHandler := none
  removeMemberHandler := none
  triggerSnapshotHandler := none
  transferLeadershipHandler := none
  configProvider := some fun _ => .ok []
  configUpdater := none

/-- A store with the groups `5` and `2^32 + 5`. -/
def twoGroups : Store := ⟨[5, 2 ^ 32 + 5], by decide⟩

def configOfFive : Bytes := ascii "GET /v1/config?group_id=5 HTTP/1.1\r\n\r\n"

theorem configOfFive_executedBy_own :
    ((GroupRequest.admin configOfFive).Names strictJson.toJsonText openServer 5) ∧
      (GroupRequest.admin configOfFive).executedBy strictJson.toJsonText openServer twoGroups 5
        = some 5 ∧
      ∀ x, (GroupRequest.admin configOfFive).executedBy strictJson.toJsonText openServer twoGroups 5
        = some x → x = 5 := by
  have hquery : queryOf (extractPath configOfFive) = some (ascii "group_id=5") := by
    decide +kernel
  have hnames : (GroupRequest.admin configOfFive).Names strictJson.toJsonText openServer 5 := by
    intro a ha
    have hroute : route openServer configOfFive (extractPath configOfFive)
        (extractMethod configOfFive) = .admin .configGet := by
      decide +kernel
    cases hroute.symm.trans ha
    refine ⟨ascii "group_id=5", [], [], hquery, by decide +kernel, .inl rfl, .inl rfl, ?_⟩
    exact fun lead' _ _ _ => Nat.zero_le lead'.length
  have hrouted : (GroupRequest.admin configOfFive).Routed strictJson.toJsonText openServer
      twoGroups 5 := by
    intro a ha
    have hcalled : calledRoute strictJson.toJsonText openServer configOfFive = some .configGet := by
      decide +kernel
    cases hcalled.symm.trans ha
    -- the query begins with the key, so nothing strays
    rintro id ⟨lead, value, ⟨⟨query, rest, hq, -, -, hfind⟩, -⟩, hstray, -⟩
    cases hquery.symm.trans hq
    have hfirst : find groupIdKey (ascii "group_id=5") = some 0 := by
      decide +kernel
    have hlead : lead.length = 0 := Option.some.inj (hfind.symm.trans hfirst)
    exact absurd (.inl (List.eq_nil_of_length_eq_zero hlead)) hstray
  exact ⟨hnames, by decide +kernel, (GroupRequest.executedBy_own_iff strictJson_exact
    strictJson_refuses openServer twoGroups 5 _ hnames).mpr hrouted⟩

/-- A vote request of group `2^32 + 5` is executed by group `5`. -/
theorem voteRequest_executedBy_other :
    (GroupRequest.rpc 1 (.requestVote ⟨3, 2, 9, 2⟩)).executedBy strictJson.toJsonText openServer
      twoGroups (2 ^ 32 + 5) = some 5 := by
  decide +kernel

end RollingRaft
