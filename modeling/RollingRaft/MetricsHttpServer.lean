/-
# RollingRaft.MetricsHttpServer — the admin HTTP server: who reaches which handler.

`buildResponse` is the whole of `MetricsHttpServer::BuildResponse`: the request line is read with
three hand-written scans, the authentication test classifies the request by the query-stripped path
and the EXACT method word, and the dispatch chain classifies it again by the raw path and by what
the request text BEGINS with. The handlers are `std::function` members and may be unset; each call
of one is recorded in `Built.calls` before its result is used.

The two classifications differ: a first word such as `POSTX` is not `POST` for the first and is a
POST for the second. `BypassesAuth` names exactly those requests, and the main theorem says they
are the only ones: on a server with an admin token, every admin handler call is backed by the token
unless the request is one of them.

The socket side (`HandleConnection`, rate limiting, event streams) is not part of this module.
-/
import RollingRaft.Json

namespace RollingRaft

open Lib

variable {srv : MetricsHttpServer}

/-! ## §1 — Reading the request. -/

def extractPath (request : Bytes) : Bytes :=
  match findByte 32 request with
  | none => []
  | some sp =>
    let start := sp + 1
    match findFrom [32] request start with
    | none => []
    | some e => substr request start (e - start)

/-- The path up to the first `?`. -/
def pathWithoutQuery (path : Bytes) : Bytes := cutAt 63 path

def extractGroupIdFromQuery (path : Bytes) : Nat :=
  match findByte 63 path with
  | none => 0
  | some query =>
    let params := substrFrom path (query + 1)
    match find (ascii "group_id=") params with
    | none => 0
    | some at0 =>
      let start := at0 + (ascii "group_id=").length
      let value := match findFrom (ascii "&") params start with
        | some e => substr params start (e - start)
        | none => substrFrom params start
      (stoull value).getD 0

def extractBody (request : Bytes) : Bytes :=
  match find (ascii "\r\n\r\n") request with
  | none => []
  | some pos => substrFrom request (pos + 4)

def authPrefix : Bytes := ascii "Authorization: Bearer "

def crlf : Bytes := ascii "\r\n"

def extractAuthToken (request : Bytes) : Bytes :=
  match find authPrefix request with
  | none => []
  | some at0 =>
    let pos := at0 + authPrefix.length
    match findFrom crlf request pos with
    | none => []
    | some e => substr request pos (e - pos)

/-- The comparison accumulates the differences of all bytes. -/
def timingSafeEqual (a b : Bytes) : Bool :=
  if a.length ≠ b.length then false
  else (a.zip b).foldl (fun diff p => diff ||| (p.1 ^^^ p.2)) 0 = (0 : UInt8)

def extractMethod (request : Bytes) : Bytes :=
  match findByte 32 request with
  | none => []
  | some e => substr request 0 e

def isAdminEndpoint (path method : Bytes) : Bool :=
  (path = ascii "/v1/members" ∧ method = ascii "POST") ∨
  (startsWith path (ascii "/v1/members/") ∧ method = ascii "DELETE") ∨
  (path = ascii "/v1/snapshot/trigger" ∧ method = ascii "POST") ∨
  (path = ascii "/v1/leadership/transfer" ∧ method = ascii "POST") ∨
  pathWithoutQuery path = ascii "/v1/config"

/-! ## §2 — The server and its handlers. -/

/-- The branches of the chain that call an admin handler. -/
inductive AdminRoute where
  | addMember | removeMember | triggerSnapshot | transferLeadership | configGet | configPatch
  deriving DecidableEq

/-- The branches of the dispatch chain. -/
inductive Route where
  | metrics | alive | ready | status | admin (r : AdminRoute) | events | notFound
  deriving DecidableEq

/-- One call of a handler member, with its arguments. -/
inductive HandlerCall where
  | statusProvider
  | addMember (nodeId : Int) (addr : Bytes) (groupId : Nat)
  | removeMember (nodeId : Int) (groupId : Nat)
  | triggerSnapshot (groupId : Nat)
  | transferLeadership (targetId : Int) (groupId : Nat)
  | configProvider (groupId : Nat)
  | configUpdater (json : Bytes) (groupId : Nat)
  deriving DecidableEq

/-- Every handler but the status provider is an admin handler. -/
def HandlerCall.isAdmin : HandlerCall → Bool
  | .statusProvider => false
  | _ => true

/-- The members `BuildResponse` reads. A handler returns the response body or throws; `registry` is
the text of `FormatPrometheus` when a registry is set. -/
structure MetricsHttpServer where
  adminToken : Bytes
  registry : Option Bytes
  statusProvider : Option (Except Bytes Bytes)
  addMemberHandler : Option (Int → Bytes → Nat → Except Bytes Bytes)
  removeMemberHandler : Option (Int → Nat → Except Bytes Bytes)
  triggerSnapshotHandler : Option (Nat → Except Bytes Bytes)
  transferLeadershipHandler : Option (Int → Nat → Except Bytes Bytes)
  configProvider : Option (Nat → Except Bytes Bytes)
  configUpdater : Option (Bytes → Nat → Except Bytes Bytes)

/-- The tuple `BuildResponse` returns. -/
structure HttpResponse where
  responseBody : Bytes
  statusLine : Bytes
  contentType : Bytes
  isSse : Bool
  deriving DecidableEq

/-- The handler calls made, and the response or the exception that escapes. -/
structure Built where
  calls : List HandlerCall
  result : Except Bytes HttpResponse

/-- A response of the default content type. -/
def respond (statusLine : String) (body : Bytes) : HttpResponse :=
  { responseBody := body, statusLine := ascii statusLine,
    contentType := ascii "application/json\r\n", isSse := false }

/-- A call through a `std::function` member; an empty one throws. -/
def invoke {α : Type} (handler : Option α) (run : α → Except Bytes Bytes) : Except Bytes Bytes :=
  match handler with
  | some f => run f
  | none => .error (ascii "bad_function_call")

/-- The `{"error": …, "message": …}` body. -/
def errorBody (js : JsonText) (error : String) (message : Bytes) : Except Bytes Bytes := do
  let text ← js.dump (.object [(ascii "error", .string (ascii error)),
    (ascii "message", .string message)])
  pure (text ++ ascii "\n")

/-! ## §3 — The branches. -/

section Branches

variable (js : JsonText)

/-- `/readyz` decides from the status JSON; every exception becomes a 500. -/
def readyz (status : Except Bytes Bytes) : Except Bytes HttpResponse :=
  let checked : Except Bytes Bool := do
    let j ← js.parse (← status)
    let isLeader := match j.get? (ascii "role") with
      | some r => r.eqText (ascii "Leader")
      | none => false
    let knowsLeader := match j.get? (ascii "leader_id") with
      | some l => !l.isNull && !l.eqMinusOne
      | none => false
    pure (isLeader || knowsLeader)
  match checked with
  | .ok true => .ok (respond "HTTP/1.1 200 OK\r\n" (ascii "\x7b\"status\":\"ready\"\x7d\n"))
  | .ok false =>
    .ok (respond "HTTP/1.1 503 Service Unavailable\r\n" (ascii "\x7b\"status\":\"not_ready\"\x7d\n"))
  | .error what => do
    let text ← js.dump (.object [(ascii "status", .string (ascii "error")),
      (ascii "message", .string what)])
    pure (respond "HTTP/1.1 500 Internal Server Error\r\n" (text ++ ascii "\n"))

/-- `group_id` of a JSON body, `0` when anything throws. -/
def bodyGroupId (body : Bytes) : Nat :=
  match (do let j ← js.parse body; j.valueInt js (ascii "group_id") : Except Bytes Int) with
  | .ok v => Json.toUInt64 v
  | .error _ => 0

/-- `node_id` and `addr` of an add-member body. -/
def addMemberArgs (body : Bytes) : Except Bytes (Int × Bytes) := do
  let j ← js.parse body
  let nodeId ← match j.get? (ascii "node_id") with
    | some v => v.asInt32 js
    | none => pure (-1)
  let addr ← match j.get? (ascii "addr") with
    | some v => v.asString
    | none => pure []
  pure (nodeId, addr)

/-- `target_node_id` and `group_id` of a transfer body; here a bad `group_id` is an error. -/
def transferArgs (body : Bytes) : Except Bytes (Int × Nat) := do
  let j ← js.parse body
  let targetId ← match j.get? (ascii "target_node_id") with
    | some v => v.asInt32 js
    | none => pure (-1)
  let groupId ← j.valueInt js (ascii "group_id")
  pure (targetId, Json.toUInt64 groupId)

/-- `?group_id=N` of a DELETE, honoured only directly after the `?`. -/
def removeGroupId (path : Bytes) : Nat :=
  match findByte 63 path with
  | none => 0
  | some q =>
    let query := substrFrom path (q + 1)
    if startsWith query (ascii "group_id=") then
      (stoull (substrFrom query (ascii "group_id=").length)).getD 0
    else 0

/-- The node id after the last `/`; `none` is the parse error. -/
def removeNodeId (path : Bytes) : Option Int :=
  let bare := pathWithoutQuery path
  match findLastOf 47 bare with
  | some slash => if slash + 1 < bare.length then stoi (substrFrom bare (slash + 1)) else some (-1)
  | none => some (-1)

/-- A call recorded together with the response its body becomes. -/
def called (call : HandlerCall) (body : Except Bytes Bytes) (statusLine : String) : Built :=
  { calls := [call], result := do pure (respond statusLine (← body)) }

def badRequest (what : Bytes) : Built :=
  { calls := []
    result := do pure (respond "HTTP/1.1 400 Bad Request\r\n" (← errorBody js "BAD_REQUEST" what)) }

def serveAddMember (srv : MetricsHttpServer) (body : Bytes) : Built :=
  match addMemberArgs js body with
  | .error what => badRequest js what
  | .ok (nodeId, addr) =>
    let groupId := bodyGroupId js body
    called (.addMember nodeId addr groupId)
      (invoke srv.addMemberHandler fun f => f nodeId addr groupId) "HTTP/1.1 202 Accepted\r\n"

def serveRemoveMember (srv : MetricsHttpServer) (path : Bytes) : Built :=
  match removeNodeId path with
  | none =>
    { calls := []
      result := .ok (respond "HTTP/1.1 400 Bad Request\r\n"
        (ascii "\x7b\"error\":\"BAD_REQUEST\",\"message\":\"invalid node_id\"\x7d\n")) }
  | some nodeId =>
    let groupId := removeGroupId path
    called (.removeMember nodeId groupId)
      (invoke srv.removeMemberHandler fun f => f nodeId groupId) "HTTP/1.1 202 Accepted\r\n"

def serveTriggerSnapshot (srv : MetricsHttpServer) (body : Bytes) : Built :=
  let groupId := bodyGroupId js body
  called (.triggerSnapshot groupId)
    (invoke srv.triggerSnapshotHandler fun f => f groupId) "HTTP/1.1 202 Accepted\r\n"

def serveTransferLeadership (srv : MetricsHttpServer) (body : Bytes) : Built :=
  match transferArgs js body with
  | .error what => badRequest js what
  | .ok (targetId, groupId) =>
    called (.transferLeadership targetId groupId)
      (invoke srv.transferLeadershipHandler fun f => f targetId groupId) "HTTP/1.1 202 Accepted\r\n"

/-- What the `if`/`else if` chain after the authentication test selects, in the source's order. -/
def route (srv : MetricsHttpServer) (request path method : Bytes) : Route :=
  if path = ascii "/metrics" ∧ srv.registry.isSome then .metrics
  else if path = ascii "/healthz" ∨ path = ascii "/livez" then .alive
  else if path = ascii "/readyz" then .ready
  else if path = ascii "/v1/status" then .status
  else if path = ascii "/v1/members" ∧ startsWith request (ascii "POST") ∧
      srv.addMemberHandler.isSome then .admin .addMember
  else if startsWith path (ascii "/v1/members/") ∧ startsWith request (ascii "DELETE") ∧
      srv.removeMemberHandler.isSome then .admin .removeMember
  else if path = ascii "/v1/snapshot/trigger" ∧ startsWith request (ascii "POST") ∧
      srv.triggerSnapshotHandler.isSome then .admin .triggerSnapshot
  else if path = ascii "/v1/leadership/transfer" ∧ startsWith request (ascii "POST") ∧
      srv.transferLeadershipHandler.isSome then .admin .transferLeadership
  else if pathWithoutQuery path = ascii "/v1/config" ∧ startsWith request (ascii "GET") ∧
      srv.configProvider.isSome then .admin .configGet
  else if pathWithoutQuery path = ascii "/v1/config" ∧ startsWith request (ascii "PATCH") ∧
      srv.configUpdater.isSome then .admin .configPatch
  else if path = ascii "/v1/events" ∧ method = ascii "GET" then .events
  else .notFound

def serveAdmin (srv : MetricsHttpServer) (path body : Bytes) : AdminRoute → Built
  | .addMember => serveAddMember js srv body
  | .removeMember => serveRemoveMember srv path
  | .triggerSnapshot => serveTriggerSnapshot js srv body
  | .transferLeadership => serveTransferLeadership js srv body
  | .configGet =>
    let groupId := extractGroupIdFromQuery path
    called (.configProvider groupId) (invoke srv.configProvider fun f => f groupId)
      "HTTP/1.1 200 OK\r\n"
  | .configPatch =>
    let groupId := bodyGroupId js body
    called (.configUpdater body groupId) (invoke srv.configUpdater fun f => f body groupId)
      "HTTP/1.1 200 OK\r\n"

/-- The bodies of all branches; a branch that calls no handler only builds its response. -/
def serve (srv : MetricsHttpServer) (path body : Bytes) : Route → Built
  | .metrics =>
    { calls := []
      result := .ok { responseBody := srv.registry.getD [], statusLine := ascii "HTTP/1.1 200 OK\r\n",
                      contentType := ascii "text/plain; version=0.0.4\r\n", isSse := false } }
  | .alive =>
    { calls := []
      result := .ok (respond "HTTP/1.1 200 OK\r\n" (ascii "\x7b\"status\":\"alive\"\x7d\n")) }
  | .ready =>
    match srv.statusProvider with
    | some status => { calls := [.statusProvider], result := readyz js status }
    | none =>
      { calls := []
        result := .ok (respond "HTTP/1.1 200 OK\r\n" (ascii "\x7b\"status\":\"unknown\"\x7d\n")) }
  | .status =>
    match srv.statusProvider with
    | some status => called .statusProvider status "HTTP/1.1 200 OK\r\n"
    | none =>
      { calls := []
        result := .ok (respond "HTTP/1.1 200 OK\r\n"
          (ascii "\x7b\"error\":\"status_provider_not_set\"\x7d\n")) }
  | .admin r => serveAdmin js srv path body r
  | .events =>
    { calls := [], result := .ok { respond "HTTP/1.1 404 Not Found\r\n" [] with isSse := true } }
  | .notFound => { calls := [], result := .ok (respond "HTTP/1.1 404 Not Found\r\n" []) }

/-- The authentication test: the token has to be right, but only on an admin endpoint. -/
def authorized (srv : MetricsHttpServer) (request : Bytes) : Bool :=
  srv.adminToken.isEmpty ||
    !isAdminEndpoint (pathWithoutQuery (extractPath request)) (extractMethod request) ||
    timingSafeEqual (extractAuthToken request) srv.adminToken

/-- **`MetricsHttpServer::BuildResponse`**. -/
def buildResponse (srv : MetricsHttpServer) (request : Bytes) : Built :=
  if authorized srv request then
    serve js srv (extractPath request) (extractBody request)
      (route srv request (extractPath request) (extractMethod request))
  else
    { calls := []
      result := do pure (respond "HTTP/1.1 401 Unauthorized\r\n"
        (← errorBody js "UNAUTHORIZED" (ascii "Invalid or missing admin token"))) }

end Branches

/-! ## §4 — The token comparison and what it says about the request. -/

/-- The request bears the header `Authorization: Bearer <token>`. -/
def CarriesToken (request token : Bytes) : Prop :=
  ∃ before after, request = before ++ authPrefix ++ token ++ crlf ++ after

/-- The accumulated difference is zero exactly when it started at zero and every pair agrees. -/
theorem foldl_diff_eq_zero (pairs : List (UInt8 × UInt8)) (diff : UInt8) :
    pairs.foldl (fun diff p => diff ||| (p.1 ^^^ p.2)) diff = 0 ↔
      diff = 0 ∧ ∀ p ∈ pairs, p.1 = p.2 := by
  induction pairs generalizing diff with
  | nil => simp
  | cons p pairs ih =>
    rw [List.foldl_cons, ih, UInt8.or_eq_zero_iff, UInt8.xor_eq_zero_iff]
    simp only [List.mem_cons, forall_eq_or_imp, and_assoc]

theorem timingSafeEqual_iff {a b : Bytes} : timingSafeEqual a b = true ↔ a = b := by
  unfold timingSafeEqual
  by_cases hlen : a.length = b.length
  · simp only [hlen, ne_eq, not_true_eq_false, if_false, decide_eq_true_eq, foldl_diff_eq_zero,
      true_and]
    constructor
    · intro hpairs
      apply List.ext_getElem hlen
      intro i ha hb
      exact hpairs (a[i], b[i]) (by
        rw [List.mem_iff_getElem]
        exact ⟨i, by simp only [List.length_zip]; omega, by simp⟩)
    · rintro rfl p hp
      obtain ⟨i, hi, rfl⟩ := List.mem_iff_getElem.mp hp
      simp
  · simp only [ne_eq, hlen, not_false_eq_true, if_true, Bool.false_eq_true, false_iff]
    exact fun h => hlen (congrArg List.length h)

variable {request path : Bytes} {r : AdminRoute} {js : JsonText} {c : HandlerCall}

theorem carriesToken_of_extract {token : Bytes} (hne : token ≠ [])
    (h : extractAuthToken request = token) : CarriesToken request token := by
  unfold extractAuthToken at h
  split at h
  · exact absurd h.symm hne
  rename_i at0 hat
  simp only at h
  split at h
  · exact absurd h.symm hne
  rename_i e he
  -- the header text splits off at `at0`, and the rest of the request at the line end
  obtain ⟨-, hsplit⟩ := findFrom_split he
  have hlead : request.take (at0 + authPrefix.length) = request.take at0 ++ authPrefix := by
    conv_lhs => rw [find_split hat]
    have hat_le : at0 ≤ request.length := by
      have := find_split hat
      by_contra hlt
      have hdrop : request.drop at0 = [] := List.drop_eq_nil_of_le (by omega)
      have hpre := find_isPrefix hat
      rw [hdrop] at hpre
      exact absurd (List.prefix_nil.mp hpre) (by decide +kernel)
    rw [List.take_left']
    simp [hat_le]
  refine ⟨request.take at0, request.drop (e + crlf.length), ?_⟩
  rw [← h, ← hlead]
  exact hsplit

/-! ## §5 — Which requests reach an admin handler. -/

/-- The method word the authentication test asks for; it does not look at the method of a config
request. -/
def AdminRoute.method : AdminRoute → Option Bytes
  | .addMember | .triggerSnapshot | .transferLeadership => some (ascii "POST")
  | .removeMember => some (ascii "DELETE")
  | .configGet | .configPatch => none

/-- The tests of the dispatch chain for an admin branch: the path, what the request text begins with,
and that the handler is set. -/
def Selected (srv : MetricsHttpServer) (request path : Bytes) : AdminRoute → Prop
  | .addMember =>
    path = ascii "/v1/members" ∧ startsWith request (ascii "POST") ∧ srv.addMemberHandler.isSome
  | .removeMember =>
    startsWith path (ascii "/v1/members/") ∧ startsWith request (ascii "DELETE") ∧
      srv.removeMemberHandler.isSome
  | .triggerSnapshot =>
    path = ascii "/v1/snapshot/trigger" ∧ startsWith request (ascii "POST") ∧
      srv.triggerSnapshotHandler.isSome
  | .transferLeadership =>
    path = ascii "/v1/leadership/transfer" ∧ startsWith request (ascii "POST") ∧
      srv.transferLeadershipHandler.isSome
  | .configGet =>
    pathWithoutQuery path = ascii "/v1/config" ∧ startsWith request (ascii "GET") ∧
      srv.configProvider.isSome
  | .configPatch =>
    pathWithoutQuery path = ascii "/v1/config" ∧ startsWith request (ascii "PATCH") ∧
      srv.configUpdater.isSome

/-- The arguments of the branch's handler can be read from the request. -/
def ArgsReadable (js : JsonText) (path body : Bytes) : AdminRoute → Prop
  | .addMember => (addMemberArgs js body).isOk
  | .removeMember => (removeNodeId path).isSome
  | .transferLeadership => (transferArgs js body).isOk
  | .triggerSnapshot | .configGet | .configPatch => True

/-- The request reaches the branch and the branch calls its handler. -/
def Reaches (js : JsonText) (srv : MetricsHttpServer) (request : Bytes) (r : AdminRoute) : Prop :=
  Selected srv request (extractPath request) r ∧
    ArgsReadable js (extractPath request) (extractBody request) r

/-- **`BypassesAuth`** — the request reaches an admin branch because its text begins with the method
of that branch, while its first word is not that method: `POSTX /v1/members …`. -/
def BypassesAuth (js : JsonText) (srv : MetricsHttpServer) (request : Bytes) : Prop :=
  ∃ r, Reaches js srv request r ∧ ∃ m ∈ r.method, extractMethod request ≠ m

theorem ne_of_startsWith {lead : Bytes} (fixed : Bytes) (h : startsWith path lead = true)
    (hfixed : startsWith fixed lead = false) : path ≠ fixed := by
  rintro rfl
  rw [h] at hfixed
  cases hfixed

def postPaths : List Bytes :=
  [ascii "/v1/members", ascii "/v1/snapshot/trigger", ascii "/v1/leadership/transfer"]

variable {method : Bytes}

/-- On a fixed POST path the authentication test asks for exactly the method word `POST`. -/
theorem isAdminEndpoint_post (hmem : path ∈ postPaths) :
    isAdminEndpoint (pathWithoutQuery path) method = true ↔ method = ascii "POST" := by
  have hfixed : ∀ p ∈ postPaths, pathWithoutQuery p = p ∧
      startsWith p (ascii "/v1/members/") = false ∧ p ≠ ascii "/v1/config" := by decide +kernel
  obtain ⟨hcut, hlead, hconfig⟩ := hfixed path hmem
  simp only [postPaths, List.mem_cons, List.not_mem_nil, or_false] at hmem
  simp only [isAdminEndpoint, hcut, hlead, hconfig, Bool.false_eq_true, false_and, or_false,
    false_or, decide_eq_true_eq]
  tauto

/-- On a path below `/v1/members/` it asks for exactly the method word `DELETE`. -/
theorem isAdminEndpoint_delete
    (hlead : startsWith path (ascii "/v1/members/") = true) :
    isAdminEndpoint (pathWithoutQuery path) method = true ↔ method = ascii "DELETE" := by
  -- the query cannot start inside `/v1/members/`, so the stripped path keeps the leading part
  have hkeep : ∀ {p : Bytes}, startsWith p (ascii "/v1/members/") = true →
      startsWith (pathWithoutQuery p) (ascii "/v1/members/") = true := fun h =>
    startsWith_iff.mpr (isPrefix_cutAt (by decide +kernel) (startsWith_iff.mp h))
  have hcut := hkeep hlead
  simp [isAdminEndpoint, hcut, ne_of_startsWith (ascii "/v1/members") hcut (by decide +kernel),
    ne_of_startsWith (ascii "/v1/snapshot/trigger") hcut (by decide +kernel),
    ne_of_startsWith (ascii "/v1/leadership/transfer") hcut (by decide +kernel),
    ne_of_startsWith (ascii "/v1/config") (hkeep hcut) (by decide +kernel)]

/-- On a request that selects an admin branch the authentication test looks at the method only: the
two path tests agree. -/
theorem isAdminEndpoint_of_selected (h : Selected srv request path r) :
    isAdminEndpoint (pathWithoutQuery path) method = true ↔ ∀ m ∈ r.method, method = m := by
  cases r with
  | addMember | triggerSnapshot | transferLeadership =>
    rw [isAdminEndpoint_post (by rw [h.1]; decide +kernel)]
    simp [AdminRoute.method]
  | removeMember =>
    rw [isAdminEndpoint_delete h.1]
    simp [AdminRoute.method]
  | configGet | configPatch => simp [isAdminEndpoint, AdminRoute.method, pathWithoutQuery, ← h.1]

theorem selected_of_route (h : route srv request path method = .admin r) :
    Selected srv request path r := by
  obtain ⟨-, h⟩ | ⟨-, h⟩ := ite_eq_iff.mp h
  · cases h
  obtain ⟨-, h⟩ | ⟨-, h⟩ := ite_eq_iff.mp h
  · cases h
  obtain ⟨-, h⟩ | ⟨-, h⟩ := ite_eq_iff.mp h
  · cases h
  obtain ⟨-, h⟩ | ⟨-, h⟩ := ite_eq_iff.mp h
  · cases h
  obtain ⟨hadd, h⟩ | ⟨-, h⟩ := ite_eq_iff.mp h
  · cases h
    exact hadd
  obtain ⟨hremove, h⟩ | ⟨-, h⟩ := ite_eq_iff.mp h
  · cases h
    exact hremove
  obtain ⟨htrigger, h⟩ | ⟨-, h⟩ := ite_eq_iff.mp h
  · cases h
    exact htrigger
  obtain ⟨htransfer, h⟩ | ⟨-, h⟩ := ite_eq_iff.mp h
  · cases h
    exact htransfer
  obtain ⟨hget, h⟩ | ⟨-, h⟩ := ite_eq_iff.mp h
  · cases h
    exact hget
  obtain ⟨hpatch, h⟩ | ⟨-, h⟩ := ite_eq_iff.mp h
  · cases h
    exact hpatch
  obtain ⟨-, h⟩ | ⟨-, h⟩ := ite_eq_iff.mp h <;> cases h

/-- The paths the chain tests before the admin branches. -/
def openPaths : List Bytes :=
  [ascii "/metrics", ascii "/healthz", ascii "/livez", ascii "/readyz", ascii "/v1/status"]

/-- A branch guarded by the method word is taken whenever its tests hold: no earlier test of the
chain matches its path. -/
theorem route_of_selected (method : Bytes) (h : Selected srv request path r)
    (hmethod : r.method.isSome) :
    route srv request path method = .admin r := by
  have hopen : ∀ p ∈ postPaths, p ∉ openPaths := by decide +kernel
  have hlead : ∀ p ∈ openPaths ++ postPaths, startsWith p (ascii "/v1/members/") = false := by
    decide +kernel
  have hdistinct : ascii "/v1/snapshot/trigger" ≠ ascii "/v1/members" ∧
      ascii "/v1/leadership/transfer" ≠ ascii "/v1/members" ∧
      ascii "/v1/leadership/transfer" ≠ ascii "/v1/snapshot/trigger" := by decide +kernel
  have hpath : path ∉ openPaths := by
    cases r with
    | addMember | triggerSnapshot | transferLeadership =>
      exact hopen path (by rw [h.1]; decide +kernel)
    | removeMember =>
      intro hmem
      have hlead' := hlead path (List.mem_append_left _ hmem)
      rw [h.1] at hlead'
      cases hlead'
    | configGet | configPatch => cases hmethod
  simp only [openPaths, List.mem_cons, List.not_mem_nil, or_false, not_or] at hpath
  obtain ⟨hmetrics, hhealth, hlive, hready, hstatus⟩ := hpath
  rw [route, if_neg (fun hc => hmetrics hc.1), if_neg (not_or.mpr ⟨hhealth, hlive⟩), if_neg hready,
    if_neg hstatus]
  cases r with
  | addMember => exact if_pos h
  | removeMember =>
    have hne : path ≠ ascii "/v1/members" := ne_of_startsWith _ h.1 (by decide +kernel)
    rw [if_neg (fun hc => hne hc.1)]
    exact if_pos h
  | triggerSnapshot =>
    have hnl : ¬ startsWith path (ascii "/v1/members/") = true := by rw [h.1]; decide +kernel
    rw [if_neg (fun hc => hdistinct.1 (h.1.symm.trans hc.1)), if_neg (fun hc => hnl hc.1)]
    exact if_pos h
  | transferLeadership =>
    have hnl : ¬ startsWith path (ascii "/v1/members/") = true := by rw [h.1]; decide +kernel
    rw [if_neg (fun hc => hdistinct.2.1 (h.1.symm.trans hc.1)), if_neg (fun hc => hnl hc.1),
      if_neg (fun hc => hdistinct.2.2 (h.1.symm.trans hc.1))]
    exact if_pos h
  | configGet | configPatch => cases hmethod

variable {body : Bytes}

/-- An admin branch calls a handler exactly when it can read the arguments, and then an admin one. -/
theorem serveAdmin_calls :
    (∃ c ∈ (serveAdmin js srv path body r).calls, c.isAdmin = true) ↔ ArgsReadable js path body r := by
  cases r with
  | addMember =>
    simp only [serveAdmin, serveAddMember, ArgsReadable]
    cases addMemberArgs js body <;> simp [badRequest, called, HandlerCall.isAdmin, Except.isOk,
      Except.toBool]
  | removeMember =>
    simp only [serveAdmin, serveRemoveMember, ArgsReadable]
    cases removeNodeId path <;> simp [called, HandlerCall.isAdmin]
  | triggerSnapshot =>
    simp [serveAdmin, serveTriggerSnapshot, ArgsReadable, called, HandlerCall.isAdmin]
  | transferLeadership =>
    simp only [serveAdmin, serveTransferLeadership, ArgsReadable]
    cases transferArgs js body <;> simp [badRequest, called, HandlerCall.isAdmin, Except.isOk,
      Except.toBool]
  | configGet | configPatch => simp [serveAdmin, ArgsReadable, called, HandlerCall.isAdmin]

theorem route_admin_of_call {branch : Route}
    (hc : c ∈ (serve js srv path body branch).calls) (hadmin : c.isAdmin = true) :
    ∃ r, branch = .admin r := by
  have hstatus : ∀ {calls : List HandlerCall}, calls = [.statusProvider] ∨ calls = [] →
      c ∉ calls := by
    rintro calls (rfl | rfl) hmem
    · rw [List.mem_singleton.mp hmem] at hadmin
      cases hadmin
    · cases hmem
  cases branch with
  | admin r => exact ⟨r, rfl⟩
  | ready =>
    refine absurd hc (hstatus ?_)
    simp only [serve]
    cases srv.statusProvider <;> simp
  | status =>
    refine absurd hc (hstatus ?_)
    simp only [serve]
    cases srv.statusProvider <;> simp [called]
  | metrics | alive | events | notFound => cases hc

/-! ## §6 — The main result. -/

theorem reaches_of_call (hc : c ∈ (buildResponse js srv request).calls)
    (hadmin : c.isAdmin = true) :
    authorized srv request = true ∧ ∃ r, Reaches js srv request r := by
  unfold buildResponse at hc
  split at hc
  case isFalse => cases hc
  case isTrue hauth =>
    obtain ⟨r, hr⟩ := route_admin_of_call hc hadmin
    rw [hr] at hc
    exact ⟨hauth, r, selected_of_route hr, serveAdmin_calls.mp ⟨c, hc, hadmin⟩⟩

theorem call_of_bypassesAuth (h : BypassesAuth js srv request) :
    ∃ c ∈ (buildResponse js srv request).calls, c.isAdmin = true := by
  obtain ⟨r, ⟨hsel, hargs⟩, m, hm, hne⟩ := h
  have hnot : ¬ isAdminEndpoint (pathWithoutQuery (extractPath request)) (extractMethod request)
      = true := fun hadmin => hne ((isAdminEndpoint_of_selected hsel).mp hadmin m hm)
  have hauth : authorized srv request = true := by simp [authorized, hnot]
  have hroute := route_of_selected (extractMethod request) hsel (Option.isSome_of_mem hm)
  rw [buildResponse, if_pos hauth, hroute]
  exact serveAdmin_calls.mpr hargs

/-- **The admin handlers are guarded by the token, except on the bypassing requests.** On a server
with an admin token, `BuildResponse` meets "an admin handler runs only for a request that bears the
token" on exactly the requests that bear the token or do not bypass the authentication test. -/
theorem adminHandlers_need_token_iff (js : JsonText) (srv : MetricsHttpServer) (request : Bytes)
    (htoken : srv.adminToken ≠ []) :
    (∀ c ∈ (buildResponse js srv request).calls, c.isAdmin = true →
        CarriesToken request srv.adminToken) ↔
      (¬ BypassesAuth js srv request ∨ CarriesToken request srv.adminToken) := by
  constructor
  · intro hguarded
    by_cases hbypass : BypassesAuth js srv request
    · obtain ⟨c, hc, hadmin⟩ := call_of_bypassesAuth hbypass
      exact Or.inr (hguarded c hc hadmin)
    · exact Or.inl hbypass
  · rintro (hno | hcarries) c hc hadmin
    · obtain ⟨hauth, r, hreach⟩ := reaches_of_call hc hadmin
      -- not a bypass: the first word is the method the test asks for, so the token was compared
      have hendpoint : isAdminEndpoint (pathWithoutQuery (extractPath request))
          (extractMethod request) = true := by
        rw [isAdminEndpoint_of_selected hreach.1]
        intro m hm
        by_contra hne
        exact hno ⟨r, hreach, m, hm, hne⟩
      have hempty : srv.adminToken.isEmpty = false := by
        simpa [List.isEmpty_iff] using htoken
      have hequal : timingSafeEqual (extractAuthToken request) srv.adminToken = true := by
        simpa [authorized, hempty, hendpoint] using hauth
      exact carriesToken_of_extract htoken (timingSafeEqual_iff.mp hequal)
    · exact hcarries

/-! ## §7 — A server that is bypassed. -/

/-- What the JSON library does with an empty text. -/
def emptyTextJson : JsonText where
  parse _ := .error (ascii ("[json.exception.parse_error.101] parse error at line 1, column 1: " ++
    "attempting to parse an empty input; check that your input string or input stream contains " ++
    "the expected JSON"))
  dump _ := .ok []
  truncate _ := 0

/-- A server with an admin token and a remove-member handler. -/
def guardedServer : MetricsHttpServer where
  adminToken := ascii "secret"
  registry := none
  statusProvider := none
  addMemberHandler := none
  removeMemberHandler := some fun _ _ => .ok (ascii "\x7b\"status\":\"accepted\"\x7d\n")
  triggerSnapshotHandler := none
  transferLeadershipHandler := none
  configProvider := none
  configUpdater := none

/-- A removal whose first word only begins with `DELETE`, without any header. -/
def bypassRequest : Bytes := ascii "DELETEX /v1/members/3 HTTP/1.1\r\n\r\n"

/-- The remove-member handler runs for node 3 although the request bears no token at all. -/
theorem removeMember_without_token :
    guardedServer.adminToken ≠ [] ∧
      HandlerCall.removeMember 3 0 ∈
        (buildResponse emptyTextJson guardedServer bypassRequest).calls ∧
      (HandlerCall.removeMember 3 0).isAdmin = true ∧
      ¬ CarriesToken bypassRequest guardedServer.adminToken := by
  refine ⟨by decide +kernel, by decide +kernel, rfl, ?_⟩
  rintro ⟨before, after, hrequest⟩
  have hinfix : authPrefix <:+: bypassRequest :=
    ⟨before, guardedServer.adminToken ++ crlf ++ after, by simp [hrequest]⟩
  exact absurd hinfix (by decide +kernel)

/-- The same removal with the exact method word and the token. -/
def guardedRequest : Bytes :=
  ascii "DELETE /v1/members/3 HTTP/1.1\r\nAuthorization: Bearer secret\r\n\r\n"

theorem adminHandlers_need_token_guarded :
    guardedServer.adminToken ≠ [] ∧
      HandlerCall.removeMember 3 0 ∈
        (buildResponse emptyTextJson guardedServer guardedRequest).calls ∧
      ∀ c ∈ (buildResponse emptyTextJson guardedServer guardedRequest).calls, c.isAdmin = true →
        CarriesToken guardedRequest guardedServer.adminToken := by
  have hcarries : CarriesToken guardedRequest guardedServer.adminToken :=
    ⟨ascii "DELETE /v1/members/3 HTTP/1.1\r\n", crlf, by decide +kernel⟩
  refine ⟨by decide +kernel, by decide +kernel, ?_⟩
  exact (adminHandlers_need_token_iff emptyTextJson guardedServer guardedRequest
    (by decide +kernel)).mpr (.inr hcarries)

end RollingRaft
