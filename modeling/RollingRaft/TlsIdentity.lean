/-
# RollingRaft.TlsIdentity — the certificate of a peer and the connections it is accepted on.

`ExtractCertificatePeerIdentity` reads a RollingRaft identity from the URI names of a certificate and
`AuthenticateTlsPeer` decides on it, for both sides of a connection. The expected node and the allow
list are compared in the mode without client authorisation only.
-/
import RollingRaft.Callbacks
import RollingRaft.NodeLists

namespace RollingRaft

open Lib

/-- A name of the `subjectAltName` extension. -/
inductive GeneralName where
  | uri (value : Bytes)
  | other
  deriving DecidableEq

/-- The `subjectAltName` extension of a certificate, if it has one. -/
structure Certificate where
  subjectAltName : Option (List GeneralName)

/-- An identity that is not `ANONYMOUS`. -/
inductive RpcPeerIdentity where
  | node (nodeId : NodeId)
  | client (clientIdentity : Bytes)
  deriving DecidableEq

/-- The code and the message of a refusal. -/
structure TlsError where
  code : Bytes
  message : Bytes
  deriving DecidableEq

structure TlsConfig where
  mutualAuth : Bool
  clientAuthEnabled : Bool
  allowedCns : List Bytes

def kRaftNodeSanPrefix : Bytes := ascii "rollingraft-node:"

def kRaftClientSanPrefix : Bytes := ascii "rollingraft-client:"

def isAsciiAlphaNumeric (b : UInt8) : Bool :=
  (97 ≤ b && b ≤ 122) || (65 ≤ b && b ≤ 90) || isDigit b

def isValidClientIdentity (identity : Bytes) : Bool :=
  identity.length ≤ 128 && (identity.head?.map isAsciiAlphaNumeric).getD false &&
    identity.all fun b => isAsciiAlphaNumeric b || b = 46 || b = 95 || b = 45

/-- `std::from_chars` into an `int64_t` that has to read the whole text: neither blanks nor a plus. -/
def fromChars (text : Bytes) : Option Int :=
  let neg : Bool := text.head? = some 45
  let magnitude := if neg then text.tail else text
  if magnitude.all isDigit then
    (digits magnitude).bind fun n =>
      let v : Int := if neg then -n else n
      if -2 ^ 63 ≤ v ∧ v < 2 ^ 63 then some v else none
  else none

def identityMissing {α : Type} (message : String) : Except TlsError α :=
  .error ⟨ascii "TLS_IDENTITY_MISSING", ascii message⟩

def identityInvalid {α : Type} (message : String) (value : Bytes) : Except TlsError α :=
  .error ⟨ascii "TLS_IDENTITY_INVALID", ascii message ++ value⟩

/-- The loop of `ExtractCertificatePeerIdentity` over the names. -/
def extractNames (found : Option RpcPeerIdentity) :
    List GeneralName → Except TlsError (Option RpcPeerIdentity)
  | [] => .ok found
  | .other :: names => extractNames found names
  | .uri value :: names =>
    let isNode := startsWith value kRaftNodeSanPrefix
    if !isNode && !startsWith value kRaftClientSanPrefix then extractNames found names
    else if found.isSome then
      identityInvalid "Certificate contains multiple RollingRaft identities" []
    else if isNode then
      match fromChars (value.drop kRaftNodeSanPrefix.length) with
      | some id =>
        if 0 ≤ id ∧ id < 2 ^ 31 then extractNames (some (.node id)) names
        else identityInvalid "Invalid rollingraft-node URI SAN: " value
      | none => identityInvalid "Invalid rollingraft-node URI SAN: " value
    else if isValidClientIdentity (value.drop kRaftClientSanPrefix.length) then
      extractNames (some (.client (value.drop kRaftClientSanPrefix.length))) names
    else identityInvalid "Invalid rollingraft-client URI SAN: " value

def extractCertificatePeerIdentity (certificate : Certificate) : Except TlsError RpcPeerIdentity :=
  match certificate.subjectAltName with
  | none => identityMissing "Certificate has no subjectAltName extension"
  | some names =>
    match extractNames none names with
    | .error e => .error e
    | .ok none => identityMissing "Certificate has no RollingRaft URI SAN"
    | .ok (some identity) => .ok identity

/-- The text of a node in `allowed_cns`. -/
def nodeName (id : NodeId) : Bytes := kRaftNodeSanPrefix ++ numberText id

/-- `AuthenticateTlsPeer` of a connection whose `peer_id_` is given: the identity it stores, nothing
without mutual authentication. -/
def authenticateTlsPeer (cfg : TlsConfig) (peerId : NodeId) (certificate : Option Certificate) :
    Except TlsError (Option RpcPeerIdentity) :=
  if !cfg.mutualAuth then .ok none
  else match certificate with
  | none => identityMissing "Peer did not present a certificate"
  | some certificate =>
    match extractCertificatePeerIdentity certificate with
    | .error e => .error e
    | .ok identity =>
      if cfg.clientAuthEnabled then .ok (some identity)
      else match identity with
      | .client _ => identityMissing "Peer certificate has no rollingraft-node URI SAN"
      | .node id =>
        if 0 ≤ peerId ∧ id ≠ peerId then
          .error ⟨ascii "TLS_IDENTITY_MISMATCH", ascii "Peer certificate identity " ++ numberText id ++
            ascii " does not match expected node " ++ numberText peerId⟩
        else if cfg.allowedCns ≠ [] ∧ nodeName id ∉ cfg.allowedCns then
          .error ⟨ascii "TLS_IDENTITY_UNAUTHORIZED",
            ascii "Peer identity is not in the configured allowlist: " ++ nodeName id⟩
        else .ok (some (.node id))

/-- The handshake handler of `DoAccept` starts the connection; its `peer_id_` is -1. -/
def acceptsInbound (cfg : TlsConfig) (certificate : Option Certificate) : Bool :=
  (authenticateTlsPeer cfg (-1) certificate).isOk

/-- The handshake handler of a connection to node `p`: `OnConnect` runs without an error only after
`AuthenticateTlsPeer` accepted what the peer presented on that connection. -/
def Handshakes (cfg : TlsConfig) (p : NodeId) (presented : Nat → Option Certificate)
    (_ : Transport) : Transport.Event → Prop
  | .onConnect _ k true => (authenticateTlsPeer cfg p (presented k)).isOk = true
  | _ => True

/-- Every connected connection of the transport has met `good` with its socket. -/
def Transport.ConnectedWith (good : Nat → Prop) (s : Transport) : Prop :=
  ∀ peer ∈ s.peers, peer.state = .connected → ∃ k, peer.conn = some k ∧ good k

namespace Transport

variable {good : Nat → Prop} {s s' : Transport} {peer : PeerConnection}

theorem ConnectedWith.of_peers (h : s.ConnectedWith good) (heq : s'.peers = s.peers) :
    s'.ConnectedWith good := by
  intro peer hpeer
  rw [heq] at hpeer
  exact h peer hpeer

theorem ConnectedWith.of_set (h : s.ConnectedWith good) {p : Nat}
    (heq : s'.peers = s.peers.set p peer)
    (hpeer : peer.state = .connected → ∃ k, peer.conn = some k ∧ good k) :
    s'.ConnectedWith good := by
  intro peer' hmem
  rw [heq] at hmem
  obtain hold | rfl := List.mem_or_eq_of_mem_set hmem
  · exact h peer' hold
  · exact hpeer

theorem ConnectedWith.startConnecting (h : s.ConnectedWith good) (p : Nat) :
    (s.startConnecting p).ConnectedWith good := by
  unfold Transport.startConnecting
  split
  · exact h
  split
  · exact h.of_set rfl fun hc => nomatch hc
  · exact h

theorem ConnectedWith.buffer (h : s.ConnectedWith good) {p : Nat}
    (hpeer : s.peers[p]? = some peer) (r : RpcRequest) :
    (s.buffer p peer r).ConnectedWith good := by
  have hkept := h peer (List.mem_of_getElem? hpeer)
  unfold Transport.buffer
  dsimp only
  split <;> exact h.of_set rfl hkept

theorem ConnectedWith.enqueueSend (h : s.ConnectedWith good) (p : Nat) (r : RpcRequest) :
    (s.enqueueSend p r).ConnectedWith good := by
  unfold Transport.enqueueSend
  split
  · exact h
  rename_i peer hpeer
  split
  · exact h.of_peers (s.onConn_peers _ _)
  split
  · apply ConnectedWith.startConnecting
    exact h.of_set rfl fun hc => nomatch hc
  split
  · exact h.buffer hpeer r
  · exact (h.buffer hpeer r).startConnecting p

theorem ConnectedWith.runPosted (h : s.ConnectedWith good) (i : Nat) :
    (s.runPosted i).ConnectedWith good := by
  unfold Transport.runPosted
  split
  · exact h
  dsimp only
  split
  · split
    · exact h.of_peers rfl
    · intro peer hmem hc
      obtain hold | hnew := List.mem_append.mp hmem
      · exact h peer hold hc
      · rw [List.mem_singleton.mp hnew] at hc
        cases hc
  · intro peer hmem hc
    rw [List.mem_singleton.mp hmem] at hc
    cases hc

theorem ConnectedWith.onConnect (h : s.ConnectedWith good) (p k : Nat) {ok : Bool}
    (hgood : ok = true → good k) : (s.onConnect p k ok).ConnectedWith good := by
  unfold Transport.onConnect
  split
  · exact h
  split
  · exact h.of_peers (s.onConn_peers _ _)
  rename_i hconn
  split
  · rename_i hok
    split
    · -- the only way into `kConnected`
      exact h.of_set (onConn_peers _ _ _) fun _ => ⟨k, not_not.mp hconn, hgood hok⟩
    · exact h.of_peers (s.onConn_peers _ _)
  split
  · exact (h.of_peers (s.onConn_peers k _)).of_set rfl fun hc => nomatch hc
  · exact h

theorem ConnectedWith.closePeer (h : s.ConnectedWith good) (p : Nat) :
    (s.closePeer p).ConnectedWith good := by
  unfold Transport.closePeer
  split
  · exact h
  split
  · exact h
  · exact (h.of_peers (s.closeConn_peers _)).of_set rfl fun hc => nomatch hc

/-- A connection comes into `kConnected` by its own `OnConnect` without an error only. -/
theorem ConnectedWith.next (h : s.ConnectedWith good) (e : Event)
    (hgood : ∀ p k, e = .onConnect p k true → good k) : (s.next e).ConnectedWith good := by
  cases e with
  | sendRpc g type =>
    unfold Transport.next Transport.sendRpc
    dsimp only
    split <;> exact h.of_peers rfl
  | runPosted i => exact h.runPosted i
  | runRejected i =>
    unfold Transport.next Transport.runRejected
    dsimp only
    split <;> exact h.of_peers rfl
  | runEnqueueSend i =>
    unfold Transport.next Transport.runEnqueueSend
    dsimp only
    split
    · exact h
    · exact (h.of_peers (by rfl)).enqueueSend _ _
  | startConnecting p => exact h.startConnecting p
  | onConnect p k ok => exact h.onConnect p k fun hok => hgood p k (by rw [hok])
  | closePeer p => exact h.closePeer p
  | createGroup _ | stop => exact h.of_peers rfl
  | _ => exact h.of_peers (s.onConn_peers _ _)

end Transport

variable {cfg : TlsConfig} {p : NodeId}

/-- What `AuthenticateTlsPeer` lets through without client authorisation. -/
theorem authenticateTlsPeer_isOk (hmutual : cfg.mutualAuth = true)
    (hclient : cfg.clientAuthEnabled = false) {certificate : Option Certificate}
    (h : (authenticateTlsPeer cfg p certificate).isOk = true) :
    ∃ c id, certificate = some c ∧ extractCertificatePeerIdentity c = .ok (.node id) ∧
      (0 ≤ p → id = p) ∧ (cfg.allowedCns ≠ [] → nodeName id ∈ cfg.allowedCns) := by
  unfold authenticateTlsPeer at h
  simp only [hmutual, hclient, Bool.not_true, Bool.false_eq_true, if_false] at h
  cases certificate with
  | none => cases h
  | some c =>
    dsimp only at h
    split at h
    · cases h
    rename_i identity hid
    cases identity with
    | client _ => cases h
    | node id =>
      dsimp only at h
      split at h
      · cases h
      rename_i hnode
      split at h
      · cases h
      rename_i hallowed
      exact ⟨c, id, rfl, hid, fun hp => not_not.mp fun hne => hnode ⟨hp, hne⟩,
        fun hne => not_not.mp fun hno => hallowed ⟨hne, hno⟩⟩

/-- The identity of a certificate is node `p`, and `p` is allowed. -/
def NamesAllowed (cfg : TlsConfig) (p : NodeId) (certificate : Option Certificate) : Prop :=
  (∃ c, certificate = some c ∧ extractCertificatePeerIdentity c = .ok (.node p)) ∧
    (cfg.allowedCns ≠ [] → nodeName p ∈ cfg.allowedCns)

/-- In every run of the transport towards a node, a connected connection has the identity of that
node, and an inbound connection of a node outside a non-empty allow list is refused. -/
def PeersAuthenticated (cfg : TlsConfig) : Prop :=
  (∀ (p : NodeId) (presented : Nat → Option Certificate) (s : Transport), 0 ≤ p →
    Transport.system.ReachableWith (Handshakes cfg p presented) s →
    s.ConnectedWith fun k => NamesAllowed cfg p (presented k)) ∧
  ∀ (c : Certificate) (id : NodeId), cfg.allowedCns ≠ [] →
    extractCertificatePeerIdentity c = .ok (.node id) → nodeName id ∉ cfg.allowedCns →
    acceptsInbound cfg (some c) = false

theorem reaches_connected (presented : Nat → Option Certificate)
    (h : (authenticateTlsPeer cfg p (presented 0)).isOk = true) :
    ∃ s, Transport.system.ReachableWith (Handshakes cfg p presented) s ∧
      s.peers = [⟨.connected, some 0, []⟩] := by
  refine ⟨_, .step (e := .onConnect 0 0 true) (.step (e := .runEnqueueSend 0)
    (.step (e := .runPosted 0) (.step (e := .sendRpc 1 .requestVote) (.init rfl) trivial rfl)
      trivial rfl) trivial rfl) h rfl, rfl⟩

def certificateOf (id : NodeId) : Certificate := ⟨some [.uri (nodeName id)]⟩

theorem authenticates_any (hclient : cfg.clientAuthEnabled = true) (p : NodeId) :
    (authenticateTlsPeer cfg p (some (certificateOf 1))).isOk = true := by
  have hid : extractCertificatePeerIdentity (certificateOf 1) = .ok (.node 1) := by decide +kernel
  unfold authenticateTlsPeer
  rw [hclient]
  dsimp only
  rw [hid]
  split <;> rfl

theorem peersAuthenticated_iff (cfg : TlsConfig) (hmutual : cfg.mutualAuth = true) :
    PeersAuthenticated cfg ↔ cfg.clientAuthEnabled = false := by
  constructor
  · intro h
    rw [← Bool.not_eq_true]
    intro hclient
    -- a connection to node 0 on which node 1 answers
    obtain ⟨s, hs, hpeers⟩ :=
      reaches_connected (fun _ => some (certificateOf 1)) (authenticates_any hclient 0)
    have hall := h.1 0 _ s le_rfl hs ⟨.connected, some 0, []⟩ (by rw [hpeers]; simp) rfl
    obtain ⟨k, -, ⟨c, hc, hzero⟩, -⟩ := hall
    cases hc
    revert hzero
    decide +kernel
  · intro hclient
    constructor
    · intro p presented s hp hs
      refine hs.invariant (fun s0 h0 => ?_) fun s e s' hinv hc hn => ?_
      · rw [h0]
        intro peer hmem
        cases hmem
      · cases hn
        refine hinv.next e fun q k he => ?_
        subst he
        obtain ⟨c, id, hcert, hid, hnode, hallowed⟩ := authenticateTlsPeer_isOk hmutual hclient hc
        rw [hnode hp] at hid hallowed
        exact ⟨⟨c, hcert, hid⟩, hallowed⟩
    · intro c id hne hid hno
      rw [← Bool.not_eq_true]
      intro hok
      obtain ⟨c', id', hcert, hid', -, hallowed⟩ := authenticateTlsPeer_isOk hmutual hclient hok
      cases hcert
      rw [hid] at hid'
      cases hid'
      exact hno (hallowed hne)

theorem peersAuthenticated_plain :
    PeersAuthenticated ⟨true, false, [nodeName 1]⟩ :=
  (peersAuthenticated_iff ⟨true, false, [nodeName 1]⟩ rfl).mpr rfl

/-- With client authorisation, the connection to node 2 is connected with node 3 at its other end,
which is not in the allow list either, and node 3 is accepted when it connects itself. -/
theorem stranger_connected :
    (∃ s, Transport.system.ReachableWith
        (Handshakes ⟨true, true, [nodeName 2]⟩ 2 fun _ => some (certificateOf 3)) s ∧
      s.peers = [⟨.connected, some 0, []⟩]) ∧
    extractCertificatePeerIdentity (certificateOf 3) = .ok (.node 3) ∧
    nodeName 3 ∉ [nodeName 2] ∧
    acceptsInbound ⟨true, true, [nodeName 2]⟩ (some (certificateOf 3)) = true :=
  ⟨reaches_connected _ (by decide +kernel), by decide +kernel, by decide +kernel, by decide +kernel⟩

end RollingRaft
