/-
# RollingRaft.BatchSize — how many entries a leader sends at once (`raft_node.cpp`,
`log_replicator.cpp`).

`Validate` only asks that `max_entries_per_append` is not 0. The end of a batch is the 32-bit sum of
the next index and that size; when the sum wraps, the end lies before the beginning, and what goes
out instead of the entries is a heartbeat, again and again.
-/
import RollingRaft.RetryBackoff
import RollingRaft.TlsIdentity

namespace RollingRaft

open Lib

/-! ## §1 — Node configurations. -/

/-- `RaftNodeConfig`, as far as `Validate` and `MakeRuntimeConfigValues` read it. Of
`client_authorizations` the identities are read. -/
structure RaftNodeConfig where
  nodeId : Int
  listenAddr : Bytes
  peers : List Bytes := []
  peerNodeIds : List Int := []
  dataDir : Bytes
  electionTimeoutMs : UInt32 := 300
  heartbeatIntervalMs : UInt32 := 50
  maxEntriesPerAppend : UInt32 := 100
  snapshotThresholdEntries : UInt32 := 10000
  snapshotThresholdBytes : UInt32 := 10 * 1024 * 1024
  snapshotCheckIntervalMs : UInt32 := 5000
  rpcTimeoutMs : UInt32 := 500
  maxRetryAttempts : UInt32 := 5
  baseRetryDelayMs : UInt32 := 10
  maxRetryDelayMs : UInt32 := 500
  logRetentionEntries : UInt32 := 0
  proposeTimeoutMs : UInt32 := 5000
  maxSnapshotSizeBytes : UInt32 := 100 * 1024 * 1024
  shutdownTimeoutMs : UInt32 := 30000
  leaderLeaseEnabled : Bool := true
  metricsEnabled : Bool := false
  metricsAddr : Bytes := []
  tlsEnabled : Bool := false
  tlsCertFile : Bytes := []
  tlsKeyFile : Bytes := []
  tlsCaFile : Bytes := []
  tlsMutualAuth : Bool := false
  clientAuthEnabled : Bool := false
  clientCaFile : Bytes := []
  clientAuthorizations : List Bytes := []
  autoRemoveDeadNodes : Bool := false
  deadNodeTimeoutMs : UInt32 := 600
  compressionType : UInt32 := 1

/-- What `std::stoi` leaves unread. -/
def stoiRest (s : Bytes) : Bytes :=
  match s.dropWhile isSpace with
  | 45 :: rest | 43 :: rest | rest => rest.dropWhile isDigit

/-- `ValidateAddr`: a host, the last colon, and a port. -/
def validateAddr (addr fieldName : Bytes) : Status :=
  if addr.isEmpty then .error (fieldName ++ ascii " cannot be empty")
  else
    match (addr.reverse.findIdx? (· = 58)).map (addr.length - 1 - ·) with
    | none | some 0 => .error (fieldName ++ ascii " must be in host:port format: " ++ addr)
    | some colonPos =>
      let portStr := addr.drop (colonPos + 1)
      if portStr.isEmpty then .error (fieldName ++ ascii " must be in host:port format: " ++ addr)
      else
        match stoi portStr with
        | none => .error (fieldName ++ ascii " has invalid port: " ++ portStr)
        | some port =>
          if stoiRest portStr ≠ [] || port ≤ 0 || 65535 < port then
            .error (fieldName ++ ascii " has invalid port: " ++ portStr)
          else .ok

/-- The first status that is not `OK`. -/
def firstStatus (statuses : List Status) : Status := (statuses.find? (· ≠ .ok)).getD .ok

theorem firstStatus_eq_ok {statuses : List Status} (h : firstStatus statuses = .ok) :
    ∀ s ∈ statuses, s = .ok := by
  unfold firstStatus at h
  cases hfound : statuses.find? (· ≠ .ok) with
  | none => simpa using hfound
  | some s =>
    have hne := List.find?_some hfound
    rw [hfound] at h
    exact absurd h (of_decide_eq_true hne)

namespace RaftNodeConfig

/-- `ValidateClientAuthConfig`. -/
def validateClientAuth (c : RaftNodeConfig) : Status :=
  if !c.clientAuthEnabled then .ok
  else firstError
    [ (!c.tlsEnabled || !c.tlsMutualAuth || c.clientCaFile.isEmpty ||
          c.clientAuthorizations.isEmpty,
        ascii "client authentication requires mTLS, client CA, and rules"),
      (!c.clientAuthorizations.all isValidClientIdentity || !decide c.clientAuthorizations.Nodup,
        ascii "client authorization identities must be unique") ]

/-- `RaftNodeConfig::Validate`; the code of its errors is `CONFIG_INVALID`. -/
def validate (c : RaftNodeConfig) : Status := firstStatus
  [ firstError [(c.nodeId < 0, ascii "node_id must be non-negative")],
    validateAddr c.listenAddr (ascii "listen_addr"),
    firstError
      [ (c.dataDir.isEmpty, ascii "data_dir cannot be empty"),
        (c.electionTimeoutMs = 0, ascii "election_timeout_ms must be > 0"),
        (c.heartbeatIntervalMs = 0, ascii "heartbeat_interval_ms must be > 0"),
        (c.electionTimeoutMs ≤ c.heartbeatIntervalMs,
          ascii "election_timeout_ms (" ++ numberText c.electionTimeoutMs.toNat ++
            ascii ") must be > heartbeat_interval_ms (" ++
            numberText c.heartbeatIntervalMs.toNat ++ ascii ")"),
        (!c.peerNodeIds.isEmpty && c.peerNodeIds.length ≠ c.peers.length,
          ascii "peer_node_ids.size() (" ++ numberText c.peerNodeIds.length ++
            ascii ") must match peers.size() (" ++ numberText c.peers.length ++ ascii ")") ],
    if c.metricsEnabled && !c.metricsAddr.isEmpty then
      validateAddr c.metricsAddr (ascii "metrics_addr") else .ok,
    firstError
      [ (c.tlsEnabled && c.tlsCertFile.isEmpty,
          ascii "tls_cert_file cannot be empty when tls_enabled=true"),
        (c.tlsEnabled && c.tlsKeyFile.isEmpty,
          ascii "tls_key_file cannot be empty when tls_enabled=true"),
        (c.tlsEnabled && c.tlsMutualAuth && c.tlsCaFile.isEmpty,
          ascii "tls_ca_file cannot be empty when tls_mutual_auth=true"),
        (!c.tlsEnabled && c.tlsMutualAuth, ascii "tls_mutual_auth requires tls_enabled=true") ],
    c.validateClientAuth,
    firstError
      [ (c.rpcTimeoutMs = 0, ascii "rpc_timeout_ms must be > 0"),
        (c.maxEntriesPerAppend = 0, ascii "max_entries_per_append must be > 0"),
        (0 < c.shutdownTimeoutMs && c.shutdownTimeoutMs < 100,
          ascii "shutdown_timeout_ms must be 0 or >= 100"),
        (c.autoRemoveDeadNodes && c.deadNodeTimeoutMs = 0,
          ascii "dead_node_timeout_ms must be > 0 when auto_remove_dead_nodes is enabled"),
        (1 < c.compressionType, ascii "compression_type must be 0 (none) or 1 (snappy), got " ++
          numberText c.compressionType.toNat) ] ]

/-- `MakeRuntimeConfigValues`; nothing checks these values until they are changed. -/
def makeRuntimeConfigValues (c : RaftNodeConfig) : RuntimeConfigValues where
  electionTimeoutMs := c.electionTimeoutMs.toNat
  heartbeatIntervalMs := c.heartbeatIntervalMs.toNat
  maxEntriesPerAppend := c.maxEntriesPerAppend.toNat
  rpcTimeoutMs := c.rpcTimeoutMs.toNat
  snapshotThresholdEntries := c.snapshotThresholdEntries.toNat
  snapshotThresholdBytes := c.snapshotThresholdBytes.toNat
  snapshotCheckIntervalMs := c.snapshotCheckIntervalMs.toNat
  maxRetryAttempts := c.maxRetryAttempts.toNat
  baseRetryDelayMs := c.baseRetryDelayMs.toNat
  maxRetryDelayMs := c.maxRetryDelayMs.toNat
  logRetentionEntries := c.logRetentionEntries.toNat
  proposeTimeoutMs := c.proposeTimeoutMs.toNat
  maxSnapshotSizeBytes := c.maxSnapshotSizeBytes.toNat
  leaderLeaseEnabled := c.leaderLeaseEnabled

theorem batch_pos {c : RaftNodeConfig} (h : c.validate = .ok) :
    0 < c.maxEntriesPerAppend.toNat := by
  have hlast := firstStatus_eq_ok h _ (List.mem_of_getLast? rfl)
  have hzero := firstError_eq_ok hlast _ (List.mem_cons_of_mem _ List.mem_cons_self)
  have hne : c.maxEntriesPerAppend ≠ 0 := of_decide_eq_false hzero
  exact Nat.pos_of_ne_zero fun h0 => hne (UInt32.toNat_inj.mp h0)

end RaftNodeConfig

/-! ## §2 — Batches. -/

theorem RaftLog.getEntries_ne_nil {l : RaftLog} {first last : Index}
    (hfirst : l.startIndex ≤ first) :
    l.getEntries first last ≠ [] ↔ first < last ∧ first < add32 l.startIndex l.entries.length := by
  have hwrap : add32 l.startIndex l.entries.length ≤ l.startIndex + l.entries.length :=
    Nat.mod_le _ _
  unfold RaftLog.getEntries
  dsimp only
  rw [max_eq_left hfirst]
  split
  · rename_i hnone
    refine iff_of_false (fun h => h rfl) fun ⟨hlt, hin⟩ => ?_
    rcases Bool.or_eq_true_iff.mp hnone with hle | hempty
    · exact absurd hlt (not_lt.mpr (of_decide_eq_true hle))
    · rw [List.isEmpty_iff.mp hempty] at hwrap hin
      exact absurd (hin.trans_le hwrap) (not_lt.mpr hfirst)
  split
  · rename_i hle
    exact iff_of_false (fun h => h rfl) fun ⟨hlt, hin⟩ => absurd (lt_min hlt hin) (not_lt.mpr hle)
  · rename_i hlt
    obtain ⟨hlast, hin⟩ := lt_min_iff.mp (not_le.mp hlt)
    refine iff_of_true (fun hnil => ?_) ⟨hlast, hin⟩
    have hlen := congrArg List.length hnil
    rw [List.length_take, List.length_drop, List.length_nil] at hlen
    unfold Index at *
    omega

/-- **A batch holds entries**, for a peer whose next index is in the log, exactly when neither the
end of the batch nor that of the log wraps and the next index is in the window. -/
theorem batch_not_empty (c : RaftNodeConfig) (hvalid : c.validate = .ok) (g : RaftGroup)
    (hconfig : g.rt = c.makeRuntimeConfigValues.toRuntimeConfig) (next : Index)
    (hfirst : g.rep.log.startIndex ≤ next) (hlast : next ≤ g.rep.log.getLastLogInfo.1)
    (hindex : g.rep.log.getLastLogInfo.1 < 2 ^ 32) :
    (g.appendRequest next).entries ≠ [] ↔
      next + c.maxEntriesPerAppend.toNat < 2 ^ 32 ∧ g.rep.log.getLastLogInfo.1 + 1 < 2 ^ 32 ∧
        next < add32 g.rep.log.startIndex g.rep.log.entries.length := by
  have hpos := RaftNodeConfig.batch_pos hvalid
  have hmax : c.maxEntriesPerAppend.toNat < 2 ^ 32 := c.maxEntriesPerAppend.toNat_lt
  have hsize : g.rt.maxEntriesPerAppend = c.maxEntriesPerAppend.toNat := by rw [hconfig]; rfl
  unfold RaftGroup.appendRequest
  dsimp only
  rw [if_pos hlast, RaftLog.getEntries_ne_nil hfirst, lt_min_iff, hsize, and_assoc]
  generalize c.maxEntriesPerAppend.toNat = size at hpos hmax
  generalize g.rep.log.getLastLogInfo.1 = last at hlast hindex
  -- a sum that wraps is less than its first part
  have hend : ∀ a b : Nat, a < 2 ^ 32 → 0 < b → b < 2 ^ 32 → (a < add32 a b ↔ a + b < 2 ^ 32) := by
    intro a b ha hb hb'
    unfold add32
    omega
  have hbehind : next < add32 last 1 ↔ last + 1 < 2 ^ 32 := by
    unfold add32
    unfold Index at *
    omega
  rw [hend next size (lt_of_le_of_lt hlast hindex) hpos hmax, hbehind]

def leaderOfOne (c : RaftNodeConfig) : RaftGroup :=
  let g := newLeader c.makeRuntimeConfigValues
  { g with rep := { g.rep with log := { entries := [⟨1, 1, [7]⟩] } } }

/-- A node of its own address and directory, with this batch size. -/
def nodeOfBatch (size : UInt32) : RaftNodeConfig :=
  { nodeId := 1, listenAddr := ascii "0.0.0.0:8001", dataDir := ascii "/data"
    maxEntriesPerAppend := size }

theorem batch_not_empty_default :
    (nodeOfBatch 100).validate = .ok ∧
      ((leaderOfOne (nodeOfBatch 100)).appendRequest 1).entries ≠ [] :=
  ⟨by decide +kernel, (batch_not_empty (nodeOfBatch 100) (by decide +kernel) _ rfl 1 le_rfl le_rfl
    (by decide)).mpr ⟨by decide, by decide, by decide⟩⟩

/-- The largest batch size is accepted, and the entry is never sent. -/
theorem largest_batch_is_heartbeat :
    ∃ c : RaftNodeConfig, c.validate = .ok ∧ (leaderOfOne c).rep.log.startIndex ≤ 1 ∧
      1 ≤ (leaderOfOne c).rep.log.getLastLogInfo.1 ∧
      ((leaderOfOne c).appendRequest 1).entries = [] := by
  refine ⟨nodeOfBatch (2 ^ 32 - 1), ?_, ?_, ?_, ?_⟩ <;> decide +kernel

end RollingRaft
