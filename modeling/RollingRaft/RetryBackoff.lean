/-
# RollingRaft.RetryBackoff — how long a leader waits before it sends again (`runtime_config.cpp`,
`log_replicator.cpp`).

The wait of the `k`-th retry is `base_retry_delay_ms * (1u << k)`, capped by `max_retry_delay_ms`.
Shift and product are 32 bits wide, and `Validate` admits 100 attempts. A wrapped product is a
multiple of `2 ^ k`; as long as it is not 0 it still exceeds every admitted cap, so that the cap
hides the wrap. It is 0 when the bits of the base have all been shifted out: the retries then follow
each other without a pause. A shift by 32 or more is not defined at all.
-/
import RollingRaft.Process

namespace RollingRaft

open Lib

def firstError (checks : List (Bool × Bytes)) : Status :=
  match checks.find? (·.1) with
  | none => .ok
  | some (_, message) => .error message

theorem firstError_eq_ok {checks : List (Bool × Bytes)} (h : firstError checks = .ok) :
    ∀ c ∈ checks, c.1 = false := by
  unfold firstError at h
  split at h
  · rename_i hnone
    simpa using hnone
  · cases h

/-- `RuntimeConfigValues`, the rest of what `Validate` reads. -/
structure RuntimeConfigValues extends RuntimeConfig where
  rpcTimeoutMs : Nat := 500
  snapshotThresholdEntries : Nat := 10000
  snapshotThresholdBytes : Nat := 10 * 1024 * 1024
  baseRetryDelayMs : Nat := 10
  maxRetryDelayMs : Nat := 500
  logRetentionEntries : Nat := 0
  maxSnapshotSizeBytes : Nat := 100 * 1024 * 1024
  proposeTimeoutMs : Nat := 5000

/-- Not in `[lo, hi]`. -/
def outside (lo hi x : Nat) : Bool := x < lo || hi < x

namespace RuntimeConfigValues

/-- `RuntimeConfig::Validate`; the code of its errors is `INVALID_CONFIG`. -/
def validate (v : RuntimeConfigValues) : Status := firstError
  [ (outside 50 5000 v.electionTimeoutMs, ascii "election_timeout_ms must be in [50, 5000]"),
    (outside 10 1000 v.heartbeatIntervalMs, ascii "heartbeat_interval_ms must be in [10, 1000]"),
    (outside 1 10000 v.maxEntriesPerAppend, ascii "max_entries_per_append must be in [1, 10000]"),
    (outside 100 10000 v.rpcTimeoutMs, ascii "rpc_timeout_ms must be in [100, 10000]"),
    (outside 100 1000000 v.snapshotThresholdEntries,
      ascii "snapshot_threshold_entries must be in [100, 1000000]"),
    (outside (1 * 1024 * 1024) (1 * 1024 * 1024 * 1024) v.snapshotThresholdBytes,
      ascii "snapshot_threshold_bytes must be in [1MB, 1GB]"),
    (outside 1000 60000 v.snapshotCheckIntervalMs,
      ascii "snapshot_check_interval_ms must be in [1000, 60000]"),
    (outside 1 100 v.maxRetryAttempts, ascii "max_retry_attempts must be in [1, 100]"),
    (outside 1 1000 v.baseRetryDelayMs, ascii "base_retry_delay_ms must be in [1, 1000]"),
    (outside 10 10000 v.maxRetryDelayMs, ascii "max_retry_delay_ms must be in [10, 10000]"),
    (decide (100000 < v.logRetentionEntries), ascii "log_retention_entries must be <= 100000"),
    (0 < v.maxSnapshotSizeBytes && v.maxSnapshotSizeBytes < 1 * 1024 * 1024,
      ascii "max_snapshot_size_bytes must be 0 (unlimited) or >= 1MB"),
    (outside 100 60000 v.proposeTimeoutMs, ascii "propose_timeout_ms must be in [100, 60000]"),
    (outside 1 10000 v.maxPipelineWindow, ascii "max_pipeline_window must be in [1, 10000]"),
    (decide (v.electionTimeoutMs ≤ v.heartbeatIntervalMs),
      ascii "heartbeat_interval_ms must be < election_timeout_ms"),
    (decide (v.maxRetryDelayMs < v.baseRetryDelayMs),
      ascii "base_retry_delay_ms must be <= max_retry_delay_ms"),
    (decide (v.rpcTimeoutMs < v.heartbeatIntervalMs),
      ascii "rpc_timeout_ms must be >= heartbeat_interval_ms") ]

theorem retry_bounds {v : RuntimeConfigValues} (h : v.validate = .ok) :
    1 ≤ v.maxRetryAttempts ∧ (1 ≤ v.baseRetryDelayMs ∧ v.baseRetryDelayMs ≤ 1000) ∧
      (10 ≤ v.maxRetryDelayMs ∧ v.maxRetryDelayMs ≤ 10000) := by
  have hchecks := firstError_eq_ok h
  simp only [List.mem_cons, forall_eq_or_imp, outside, Bool.or_eq_false_iff, decide_eq_false_iff_not,
    not_lt] at hchecks
  obtain ⟨-, -, -, -, -, -, -, ⟨hattempts, -⟩, hbase, hmax, -⟩ := hchecks
  exact ⟨hattempts, hbase, hmax⟩

end RuntimeConfigValues

/-- What a failed AppendEntries is followed by. -/
inductive Retry where
  | nothing
  | after (delayMs : Nat)
  /-- `1u` is shifted by its width or more. -/
  | undefined
  deriving DecidableEq

namespace RaftGroup

/-- `ScheduleAppendEntriesRetryLocked`: the timer it sets. -/
def scheduledRetry (g : RaftGroup) (v : RuntimeConfigValues) (peer : NodeId) : Retry :=
  if !g.running || g.el.role ≠ .leader then .nothing
  else
    let attempts := (g.rep.retryAttempts.lookup peer).getD 0 + 1
    if v.maxRetryAttempts < attempts then .nothing
    else if 32 ≤ attempts then .undefined
    else .after (min (v.baseRetryDelayMs * 2 ^ attempts % 2 ^ 32) v.maxRetryDelayMs)

/-- The state after `k` consecutive failures. -/
def failures (g : RaftGroup) (peer : NodeId) (k : Nat) : RaftGroup :=
  (scheduleRetryLocked · peer)^[k] g

/-- A leader whose last message to `peer` succeeded, with these values in force. -/
structure Fresh (g : RaftGroup) (v : RuntimeConfigValues) (peer : NodeId) : Prop where
  running : g.running = true
  role : g.el.role = .leader
  config : g.rt = v.toRuntimeConfig
  none : g.rep.retryAttempts.lookup peer = none

variable {g : RaftGroup} {v : RuntimeConfigValues} {peer : NodeId}

theorem Fresh.failures (h : g.Fresh v peer) {k : Nat} (hk : k ≤ v.maxRetryAttempts) :
    (g.failures peer k).running = true ∧ (g.failures peer k).el.role = .leader ∧
      (g.failures peer k).rt = v.toRuntimeConfig ∧
      ((g.failures peer k).rep.retryAttempts.lookup peer).getD 0 = k := by
  induction k with
  | zero => exact ⟨h.running, h.role, h.config, by rw [RaftGroup.failures]; simp [h.none]⟩
  | succ k ih =>
    obtain ⟨hrunning, hrole, hconfig, hattempts⟩ := ih (Nat.le_of_succ_le hk)
    have hstep : g.failures peer (k + 1) = (g.failures peer k).scheduleRetryLocked peer :=
      Function.iterate_succ_apply' _ _ _
    rw [hstep]
    unfold scheduleRetryLocked
    rw [hattempts, hconfig]
    simp [hrunning, hrole, Nat.not_lt.mpr hk]

theorem Fresh.scheduled (h : g.Fresh v peer) {k : Nat} (hpos : 1 ≤ k)
    (hk : k ≤ v.maxRetryAttempts) : (g.failures peer (k - 1)).scheduledRetry v peer =
      if 32 ≤ k then .undefined
      else .after (min (v.baseRetryDelayMs * 2 ^ k % 2 ^ 32) v.maxRetryDelayMs) := by
  obtain ⟨hrunning, hrole, -, hattempts⟩ := h.failures ((Nat.sub_le k 1).trans hk)
  unfold scheduledRetry
  rw [hattempts, Nat.sub_add_cancel hpos]
  simp [hrunning, hrole, Nat.not_lt.mpr hk]

end RaftGroup

/-- A product that wraps to something else than 0 stays above the caps. -/
theorem min_wrapped {base k cap : Nat} (hbase : base ≤ 1000) (hcap : cap ≤ 10000) (hk : k < 32)
    (h : ¬ 2 ^ 32 ∣ base * 2 ^ k) : min (base * 2 ^ k % 2 ^ 32) cap = min (base * 2 ^ k) cap := by
  rcases Nat.lt_or_ge (base * 2 ^ k) (2 ^ 32) with hlt | hge
  · rw [Nat.mod_eq_of_lt hlt]
  have hlarge : 2 ^ 32 ≤ 1000 * 2 ^ k := hge.trans (Nat.mul_le_mul_right _ hbase)
  have hdvd : 2 ^ k ∣ base * 2 ^ k % 2 ^ 32 :=
    (Nat.dvd_mod_iff (Nat.pow_dvd_pow 2 hk.le)).mpr (Nat.dvd_mul_left _ _)
  have hne : base * 2 ^ k % 2 ^ 32 ≠ 0 := fun hzero => h (Nat.dvd_of_mod_eq_zero hzero)
  have hle := Nat.le_of_dvd (Nat.pos_of_ne_zero hne) hdvd
  rw [min_eq_right (by omega), min_eq_right (by omega)]

/-- **The waits double up to the cap** for exactly the admitted configurations whose last retry
does not shift all bits of the base out of 32. -/
theorem retry_delay_doubles (g : RaftGroup) (v : RuntimeConfigValues) (peer : NodeId)
    (hvalid : v.validate = .ok) (h : g.Fresh v peer) :
    (∀ k, 1 ≤ k → k ≤ v.maxRetryAttempts → (g.failures peer (k - 1)).scheduledRetry v peer =
      .after (min (v.baseRetryDelayMs * 2 ^ k) v.maxRetryDelayMs)) ↔
      ¬ 2 ^ 32 ∣ v.baseRetryDelayMs * 2 ^ v.maxRetryAttempts := by
  obtain ⟨hattempts, ⟨hpos, hbase⟩, hmin, hmax⟩ := RuntimeConfigValues.retry_bounds hvalid
  constructor
  · intro hdelays hdvd
    have hlast := hdelays _ hattempts le_rfl
    rw [h.scheduled hattempts le_rfl, Nat.mod_eq_zero_of_dvd hdvd] at hlast
    split at hlast
    · cases hlast
    · have hzero := Retry.after.inj hlast
      have hwait := Nat.mul_pos hpos (Nat.two_pow_pos v.maxRetryAttempts)
      omega
  · intro hnot k hk hle
    have hdvd : v.baseRetryDelayMs * 2 ^ k ∣ v.baseRetryDelayMs * 2 ^ v.maxRetryAttempts :=
      Nat.mul_dvd_mul_left _ (Nat.pow_dvd_pow 2 hle)
    have hnot : ¬ 2 ^ 32 ∣ v.baseRetryDelayMs * 2 ^ k := fun hk => hnot (Nat.dvd_trans hk hdvd)
    have hlt : k < 32 := by
      by_contra hge
      exact hnot (Nat.dvd_mul_left_of_dvd (Nat.pow_dvd_pow 2 (not_lt.mp hge)) _)
    rw [h.scheduled hk hle, if_neg (not_le.mpr hlt), min_wrapped hbase hmax hlt hnot]

def newLeader (v : RuntimeConfigValues) : RaftGroup :=
  let g := (Process.initial votingOne).group
  { g with rt := v.toRuntimeConfig, el := { g.el with role := .leader } }

/-- With the default values the fifth retry waits 320 ms. -/
theorem retry_delay_doubles_default :
    ((newLeader {}).failures 2 4).scheduledRetry {} 2 = .after 320 :=
  (retry_delay_doubles (newLeader {}) {} 2 (by decide +kernel) ⟨rfl, rfl, rfl, rfl⟩).mpr
    (by decide) 5 (by decide) (by decide)

/-- Bases and caps of 512 ms are admitted. The first retries wait for 512 ms, the 23rd not at all. -/
theorem retry_without_pause :
    ∃ v : RuntimeConfigValues, v.validate = .ok ∧ (newLeader v).Fresh v 2 ∧
      ((newLeader v).failures 2 21).scheduledRetry v 2 = .after 512 ∧
      ((newLeader v).failures 2 22).scheduledRetry v 2 = .after 0 := by
  refine ⟨{ maxRetryAttempts := 30, baseRetryDelayMs := 512, maxRetryDelayMs := 512 },
    by decide +kernel, ⟨rfl, rfl, rfl, rfl⟩, ?_, ?_⟩ <;> decide +kernel

end RollingRaft
