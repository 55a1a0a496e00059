/-
# RollingRaft.CommitQuorum — what `TryCommitLocked` commits, against the quorum of `QuorumSatisfied`.

`TryCommitLocked` searches downwards for an index it may commit. It counts the leader and the
entries of `match_index_`: with `IsVoter` for the new list, by membership for the old one. In joint
mode `IsVoter` also holds of a node that is in the old list only, so such a node stands in for a
missing one of the new list. `QuorumSatisfied` counts each list on its own.

`Committable` is what an index needs by the second count. The search commits the largest such index
exactly when, where it stops, the two counts agree and nothing below a foreign term is committable.
-/
import Mathlib.Order.Lattice.Nat
import RollingRaft.CommitBound
import RollingRaft.NodeLists

namespace RollingRaft

open Lib

namespace RaftGroup

variable (g : RaftGroup)

/-! ## §1 — The nodes that hold an index. -/

/-- The nodes with `match_index_ >= index`. -/
def matching (index : Index) : List NodeId :=
  (g.rep.matchIndex.entries.filter fun e => index ≤ e.2).map (·.1)

/-- The leader and the nodes with `match_index_ >= index`. -/
def holders (index : Index) : Finset NodeId := insert g.serverId (g.matching index).toFinset

/-- A leader that finds itself in `match_index_` is counted a second time. -/
def countedAgain (index : Index) (p : NodeId → Bool) : Nat :=
  if p g.serverId && g.serverId ∈ g.matching index then 1 else 0

theorem matching_nodup (index : Index) : (g.matching index).Nodup :=
  (List.filter_sublist.map _).nodup g.rep.matchIndex.nodupKeys

/-- The loop's count is the number of holders, but for a leader it counts again. -/
theorem replicas_eq (index : Index) (p : NodeId → Bool) :
    g.replicas index p = ((g.holders index).filter (p ·)).card + g.countedAgain index p := by
  have hcount : g.rep.matchIndex.entries.countP (fun e => index ≤ e.2 && p e.1) =
      ((g.matching index).toFinset.filter (p ·)).card := by
    rw [← List.toFinset_filter, List.toFinset_card_of_nodup ((matching_nodup g index).filter _),
      matching, List.filter_map, List.length_map, List.filter_filter, List.countP_eq_length_filter]
    simp only [Function.comp_def, Bool.and_comm]
  rw [replicas, hcount, holders, Finset.filter_insert, countedAgain]
  by_cases hp : p g.serverId = true
  · by_cases hm : g.serverId ∈ g.matching index
    · have hin : g.serverId ∈ (g.matching index).toFinset.filter (p ·) := by simp [hm, hp]
      simp only [hp, if_true, Finset.insert_eq_of_mem hin, hm, decide_true, Bool.and_self]
      omega
    · have hout : g.serverId ∉ (g.matching index).toFinset.filter (p ·) := by simp [hm]
      simp only [hp, if_true, Finset.card_insert_of_notMem hout, hm, decide_false, Bool.and_false,
        Bool.false_eq_true, if_false]
      omega
  · simp [hp]

theorem card_le_replicas (index : Index) (p q : NodeId → Bool) (hpq : ∀ id, p id → q id) :
    ((g.holders index).filter (p ·)).card ≤ g.replicas index q := by
  have hsub : (g.holders index).filter (p ·) ⊆ (g.holders index).filter (q ·) :=
    Finset.monotone_filter_right _ fun id _ => hpq id
  have hle := Finset.card_le_card hsub
  rw [replicas_eq]
  omega

/-- What is a quorum by the second count passes the loop's test. -/
theorem canCommit_of_quorum {index : Index}
    (h : g.mem.config.quorumSatisfied (g.holders index)) : g.canCommit index := by
  have hnew := card_le_replicas g index (fun id => decide (id ∈ g.mem.config.nodes))
    g.mem.config.isVoter fun id hid => by simp_all [ClusterConfig.isVoter]
  unfold ClusterConfig.quorumSatisfied ClusterConfig.jointMajoritySatisfied at h
  unfold canCommit ClusterConfig.jointMajoritySatisfied
  simp only [decide_eq_true_eq] at hnew
  cases hj : g.mem.config.isJoint with
  | true =>
    have hold := card_le_replicas g index (fun id => decide (id ∈ g.mem.config.oldNodes))
      (fun id => true && decide (id ∈ g.mem.config.oldNodes)) fun id hid => by simp_all
    simp only [hj, if_true, Bool.and_eq_true, decide_eq_true_eq] at h hold ⊢
    omega
  | false =>
    simp only [hj, Bool.false_eq_true, if_false, decide_eq_true_eq] at h ⊢
    omega

/-! ## §2 — The search. -/

/-- What the index to commit has to be: above the commit index, in the log, flushed, of the current
term and held by a quorum. -/
structure Committable (n : Index) : Prop where
  above : g.rep.commitIndex < n
  inLog : n ≤ g.rep.log.getLastLogInfo.1
  flushed : n ≤ g.rep.flushedIndex
  ownTerm : g.getLogTerm n = g.el.currentTerm
  quorum : g.mem.config.quorumSatisfied (g.holders n)

/-- `TryCommitLocked` moves the commit index to a committable index only, and to the largest one
when there is one. -/
def CommitsLargest : Prop :=
  (g.tryCommit.rep.commitIndex ≠ g.rep.commitIndex → g.Committable g.tryCommit.rep.commitIndex) ∧
    ∀ n, IsGreatest {m | g.Committable m} n → g.tryCommit.rep.commitIndex = n

def commitCeiling : Index := min g.rep.log.getLastLogInfo.1 g.rep.flushedIndex

/-- The search goes on below `m`. -/
def PassedOver (m : Index) : Prop := g.getLogTerm m = g.el.currentTerm ∧ g.canCommit m = false

/-- The search gets to `n`. -/
structure Scanned (n : Index) : Prop where
  above : g.rep.commitIndex < n
  ceiling : n ≤ g.commitCeiling
  passed : ∀ m, n < m → m ≤ g.commitCeiling → g.PassedOver m

/-- Where the search stops, the index it commits is held by a quorum of each list, and an entry of
another term has nothing committable below it. -/
def QuorumTestsAgree : Prop :=
  ∀ n, g.Scanned n →
    (g.getLogTerm n = g.el.currentTerm → g.canCommit n →
      g.mem.config.quorumSatisfied (g.holders n)) ∧
    (g.getLogTerm n ≠ g.el.currentTerm → ∀ m < n, ¬ g.Committable m)

variable {g} {n : Index}

theorem Committable.le_ceiling (h : g.Committable n) : n ≤ g.commitCeiling :=
  Nat.le_min.mpr ⟨h.inLog, h.flushed⟩

theorem Committable.not_passedOver (h : g.Committable n) : ¬ g.PassedOver n := by
  intro hpass
  have hcan := canCommit_of_quorum g h.quorum
  rw [hpass.2] at hcan
  cases hcan

/-- How the search ends: at an index it commits, at an entry of another term, or with every index
passed over. -/
inductive SearchEnd (g : RaftGroup) (commit : Index) : Prop
  | commits {n : Index} : g.Scanned n → g.getLogTerm n = g.el.currentTerm → g.canCommit n →
      commit = n → SearchEnd g commit
  | breaks {n : Index} : g.Scanned n → g.getLogTerm n ≠ g.el.currentTerm →
      commit = g.rep.commitIndex → SearchEnd g commit
  | exhausts : (∀ m, g.rep.commitIndex < m → m ≤ g.commitCeiling → g.PassedOver m) →
      commit = g.rep.commitIndex → SearchEnd g commit

theorem tryCommitFrom_end {i : Index} (hi : i ≤ g.commitCeiling)
    (hpassed : ∀ m, i < m → m ≤ g.commitCeiling → g.PassedOver m) :
    SearchEnd g (g.tryCommitFrom i).rep.commitIndex := by
  induction i with
  | zero =>
    apply SearchEnd.exhausts _ rfl
    intro m hm hc
    exact hpassed m (Nat.zero_lt_of_lt hm) hc
  | succ i ih =>
    rw [tryCommitFrom]
    split
    case isFalse habove =>
      apply SearchEnd.exhausts _ rfl
      intro m hm hc
      exact hpassed m (Nat.lt_of_le_of_lt (Nat.le_of_not_lt habove) hm) hc
    case isTrue habove =>
      have hscan : g.Scanned (i + 1) := ⟨habove, hi, hpassed⟩
      split
      case isTrue hterm => exact .breaks hscan hterm rfl
      case isFalse hterm =>
        have hterm : g.getLogTerm (i + 1) = g.el.currentTerm := not_not.mp hterm
        split
        case isTrue hcan => exact .commits hscan hterm hcan (applyCommitted_handsOver _).commitIndex
        case isFalse hcan =>
          refine ih (Nat.le_of_succ_le hi) fun m hm hc => ?_
          rcases Nat.eq_or_lt_of_le hm with rfl | hlt
          · exact ⟨hterm, Bool.eq_false_iff.mpr hcan⟩
          · exact hpassed m hlt hc

theorem tryCommit_end (g : RaftGroup) : SearchEnd g g.tryCommit.rep.commitIndex :=
  tryCommitFrom_end (Nat.le_refl _) fun _ hm hc => absurd hc (Nat.not_le_of_lt hm)

/-- The search stops at one index only. -/
theorem Scanned.unique {m : Index} (hm : g.Scanned m) (hn : g.Scanned n)
    (hsm : ¬ g.PassedOver m) (hsn : ¬ g.PassedOver n) : m = n := by
  rcases Nat.lt_trichotomy m n with hlt | heq | hlt
  · exact absurd (hm.passed n hlt hn.ceiling) hsn
  · exact heq
  · exact absurd (hn.passed m hlt hm.ceiling) hsm

theorem Scanned.stops (h : g.Scanned n) (hstop : ¬ g.PassedOver n) :
    g.tryCommit.rep.commitIndex =
      if g.getLogTerm n = g.el.currentTerm then n else g.rep.commitIndex := by
  cases tryCommit_end g with
  | @commits m hscan hterm hcan hcommit =>
    have hsm : ¬ g.PassedOver m := fun hp => absurd hcan (by rw [hp.2]; exact Bool.false_ne_true)
    obtain rfl := hscan.unique h hsm hstop
    rw [if_pos hterm, hcommit]
  | @breaks m hscan hterm hcommit =>
    obtain rfl := hscan.unique h (fun hp => hterm hp.1) hstop
    rw [if_neg hterm, hcommit]
  | exhausts hall hcommit => exact absurd (hall n h.above h.ceiling) hstop

theorem exists_isGreatest_committable (h : g.Committable n) :
    ∃ top, IsGreatest {m | g.Committable m} top := by
  have hbdd : BddAbove {m | g.Committable m} := ⟨g.commitCeiling, fun _ hm => hm.le_ceiling⟩
  exact ⟨sSup {m | g.Committable m}, Nat.sSup_mem ⟨n, h⟩ hbdd, fun _ hm => le_csSup hbdd hm⟩

/-! ## §3 — The search against the quorum. -/

theorem CommitsLargest.quorumTestsAgree (h : g.CommitsLargest) : g.QuorumTestsAgree := by
  intro n hscan
  refine ⟨fun hterm hcan => ?_, fun hterm m hlt hm => ?_⟩
  · have hcommit := hscan.stops fun hp => absurd hcan (by rw [hp.2]; exact Bool.false_ne_true)
    rw [if_pos hterm] at hcommit
    have hadvance : g.tryCommit.rep.commitIndex ≠ g.rep.commitIndex := by
      rw [hcommit]
      exact Nat.ne_of_gt hscan.above
    have hn := h.1 hadvance
    rw [hcommit] at hn
    exact hn.quorum
  · -- the search stopped at a foreign term, although something below is committable
    have hcommit := hscan.stops fun hp => hterm hp.1
    rw [if_neg hterm] at hcommit
    obtain ⟨top, htop⟩ := exists_isGreatest_committable hm
    have heq := h.2 top htop
    rw [hcommit] at heq
    exact Nat.lt_irrefl _ (heq ▸ htop.1.above)

theorem QuorumTestsAgree.commitsLargest (h : g.QuorumTestsAgree) : g.CommitsLargest := by
  cases tryCommit_end g with
  | @commits n hscan hterm hcan hcommit =>
    have hceil := Nat.le_min.mp hscan.ceiling
    have hn : g.Committable n :=
      ⟨hscan.above, hceil.1, hceil.2, hterm, (h n hscan).1 hterm hcan⟩
    rw [CommitsLargest, hcommit]
    refine ⟨fun _ => hn, fun top htop => Nat.le_antisymm (htop.2 hn) ?_⟩
    apply Nat.le_of_not_lt
    intro hlt
    exact htop.1.not_passedOver (hscan.passed top hlt htop.1.le_ceiling)
  | @breaks n hscan hterm hcommit =>
    rw [CommitsLargest, hcommit]
    refine ⟨fun hne => absurd rfl hne, fun top htop => ?_⟩
    rcases Nat.lt_trichotomy top n with hlt | heq | hlt
    · exact absurd htop.1 ((h n hscan).2 hterm top hlt)
    · exact absurd (heq ▸ htop.1.ownTerm) hterm
    · exact absurd (hscan.passed top hlt htop.1.le_ceiling) htop.1.not_passedOver
  | exhausts hall hcommit =>
    rw [CommitsLargest, hcommit]
    refine ⟨fun hne => absurd rfl hne, fun top htop => ?_⟩
    exact absurd (hall top htop.1.above htop.1.le_ceiling) htop.1.not_passedOver

/-- **What `TryCommitLocked` commits.** In every state it commits the largest index that a quorum
holds, and nothing else, exactly when the two counts agree where its search stops. -/
theorem commitsLargest_iff_quorumTestsAgree (g : RaftGroup) :
    g.CommitsLargest ↔ g.QuorumTestsAgree :=
  ⟨CommitsLargest.quorumTestsAgree, QuorumTestsAgree.commitsLargest⟩

end RaftGroup

/-! ## §4 — A commit without a majority of the new list. -/

/-- Node 1 follows node 2 into the joint phase that drops node 3 and is then elected with the vote
of node 2. It appends its own FINALIZE at index 2, which node 3 is the first to acknowledge. -/
def droppedAcknowledges : List (Event × Env) :=
  [(.restart {}, { now := 0 }), (.request ⟨2, .append false 0⟩ (.appendEntries
      ⟨1, 2, 0, 0, [⟨1, 1, ascii "CONFIG_CHANGE:JOINT:[1,2,3]:[1,2]"⟩], 1⟩), { now := 1 }),
    (.resume, { now := 1 }), (.run 0 {}, { now := 1 }), (.electionTick, { now := 1000 }),
    (.response 2 (.vote 2) (.vote ⟨2, true⟩), { now := 1001 }), (.resume, { now := 1001 }),
    (.response 3 (.append false 0) (.append ⟨2, true, 0, 2⟩), { now := 1002 })]

/-- The group in which `OnLogEntryPersisted` calls `TryCommitLocked`. -/
def RaftGroup.flushedUpTo (g : RaftGroup) (index : Index) : RaftGroup :=
  { g with rep := { g.rep with flushedIndex := max g.rep.flushedIndex index } }

/-- A reachable leader whose FINALIZE entry at index 2 gets flushed commits it with itself and the
dropped node 3 as its holders, half of the new list. -/
theorem commits_without_new_majority :
    ∃ p, (Process.system readingOne).Reachable p ∧ p.group.el.role = .leader ∧
      (p.group.flushedUpTo 2).tryCommit.rep.commitIndex = 2 ∧
      ¬ (p.group.flushedUpTo 2).CommitsLargest := by
  obtain ⟨p, hreach, hrole, hbefore, hafter, hquorum⟩ := (Process.system readingOne).reaches
    droppedAcknowledges rfl (P := fun p => p.group.el.role = .leader ∧
      (p.group.flushedUpTo 2).rep.commitIndex = 1 ∧
      (p.group.flushedUpTo 2).tryCommit.rep.commitIndex = 2 ∧ (p.group.flushedUpTo
        2).mem.config.quorumSatisfied ((p.group.flushedUpTo 2).holders 2) = false) (by decide +kernel)
  refine ⟨p, hreach, hrole, hafter, fun h => ?_⟩
  have hcommit := h.1 (by rw [hafter, hbefore]; decide)
  rw [hafter] at hcommit
  exact absurd hcommit.quorum (by rw [hquorum]; exact Bool.false_ne_true)

end RollingRaft
