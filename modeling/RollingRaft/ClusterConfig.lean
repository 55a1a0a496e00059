/-
# RollingRaft.ClusterConfig — voters, learners and quorums (`ClusterConfig`, `QuorumSatisfied`).
-/
import RollingRaft.Types

namespace RollingRaft

/-- `ClusterConfig`: `nodes` are the voters (the new ones in joint mode), `oldNodes` the previous
voters while `isJoint`. -/
structure ClusterConfig where
  nodes : List NodeId := []
  oldNodes : List NodeId := []
  learners : List NodeId := []
  version : Nat := 0
  isJoint : Bool := false
  deriving DecidableEq

namespace ClusterConfig

def contains (c : ClusterConfig) (id : NodeId) : Bool :=
  id ∈ c.nodes || (c.isJoint && id ∈ c.oldNodes) || id ∈ c.learners

def isVoter (c : ClusterConfig) (id : NodeId) : Bool :=
  id ∈ c.nodes || (c.isJoint && id ∈ c.oldNodes)

def getMajority (c : ClusterConfig) : Nat := c.nodes.length / 2 + 1

def getOldMajority (c : ClusterConfig) : Nat := c.oldNodes.length / 2 + 1

def jointMajoritySatisfied (c : ClusterConfig) (oldCount newCount : Nat) : Bool :=
  if c.isJoint then c.getOldMajority ≤ oldCount && c.getMajority ≤ newCount
  else c.getMajority ≤ newCount

/-- `QuorumSatisfied`: how many of a set of voters are in each list. -/
def quorumSatisfied (c : ClusterConfig) (voters : Finset NodeId) : Bool :=
  c.jointMajoritySatisfied (voters.filter (· ∈ c.oldNodes)).card (voters.filter (· ∈ c.nodes)).card

theorem quorumSatisfied_mono {c : ClusterConfig} {s t : Finset NodeId} (hst : s ⊆ t)
    (h : c.quorumSatisfied s) : c.quorumSatisfied t := by
  have hold : (s.filter (· ∈ c.oldNodes)).card ≤ (t.filter (· ∈ c.oldNodes)).card :=
    Finset.card_le_card (Finset.filter_subset_filter _ hst)
  have hnew : (s.filter (· ∈ c.nodes)).card ≤ (t.filter (· ∈ c.nodes)).card :=
    Finset.card_le_card (Finset.filter_subset_filter _ hst)
  unfold quorumSatisfied jointMajoritySatisfied at *
  split at h
  · rw [if_pos ‹_›]
    simp only [Bool.and_eq_true, decide_eq_true_eq] at h ⊢
    omega
  rw [if_neg ‹_›]
  simp only [decide_eq_true_eq] at h ⊢
  omega

theorem exists_common_member {members : List NodeId} {s t : Finset NodeId}
    (hs : members.length / 2 < (s.filter (· ∈ members)).card)
    (ht : members.length / 2 < (t.filter (· ∈ members)).card) : ∃ v ∈ members, v ∈ s ∧ v ∈ t := by
  have hsub : ∀ u : Finset NodeId, u.filter (· ∈ members) ⊆ members.toFinset := by
    intro u v hv
    exact List.mem_toFinset.mpr (Finset.mem_filter.mp hv).2
  have hcard : members.toFinset.card ≤ members.length := List.toFinset_card_le members
  obtain ⟨v, hv⟩ := Finset.inter_nonempty_of_card_lt_card_add_card (hsub s) (hsub t) (by omega)
  obtain ⟨hvs, hvt⟩ := Finset.mem_inter.mp hv
  exact ⟨v, (Finset.mem_filter.mp hvs).2, (Finset.mem_filter.mp hvs).1, (Finset.mem_filter.mp hvt).1⟩

/-- The voter lists that have to agree: the nodes, and in joint mode the old ones as well. -/
def active (c : ClusterConfig) : List (List NodeId) :=
  if c.isJoint then [c.oldNodes, c.nodes] else [c.nodes]

theorem majority_of_quorum {c : ClusterConfig} {s : Finset NodeId} {l : List NodeId}
    (h : c.quorumSatisfied s) (hl : l ∈ c.active) : l.length / 2 < (s.filter (· ∈ l)).card := by
  unfold quorumSatisfied jointMajoritySatisfied getMajority getOldMajority at h
  unfold active at hl
  split at h
  · rw [if_pos ‹_›] at hl
    simp only [Bool.and_eq_true, decide_eq_true_eq] at h
    rcases List.mem_pair.mp hl with rfl | rfl
    · exact h.1
    · exact h.2
  · rw [if_neg ‹_›] at hl
    obtain rfl := List.mem_singleton.mp hl
    exact of_decide_eq_true h

/-- Two quorums of configurations with the same voters share a voter, when neither is in joint
mode. -/
theorem exists_common_voter {c d : ClusterConfig} {members : List NodeId}
    (hc : c.nodes.Perm members) (hd : d.nodes.Perm members) (hcj : c.isJoint = false)
    (hdj : d.isJoint = false) {s t : Finset NodeId} (hs : c.quorumSatisfied s)
    (ht : d.quorumSatisfied t) : ∃ v ∈ members, v ∈ s ∧ v ∈ t := by
  have hs := majority_of_quorum (l := c.nodes) hs (by simp [active, hcj])
  have ht := majority_of_quorum (l := d.nodes) ht (by simp [active, hdj])
  simp only [hc.mem_iff, hc.length_eq] at hs
  simp only [hd.mem_iff, hd.length_eq] at ht
  exact exists_common_member hs ht

/-- **Quorum intersection.** Two quorums have a common member in every voter list that is active in
both configurations, be they simple or joint. -/
theorem quorums_meet (c d : ClusterConfig) (shared : List NodeId) (hc : shared ∈ c.active)
    (hd : shared ∈ d.active) (s t : Finset NodeId) (hs : c.quorumSatisfied s)
    (ht : d.quorumSatisfied t) : ∃ v ∈ shared, v ∈ s ∧ v ∈ t :=
  exists_common_member (majority_of_quorum hs hc) (majority_of_quorum ht hd)

/-- Node 4 joins: a quorum before and one in joint mode. -/
theorem quorums_meet_joining : ∃ v ∈ ([1, 2, 3] : List NodeId), v ∈ ({1, 2} : Finset NodeId) ∧
    v ∈ ({2, 3, 4} : Finset NodeId) :=
  quorums_meet { nodes := [1, 2, 3] } { nodes := [1, 2, 3, 4], oldNodes := [1, 2, 3], isJoint := true }
    _ (by decide) (by decide) _ _ (by decide) (by decide)

end ClusterConfig

end RollingRaft
