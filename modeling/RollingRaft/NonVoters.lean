/-
# RollingRaft.NonVoters — learners, removed and unknown nodes do not count.

Four counts decide for a node: the votes of an election, the copies of an entry, the
acknowledgements that CheckQuorum looks for and those that extend the lease. Each filters the ids it
finds by the voter lists. So two states of a node that differ in what they know about other ids only
decide the same.
-/
import RollingRaft.CommandText
import RollingRaft.CommitBound
import RollingRaft.Lib.Accounting

namespace RollingRaft

open Lib

namespace ClusterConfig

/-- The id is in one of the voter lists. -/
def listed (c : ClusterConfig) (id : NodeId) : Prop := id ∈ c.nodes ∨ id ∈ c.oldNodes

variable {c : ClusterConfig}

theorem listed_of_isVoter {id : NodeId} (h : c.isVoter id = true) : c.listed id := by
  simp only [isVoter, Bool.or_eq_true, Bool.and_eq_true, decide_eq_true_eq] at h
  exact h.imp_right And.right

theorem quorumSatisfied_congr {s t : Finset NodeId} (h : ∀ id, c.listed id → (id ∈ s ↔ id ∈ t)) :
    c.quorumSatisfied s = c.quorumSatisfied t := by
  have hold : s.filter (· ∈ c.oldNodes) = t.filter (· ∈ c.oldNodes) := by
    ext id
    simp only [Finset.mem_filter, and_congr_left_iff]
    exact fun hid => h id (.inr hid)
  have hnew : s.filter (· ∈ c.nodes) = t.filter (· ∈ c.nodes) := by
    ext id
    simp only [Finset.mem_filter, and_congr_left_iff]
    exact fun hid => h id (.inl hid)
  rw [quorumSatisfied, quorumSatisfied, hold, hnew]

end ClusterConfig

namespace RaftGroup

/-- The node with other votes, acknowledgement times and match indices. -/
def recounted (g : RaftGroup) (votes : Finset NodeId) (acks contact : Map NodeId Time)
    (copies : Map NodeId Index) : RaftGroup :=
  { g with
    el := { g.el with votesReceived := votes }
    rep := { g.rep with
      quorumAcks := acks, lastContactTime := contact, matchIndex := copies } }

/-- For the ids in the voter lists they are the same. -/
structure SameOnVoters (g : RaftGroup) (votes : Finset NodeId) (acks : Map NodeId Time)
    (copies : Map NodeId Index) : Prop where
  votes : ∀ id, g.mem.config.listed id → (id ∈ g.el.votesReceived ↔ id ∈ votes)
  acks : ∀ id, g.mem.config.listed id → g.rep.quorumAcks.lookup id = acks.lookup id
  copies : ∀ id, g.mem.config.listed id → g.rep.matchIndex.lookup id = copies.lookup id

variable {g : RaftGroup} {votes : Finset NodeId} {acks contact : Map NodeId Time}
  {copies : Map NodeId Index}

/-! ## §1 — Copies of an entry. -/

theorem replicas_recounted (contact : Map NodeId Time)
    (h : g.SameOnVoters votes acks copies) (index : Index) {p : NodeId → Bool} (hp : ∀ id, p id = true → g.mem.config.listed id) :
    (g.recounted votes acks contact copies).replicas index p = g.replicas index p := by
  refine congrArg _ (countP_congr fun e he => ?_).symm
  exact h.copies e.1 (hp e.1 (Bool.and_eq_true_iff.mp he).2)

theorem canCommit_recounted (h : g.SameOnVoters votes acks copies) (index : Index) :
    (g.recounted votes acks contact copies).canCommit index = g.canCommit index := by
  have hold := replicas_recounted contact h index
    (p := fun id => g.mem.config.isJoint && id ∈ g.mem.config.oldNodes)
    fun id hid => .inr (of_decide_eq_true (Bool.and_eq_true_iff.mp hid).2)
  have hnew := replicas_recounted contact h index (p := g.mem.config.isVoter)
    fun _ => ClusterConfig.listed_of_isVoter
  exact congrArg₂ g.mem.config.jointMajoritySatisfied hold hnew

theorem tryCommitFrom_recounted (h : g.SameOnVoters votes acks copies) (index : Index) :
    ((g.recounted votes acks contact copies).tryCommitFrom index).rep.commitIndex =
      (g.tryCommitFrom index).rep.commitIndex := by
  induction index with
  | zero => rfl
  | succ i ih =>
    rw [tryCommitFrom, tryCommitFrom, canCommit_recounted h]
    show ReplicationState.commitIndex (RaftGroup.rep (if g.rep.commitIndex < i + 1 then
      if g.getLogTerm (i + 1) ≠ g.el.currentTerm then _ else _ else _)) = _
    split_ifs
    · rfl
    · rw [(applyCommitted_handsOver _).commitIndex, (applyCommitted_handsOver _).commitIndex]
    · exact ih
    · rfl

/-! ## §2 — Acknowledgements. -/

theorem mem_ackedVoters {id : NodeId} : id ∈ g.ackedVoters ↔ id = g.serverId ∨
    ∃ t, g.rep.quorumAcks.lookup id = some t ∧ g.within t g.rt.electionTimeoutMs = true ∧
      g.mem.config.isVoter id = true := by
  have hfold (l : List (Sigma fun _ : NodeId => Time)) (s : Finset NodeId) :
      id ∈ l.foldl (fun s e => insert e.1 s) s ↔ id ∈ s ∨ ∃ t, ⟨id, t⟩ ∈ l := by
    induction l generalizing s with
    | nil => simp
    | cons e l ih =>
      rw [List.foldl_cons, ih, Finset.mem_insert, or_comm (a := id = e.1), or_assoc]
      refine or_congr_right ⟨?_, ?_⟩
      · rintro (rfl | ⟨t, ht⟩)
        · exact ⟨e.2, List.mem_cons_self⟩
        · exact ⟨t, List.mem_cons_of_mem e ht⟩
      · rintro ⟨t, ht⟩
        rcases List.mem_cons.mp ht with rfl | ht
        · exact .inl rfl
        · exact .inr ⟨t, ht⟩
  rw [ackedVoters, hfold, Finset.mem_singleton]
  simp only [List.mem_filter, Bool.and_eq_true, ← AList.mem_lookup_iff, Option.mem_def]

theorem ackedVoters_recounted (h : g.SameOnVoters votes acks copies) :
    (g.recounted votes acks contact copies).electionQuorumSatisfied
      (g.recounted votes acks contact copies).ackedVoters =
        g.electionQuorumSatisfied g.ackedVoters := by
  refine ClusterConfig.quorumSatisfied_congr fun id hid => ?_
  rw [mem_ackedVoters, mem_ackedVoters, h.acks id hid]
  rfl

theorem noteAck_lease (g : RaftGroup) (peer : NodeId) : (g.noteAck peer).rep.leaderLeaseExpiry =
    if g.mem.config.getMajority ≤ 1 + (if g.opts.checkQuorumEnabled then
        g.rep.quorumAcks.insert peer g.env.now else g.rep.quorumAcks).entries.countP fun e =>
          g.within e.2 g.rt.electionTimeoutMs && g.mem.config.isVoter e.1 then
      g.env.now + (g.rt.electionTimeoutMs : Nat)
    else g.rep.leaderLeaseExpiry := by
  unfold noteAck
  cases hquorum : g.opts.checkQuorumEnabled with
  | false =>
    simp only [noteContact, hquorum, Bool.false_eq_true, if_false]
    exact apply_ite (fun g : RaftGroup => g.rep.leaderLeaseExpiry) _ _ _
  | true =>
    simp only [noteContact, hquorum, if_true]
    exact apply_ite (fun g : RaftGroup => g.rep.leaderLeaseExpiry) _ _ _

theorem noteAck_recounted (h : g.SameOnVoters votes acks copies) (peer : NodeId) :
    ((g.recounted votes acks contact copies).noteAck peer).rep.leaderLeaseExpiry =
      (g.noteAck peer).rep.leaderLeaseExpiry := by
  rw [noteAck_lease, noteAck_lease]
  refine if_congr (iff_of_eq (congrArg (_ ≤ 1 + ·) (countP_congr fun e he => ?_).symm)) rfl rfl
  have hacks := h.acks e.1 (ClusterConfig.listed_of_isVoter (Bool.and_eq_true_iff.mp he).2)
  show (if g.opts.checkQuorumEnabled then _ else g.rep.quorumAcks).lookup e.1 =
    (if g.opts.checkQuorumEnabled then acks.insert peer g.env.now else acks).lookup e.1
  split
  · by_cases hpeer : e.1 = peer
    · rw [hpeer, AList.lookup_insert, AList.lookup_insert]
    · rw [AList.lookup_insert_ne hpeer, AList.lookup_insert_ne hpeer, hacks]
  · exact hacks

/-! ## §3 — The decisions. -/

theorem checkQuorum_role (g : RaftGroup) : g.checkQuorum.el.role =
    if !g.running || g.el.role ≠ .leader || g.electionQuorumSatisfied g.ackedVoters then g.el.role
    else .follower := by
  unfold checkQuorum
  cases hout : (!g.running || g.el.role ≠ .leader : Bool) with
  | true => rfl
  | false =>
  cases hquorum : g.electionQuorumSatisfied g.ackedVoters with
  | true => rfl
  | false => exact (stepDownRest_talks _ true).frame.role

/-- The role that a vote leaves and what is to follow. -/
def voteDecision (g : RaftGroup) (peer : NodeId) (resp : VoteResponse) (term : Term) :
    Role × Option Waiting :=
  let r := g.handleRequestVoteResponse peer resp term
  (r.1.el.role, r.2)

theorem voteDecision_eq (g : RaftGroup) (peer : NodeId) (resp : VoteResponse) (term : Term) :
    g.voteDecision peer resp term =
      if !g.running || g.el.role ≠ .candidate then (g.el.role, none)
      else if g.el.currentTerm < resp.term then (.follower, some (.stepDown true .nothing))
      else if term ≠ g.el.currentTerm || resp.term < g.el.currentTerm then (g.el.role, none)
      else if resp.voteGranted && g.mem.config.quorumSatisfied (insert peer g.el.votesReceived) then
        (.leader, some .lead)
      else (g.el.role, none) := by
  unfold voteDecision handleRequestVoteResponse
  dsimp only
  split
  · rfl
  split
  · rfl
  split
  · rfl
  cases resp.voteGranted with
  | false => rfl
  | true =>
    rw [if_pos rfl, Bool.true_and]
    split
    · exact (if_pos ‹_›).symm
    · exact (if_neg ‹_›).symm

theorem voteDecision_recounted (h : g.SameOnVoters votes acks copies) (peer : NodeId)
    (resp : VoteResponse) (term : Term) :
    (g.recounted votes acks contact copies).voteDecision peer resp term =
      g.voteDecision peer resp term := by
  have hquorum : g.mem.config.quorumSatisfied (insert peer votes) =
      g.mem.config.quorumSatisfied (insert peer g.el.votesReceived) := by
    refine ClusterConfig.quorumSatisfied_congr fun id hid => ?_
    rw [Finset.mem_insert, Finset.mem_insert, h.votes id hid]
  rw [voteDecision_eq, voteDecision_eq, ← hquorum]
  rfl

/-- **Only voters count.** A node that holds other votes, acknowledgement times and match indices
for learners, removed and unknown nodes takes the same election decision, chooses the same commit
index, steps down in the same CheckQuorum rounds and gives the lease the same end. -/
theorem only_voters_count (g : RaftGroup) (votes : Finset NodeId) (acks contact : Map NodeId Time)
    (copies : Map NodeId Index) (h : g.SameOnVoters votes acks copies) :
    let g' := g.recounted votes acks contact copies
    (∀ peer resp term, g'.voteDecision peer resp term = g.voteDecision peer resp term) ∧
    g'.tryCommit.rep.commitIndex = g.tryCommit.rep.commitIndex ∧
    g'.checkQuorum.el.role = g.checkQuorum.el.role ∧
    ∀ peer, (g'.noteAck peer).rep.leaderLeaseExpiry = (g.noteAck peer).rep.leaderLeaseExpiry := by
  refine ⟨voteDecision_recounted h, tryCommitFrom_recounted h _, ?_, noteAck_recounted h⟩
  rw [checkQuorum_role, checkQuorum_role, ackedVoters_recounted h]
  rfl

theorem only_voters_count_learner :
    let g := ({ leaderWithLearner with running := true } : RaftGroup)
    (g.recounted {4} (AList.insert 4 0 ∅) ∅ (AList.insert 4 5 ∅)).checkQuorum.el.role =
      g.checkQuorum.el.role := by
  have hne (id) (hid : leaderWithLearner.mem.config.listed id) : id ≠ 4 := by
    rintro rfl
    rcases hid with hid | hid <;> exact absurd hid (by decide)
  exact (only_voters_count _ _ _ _ _
    { votes := fun id hid => by simp [leaderWithLearner, hne id hid]
      acks := fun id hid => (AList.lookup_insert_ne (hne id hid)).symm
      copies := fun id hid => (AList.lookup_insert_ne (hne id hid)).symm }).2.2.1

end RaftGroup

end RollingRaft
