/-
# RollingRaft.Disruption — vote requests that should not disturb a node.

With CheckQuorum a node does not vote for a candidate outside its configuration, nor while it hears
of a leader. `HandleRequestVote` makes these checks after it has adopted a higher term: whoever asks
in a higher term, a node that was removed included, takes the role and the leader from the node that
it asks, and the leadership from a leader.
-/
import RollingRaft.AcceptedRequests

namespace RollingRaft

open Lib

/-- `current_term_`, `voted_for_`, `role_` and `leader_id_`. -/
structure Standing where
  currentTerm : Term
  votedFor : NodeId
  role : Role
  leaderId : NodeId
  deriving DecidableEq

namespace RaftGroup

def standing (g : RaftGroup) : Standing :=
  ⟨g.el.currentTerm, g.el.votedFor, g.el.role, g.el.leaderId⟩

/-- A leader in contact with a quorum, as `CheckQuorumLocked` counts it. -/
def leadsQuorum (g : RaftGroup) : Bool :=
  g.el.role = .leader && g.electionQuorumSatisfied g.ackedVoters

/-- The candidate is no voter of the configuration, or the node hears of a leader. -/
def ShouldIgnore (g : RaftGroup) (req : RequestVoteRequest) : Prop :=
  g.mem.config.isVoter req.candidateId = false ∨ g.hasRecentLeader = true ∨ g.leadsQuorum = true

instance (g : RaftGroup) (req : RequestVoteRequest) : Decidable (g.ShouldIgnore req) :=
  inferInstanceAs (Decidable (_ ∨ _))

/-- The node has not voted in the term of the request and has no reason to refuse. -/
def givesFirstVote (g : RaftGroup) (req : RequestVoteRequest) : Prop :=
  req.term = g.el.currentTerm ∧ g.mem.config.isVoter req.candidateId = true ∧
    g.logIsUpToDate req = true ∧ g.hasRecentLeader = false ∧ g.el.votedFor = -1 ∧
    req.candidateId ≠ -1

variable {g : RaftGroup} {req : RequestVoteRequest}

/-- Within its term a node changes its standing only by the first vote it gives. -/
theorem standing_voteRest_iff (hterm : req.term ≤ g.el.currentTerm) :
    (g.voteRest req).1.standing = g.standing ↔ ¬ g.givesFirstVote req := by
  unfold voteRest givesFirstVote
  split
  · rename_i hlt
    exact iff_of_true rfl fun h => hlt.ne h.1
  rename_i hge
  split
  · rename_i hvoter
    exact iff_of_true rfl fun h => by simp [h.2.1] at hvoter
  split
  · rename_i hlog
    exact iff_of_true rfl fun h => by simp [h.2.2.1] at hlog
  split
  · rename_i hrecent
    exact iff_of_true rfl fun h => by simp [h.2.2.2.1] at hrecent
  rename_i hvoter hlog hrecent
  have hsame : req.term = g.el.currentTerm := le_antisymm hterm (not_lt.mp hge)
  simp only [Bool.not_eq_true', Bool.not_eq_false, Bool.not_eq_true] at hvoter hlog hrecent
  split
  · rename_i hfree
    -- saving the vote does not touch the election state
    have hel : ∀ g₁ : RaftGroup, g₁.saveState.1.standing = g₁.standing := by
      intro g₁
      unfold saveState standing
      split <;> rfl
    rw [hel]
    simp only [standing, resetElectionTimer, Standing.mk.injEq, true_and, and_true, hsame,
      hvoter, hlog, hrecent, Bool.or_eq_true, decide_eq_true_eq] at hfree ⊢
    grind
  · rename_i hvoted
    exact iff_of_true rfl fun h => by simp [h.2.2.2.2.1] at hvoted

/-- **When a request that should be ignored is ignored**: its term is not above the node's own, and
the node is not a leader that has yet to vote. -/
theorem ignores_iff {reply : ReplyTo} (h : g.ShouldIgnore req) :
    (g.handleRequestVote reply req).1.standing = g.standing ↔
      req.term ≤ g.el.currentTerm ∧ ¬ (g.el.role = .leader ∧ g.givesFirstVote req) := by
  have hleads : g.givesFirstVote req → g.el.role = .leader := by
    rintro ⟨-, hvoter, -, hrecent, -⟩
    rcases h with hout | hheard | hquorum
    · cases hvoter.symm.trans hout
    · cases hrecent.symm.trans hheard
    · exact of_decide_eq_true (Bool.and_eq_true_iff.mp hquorum).1
  unfold handleRequestVote
  split
  · rename_i hlt
    refine iff_of_false (fun heq => ?_) fun hcond => hcond.1.not_gt hlt
    exact hlt.ne' (congrArg Standing.currentTerm heq)
  rename_i hge
  have hterm := not_lt.mp hge
  have hvote := standing_voteRest_iff (g := g) hterm
  rw [and_iff_right hterm, and_iff_right_of_imp hleads]
  exact hvote

end RaftGroup

/-- A request of node 4, which is not in the configuration. -/
def removedAsks (term : Term) : RequestVoteRequest :=
  { term := term, candidateId := 4, lastLogIndex := 9, lastLogTerm := 9 }

/-- Node 1 leads term 1. -/
def leadsTermOne : List (Event × Env) := standsForOne ++ [thirdVote, (.resume, { now := 1003 })]

/-- In its own term the leader ignores the removed node. -/
theorem ignores_removed :
    ∃ p, (Process.system votingOne).Reachable p ∧ p.group.ShouldIgnore (removedAsks 1) ∧
      (p.group.handleRequestVote ⟨4, .vote 1⟩ (removedAsks 1)).1.standing = p.group.standing := by
  obtain ⟨p, hreach, hignore, hterm, hvoted⟩ := (Process.system votingOne).reaches leadsTermOne rfl
    (P := fun p => p.group.ShouldIgnore (removedAsks 1) ∧ p.group.el.currentTerm = 1 ∧
      p.group.el.votedFor = 1) (by decide +kernel)
  refine ⟨p, hreach, hignore, (RaftGroup.ignores_iff hignore).mpr ⟨hterm.ge, ?_⟩⟩
  rintro ⟨-, -, -, -, -, hnone, -⟩
  rw [hvoted] at hnone
  cases hnone

/-- In the next term the removed node takes the leadership from it. -/
theorem removed_deposes_leader :
    ∃ p p', (Process.system votingOne).Reachable p ∧ p.group.opts.checkQuorumEnabled = true ∧
      p.group.el.role = .leader ∧ p.group.mem.config.isVoter 4 = false ∧
      p.next (.request ⟨4, .vote 2⟩ (.requestVote (removedAsks 2)), { now := 1004 }) = some p' ∧
      p'.group.el.role = .follower ∧ p'.group.el.currentTerm = 2 := by
  obtain ⟨p, hreach, hcheck, hlead, hout, p', hn, hdown⟩ := (Process.system votingOne).reaches
    leadsTermOne rfl (P := fun p => p.group.opts.checkQuorumEnabled = true ∧
      p.group.el.role = .leader ∧ p.group.mem.config.isVoter 4 = false ∧
      ∃ p' ∈ p.next (.request ⟨4, .vote 2⟩ (.requestVote (removedAsks 2)), { now := 1004 }),
        p'.group.el.role = .follower ∧ p'.group.el.currentTerm = 2) (by decide +kernel)
  exact ⟨p, p', hreach, hcheck, hlead, hout, hn, hdown⟩

end RollingRaft
