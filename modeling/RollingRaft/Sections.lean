/-
# RollingRaft.Sections — what a section can do to the election state.

`ElectionMove` lists, once, the ways a section can end: it is quiet, or it is one of the few that
vote, count votes, step down or stand for election. Every section of every event, call and resumed
step-down is one of these; invariants over runs look at the moves and not at the handlers.

What a section can do depends on what arrives: whether a vote request comes from its candidate,
whether a granted vote was granted, which terms messages carry. `Vouched` names what the
surroundings of a node vouch for.
-/
import RollingRaft.Work

namespace RollingRaft

open Lib

/-! ## §1 — What messages are trusted with. -/

structure Vouched where
  /-- The request was sent to this node, and is answered to `reply`. -/
  asked : ReplyTo → Request → Prop
  /-- The peer granted this node its vote in this term. -/
  granted : NodeId → Term → Prop
  /-- The term of a message; a PreVote request carries none. -/
  carried : Term → Prop
  /-- The timer of the pre-vote round goes off. -/
  preVoteTimesOut : Prop
  /-- A leader steps down on its own. -/
  resigns : Prop
  /-- The node stands for election. -/
  stands : Prop
  /-- The section is about commands, the membership, the apply thread or snapshots of the log. -/
  commands : Prop := True

variable {m : Vouched}

def Event.VouchedBy (m : Vouched) : Event → Prop
  | .request reply (.preVote req) => m.asked reply (.preVote req)
  | .request reply req => m.asked reply req ∧ m.carried req.term
  | .response peer callback resp =>
    m.carried resp.term ∧ ∀ t r, resp = .vote r → r.voteGranted = true →
      (callback = .vote t → m.granted peer t) ∧ (callback = .preVote t → m.stands)
  | .forwardedReadIndex t => m.carried t
  | .preVoteTimeout => m.preVoteTimesOut
  | .electionTick => m.stands
  | .heartbeatTick | .persisted _ false | .transferLeadership _ => m.resigns
  | .removeNode _ => m.resigns ∧ m.commands
  | .compact _ _ | .applyTake | .applyLoad | .applyTask _ | .applyPublish | .drain
  | .clientRequest _ | .propose _ _ _ | .proposeBatch _
  | .addNode _ _ | .addLearner _ _ | .promoteLearner _ | .resume => m.commands
  | _ => True

/-- A request that is answered after the step-down to its term. -/
def Rest.Sound (m : Vouched) (t : Term) : Rest → Prop
  | .requestVote reply req => req.term = t ∧ m.asked reply (.requestVote req)
  | .appendEntries _ req => req.term = t
  | .installSnapshot reply req => req.term = t ∧ m.asked reply (.installSnapshot req)
  | _ => True

/-- A section waits for `replication_mtx_` in the role it has just taken. -/
def Waiting.Sound (m : Vouched) (el : ElectionState) : Waiting → Prop
  | .stepDown _ rest => el.role = .follower ∧ rest.Sound m el.currentTerm
  | .lead => el.role = .leader

/-- The calls that a section leaves behind have checked role and term. -/
def Call.StartedIn (el : ElectionState) : Call → Prop
  | .follower (.append _ respTerm req) => respTerm = el.currentTerm ∧ req.term = el.currentTerm
  | .client (.propose _ _) => el.role = .leader
  | .begun _ => False
  | _ => True

namespace RaftGroup

def setPreVotes (g : RaftGroup) (p : PreVoteState) : RaftGroup :=
  { g with el := { g.el with
      preVoteRunning := p.preVoteRunning, preVoteTerm := p.preVoteTerm
      preVotesReceived := p.preVotesReceived } }

def addVote (g : RaftGroup) (peer : NodeId) : RaftGroup :=
  { g with el := { g.el with votesReceived := insert peer g.el.votesReceived } }

/-- Configuration, log and snapshot position are kept. -/
structure Keeps (g g' : RaftGroup) : Prop where
  mem : g'.mem = g.mem
  log : g'.rep.log = g.rep.log
  snapshotIndex : g'.snap.lastSnapshotIndex = g.snap.lastSnapshotIndex
  snapshotTerm : g'.snap.lastSnapshotTerm = g.snap.lastSnapshotTerm

theorem Keeps.refl (g : RaftGroup) : g.Keeps g := ⟨rfl, rfl, rfl, rfl⟩

end RaftGroup

/-! ## §2 — The moves. -/

inductive ElectionMove (m : Vouched) (g : RaftGroup) : RaftGroup → Option Waiting → Prop
  | quiet {g' : RaftGroup} (h : GuardedFrame g g')
      (hworks : RaftGroup.Works g.el.currentTerm g g' ∨ m.commands) : ElectionMove m g g' none
  | preVoteTimeout {g' : RaftGroup} (hm : m.preVoteTimesOut)
      (h : GuardedFrame (g.setPreVotes ⟨false, g.el.preVoteTerm, ∅⟩) g') (hquiet : Quiet g g') :
      ElectionMove m g g' none
  /-- A pre-vote that is not the last one needed. -/
  | preVoteCounted {peer : NodeId} :
      ElectionMove m g (g.setPreVotes ⟨g.el.preVoteRunning, g.el.preVoteTerm,
        insert peer g.el.preVotesReceived⟩) none
  | preVoteRound {g₁ : RaftGroup} (h : GuardedFrame g g₁) (hkeeps : g.Keeps g₁)
      (hquiet : Quiet g g₁) :
      ElectionMove m g (g₁.setPreVotes
        ⟨true, add32 g₁.el.currentTerm 1, {g₁.serverId}⟩).broadcastPreVote none
  | preVoteReply {reply : ReplyTo} {req : RequestVoteRequest} (asked : m.asked reply (.preVote req)) :
      ElectionMove m g (g.handlePreVote reply req) none
  | vote {g₁ : RaftGroup} {reply : ReplyTo} {req : RequestVoteRequest} (h : GuardedFrame g g₁)
      (hterm : req.term ≤ g.el.currentTerm) (asked : m.asked reply (.requestVote req))
      (hkeeps : g.Keeps g₁) (hquiet : Quiet g g₁) : ElectionMove m g (g₁.answerVote reply req) none
  | stepDown {p : PreVoteState} {g₁ : RaftGroup} {t : Term} {persistState : Bool} {rest : Rest}
      (h : GuardedFrame (g.setPreVotes p) g₁) (hterm : g.el.currentTerm < t ∧ m.carried t ∨
        t = g.el.currentTerm ∧ g.el.role = .leader ∧ m.resigns)
      (hrest : rest.Sound m t) (hquiet : Quiet g g₁ ∨ m.commands) :
      ElectionMove m g (g₁.stepDownElection t) (some (.stepDown persistState rest))
  /-- CheckQuorum steps down with both locks held. -/
  | checkQuorum {g₁ : RaftGroup} (h : GuardedFrame g g₁) (hrole : g.el.role = .leader)
      (hm : m.resigns) (hquiet : Quiet g g₁) :
      ElectionMove m g ((g₁.stepDownElection g.el.currentTerm).stepDownRest true) none
  | candidacy {p : PreVoteState} {g₁ : RaftGroup} (h : GuardedFrame (g.setPreVotes p) g₁)
      (hkeeps : g.Keeps g₁) (hrole : g.el.role ≠ .leader) (hm : m.stands) (hquiet : Quiet g g₁) :
      ElectionMove m g g₁.becomeCandidate.1 g₁.becomeCandidate.2
  | voteCounted {peer : NodeId} (hrole : g.el.role = .candidate)
      (granted : m.granted peer g.el.currentTerm) : ElectionMove m g (g.addVote peer) none
  | elected {peer : NodeId} (hrole : g.el.role = .candidate)
      (granted : m.granted peer g.el.currentTerm)
      (hquorum : (g.addVote peer).electionQuorumSatisfied (g.addVote peer).el.votesReceived) :
      ElectionMove m g (g.addVote peer).becomeLeaderElection (some .lead)

namespace ElectionMove

variable {g g' : RaftGroup} {t : Term} {persistState : Bool} {rest : Rest}

theorem talks (h : Talks GuardedFrame g g') : ElectionMove m g g' none :=
  .quiet h.frame (.inl (.of_quiet h.quiet))

theorem same : ElectionMove m g g none := .talks (.refl g)

theorem stepDown_of_lt (h : g.el.currentTerm < t) (hm : m.carried t) (hrest : rest.Sound m t) :
    ElectionMove m g (g.stepDownElection t) (some (.stepDown persistState rest)) :=
  .stepDown (p := g.el.preVotes) (.refl g) (.inl ⟨h, hm⟩) hrest (.inl (.refl g))

theorem stepDown_of_leader {g₁ : RaftGroup} (h : GuardedFrame g g₁) (hrole : g.el.role = .leader)
    (hm : m.resigns) (hquiet : Quiet g g₁ ∨ m.commands) (hrest : rest.Sound m g.el.currentTerm) :
    ElectionMove m g (g₁.stepDownElection g₁.el.currentTerm)
      (some (.stepDown persistState rest)) := by
  rw [h.currentTerm]
  exact .stepDown (p := g.el.preVotes) h (.inr ⟨rfl, hrole, hm⟩) hrest hquiet

/-- **What a move does to the pipeline** is work, unless it is about commands. -/
theorem works {w : Option Waiting} (h : ElectionMove m g g' w) (hm : ¬ m.commands) :
    RaftGroup.Works g.el.currentTerm g g' := by
  cases h with
  | quiet h hworks => exact hworks.resolve_right hm
  | preVoteTimeout _ h hquiet => exact .of_quiet hquiet
  | preVoteCounted | voteCounted => exact .of_kept rfl
  | preVoteRound h hkeeps hquiet =>
    exact .of_quiet (hquiet.trans ((RaftGroup.broadcastPreVote_quiet _).after rfl rfl))
  | preVoteReply asked => exact .of_quiet (.emit g rfl)
  | vote h hterm asked hkeeps hquiet =>
    exact .of_quiet (hquiet.trans (RaftGroup.answerVote_quiet _ _ _))
  | stepDown h hterm hrest hquiet =>
    exact .of_quiet ((hquiet.resolve_right hm).trans (RaftGroup.stepDownElection_quiet _ _))
  | checkQuorum h hrole hresigns hquiet =>
    exact .of_quiet ((hquiet.trans (RaftGroup.stepDownElection_quiet _ _)).trans
      (RaftGroup.stepDownRest_talks _ true).quiet)
  | candidacy h hkeeps hrole hstands hquiet =>
    exact (RaftGroup.becomeCandidate_works _ _).after_kept hquiet.kept
  | elected => exact RaftGroup.becomeLeaderElection_works rfl

end ElectionMove

namespace RaftGroup

variable {g : RaftGroup} {peer : NodeId}

/-! ## §3 — Sections of elections and votes. -/

theorem startElection_move {g₁ : RaftGroup} (h : Talks GuardedFrame g g₁) (hkeeps : g.Keeps g₁)
    (hrole : g.el.role ≠ .leader) (hm : m.stands) :
    ElectionMove m g g₁.startElection.1 g₁.startElection.2 := by
  unfold startElection
  split
  · unfold startPreVote
    dsimp only
    split
    · refine .candidacy (p := ⟨false, add32 g₁.el.currentTerm 1, {g₁.serverId}⟩) ?_
        ⟨hkeeps.mem, hkeeps.log, hkeeps.snapshotIndex, hkeeps.snapshotTerm⟩ hrole hm
        (h.quiet.trans (.of_core rfl rfl))
      exact ⟨⟨h.frame.opts, h.frame.votes, rfl, h.frame.disk, h.frame.out⟩, h.frame.lead⟩
    · exact .preVoteRound h.frame hkeeps h.quiet
  · exact .candidacy (p := g.el.preVotes) h.frame hkeeps hrole hm h.quiet

theorem exitQuiesced_keeps (g : RaftGroup) (held : Bool) : g.Keeps (g.exitQuiesced held) := by
  unfold exitQuiesced
  split
  · dsimp only
    split
    · split <;> exact ⟨rfl, rfl, rfl, rfl⟩
    · exact ⟨rfl, rfl, rfl, rfl⟩
  · exact .refl g

theorem stepDownRest_keeps (g : RaftGroup) (persistState : Bool) :
    g.Keeps (g.stepDownRest persistState) := by
  unfold stepDownRest saveState
  dsimp only
  split
  · split <;> exact ⟨rfl, rfl, rfl, rfl⟩
  · exact ⟨rfl, rfl, rfl, rfl⟩

theorem electionTick_move (g : RaftGroup) (hm : m.stands) :
    ElectionMove m g g.electionTick.1 g.electionTick.2 := by
  unfold electionTick onElectionTimeout
  split
  · split
    · exact .same
    · rename_i hrun
      have hrole : g.el.role ≠ .leader := by simp_all
      split
      · dsimp only
        split
        · have hkeeps := exitQuiesced_keeps { g with qs := { g.qs with
            consecutiveQuiescedTimeouts := g.qs.consecutiveQuiescedTimeouts + 1 } } false
          exact startElection_move ((exitQuiesced_talks _ false).after_guarded rfl rfl rfl)
            ⟨hkeeps.mem, hkeeps.log, hkeeps.snapshotIndex, hkeeps.snapshotTerm⟩ hrole hm
        · exact .talks (.of_eq_guarded rfl rfl rfl)
      · exact startElection_move (.refl g) (.refl g) hrole hm
  · exact .same

theorem onPreVoteTimeout_move (hm : m.preVoteTimesOut) :
    ElectionMove m g g.onPreVoteTimeout none := by
  unfold onPreVoteTimeout
  split
  · exact .preVoteTimeout hm (.of_eq rfl rfl) (.of_core rfl rfl)
  · exact .same

variable {reply : ReplyTo} {resp : AppendEntriesResponse} {t : Term} {o : SectionEnd} {call : Nat}

theorem handleRequestVote_move {req : RequestVoteRequest}
    (asked : m.asked reply (.requestVote req)) (hm : m.carried req.term) :
    ElectionMove m g (g.handleRequestVote reply req).1 (g.handleRequestVote reply req).2 := by
  unfold handleRequestVote
  split
  · exact .stepDown_of_lt ‹_› hm ⟨rfl, asked⟩
  · exact .vote (.refl g) (not_lt.mp ‹_›) asked (.refl g) (.refl g)

theorem handleRequestVoteResponse_move {resp : VoteResponse} (hm : m.carried resp.term)
    (granted : resp.voteGranted = true → m.granted peer t) :
    ElectionMove m g (g.handleRequestVoteResponse peer resp t).1
      (g.handleRequestVoteResponse peer resp t).2 := by
  unfold handleRequestVoteResponse
  split
  · exact .same
  rename_i hrun
  have hrole : g.el.role = .candidate := by simp_all
  split
  · exact .stepDown_of_lt ‹_› hm trivial
  split
  · exact .same
  rename_i hterm
  have ht : t = g.el.currentTerm := by simp_all
  subst ht
  split
  · dsimp only
    split
    · exact .elected hrole (granted ‹_›) ‹_›
    · exact .voteCounted hrole (granted ‹_›)
  · exact .same

theorem handlePreVoteResponse_move {resp : VoteResponse} (hm : m.carried resp.term)
    (hs : resp.voteGranted = true → m.stands) :
    ElectionMove m g (g.handlePreVoteResponse peer resp t).1
      (g.handlePreVoteResponse peer resp t).2 := by
  unfold handlePreVoteResponse
  split
  · exact .same
  split
  · exact .same
  rename_i hrun
  have hrole : g.el.role ≠ .leader := by simp_all
  split
  · exact .same
  split
  · exact .stepDown (p := ⟨false, g.el.preVoteTerm, g.el.preVotesReceived⟩) (.refl _)
      (.inl ⟨‹_›, hm⟩) trivial (.inl (.of_core rfl rfl))
  split
  · dsimp only
    split
    · exact .candidacy (p := ⟨false, g.el.preVoteTerm, ∅⟩) (.refl _) ⟨rfl, rfl, rfl, rfl⟩ hrole
        (hs ‹_›) (.of_core rfl rfl)
    · exact .preVoteCounted
  · exact .same

/-! ## §4 — Sections of followers and leaders. -/

theorem handleAppendEntries_move {req : AppendEntriesRequest} (hm : m.carried req.term) :
    ElectionMove m g (g.handleAppendEntries reply req).1 (g.handleAppendEntries reply req).2.1 := by
  have hrecord := recordActivity_talks g false
  unfold handleAppendEntries
  dsimp only
  split
  · exact .talks (hrecord.trans ⟨.emit _ (by trivial) rfl, .emit _ rfl⟩)
  split
  · rename_i hterm
    rw [hrecord.frame.currentTerm] at hterm
    exact .stepDown (p := g.el.preVotes) hrecord.frame (.inl ⟨hterm, hm⟩) rfl (.inl hrecord.quiet)
  · exact .talks (hrecord.trans (appendEntriesRest_talks _ reply req))

theorem handleInstallSnapshot_move {req : InstallSnapshotRequest}
    (asked : m.asked reply (.installSnapshot req)) (hm : m.carried req.term) :
    ElectionMove m g (g.handleInstallSnapshot reply req).1
      (g.handleInstallSnapshot reply req).2.1 := by
  unfold handleInstallSnapshot
  split
  · exact .talks ⟨.emit g (by trivial) rfl, .emit g rfl⟩
  split
  · exact .stepDown_of_lt ‹_› hm ⟨rfl, asked⟩
  · exact .talks (installSnapshotRest_talks g reply req)

/-- A response on a node that does not lead is dropped. -/
theorem role_of_running (h : ¬(!g.running || g.el.role ≠ .leader) = true) :
    g.el.role = .leader := by
  simp_all

theorem handleAppendEntriesResponse_move (hm : m.carried resp.term) :
    ElectionMove m g (g.handleAppendEntriesResponse peer resp).1
      (g.handleAppendEntriesResponse peer resp).2 := by
  unfold handleAppendEntriesResponse
  split
  · exact .same
  have hrole := role_of_running ‹_›
  split
  · exact .stepDown_of_lt ‹_› hm trivial
  split
  · rename_i head rest _
    have hpop := setInflight_guarded g peer rest
    split
    · exact .quiet (hpop.trans (appendSucceeded_guarded _ peer head resp.entriesCount
        (hpop.role.trans hrole))) (.inl (appendSucceeded_works g peer rest head _))
    · have hfailed := appendFailed_talks (g.setInflight peer rest) peer head resp.conflictIndex
      exact .talks ⟨hpop.trans hfailed.frame, hfailed.quiet.after rfl rfl⟩
  · exact .talks (handleLateResponse_talks g peer resp.success)

theorem handleHeartbeatResponse_move (hm : m.carried resp.term) :
    ElectionMove m g (g.handleHeartbeatResponse peer resp).1
      (g.handleHeartbeatResponse peer resp).2 := by
  unfold handleHeartbeatResponse
  split
  · exact .same
  have hrole := role_of_running ‹_›
  split
  · exact .stepDown_of_lt ‹_› hm trivial
  split
  · exact .quiet (noteAck_guarded g peer) (.inl (.of_kept (noteAck_kept g peer)))
  · exact .talks ⟨heartbeatRejected_guarded g peer resp.conflictIndex hrole,
      heartbeatRejected_quiet g peer _⟩

theorem onSnapshotResponse_move {ok : Bool} (hm : 0 < t → m.carried t) :
    ElectionMove m g (g.onSnapshotResponse peer t ok).group
      (g.onSnapshotResponse peer t ok).waiting := by
  show ElectionMove m g (g.handleInstallSnapshotResponse t).1
    (g.handleInstallSnapshotResponse t).2.1
  unfold handleInstallSnapshotResponse
  split
  · exact .same
  split
  · rename_i hlt
    exact .stepDown_of_lt hlt (hm (Nat.zero_lt_of_lt hlt)) trivial
  · exact .same

theorem enterQuiesced_talks (g : RaftGroup) : Talks GuardedFrame g g.enterQuiesced := by
  unfold enterQuiesced
  split
  · exact .refl g
  dsimp only
  split <;> exact .of_eq_guarded rfl rfl rfl

theorem checkQuorum_eq (g : RaftGroup) :
    g.checkQuorum = g ∨ g.checkQuorum = (g.stepDownElection g.el.currentTerm).stepDownRest true := by
  unfold checkQuorum
  split
  · exact .inl rfl
  split
  · exact .inl rfl
  · exact .inr rfl

/-- A heartbeat timeout is quiet unless CheckQuorum finds no quorum. -/
theorem onHeartbeatTimeout_move {g₀ : RaftGroup} (h : Talks GuardedFrame g g₀) (hm : m.resigns) :
    ElectionMove m g g₀.onHeartbeatTimeout none := by
  unfold onHeartbeatTimeout
  split
  · exact .talks h
  have hrole := h.frame.role.symm.trans (role_of_running ‹_›)
  have hquiet : Talks GuardedFrame g (if g₀.shouldEnterQuiesced then g₀.enterQuiesced else g₀) := by
    split
    · exact h.trans (enterQuiesced_talks g₀)
    · exact h
  dsimp only
  generalize (if g₀.shouldEnterQuiesced then g₀.enterQuiesced else g₀) = g₁ at hquiet ⊢
  have hbroadcast := hquiet.trans
    (.of_leader (broadcastAppendEntries_talks g₁) (hquiet.frame.role.trans hrole))
  have hgo : ElectionMove m g
      (if g₁.halt.isSome || g₁.el.role ≠ .leader then g₁ else g₁.broadcastAppendEntries) none := by
    split
    · exact .talks hquiet
    · exact .talks hbroadcast
  split
  · exact .talks hquiet
  split
  · exact .talks hquiet
  split
  · rcases checkQuorum_eq g₁ with heq | heq
    · rw [heq]; exact hgo
    · -- the step-down leaves a follower, which sends no heartbeats
      have hfollow := (stepDownRest_talks (g₁.stepDownElection g₁.el.currentTerm) true).frame.role
      rw [heq, if_pos (by rw [hfollow]; simp [stepDownElection]), hquiet.frame.currentTerm]
      exact .checkQuorum hquiet.frame hrole hm hquiet.quiet
  · exact hgo

theorem heartbeatTick_move (hm : m.resigns) :
    ElectionMove m g g.heartbeatTick none := by
  unfold heartbeatTick
  split
  · exact .same
  · exact onHeartbeatTimeout_move (.of_eq_guarded rfl rfl rfl) hm

theorem onPersisted_move {index : Index} {ok : Bool} (hm : ok = false → m.resigns)
    (h : g.onPersisted index ok = some o) :
    ElectionMove m g o.group o.waiting := by
  unfold onPersisted at h
  split at h
  · dsimp only at h
    split at h
    · cases h
      refine .quiet ((persistSucceeded_guarded _ index).after rfl rfl) (.inl ?_)
      show Works _ g (persistSucceeded _ _)
      unfold persistSucceeded
      split
      · exact .of_kept rfl
      · refine tryCommit_works ?_ ?_ <;> rfl
    rename_i hok
    cases h
    unfold persistFailed
    split
    · exact .stepDown_of_leader (.of_eq rfl rfl) ‹_› (hm (by simpa using hok))
        (.inl (.of_core rfl rfl)) trivial
    · exact .talks (.of_eq_guarded rfl rfl rfl)
  · cases h

theorem removeNode_move {id : NodeId} (hm : m.resigns ∧ m.commands) :
    ElectionMove m g (g.removeNode id).1 (g.removeNode id).2.1 := by
  unfold removeNode
  dsimp only
  split
  · exact .same
  rename_i hcheck
  have hrole := membershipCheck_none hcheck
  have hpropose := proposeConfigChange_frame g
    (g.jointCommand g.mem.config.nodes (g.mem.config.nodes.filter (· ≠ id)))
  have hsend := hpropose.trans ((broadcastAppendEntries_talks
    ((g.proposeConfigChange _).1.erasePeer id)).frame.after rfl)
  split
  · split
    · exact .stepDown_of_leader (.of_leader hsend hrole) hrole hm.1 (.inr hm.2) trivial
    · exact .quiet (.of_leader hsend hrole) (.inr hm.2)
  · exact .quiet (.of_leader hpropose hrole) (.inr hm.2)

theorem transferLeadershipTo_move {target : NodeId} (hm : m.resigns) :
    ElectionMove m g (g.transferLeadershipTo target).1 (g.transferLeadershipTo target).2.1 := by
  unfold transferLeadershipTo
  split
  · exact .same
  split
  · exact .same
  have hrole : g.el.role = .leader := of_not_not ‹_›
  split
  · exact .same
  split
  · exact .same
  have hsend := sendAppendEntriesToPeer_talks g target
  exact .stepDown_of_leader (.of_leader hsend.frame hrole) hrole hm (.inl hsend.quiet) trivial

theorem forwardedReadIndex_move {r : RaftGroup × Waiting} (hm : m.carried t)
    (h : g.forwardedReadIndex t = some r) : ElectionMove m g r.1 (some r.2) := by
  unfold forwardedReadIndex at h
  split at h
  · cases h
    exact .stepDown_of_lt ‹_› hm trivial
  · cases h

theorem enqueueRead_move {readIdx : Index} {g' : RaftGroup}
    (h : g.enqueueRead call t readIdx = some g') : ElectionMove m g g' none := by
  unfold enqueueRead at h
  split at h
  · cases h
  · cases h
    exact .quiet ((processPendingReads_guarded _).after rfl rfl)
      (.inl (.of_kept (processPendingReads_kept _)))

/-! ## §5 — All sections. -/

theorem applyTake_guarded {g' : RaftGroup} (h : g.applyTake = some g') : GuardedFrame g g' := by
  unfold applyTake at h
  split at h
  · cases h
  cases h
  exact .of_eq rfl rfl

theorem applyLoad_guarded {g' : RaftGroup} (h : g.applyLoad = some g') : GuardedFrame g g' := by
  unfold applyLoad at h
  split at h
  · cases h
    exact .of_eq rfl rfl
  · cases h

theorem drain_guarded {g' : RaftGroup} (h : g.drain = some g') : GuardedFrame g g' := by
  unfold drain at h
  split at h
  · cases h
  cases h
  exact (foldl_frame (fun g cb => GuardedFrame.emit g (by trivial) rfl) _ _).after rfl rfl

theorem onClientRequest_guarded (g : RaftGroup) (call : Nat) (req : ClientRequest) :
    GuardedFrame g (g.onClientRequest call req).group := by
  have hcheck := handleClientRequest_guarded g req
  unfold onClientRequest
  dsimp only
  split
  · split
    · exact hcheck
    · exact hcheck.trans (.emit _ (by trivial) rfl)
  · exact hcheck
  · exact hcheck

theorem onClientRequest_waiting (g : RaftGroup) (call : Nat) (req : ClientRequest) :
    (g.onClientRequest call req).waiting = none := by
  unfold onClientRequest
  dsimp only
  split <;> rfl

theorem stopTimers_talks (g : RaftGroup) : Talks GuardedFrame g g.stopTimers := by
  unfold stopTimers
  split
  · exact .refl g
  · exact .of_eq_guarded rfl rfl rfl

theorem onRpcFailed_move (g : RaftGroup) (peer : NodeId) (callback : Callback) :
    ElectionMove m g (g.onRpcFailed peer callback).group (g.onRpcFailed peer callback).waiting := by
  cases callback with
  | append isHeartbeat => exact .talks (scheduleAppendEntriesRetry_talks g peer isHeartbeat)
  | snapshot => exact onSnapshotResponse_move fun h => absurd h (lt_irrefl 0)
  | vote | preVote | readHeartbeat => exact .same

theorem onResponse_move {callback : Callback} {resp : Response}
    (hm : (Event.response peer callback resp).VouchedBy m)
    (h : g.onResponse peer callback resp = some o) : ElectionMove m g o.group o.waiting := by
  obtain ⟨hterm, hgranted⟩ := hm
  unfold onResponse at h
  split at h <;> cases h
  · exact handleRequestVoteResponse_move hterm fun h => (hgranted _ _ rfl h).1 rfl
  · exact handlePreVoteResponse_move hterm fun h => (hgranted _ _ rfl h).2 rfl
  · exact handleHeartbeatResponse_move hterm
  · exact handleAppendEntriesResponse_move hterm
  · split
    · exact .quiet (handleReadIndexAck_guarded g _ _) (.inl (.of_kept (handleReadIndexAck_kept g _ _)))
    · exact .same
  · exact onSnapshotResponse_move fun _ => hterm

variable {ev : Event}

/-- Sections that leave `election_mtx_` alone can run while another one holds it. -/
theorem onEvent_guarded (hneeds : ev.needs.election = false)
    (h : g.onEvent call ev = some o) :
    GuardedFrame g o.group ∧ o.waiting = none := by
  cases ev with
  | applyTake =>
    obtain ⟨g', hg, rfl⟩ := Option.map_eq_some_iff.mp h; exact ⟨applyTake_guarded hg, rfl⟩
  | applyLoad =>
    obtain ⟨g', hg, rfl⟩ := Option.map_eq_some_iff.mp h; exact ⟨applyLoad_guarded hg, rfl⟩
  | applyTask result =>
    obtain ⟨g', hg, rfl⟩ := Option.map_eq_some_iff.mp h; exact ⟨applyTask_guarded hg, rfl⟩
  | applyPublish =>
    obtain ⟨g', hg, rfl⟩ := Option.map_eq_some_iff.mp h; exact ⟨applyPublish_guarded hg, rfl⟩
  | drain => obtain ⟨g', hg, rfl⟩ := Option.map_eq_some_iff.mp h; exact ⟨drain_guarded hg, rfl⟩
  | configure | stop => cases h; exact ⟨.of_eq rfl rfl, rfl⟩
  | response peer callback resp =>
    cases callback with
    | readHeartbeat readId id =>
      cases resp with
      | append resp =>
        cases h
        refine ⟨?_, rfl⟩
        split
        · exact handleReadIndexAck_guarded g _ _
        · exact .refl g
      | vote | snapshot => cases h
    | vote | preVote | snapshot | append => cases hneeds
  | rpcFailed peer callback => cases callback <;> cases hneeds
  | persisted index ok => cases ok <;> cases hneeds
  | resume | run | crash | restart => cases h
  | _ => cases hneeds

/-- **Every section that is not part of a call is one of the moves.** -/
theorem onEvent_move (hm : ev.VouchedBy m) (h : g.onEvent call ev = some o) :
    ElectionMove m g o.group o.waiting := by
  cases ev with
  | response peer callback resp => exact onResponse_move hm h
  | persisted index ok => exact onPersisted_move (fun hok => by subst hok; exact hm) h
  | applyTake | applyLoad | applyTask | applyPublish | drain =>
    obtain ⟨hframe, hnone⟩ := onEvent_guarded rfl h
    rw [hnone]
    exact .quiet hframe (.inr hm)
  | configure | stop => cases h; exact .quiet (.of_eq rfl rfl) (.inl (.of_kept rfl))
  | resume | run | crash | restart => cases h
  | request reply req =>
    cases h
    cases req with
    | requestVote req => exact handleRequestVote_move hm.1 hm.2
    | preVote req => exact .preVoteReply hm
    | appendEntries req => exact handleAppendEntries_move hm.2
    | installSnapshot req => exact handleInstallSnapshot_move hm.1 hm.2
  | rpcFailed peer callback => cases h; exact onRpcFailed_move g peer callback
  | electionTick => cases h; exact electionTick_move g hm
  | preVoteTimeout => cases h; exact onPreVoteTimeout_move hm
  | heartbeatTick => cases h; exact heartbeatTick_move hm
  | resend peer => cases h; exact .talks (resend_talks g peer)
  | resendChunk peer => cases h; exact .talks (resendChunk_talks g peer)
  | compact index term => cases h; exact .quiet (applySnapshot_guarded g index term) (.inr hm)
  | prepareSnapshot peer snapshot =>
    cases h; exact .talks (prepareSnapshotForPeer_talks g peer snapshot)
  | clientRequest req =>
    cases h
    rw [onClientRequest_waiting]
    exact .quiet (onClientRequest_guarded g call req) (.inr hm)
  | propose command sessionId seqNum =>
    cases h; exact .quiet (propose_guarded g command call sessionId seqNum) (.inr hm)
  | proposeBatch commands =>
    cases h; exact .quiet (proposeBatch_guarded g commands call) (.inr hm)
  | addNode id addr => cases h; exact .quiet (addNode_guarded g id addr) (.inr hm)
  | addLearner id addr => cases h; exact .quiet (addLearner_guarded g id addr) (.inr hm)
  | promoteLearner id => cases h; exact .quiet (promoteLearner_guarded g id) (.inr hm)
  | removeNode id => cases h; exact removeNode_move hm
  | transferLeadership target => cases h; exact transferLeadershipTo_move hm
  | readIndex =>
    cases h; exact .quiet (readIndex_guarded g call) (.inl (.of_kept (readIndex_kept g call)))
  | forwardedReadIndex t =>
    obtain ⟨r, hr, rfl⟩ := Option.map_eq_some_iff.mp h; exact forwardedReadIndex_move hm hr
  | enqueueRead t readIdx =>
    obtain ⟨g', hg, rfl⟩ := Option.map_eq_some_iff.mp h; exact enqueueRead_move hg
  | readIndexRequest => cases h; exact .talks (handleReadIndexRequest_talks g)
  | stopTimers => cases h; exact .talks (stopTimers_talks g)

end RaftGroup

/-- The section acts as a leader without looking at the role. -/
def Call.unchecked : Call → Bool
  | .client (.propose _ _) => true
  | .snapshotResponse _ _ => true
  | _ => false

namespace RaftGroup

variable {g : RaftGroup} {c : Call} {o : SectionEnd} {input : CallInput} {w : Waiting}
  {reply : ReplyTo} {req : AppendEntriesRequest} {call : Nat}

theorem runClientCall_frame {c : ClientCall} (h : g.runClientCall input c = some o) :
    ElectionFrame g o.group ∧ o.waiting = none ∧
      (GuardedFrame g o.group ∨ (Call.client c).unchecked) := by
  cases c with
  | propose call req =>
    have hframe := proposeAndWait_frame g req.command call
    unfold runClientCall at h
    dsimp only at h
    split at h <;> cases h <;> exact ⟨hframe, rfl, .inr rfl⟩
  | waiting call req index =>
    rw [runClientCall] at h
    split at h
    · cases h
      have hdrop : GuardedFrame g (g.proposalTimedOut index).1 := .of_eq rfl rfl
      exact ⟨hdrop.toElectionFrame, rfl, .inl hdrop⟩
    obtain ⟨result, -, rfl⟩ := Option.map_eq_some_iff.mp h
    exact ⟨.refl g, rfl, .inl (.refl g)⟩
  | finish call req result =>
    cases h
    have hend : GuardedFrame g ((g.finishClientRequest req result).1.emit
        (.responded req (g.finishClientRequest req result).2)) :=
      (finishClientRequest_guarded g req result).trans (.emit _ trivial rfl)
    exact ⟨hend.toElectionFrame, rfl, .inl hend⟩

theorem runCall_frame (h : g.runCall input c = some o) :
    ElectionFrame g o.group ∧ o.waiting = none ∧
      (GuardedFrame g o.group ∨ c.unchecked) := by
  cases c with
  | follower c =>
    cases h
    have hframe := runFollowerCall_guarded g input.restored c
    exact ⟨hframe.toElectionFrame, rfl, .inl hframe⟩
  | client c => exact runClientCall_frame h
  | snapshotResponse peer rpcSuccess =>
    cases h
    exact ⟨snapshotResponded_frame g peer rpcSuccess, rfl, .inr rfl⟩
  | failProposal index =>
    cases h
    have hframe := failProposal_guarded g index input.message
    exact ⟨hframe.toElectionFrame, rfl, .inl hframe⟩
  | begun b => cases h

/-- **A section that waited for `replication_mtx_` is one of the moves.** -/
theorem runWaiting_move (hw : w.Sound m g.el) (hm : m.commands) :
    ElectionMove m g (g.runWaiting w).group (g.runWaiting w).waiting := by
  cases w with
  | lead => exact .quiet (.of_leader (becomeLeaderRest_frame g) hw) (.inr hm)
  | stepDown persistState rest =>
    have hrest := stepDownRest_talks g persistState
    unfold runWaiting
    dsimp only
    split
    · exact .talks hrest
    cases rest with
    | nothing | failProposal => exact .talks hrest
    | requestVote reply req =>
      exact .vote hrest.frame hw.2.1.le hw.2.2 (stepDownRest_keeps g persistState) hrest.quiet
    | appendEntries reply req => exact .talks (hrest.trans (appendEntriesRest_talks _ reply req))
    | installSnapshot reply req =>
      exact .talks (hrest.trans (installSnapshotRest_talks _ reply req))

/-! ## §6 — Where calls come from. -/

/-- The calls that an event leaves when it begins a section; `call` numbers a new one. -/
inductive Starts (call : Nat) : Event → Call → Prop
  | append (reply : ReplyTo) (respTerm : Term) (req : AppendEntriesRequest) :
      Starts call (.request reply (.appendEntries req)) (.follower (.append reply respTerm req))
  | chunk (reply : ReplyTo) (respTerm : Term) (req : InstallSnapshotRequest) :
      Starts call (.request reply (.installSnapshot req)) (.follower (.chunk reply respTerm req))
  | client (req : ClientRequest) : Starts call (.clientRequest req) (.client (.propose call req))
  | snapshotResponse (peer : NodeId) (id : Nat) (resp : Response) :
      Starts call (.response peer (.snapshot id) resp) (.snapshotResponse peer true)
  | snapshotFailed (peer : NodeId) (id : Nat) :
      Starts call (.rpcFailed peer (.snapshot id)) (.snapshotResponse peer false)
  | failProposal (index : Index) : Starts call (.persisted index false) (.failProposal index)

theorem onSnapshotResponse_calls {peer : NodeId} {t : Term} {ok : Bool}
    (hc : c ∈ (g.onSnapshotResponse peer t ok).calls) : c = .snapshotResponse peer ok := by
  unfold onSnapshotResponse at hc
  dsimp only at hc
  split at hc
  · exact List.mem_singleton.mp hc
  · cases hc

theorem appendEntriesRest_calls
    (hc : c ∈ (SectionEnd.ofFollower (g.appendEntriesRest reply req)).calls) :
    ∃ respTerm, c = .follower (.append reply respTerm req) := by
  unfold appendEntriesRest at hc
  split at hc
  · cases hc
  · exact ⟨_, List.mem_singleton.mp hc⟩

theorem onRequest_starts {req : Request} (hc : c ∈ (g.onRequest reply req).calls) :
    Starts call (.request reply req) c := by
  cases req with
  | requestVote | preVote => cases hc
  | appendEntries req =>
    unfold onRequest SectionEnd.ofHandler handleAppendEntries at hc
    dsimp only at hc
    split at hc
    · cases hc
    split at hc
    · cases hc
    obtain ⟨respTerm, rfl⟩ := appendEntriesRest_calls hc
    exact .append reply respTerm req
  | installSnapshot req =>
    unfold onRequest SectionEnd.ofHandler handleInstallSnapshot at hc
    dsimp only at hc
    split at hc
    · cases hc
    split at hc
    · cases hc
    obtain rfl := List.mem_singleton.mp hc
    exact .chunk reply _ req

variable {ev : Event}

theorem onEvent_starts (h : g.onEvent call ev = some o) (hc : c ∈ o.calls) :
    Starts call ev c := by
  cases ev with
  | request reply req => cases h; exact onRequest_starts hc
  | clientRequest req =>
    cases h
    unfold onClientRequest at hc
    dsimp only at hc
    split at hc
    · cases hc
    · cases hc
    rw [List.mem_singleton.mp hc]
    exact .client req
  | response peer callback resp =>
    unfold onEvent onResponse at h
    dsimp only at h
    split at h <;> cases h
    case h_6 =>
      rw [onSnapshotResponse_calls hc]
      exact .snapshotResponse peer _ _
    all_goals cases hc
  | rpcFailed peer callback =>
    cases h
    cases callback with
    | snapshot id =>
      rw [onSnapshotResponse_calls hc]
      exact .snapshotFailed peer id
    | _ => cases hc
  | persisted index ok =>
    unfold onEvent onPersisted at h
    dsimp only at h
    split at h
    · split at h
      · cases h; cases hc
      · rename_i hok
        cases h
        split at hc
        · cases hc
        rw [List.mem_singleton.mp hc, Bool.eq_false_iff.mpr hok]
        exact .failProposal index
    · cases h
  | applyTake | applyLoad | applyTask | applyPublish | drain | forwardedReadIndex | enqueueRead =>
    obtain ⟨g', -, rfl⟩ := Option.map_eq_some_iff.mp h; cases hc
  | resume | run | crash | restart => cases h
  | _ => cases h; cases hc

/-- How a call goes on. -/
inductive Continues (g : RaftGroup) (input : CallInput) : Call → Call → Prop
  | restore (reply : ReplyTo) (respTerm : Term) (req : InstallSnapshotRequest)
      (received : ReceivedSnapshot) (h : (g.receiveChunk req).2 = some received) :
      Continues g input (.follower (.chunk reply respTerm req))
        (.follower (.restore reply respTerm received))
  | install (reply : ReplyTo) (respTerm : Term) (received : ReceivedSnapshot)
      (h : input.restored = true) :
      Continues g input (.follower (.restore reply respTerm received))
        (.follower (.install reply respTerm received))
  | waiting (call : Nat) (req : ClientRequest) (index : Index)
      (h : (g.proposeAndWait req.command call).2 = some index) :
      Continues g input (.client (.propose call req)) (.client (.waiting call req index))
  | notWritten (call : Nat) (req : ClientRequest)
      (h : (g.proposeAndWait req.command call).2 = none) :
      Continues g input (.client (.propose call req))
        (.client (.finish call req { errorMessage := input.message }))
  | timedOut (call : Nat) (req : ClientRequest) (index : Index) (h : input.timedOut = true) :
      Continues g input (.client (.waiting call req index))
        (.client (.finish call req (g.proposalTimedOut index).2))
  | answered (call : Nat) (req : ClientRequest) (index : Index) (result : ApplyResult)
      (h : g.promised call = some result) :
      Continues g input (.client (.waiting call req index)) (.client (.finish call req result))

theorem runCall_continues {d : Call} (h : g.runCall input c = some o) (hd : d ∈ o.calls) :
    Continues g input c d := by
  cases c with
  | follower c =>
    cases h
    cases c with
    | append | install => cases hd
    | chunk reply t req =>
      simp only [SectionEnd.ofFollower, runFollowerCall] at hd
      split at hd
      · obtain rfl := List.mem_singleton.mp hd
        exact .restore reply t req _ ‹_›
      · cases hd
    | restore reply t received =>
      simp only [SectionEnd.ofFollower, runFollowerCall] at hd
      split at hd
      · obtain rfl := List.mem_singleton.mp hd
        exact .install reply t received ‹_›
      · cases hd
  | client c =>
    cases c with
    | propose call req =>
      simp only [runCall, runClientCall] at h
      split at h
      · cases h
        obtain rfl := List.mem_singleton.mp hd
        exact .waiting call req _ ‹_›
      cases h
      obtain rfl := List.mem_singleton.mp hd
      exact .notWritten call req ‹_›
    | waiting call req index =>
      simp only [runCall, runClientCall] at h
      split at h
      · cases h
        obtain rfl := List.mem_singleton.mp hd
        exact .timedOut call req index ‹_›
      obtain ⟨result, hresult, rfl⟩ := Option.map_eq_some_iff.mp h
      obtain rfl := List.mem_singleton.mp hd
      exact .answered call req index result hresult
    | finish call req result => cases h; cases hd
  | snapshotResponse | failProposal => cases h; cases hd
  | begun b => cases h

/-- The calls that a section which stepped down leaves. -/
def Rest.leaves : Rest → Call → Prop
  | .appendEntries reply req, c => ∃ respTerm, c = .follower (.append reply respTerm req)
  | .installSnapshot reply req, c => ∃ respTerm, c = .follower (.chunk reply respTerm req)
  | .failProposal index, c => c = .failProposal index
  | _, _ => False

theorem runWaiting_leaves (hc : c ∈ (g.runWaiting w).calls) :
    ∃ persistState rest, w = .stepDown persistState rest ∧ Rest.leaves rest c := by
  cases w with
  | lead => cases hc
  | stepDown persistState rest =>
    refine ⟨persistState, rest, rfl, ?_⟩
    unfold runWaiting at hc
    dsimp only at hc
    split at hc
    · cases hc
    cases rest with
    | nothing | requestVote => cases hc
    | appendEntries reply req => exact appendEntriesRest_calls hc
    | installSnapshot reply req => exact ⟨_, List.mem_singleton.mp hc⟩
    | failProposal index => exact List.mem_singleton.mp hc

/-- A section that got the lock does not wait again. -/
theorem runWaiting_waiting (g : RaftGroup) (w : Waiting) : (g.runWaiting w).waiting = none := by
  cases w with
  | lead => rfl
  | stepDown persistState rest =>
    unfold runWaiting
    dsimp only
    split
    · rfl
    · cases rest <;> rfl

/-! ## §7 — The calls that sections leave behind. -/

theorem appendEntriesRest_startedIn (hterm : req.term ≤ g.el.currentTerm)
    (hc : c ∈ (SectionEnd.ofFollower (g.appendEntriesRest reply req)).calls) :
    c.StartedIn (g.appendEntriesRest reply req).1.el := by
  have hframe := (appendEntriesRest_talks g reply req).frame
  unfold Call.StartedIn
  rw [hframe.currentTerm]
  unfold appendEntriesRest at hc
  split at hc
  · cases hc
  obtain rfl := List.mem_singleton.mp hc
  exact ⟨rfl, le_antisymm hterm (not_lt.mp ‹_›)⟩

theorem handleAppendEntries_startedIn (hc : c ∈ (g.onRequest reply (.appendEntries req)).calls) :
    c.StartedIn (g.onRequest reply (.appendEntries req)).group.el := by
  unfold onRequest SectionEnd.ofHandler handleAppendEntries at hc ⊢
  dsimp only at hc ⊢
  split at hc
  · cases hc
  rw [if_neg ‹_›]
  split at hc
  · cases hc
  rw [if_neg ‹_›]
  exact appendEntriesRest_startedIn (not_lt.mp ‹_›) hc

theorem onClientRequest_startedIn {req : ClientRequest}
    (hc : c ∈ (g.onClientRequest call req).calls) :
    c.StartedIn (g.onClientRequest call req).group.el := by
  unfold onClientRequest at hc
  dsimp only at hc
  split at hc
  · cases hc
  · cases hc
  obtain rfl := List.mem_singleton.mp hc
  exact (onClientRequest_guarded g call req).role.trans (handleClientRequest_propose ‹_›)

theorem onEvent_startedIn (h : g.onEvent call ev = some o) (hc : c ∈ o.calls) :
    c.StartedIn o.group.el := by
  cases onEvent_starts h hc with
  | append reply respTerm req => cases h; exact handleAppendEntries_startedIn hc
  | client req => cases h; exact onClientRequest_startedIn hc
  | chunk | snapshotResponse | snapshotFailed | failProposal => trivial

theorem runWaiting_startedIn (hw : w.Sound m g.el) (hc : c ∈ (g.runWaiting w).calls) :
    c.StartedIn (g.runWaiting w).group.el := by
  cases w with
  | lead => cases hc
  | stepDown persistState rest =>
    have hrest := (stepDownRest_talks g persistState).frame
    unfold runWaiting at hc ⊢
    dsimp only at hc ⊢
    split at hc
    · cases hc
    rw [if_neg ‹_›]
    cases rest with
    | nothing | requestVote => cases hc
    | appendEntries reply req =>
      exact appendEntriesRest_startedIn (hw.2.le.trans hrest.currentTerm.ge) hc
    | installSnapshot | failProposal =>
      obtain rfl := List.mem_singleton.mp hc
      trivial

end RaftGroup

end RollingRaft
