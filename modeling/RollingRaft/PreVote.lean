/-
# RollingRaft.PreVote — what a pre-vote round achieves.

A round is started by the election timeout and should end in a candidacy once a quorum has granted
it. Two things are in the way. A candidate that times out starts a round like everyone else, but
`HandlePreVoteResponse` drops all responses on a candidate. And the timeout does not re-arm the
election timer, so that the next tick finds it expired, starts the round again and forgets the
grants it has got. What is left is a follower that needs no second grant.
-/
import RollingRaft.Votes

namespace RollingRaft

open Lib

/-! ## §1 — Rounds. -/

/-- The event ends no round and shows no term after `t`. -/
def Event.calm (t : Term) : Event → Bool
  | .request _ (.preVote _) => true
  | .request _ req => req.term ≤ t
  | .response _ _ resp => resp.term ≤ t
  | .forwardedReadIndex u => u ≤ t
  | .preVoteTimeout | .crash | .restart _ => false
  | _ => true

/-- Who grants a pre-vote for term `u`. -/
def Event.preVoteGrant (u : Term) : Event → Option NodeId
  | .response peer (.preVote v) (.vote resp) =>
    if v = u ∧ resp.voteGranted = true then some peer else none
  | _ => none

/-- The grants for term `u` that arrive. -/
def preVoteGrants (u : Term) (es : List (Event × Env)) : Finset NodeId :=
  (es.filterMap fun e => e.1.preVoteGrant u).toFinset

namespace Process

/-- The election timer of a running voter that does not lead can go off: `election_mtx_` is free, the
node is awake and holds pre-votes. -/
structure AwaitsTimeout (p : Process) : Prop where
  up : p.group.halt = none
  free : p.waiting = none
  running : p.group.running = true
  notLeader : p.group.el.role ≠ .leader
  awake : p.group.qs.quiesced = false
  preVote : p.group.opts.preVoteEnabled = true
  voter : p.group.mem.config.isVoter p.group.serverId = true
  timer : p.group.el.electionTimerEnabled = true

def nextTerm (p : Process) : Term := add32 p.group.el.currentTerm 1

/-- The election timer goes off, and then `es` happens: the node keeps running with its
configuration, neither the round's timer goes off nor a higher term shows up, and grants for the
round arrive that are a quorum together with the node's own. `ss` are the states in between. -/
structure Round (p : Process) (env : Env) (es : List (Event × Env)) (ss : List Process) : Prop where
  fires : p.group.el.electionDeadline ≤ env.now
  trace : (system p.group.opts).trace p ((.electionTick, env) :: es) = some ss
  calm : ∀ e ∈ es, e.1.calm p.group.el.currentTerm
  steady : ∀ s ∈ ss, s.group.running = true ∧ s.group.mem.config = p.group.mem.config
  quorum : p.group.electionQuorumSatisfied
    (insert p.group.serverId (preVoteGrants p.nextTerm es)) = true

/-- The node stands for election, or has just won it, in term `t`. -/
def Stands (p : Process) (t : Term) : Prop :=
  p.group.el.role ≠ .follower ∧ p.group.el.currentTerm = t

end Process

/-! ## §2 — The timeout. -/

section Timeout

variable {g : RaftGroup}

theorem electionTick_eq (hrun : g.running = true) (htimer : g.el.electionTimerEnabled = true)
    (hfires : g.el.electionDeadline ≤ g.env.now) (hrole : g.el.role ≠ .leader)
    (hawake : g.qs.quiesced = false) (hpre : g.opts.preVoteEnabled = true) :
    g.electionTick = g.startPreVote := by
  unfold RaftGroup.electionTick RaftGroup.onElectionTimeout RaftGroup.startElection
  rw [if_pos (by simp [hrun, htimer, hfires]), if_neg (by simp [hrun, hrole]),
    if_neg (by simp [hawake]), if_pos hpre]

theorem startPreVote_eq (hself : g.electionQuorumSatisfied {g.serverId} = false) :
    g.startPreVote =
      ((g.setPreVotes ⟨true, add32 g.el.currentTerm 1, {g.serverId}⟩).broadcastPreVote, none) := by
  unfold RaftGroup.startPreVote
  dsimp only
  split
  · rename_i h
    exact absurd (hself.symm.trans h) Bool.false_ne_true
  · rfl

/-- A node that is a quorum of its own needs no round. -/
theorem startPreVote_eq_becomeCandidate (hself : g.electionQuorumSatisfied {g.serverId} = true) :
    ∃ g₁ : RaftGroup, g.startPreVote = g₁.becomeCandidate ∧
      g₁.el.currentTerm = g.el.currentTerm := by
  unfold RaftGroup.startPreVote
  dsimp only
  split
  · exact ⟨_, rfl, rfl⟩
  · exact absurd hself ‹_›

end Timeout

/-! ## §3 — A follower's round is not lost. -/

/-- A follower in a pre-vote round for the term after `t`. -/
structure InRound (opts : Options) (t : Term) (g : RaftGroup) : Prop where
  opts_eq : g.opts = opts
  role : g.el.role = .follower
  term : g.el.currentTerm = t
  isRunning : g.el.preVoteRunning = true
  roundTerm : g.el.preVoteTerm = add32 t 1
  self : opts.serverId ∈ g.el.preVotesReceived

/-- What a calm event may bring. -/
def calmMessages (t : Term) : Vouched where
  asked _ _ := True
  granted _ _ := True
  carried u := u ≤ t
  preVoteTimesOut := False
  resigns := True
  stands := True

theorem vouchedBy_of_calm {t : Term} {ev : Event} (h : ev.calm t = true) :
    ev.VouchedBy (calmMessages t) := by
  cases ev with
  | request reply req =>
    cases req with
    | preVote req => trivial
    | _ => exact ⟨trivial, of_decide_eq_true (p := _ ≤ t) h⟩
  | response peer callback resp =>
    exact ⟨of_decide_eq_true (p := resp.term ≤ t) h, fun _ _ _ _ => ⟨fun _ => trivial, fun _ => trivial⟩⟩
  | forwardedReadIndex u => exact of_decide_eq_true (p := u ≤ t) h
  | preVoteTimeout => cases h
  | persisted index ok => cases ok <;> trivial
  | _ => trivial

section Follower

variable {opts : Options} {t : Term} {g g' : RaftGroup}

theorem InRound.of_eq (h : InRound opts t g) (hopts : g'.opts = g.opts)
    (hrole : g'.el.role = g.el.role) (hterm : g'.el.currentTerm = g.el.currentTerm)
    (hpre : g'.el.preVotes = g.el.preVotes) : InRound opts t g' where
  opts_eq := hopts.trans h.opts_eq
  role := hrole.trans h.role
  term := hterm.trans h.term
  isRunning := (congrArg PreVoteState.preVoteRunning hpre).trans h.isRunning
  roundTerm := (congrArg PreVoteState.preVoteTerm hpre).trans h.roundTerm
  self := by
    have hreceived : g'.el.preVotesReceived = g.el.preVotesReceived :=
      congrArg PreVoteState.preVotesReceived hpre
    rw [hreceived]
    exact h.self

theorem InRound.frame (h : InRound opts t g) (hf : ElectionFrame g g') : InRound opts t g' :=
  h.of_eq hf.opts hf.role hf.currentTerm hf.preVotes

theorem becomeCandidate_stands (g : RaftGroup) :
    g.becomeCandidate.1.el.role ≠ .follower ∧
      g.becomeCandidate.1.el.currentTerm = add32 g.el.currentTerm 1 := by
  rcases becomeCandidate_cases g with ⟨hvotes, -⟩ | hvotes
  · refine ⟨?_, congrArg VoteState.currentTerm hvotes⟩
    rw [show g.becomeCandidate.1.el.role = .leader from congrArg VoteState.role hvotes]
    decide
  · refine ⟨?_, congrArg VoteState.currentTerm hvotes⟩
    rw [show g.becomeCandidate.1.el.role = .candidate from congrArg VoteState.role hvotes]
    decide

/-- A calm section leaves the round running or ends it in a candidacy. -/
theorem InRound.move {w : Option Waiting} (h : InRound opts t g)
    (hm : ElectionMove (calmMessages t) g g' w) :
    InRound opts t g' ∧ w = none ∨ g'.el.role ≠ .follower ∧ g'.el.currentTerm = add32 t 1 := by
  cases hm with
  | quiet hf => exact .inl ⟨h.frame hf.toElectionFrame, rfl⟩
  | preVoteTimeout hm hf => exact hm.elim
  | preVoteCounted =>
    exact .inl ⟨⟨h.opts_eq, h.role, h.term, h.isRunning, h.roundTerm,
      Finset.mem_insert_of_mem h.self⟩, rfl⟩
  | @preVoteRound g₁ hf hkeeps =>
    have hround := h.frame hf.toElectionFrame
    have hstart : InRound opts t
        (g₁.setPreVotes ⟨true, add32 g₁.el.currentTerm 1, {g₁.serverId}⟩) :=
      ⟨hround.opts_eq, hround.role, hround.term, rfl, congrArg (add32 · 1) hround.term,
        Finset.mem_singleton.mpr (congrArg Options.serverId hround.opts_eq).symm⟩
    obtain ⟨out, hout, -⟩ := broadcastPreVote_eq
      (g₁.setPreVotes ⟨true, add32 g₁.el.currentTerm 1, {g₁.serverId}⟩)
    rw [hout]
    exact .inl ⟨hstart.of_eq rfl rfl rfl rfl, rfl⟩
  | preVoteReply asked => exact .inl ⟨h.of_eq rfl rfl rfl rfl, rfl⟩
  | @vote g₁ reply req hf hterm asked hkeeps =>
    obtain ⟨hrole, hterm, -, hpre, hopts⟩ := answerVote_keeps g₁ reply req
    exact .inl ⟨(h.frame hf.toElectionFrame).of_eq hopts hrole hterm hpre, rfl⟩
  | stepDown hf hterm hrest =>
    rcases hterm with ⟨hlt, hle⟩ | ⟨-, hlead, -⟩
    · rw [h.term] at hlt
      exact absurd hlt (not_lt.mpr hle)
    · rw [h.role] at hlead
      cases hlead
  | checkQuorum hf hlead hm =>
    rw [h.role] at hlead
    cases hlead
  | @candidacy p g₁ hf hkeeps hrole hm =>
    obtain ⟨hstand, hterm⟩ := becomeCandidate_stands g₁
    refine .inr ⟨hstand, ?_⟩
    rw [hterm, hf.currentTerm]
    exact congrArg (add32 · 1) h.term
  | voteCounted hcand | elected hcand =>
    rw [h.role] at hcand
    cases hcand

variable {p p' : Process} {ev : Event} {env : Env}

theorem InRound.step (h : InRound opts t p.group) (free : p.waiting = none) (hcalm : ev.calm t = true)
    (hs : p.Step env ev p') :
    InRound opts t p'.group ∧ p'.waiting = none ∨ p'.Stands (add32 t 1) := by
  cases hs with
  | restart | crash => cases hcalm
  | resume up hw free' =>
    rw [free] at hw
    cases hw
  | run up hc free' ho =>
    obtain ⟨hframe, hnone, -⟩ := RaftGroup.runCall_frame ho
    have henter : InRound opts t (p.entered env) := h.of_eq rfl rfl rfl rfl
    exact .inl ⟨henter.frame hframe, by simp [Process.absorb, hnone, free]⟩
  | event up free' ho =>
    have henter : InRound opts t (p.entered env) := h.of_eq rfl rfl rfl rfl
    rcases henter.move (Process.event_move (vouchedBy_of_calm hcalm) ho) with ⟨hround, hnone⟩ | hstands
    · exact .inl ⟨hround, by simp [Process.absorb, hnone, free]⟩
    · exact .inr hstands

variable {v : NodeId} {es : List (Event × Env)}

theorem InRound.becomeCandidate {resp : VoteResponse} (h : InRound opts t g)
    (hrun : g.running = true) (hterm : ¬t < resp.term) (hyes : resp.voteGranted = true)
    (hquorum : g.electionQuorumSatisfied (insert v g.el.preVotesReceived) = true) :
    ∃ g₁ : RaftGroup, g.handlePreVoteResponse v resp (add32 t 1) = g₁.becomeCandidate ∧
      g₁.el.currentTerm = t := by
  unfold RaftGroup.handlePreVoteResponse
  rw [if_neg (by simp [hrun, h.isRunning]), if_neg (by simp [h.role]), if_neg (by simp [h.roundTerm]),
    if_neg (by rwa [h.term]), if_pos hyes]
  dsimp only
  split
  · exact ⟨_, rfl, h.term⟩
  · exact absurd hquorum ‹_›

/-- A grant that is a quorum with the node's own ends the round. -/
theorem InRound.grant (h : InRound opts t p.group) (hrun : p.group.running = true)
    (hgrant : ev.preVoteGrant (add32 t 1) = some v) (hcalm : ev.calm t = true)
    (hquorum : p.group.electionQuorumSatisfied {opts.serverId, v} = true) (hs : p.Step env ev p') :
    p'.Stands (add32 t 1) := by
  obtain ⟨resp, rfl, hyes⟩ : ∃ resp : VoteResponse,
      ev = .response v (.preVote (add32 t 1)) (.vote resp) ∧ resp.voteGranted = true := by
    unfold Event.preVoteGrant at hgrant
    split at hgrant
    · split at hgrant
      · cases hgrant
        rename_i hmatch
        obtain ⟨rfl, hyes⟩ := hmatch
        exact ⟨_, rfl, hyes⟩
      · cases hgrant
    · cases hgrant
  have hterm : ¬t < resp.term := not_lt.mpr (of_decide_eq_true (p := resp.term ≤ t) hcalm)
  cases hs with
  | event up free ho =>
    cases ho
    have henter : InRound opts t (p.entered env) := h.of_eq rfl rfl rfl rfl
    have hmore : (p.entered env).electionQuorumSatisfied
        (insert v (p.entered env).el.preVotesReceived) = true := by
      refine ClusterConfig.quorumSatisfied_mono ?_ hquorum
      rw [Finset.pair_comm]
      exact Finset.insert_subset_insert v (Finset.singleton_subset_iff.mpr h.self)
    obtain ⟨g₁, heq, ht⟩ := henter.becomeCandidate hrun hterm hyes hmore
    obtain ⟨hstand, hnext⟩ := becomeCandidate_stands g₁
    show ((p.entered env).handlePreVoteResponse v resp (add32 t 1)).1.el.role ≠ _ ∧
      ((p.entered env).handlePreVoteResponse v resp (add32 t 1)).1.el.currentTerm = _
    rw [heq]
    exact ⟨hstand, by rw [hnext, ht]⟩

theorem mem_preVoteGrants {u : Term} :
    v ∈ preVoteGrants u es ↔ ∃ e ∈ es, e.1.preVoteGrant u = some v := by
  simp [preVoteGrants]

/-- **A follower's round ends in a candidacy**, once a grant arrives that makes a quorum with the
node's own. -/
theorem InRound.trace {ss : List Process} (h : InRound opts t p.group) (free : p.waiting = none)
    (hrun : p.group.running = true) (htrace : (Process.system opts).trace p es = some ss)
    (hcalm : ∀ e ∈ es, e.1.calm t = true)
    (hsteady : ∀ s ∈ ss, s.group.running = true ∧ s.group.mem.config = p.group.mem.config)
    (hv : v ∈ preVoteGrants (add32 t 1) es)
    (hquorum : p.group.electionQuorumSatisfied {opts.serverId, v} = true) :
    ∃ s ∈ ss, s.Stands (add32 t 1) := by
  induction es generalizing p ss with
  | nil => simp [preVoteGrants] at hv
  | cons e es ih =>
    obtain ⟨p', ss', hn, htrace', rfl⟩ := TransitionSystem.trace_cons.mp htrace
    have hs : p.Step e.2 e.1 p' := Process.step_of_next hn
    have hce := hcalm e (List.mem_cons_self ..)
    by_cases hgrant : e.1.preVoteGrant (add32 t 1) = some v
    · exact ⟨p', List.mem_cons_self .., h.grant hrun hgrant hce hquorum hs⟩
    rcases h.step free hce hs with ⟨hround, hfree⟩ | hstands
    · obtain ⟨hrun', hconfig⟩ := hsteady p' (List.mem_cons_self ..)
      have hv' : v ∈ preVoteGrants (add32 t 1) es := by
        obtain ⟨e', he', hge⟩ := mem_preVoteGrants.mp hv
        rcases List.mem_cons.mp he' with rfl | he'
        · exact absurd hge hgrant
        · exact mem_preVoteGrants.mpr ⟨e', he', hge⟩
      obtain ⟨s, hmem, hstands⟩ := ih hround hfree hrun' htrace'
        (fun e he => hcalm e (List.mem_cons_of_mem _ he))
        (fun s hs => ⟨(hsteady s (List.mem_cons_of_mem _ hs)).1,
          (hsteady s (List.mem_cons_of_mem _ hs)).2.trans hconfig.symm⟩) hv'
        (by unfold RaftGroup.electionQuorumSatisfied at hquorum ⊢; rw [hconfig]; exact hquorum)
      exact ⟨s, List.mem_cons_of_mem _ hmem, hstands⟩
    · exact ⟨p', List.mem_cons_self .., hstands⟩

end Follower

/-! ## §4 — Rounds that lead nowhere. -/

/-- `p` has the state of `p₀` that decides what its timeouts do. -/
structure SameTimeout (p₀ p : Process) : Prop where
  up : p.group.halt = none
  free : p.waiting = none
  running : p.group.running = true
  awake : p.group.qs.quiesced = false
  timer : p.group.el.electionTimerEnabled = true
  deadline : p.group.el.electionDeadline = p₀.group.el.electionDeadline
  role : p.group.el.role = p₀.group.el.role
  term : p.group.el.currentTerm = p₀.group.el.currentTerm
  opts : p.group.opts = p₀.group.opts
  mem : p.group.mem = p₀.group.mem

/-- The round has just begun, with the node's own pre-vote. -/
def Process.RoundBegins (p₀ p : Process) : Prop :=
  p.group.el.preVotes = ⟨true, p₀.nextTerm, {p₀.group.serverId}⟩

section Stuck

variable {p₀ p : Process} {env : Env}

theorem Process.AwaitsTimeout.same (h : p₀.AwaitsTimeout) : SameTimeout p₀ p₀ :=
  ⟨h.up, h.free, h.running, h.awake, h.timer, rfl, rfl, rfl, rfl, rfl⟩

theorem canTake_e (h : p.waiting = none) : p.canTake .e = true := by
  simp [Process.canTake, Locks.e, h]

theorem SameTimeout.tick (env : Env) (h : SameTimeout p₀ p) (h₀ : p₀.AwaitsTimeout)
    (hfires : p₀.group.el.electionDeadline ≤ env.now)
    (hself : p₀.group.electionQuorumSatisfied {p₀.group.serverId} = false) :
    ∃ p', p.next (.electionTick, env) = some p' ∧ SameTimeout p₀ p' ∧ p₀.RoundBegins p' := by
  have hid : p.group.serverId = p₀.group.serverId := congrArg Options.serverId h.opts
  have htick : (p.entered env).electionTick = (((p.entered env).setPreVotes
      ⟨true, p₀.nextTerm, {p₀.group.serverId}⟩).broadcastPreVote, none) := by
    rw [electionTick_eq (g := p.entered env) h.running h.timer (h.deadline.le.trans hfires)
      (h.role.trans_ne h₀.notLeader) h.awake ((congrArg Options.preVoteEnabled h.opts).trans h₀.preVote)]
    have hnot : (p.entered env).electionQuorumSatisfied {(p.entered env).serverId} = false := by
      show p.group.mem.config.quorumSatisfied {p.group.serverId} = false
      rw [h.mem, hid]
      exact hself
    have hterm : (p.entered env).el.currentTerm = p₀.group.el.currentTerm := h.term
    have hid' : (p.entered env).serverId = p₀.group.serverId := hid
    rw [startPreVote_eq hnot, hterm, hid']
    rfl
  refine ⟨p.absorb (.ofWaiting (p.entered env).electionTick), ?_, ?_, ?_⟩
  · show (if p.group.halt.isNone && p.canTake .e then _ else none) = _
    rw [if_pos (by simp [h.up, canTake_e h.free])]
    rfl
  all_goals
    obtain ⟨out, hout, -⟩ := broadcastPreVote_eq ((p.entered env).setPreVotes
      ⟨true, p₀.nextTerm, {p₀.group.serverId}⟩)
    rw [htick, hout]
  · exact ⟨h.up, by simp [Process.absorb, SectionEnd.ofWaiting, h.free], h.running, h.awake, h.timer,
      h.deadline, h.role, h.term, h.opts, h.mem⟩
  · rfl

/-- A candidate drops the grant, and one that is not enough is only counted. -/
theorem handlePreVoteResponse_stuck (g : RaftGroup) (v : NodeId) (resp : VoteResponse) (u : Term)
    (hterm : ¬g.el.currentTerm < resp.term) (hnot : g.el.role = .follower →
      g.electionQuorumSatisfied (insert v g.el.preVotesReceived) = false) :
    ∃ received, g.handlePreVoteResponse v resp u =
      (g.setPreVotes ⟨g.el.preVoteRunning, g.el.preVoteTerm, received⟩, none) := by
  unfold RaftGroup.handlePreVoteResponse
  split
  · exact ⟨g.el.preVotesReceived, rfl⟩
  split
  · exact ⟨g.el.preVotesReceived, rfl⟩
  rename_i hrole
  have hfollower : g.el.role = .follower := by
    cases hr : g.el.role <;> simp_all
  split
  · exact ⟨g.el.preVotesReceived, rfl⟩
  split
  · dsimp only
    split
    · rename_i hq
      exact absurd ((hnot hfollower).symm.trans hq) Bool.false_ne_true
    · exact ⟨insert v g.el.preVotesReceived, rfl⟩
  · exact ⟨g.el.preVotesReceived, rfl⟩

/-- A grant that leads to no candidacy leaves the next timeout as it was. -/
theorem SameTimeout.grant (env : Env) {v : NodeId} (h : SameTimeout p₀ p) (hbegins : p₀.RoundBegins p)
    (hnot : p₀.group.el.role = .follower →
      p₀.group.electionQuorumSatisfied {p₀.group.serverId, v} = false) :
    ∃ p', p.next (.response v (.preVote p₀.nextTerm) (.vote ⟨p₀.group.el.currentTerm, true⟩), env)
      = some p' ∧ SameTimeout p₀ p' := by
  have hreceived : p.group.el.preVotesReceived = {p₀.group.serverId} :=
    congrArg PreVoteState.preVotesReceived hbegins
  obtain ⟨received, hstuck⟩ := handlePreVoteResponse_stuck (p.entered env) v
    ⟨p₀.group.el.currentTerm, true⟩ p₀.nextTerm (not_lt.mpr h.term.ge) (by
      intro hfollower
      show p.group.mem.config.quorumSatisfied (insert v p.group.el.preVotesReceived) = false
      rw [hreceived, h.mem, Finset.pair_comm]
      exact hnot (h.role.symm.trans hfollower))
  refine ⟨p.absorb (.ofWaiting ((p.entered env).handlePreVoteResponse v
    ⟨p₀.group.el.currentTerm, true⟩ p₀.nextTerm)), ?_, ?_⟩
  · show (if p.group.halt.isNone && p.canTake .e then _ else none) = _
    rw [if_pos (by simp [h.up, canTake_e h.free])]
    rfl
  · rw [hstuck]
    exact ⟨h.up, by simp [Process.absorb, SectionEnd.ofWaiting, h.free], h.running, h.awake, h.timer,
      h.deadline, h.role, h.term, h.opts, h.mem⟩

/-- The grants arrive one by one, each before the next timeout. -/
def stuckEvents (t u : Term) (env : Env) (voters : List NodeId) : List (Event × Env) :=
  voters.flatMap fun v =>
    [(.response v (.preVote u) (.vote ⟨t, true⟩), env), (.electionTick, env)]

theorem SameTimeout.stuck (voters : List NodeId) (h : SameTimeout p₀ p)
    (hbegins : p₀.RoundBegins p) (h₀ : p₀.AwaitsTimeout)
    (hfires : p₀.group.el.electionDeadline ≤ env.now)
    (hself : p₀.group.electionQuorumSatisfied {p₀.group.serverId} = false)
    (hnot : p₀.group.el.role = .follower → ∀ v ∈ voters,
      p₀.group.electionQuorumSatisfied {p₀.group.serverId, v} = false) :
    ∃ ss, (Process.system p₀.group.opts).trace p
        (stuckEvents p₀.group.el.currentTerm p₀.nextTerm env voters) = some ss ∧
      ∀ s ∈ ss, SameTimeout p₀ s := by
  induction voters generalizing p with
  | nil => exact ⟨[], rfl, by simp⟩
  | cons v voters ih =>
    obtain ⟨p₁, hn₁, hsame₁⟩ := h.grant env hbegins fun hf => hnot hf v (List.mem_cons_self ..)
    obtain ⟨p₂, hn₂, hsame₂, hbegins₂⟩ := hsame₁.tick env h₀ hfires hself
    obtain ⟨ss, htrace, hall⟩ := ih hsame₂ hbegins₂ fun hf w hw => hnot hf w (List.mem_cons_of_mem _ hw)
    refine ⟨p₁ :: p₂ :: ss, ?_, ?_⟩
    · exact TransitionSystem.trace_cons.mpr ⟨p₁, _, hn₁,
        TransitionSystem.trace_cons.mpr ⟨p₂, _, hn₂, htrace, rfl⟩, rfl⟩
    · intro s hs
      rcases List.mem_cons.mp hs with rfl | hs
      · exact hsame₁
      · rcases List.mem_cons.mp hs with rfl | hs
        · exact hsame₂
        · exact hall s hs

end Stuck

/-! ## §5 — When a round succeeds. -/

section Rounds

variable {p : Process} {env : Env} {es : List (Event × Env)} {ss : List Process}

/-- The state after the timeout: the node stands already, or is in a round. -/
theorem Process.Round.begin (h : p.AwaitsTimeout) (hr : p.Round env es ss) :
    ∃ p₁ ss', ss = p₁ :: ss' ∧ (Process.system p.group.opts).trace p₁ es = some ss' ∧
      p₁ = p.absorb (.ofWaiting (p.entered env).startPreVote) := by
  obtain ⟨p₁, ss', hn, htrace, rfl⟩ := TransitionSystem.trace_cons.mp hr.trace
  refine ⟨p₁, ss', rfl, htrace, ?_⟩
  have hs : p.Step env .electionTick p₁ := Process.step_of_next hn
  cases hs with
  | event up free ho =>
    cases ho
    rw [electionTick_eq (g := p.entered env) h.running h.timer hr.fires h.notLeader h.awake h.preVote]

theorem round_stands_of_self (h : p.AwaitsTimeout) (hr : p.Round env es ss)
    (hself : p.group.electionQuorumSatisfied {p.group.serverId} = true) :
    ∃ s ∈ ss, s.Stands p.nextTerm := by
  obtain ⟨p₁, ss', rfl, -, rfl⟩ := hr.begin h
  refine ⟨_, List.mem_cons_self .., ?_⟩
  obtain ⟨g₁, heq, hterm⟩ := startPreVote_eq_becomeCandidate (g := p.entered env) hself
  obtain ⟨hstand, hnext⟩ := becomeCandidate_stands g₁
  show (p.entered env).startPreVote.1.el.role ≠ _ ∧ (p.entered env).startPreVote.1.el.currentTerm = _
  rw [heq]
  exact ⟨hstand, by rw [hnext, hterm]; rfl⟩

theorem round_stands_of_follower {v : NodeId} (h : p.AwaitsTimeout) (hr : p.Round env es ss)
    (hrole : p.group.el.role = .follower)
    (hself : p.group.electionQuorumSatisfied {p.group.serverId} = false)
    (hv : v ∈ preVoteGrants p.nextTerm es)
    (hquorum : p.group.electionQuorumSatisfied {p.group.serverId, v} = true) :
    ∃ s ∈ ss, s.Stands p.nextTerm := by
  obtain ⟨p₁, ss', rfl, htrace, rfl⟩ := hr.begin h
  obtain ⟨out, hout, -⟩ := broadcastPreVote_eq ((p.entered env).setPreVotes
    ⟨true, add32 p.group.el.currentTerm 1, {p.group.serverId}⟩)
  have hbegin : (p.entered env).startPreVote = ({ (p.entered env).setPreVotes
      ⟨true, add32 p.group.el.currentTerm 1, {p.group.serverId}⟩ with out := out }, none) :=
    (startPreVote_eq (g := p.entered env) hself).trans (Prod.ext hout rfl)
  rw [hbegin] at htrace ⊢
  have hround : InRound p.group.opts p.group.el.currentTerm ({ (p.entered env).setPreVotes
        ⟨true, add32 p.group.el.currentTerm 1, {p.group.serverId}⟩ with out := out } : RaftGroup) :=
    ⟨rfl, hrole, rfl, rfl, rfl, Finset.mem_singleton_self _⟩
  obtain ⟨s, hs, hstands⟩ := InRound.trace (p := p.absorb (.ofWaiting (_, none))) hround
    (by simp [Process.absorb, SectionEnd.ofWaiting, h.free]) h.running htrace hr.calm
    (fun s hs => hr.steady s (List.mem_cons_of_mem _ hs)) hv hquorum
  exact ⟨s, List.mem_cons_of_mem _ hs, hstands⟩

theorem mem_stuckEvents {t u : Term} {voters : List NodeId} {e : Event × Env}
    (he : e ∈ stuckEvents t u env voters) :
    (∃ v ∈ voters, e = (.response v (.preVote u) (.vote ⟨t, true⟩), env)) ∨ e = (.electionTick, env) := by
  obtain ⟨v, hv, he⟩ := List.mem_flatMap.mp he
  rcases List.mem_cons.mp he with rfl | he
  · exact .inl ⟨v, hv, rfl⟩
  · exact .inr (List.mem_singleton.mp he)

/-- A round that leads nowhere, whenever the grants have to be more than one or go to a candidate. -/
theorem exists_stuck_round (voters : Finset NodeId) (h : p.AwaitsTimeout)
    (hself : p.group.electionQuorumSatisfied {p.group.serverId} = false)
    (hquorum : p.group.electionQuorumSatisfied (insert p.group.serverId voters) = true)
    (hnot : p.group.el.role = .follower → ∀ v ∈ voters,
      p.group.electionQuorumSatisfied {p.group.serverId, v} = false) :
    ∃ env es ss, p.Round env es ss ∧ ∀ s ∈ ss, ¬s.Stands p.nextTerm := by
  let env : Env := { now := p.group.el.electionDeadline }
  obtain ⟨p₁, hn, hsame, hbegins⟩ := h.same.tick env h le_rfl hself
  obtain ⟨ss, htrace, hall⟩ := hsame.stuck voters.toList hbegins h (le_refl env.now) hself
    fun hf v hv => hnot hf v (Finset.mem_toList.mp hv)
  have hsame' : ∀ s ∈ p₁ :: ss, SameTimeout p s := by
    intro s hs
    rcases List.mem_cons.mp hs with rfl | hs
    · exact hsame
    · exact hall s hs
  refine ⟨env, stuckEvents p.group.el.currentTerm p.nextTerm env voters.toList, p₁ :: ss, ⟨le_rfl, ?_, ?_, ?_, ?_⟩, ?_⟩
  · exact TransitionSystem.trace_cons.mpr ⟨p₁, ss, hn, htrace, rfl⟩
  · intro e he
    rcases mem_stuckEvents he with ⟨v, -, rfl⟩ | rfl
    · exact decide_eq_true (le_refl p.group.el.currentTerm)
    · rfl
  · exact fun s hs => ⟨(hsame' s hs).running, congrArg MembershipState.config (hsame' s hs).mem⟩
  · refine ClusterConfig.quorumSatisfied_mono (Finset.insert_subset_insert _ ?_) hquorum
    intro v hv
    refine mem_preVoteGrants.mpr ⟨_, List.mem_flatMap.mpr ⟨v, Finset.mem_toList.mpr hv,
      List.mem_cons_self ..⟩, ?_⟩
    simp [Event.preVoteGrant]
  · intro s hs hstands
    exact add32_one_ne p.group.el.currentTerm (hstands.2.symm.trans (hsame' s hs).term)

/-- **Pre-vote.** Every round of a node ends in a candidacy exactly when the node is a quorum of its
own, or is a follower that needs one more grant at most. -/
theorem preVote_round_stands_iff (h : p.AwaitsTimeout) :
    (∀ env es ss, p.Round env es ss → ∃ s ∈ ss, s.Stands p.nextTerm) ↔
      p.group.electionQuorumSatisfied {p.group.serverId} = true ∨
        ∀ voters : Finset NodeId,
          p.group.electionQuorumSatisfied (insert p.group.serverId voters) = true →
            p.group.el.role = .follower ∧
              ∃ v ∈ voters, p.group.electionQuorumSatisfied {p.group.serverId, v} = true := by
  constructor
  · intro hall
    by_contra hnot
    rw [not_or] at hnot
    obtain ⟨hself, hvoters⟩ := hnot
    obtain ⟨voters, hvoters⟩ := not_forall.mp hvoters
    obtain ⟨hquorum, hstuck⟩ := Classical.not_imp.mp hvoters
    obtain ⟨env, es, ss, hr, hno⟩ := exists_stuck_round voters h (by simpa using hself) hquorum (by
        intro hf v hv
        by_contra hq
        exact hstuck ⟨hf, v, hv, by simpa using hq⟩)
    obtain ⟨s, hs, hstands⟩ := hall env es ss hr
    exact hno s hs hstands
  · intro hcond env es ss hr
    by_cases hself : p.group.electionQuorumSatisfied {p.group.serverId} = true
    · exact round_stands_of_self h hr hself
    obtain ⟨hrole, v, hv, hquorum⟩ := hcond.resolve_left hself _ hr.quorum
    exact round_stands_of_follower h hr hrole (by simpa using hself) hv hquorum

end Rounds

instance (p : Process) : Decidable p.AwaitsTimeout :=
  decidable_of_iff (p.group.halt = none ∧ p.waiting = none ∧ p.group.running = true ∧
      p.group.el.role ≠ .leader ∧ p.group.qs.quiesced = false ∧
      p.group.opts.preVoteEnabled = true ∧ p.group.mem.config.isVoter p.group.serverId = true ∧
      p.group.el.electionTimerEnabled = true)
    ⟨fun ⟨a, b, c, d, e, f, g, h⟩ => ⟨a, b, c, d, e, f, g, h⟩,
      fun ⟨a, b, c, d, e, f, g, h⟩ => ⟨a, b, c, d, e, f, g, h⟩⟩

instance (p : Process) (t : Term) : Decidable (p.Stands t) :=
  inferInstanceAs (Decidable (_ ∧ _))

/-- Node 1 is started, becomes a candidate, and gets no votes. -/
def splitVote : List (Event × Env) :=
  [ (.restart {}, { now := 0 }), (.electionTick, { now := 400 }),
    (.response 2 (.preVote 1) (.vote ⟨0, true⟩), { now := 410 }) ]

/-- Both others grant the next round. -/
def nextRound : List (Event × Env) :=
  [ (.response 2 (.preVote 2) (.vote ⟨1, true⟩), { now := 810 }),
    (.response 3 (.preVote 2) (.vote ⟨1, true⟩), { now := 820 }) ]

/-- After a split vote, a node whose timeout is followed by grants from everyone does not stand
again. -/
theorem candidate_drops_preVotes :
    ∃ p env es ss, (Process.system nodeOne).Reachable p ∧ p.AwaitsTimeout ∧ p.Round env es ss ∧
      ∀ s ∈ ss, ¬s.Stands p.nextTerm := by
  obtain ⟨p, hreach, hawaits, hfires, hcalm, hquorum, ss, htrace, hall⟩ :=
    (Process.system nodeOne).reaches splitVote rfl (P := fun p => p.AwaitsTimeout ∧
      p.group.el.electionDeadline ≤ 800 ∧
      (∀ e ∈ nextRound, e.1.calm p.group.el.currentTerm = true) ∧
      p.group.electionQuorumSatisfied
        (insert p.group.serverId (preVoteGrants p.nextTerm nextRound)) = true ∧
      ∃ ss ∈ (Process.system p.group.opts).trace p ((.electionTick, { now := 800 }) :: nextRound),
        ∀ s ∈ ss, (s.group.running = true ∧ s.group.mem.config = p.group.mem.config) ∧
          ¬s.Stands p.nextTerm) (by decide +kernel)
  exact ⟨p, { now := 800 }, nextRound, ss, hreach, hawaits,
    ⟨hfires, htrace, hcalm, fun s hs => (hall s hs).1, hquorum⟩, fun s hs => (hall s hs).2⟩

theorem preVote_round_stands_iff_started :
    ∃ p, (Process.system nodeOne).Reachable p ∧ p.AwaitsTimeout ∧
      ((∀ env es ss, p.Round env es ss → ∃ s ∈ ss, s.Stands p.nextTerm) ↔
        p.group.electionQuorumSatisfied {p.group.serverId} = true ∨
          ∀ voters : Finset NodeId,
            p.group.electionQuorumSatisfied (insert p.group.serverId voters) = true →
              p.group.el.role = .follower ∧
                ∃ v ∈ voters, p.group.electionQuorumSatisfied {p.group.serverId, v} = true) := by
  obtain ⟨p, hreach, hawaits⟩ := (Process.system nodeOne).reaches [(.restart {}, { now := 0 })] rfl
    (P := Process.AwaitsTimeout) (by decide +kernel)
  exact ⟨p, hreach, hawaits, preVote_round_stands_iff hawaits⟩

end RollingRaft
