/-
# RollingRaft.Votes — one node's votes as a ballot that only grows.

The term and vote in memory are a ballot (`ballot`), those on disk another (`durable`). The code
keeps the durable ballot below the one in memory, makes a vote durable before it tells anyone, and
stands for election only with its own vote durable. `VoteInv` says so; every step of a node that is
up keeps it, and a node that aborted in the middle of a save gets it back when it restarts.
-/
import RollingRaft.Lib.Ballot
import RollingRaft.Steps

namespace RollingRaft

open Lib

/-! ## §1 — Ballots and told votes. -/

/-- `-1` is nobody. -/
def voteOf (v : NodeId) : Option NodeId := if v = -1 then none else some v

theorem voteOf_of_ne {v : NodeId} (h : v ≠ -1) : voteOf v = some v := if_neg h

def PersistentState.ballot (s : PersistentState) : Ballot NodeId :=
  ⟨s.currentTerm, voteOf s.votedFor⟩

/-- An act does not misrepresent node `i`: its vote requests name it, and each comes with the
callback of its kind. -/
def Act.Honest (i : NodeId) : Act → Prop
  | .sent _ (.requestVote req) callback => req.candidateId = i ∧ callback = .vote req.term
  | .sent _ (.preVote req) callback => callback = .preVote req.term
  | _ => True

/-- The act tells the node `x` that it has the vote in term `t`. -/
def Act.Tells (t : Term) (x : NodeId) (a : Act) : Prop :=
  ∃ resp : VoteResponse, a = .replied ⟨x, .vote t⟩ (.vote resp) ∧ resp.voteGranted = true

namespace RaftGroup

def ballot (g : RaftGroup) : Ballot NodeId := ⟨g.el.currentTerm, voteOf g.el.votedFor⟩

def durable (g : RaftGroup) : Ballot NodeId := (g.disk.map PersistentState.ballot).getD ⟨0, none⟩

/-- The node has told `x` that it has its vote in term `t`. -/
def Cast (g : RaftGroup) (t : Term) (x : NodeId) : Prop := ∃ o ∈ g.out, o.act.Tells t x

end RaftGroup

/-! ## §2 — Steps that leave the ballot alone. -/

/-- The ballot stays, the disk keeps its ballot or gets this one, no vote is told, and nobody
becomes a candidate or leader who was neither. -/
structure BallotFrame (i : NodeId) (g g' : RaftGroup) : Prop where
  opts : g'.opts = g.opts
  ballot : g'.ballot = g.ballot
  stands : g'.el.role ≠ .follower → g.el.role ≠ .follower
  durable : g'.durable = g.durable ∨ g'.durable = g.ballot
  out : ∃ new, g'.out = g.out ++ new ∧ ∀ o ∈ new, o.act.Honest i ∧ ∀ t x, ¬o.act.Tells t x

theorem Act.Ordinary.honest {t : Term} {a : Act} (h : a.Ordinary t) (i : NodeId) : a.Honest i := by
  cases a with
  | sent peer req callback =>
    cases req with
    | requestVote | preVote => cases h.1
    | appendEntries | installSnapshot => trivial
  | _ => trivial

theorem Act.Ordinary.not_tells {t u : Term} {x : NodeId} {a : Act} (h : a.Ordinary t) :
    ¬a.Tells u x := by
  rintro ⟨resp, rfl, -⟩
  exact h

namespace BallotFrame

variable {i : NodeId} {g g' g'' : RaftGroup}

theorem of_eq (opts : g'.opts = g.opts) (ballot : g'.ballot = g.ballot)
    (stands : g'.el.role ≠ .follower → g.el.role ≠ .follower) (disk : g'.disk = g.disk)
    (out : g'.out = g.out) : BallotFrame i g g' :=
  ⟨opts, ballot, stands, .inl (congrArg (fun d => (d.map PersistentState.ballot).getD ⟨0, none⟩) disk),
    GoesOn.of_eq out⟩

theorem refl (g : RaftGroup) : BallotFrame i g g := of_eq rfl rfl id rfl rfl

theorem trans (h : BallotFrame i g g') (h' : BallotFrame i g' g'') : BallotFrame i g g'' where
  opts := h'.opts.trans h.opts
  ballot := h'.ballot.trans h.ballot
  stands hs := h.stands (h'.stands hs)
  durable := by
    rcases h'.durable with hd | hd
    · rw [hd]; exact h.durable
    · exact .inr (hd.trans h.ballot)
  out := GoesOn.trans h.out h'.out

theorem of_frame (h : ElectionFrame g g') : BallotFrame i g g' where
  opts := h.opts
  ballot := by unfold RaftGroup.ballot; rw [h.currentTerm, h.votedFor]
  stands hs := by rwa [← h.role]
  durable := by
    unfold RaftGroup.durable
    rcases h.disk with hd | ⟨c, hd⟩
    · rw [hd]; exact .inl rfl
    · rw [hd]; exact .inr rfl
  out := GoesOn.mono h.out fun _ hmade => ⟨hmade.2.2.honest i, fun _ _ => hmade.2.2.not_tells⟩

theorem emit (g : RaftGroup) {a : Act} (honest : a.Honest i) (silent : ∀ t x, ¬a.Tells t x) :
    BallotFrame i g (g.emit a) :=
  ⟨rfl, rfl, id, .inl rfl, GoesOn.single ⟨honest, silent⟩⟩

theorem cast (h : BallotFrame i g g') {t : Term} {x : NodeId} (hc : g'.Cast t x) : g.Cast t x := by
  obtain ⟨o, ho, htells⟩ := hc
  rcases GoesOn.mem_or h.out ho with ho | hmade
  · exact ⟨o, ho, htells⟩
  · exact absurd htells (hmade.2 t x)

/-- The votes are broadcast by an honest candidate, one message after the other. -/
theorem foldl {α : Type*} {f : RaftGroup → α → RaftGroup} (l : List α)
    (hf : ∀ g, g.serverId = i → ∀ a, BallotFrame i g (f g a)) (hg : g.serverId = i) :
    BallotFrame i g (l.foldl f g) := by
  induction l generalizing g with
  | nil => exact refl g
  | cons a l ih =>
    have hstep := hf g hg a
    refine hstep.trans (ih ?_)
    unfold RaftGroup.serverId at hg ⊢
    rw [hstep.opts, hg]

end BallotFrame

/-! ## §3 — The invariant of one node. -/

/-- What is true of a node's history, even while the node is down. -/
structure VotesRecorded (i : NodeId) (g : RaftGroup) : Prop where
  self : g.serverId = i
  honest : ∀ o ∈ g.out, o.act.Honest i
  ok : VoterOk g.durable g.Cast

/-- The votes of a node that is up. -/
structure VoteInv (i : NodeId) (g : RaftGroup) : Prop extends VotesRecorded i g where
  durable_le : g.durable ≤ g.ballot
  standing : g.el.role ≠ .follower → g.durable = ⟨g.el.currentTerm, some i⟩

/-- One step of a node, as its votes see it. -/
structure VoteStep (i : NodeId) (g g' : RaftGroup) : Prop where
  keeps : ∀ o ∈ g.out, o ∈ g'.out
  voter : VoterStep g.durable g'.durable g.Cast g'.Cast
  recorded : VotesRecorded i g'
  up : g'.halt = none → VoteInv i g'

/-- A part of a step that tells no vote. -/
structure SilentStep (g g' : RaftGroup) : Prop where
  keeps : ∀ o ∈ g.out, o ∈ g'.out
  grows : g.durable ≤ g'.durable
  cast : ∀ {t x}, g'.Cast t x → g.Cast t x

/-- What the network guarantees about vote requests: they come from their candidate. -/
structure Vouched.Trusted (m : Vouched) : Prop where
  vote : ∀ {reply req}, m.asked reply (.requestVote req) →
    reply = ⟨req.candidateId, .vote req.term⟩ ∧ req.candidateId ≠ -1
  preVote : ∀ {reply req}, m.asked reply (.preVote req) → reply.callback = .preVote req.term

section Step

variable {m : Vouched} {i : NodeId} {g g' g₁ : RaftGroup}

theorem VoteInv.ballot_eq (h : VoteInv i g) (hrole : g.el.role ≠ .follower) :
    g.ballot = g.durable := by
  have hd := h.standing hrole
  have hle := h.durable_le
  rw [hd] at hle ⊢
  rcases hle with hlt | ⟨-, hv | hv⟩
  · exact absurd hlt (lt_irrefl g.el.currentTerm)
  · cases hv
  · exact congrArg (Ballot.mk g.el.currentTerm) hv.symm

theorem BallotFrame.voterStep (hle : g.durable ≤ g.ballot) (h : BallotFrame i g g') :
    VoterStep g.durable g'.durable g.Cast g'.Cast where
  grows := by
    rcases h.durable with hd | hd
    · exact hd.ge
    · rw [hd]; exact hle
  tells hc := .inl (h.cast hc)

theorem VotesRecorded.frame (hr : VotesRecorded i g) (hle : g.durable ≤ g.ballot)
    (h : BallotFrame i g g') : VotesRecorded i g' where
  self := by
    unfold RaftGroup.serverId
    rw [h.opts]
    exact hr.self
  honest o ho := (GoesOn.mem_or h.out ho).elim (hr.honest o) And.left
  ok := hr.ok.step (h.voterStep hle)

theorem VoteInv.frame (hv : VoteInv i g) (h : BallotFrame i g g') : VoteInv i g' where
  toVotesRecorded := hv.toVotesRecorded.frame hv.durable_le h
  durable_le := by
    rw [h.ballot]
    rcases h.durable with hd | hd
    · rw [hd]; exact hv.durable_le
    · exact hd.le
  standing hrole := by
    have hterm : g'.el.currentTerm = g.el.currentTerm := congrArg Ballot.term h.ballot
    have hstood := h.stands hrole
    rw [hterm, ← hv.standing hstood]
    rcases h.durable with hd | hd
    · exact hd
    · exact hd.trans (hv.ballot_eq hstood)

theorem VoteInv.stepFrame (hv : VoteInv i g) (h : BallotFrame i g g') : VoteStep i g g' :=
  ⟨fun _ => GoesOn.mem h.out, h.voterStep hv.durable_le, (hv.frame h).toVotesRecorded, fun _ => hv.frame h⟩

theorem BallotFrame.silentStep (hle : g.durable ≤ g.ballot) (h : BallotFrame i g g') :
    SilentStep g g' :=
  ⟨fun _ => GoesOn.mem h.out, (h.voterStep hle).grows, h.cast⟩

theorem SilentStep.of_eq (disk : g'.disk = g.disk) (out : g'.out = g.out) : SilentStep g g' where
  keeps o ho := out ▸ ho
  grows := (congrArg (fun d => (d.map PersistentState.ballot).getD ⟨0, none⟩) disk).ge
  cast hc := by
    unfold RaftGroup.Cast at hc ⊢
    rwa [out] at hc

theorem SilentStep.trans (h : SilentStep g g₁) (h' : SilentStep g₁ g') : SilentStep g g' :=
  ⟨fun o ho => h'.keeps o (h.keeps o ho), h.grows.trans h'.grows, fun hc => h.cast (h'.cast hc)⟩

theorem VoteStep.after (h : VoteStep i g₁ g') (hs : SilentStep g g₁) : VoteStep i g g' where
  keeps o ho := h.keeps o (hs.keeps o ho)
  voter := ⟨hs.grows.trans h.voter.grows, fun hc => (h.voter.tells hc).imp hs.cast id⟩
  recorded := h.recorded
  up := h.up

theorem VotesRecorded.stepRefl (hr : VotesRecorded i g) (hup : g.halt = none → VoteInv i g) :
    VoteStep i g g :=
  ⟨fun _ ho => ho, .refl _ _, hr, hup⟩

theorem VoteStep.after_frame (h : VoteStep i g₁ g') (hv : VoteInv i g) (hf : BallotFrame i g g₁) :
    VoteStep i g g' :=
  h.after (hf.silentStep hv.durable_le)

theorem setPreVotes_ballotFrame (g : RaftGroup) (p : PreVoteState) :
    BallotFrame i g (g.setPreVotes p) :=
  .of_eq rfl rfl id rfl rfl

/-- The ballot in memory may run ahead of the disk: stepping down to a later term. -/
theorem VoteInv.stepDownElection {t : Term} (hv : VoteInv i g) (ht : g.el.currentTerm ≤ t) :
    VoteInv i (g.stepDownElection t) where
  toVotesRecorded := ⟨hv.self, hv.honest, hv.ok⟩
  durable_le := by
    refine hv.durable_le.trans ?_
    rcases ht.lt_or_eq with hlt | rfl
    · exact Ballot.le_of_term_lt hlt
    · exact le_of_eq (by simp [RaftGroup.ballot, RaftGroup.stepDownElection])
  standing hrole := absurd rfl hrole

/-- A save writes the ballot or leaves the disk as it was. -/
theorem saveState_durable (g : RaftGroup) :
    g.saveState.1.durable = g.ballot ∨ g.saveState.2 = false ∧ g.saveState.1.durable = g.durable := by
  unfold RaftGroup.saveState
  split
  · exact .inl rfl
  · exact .inl rfl
  · exact .inr ⟨rfl, rfl⟩

theorem saveState_ok (h : g.saveState.2 = true) : g.saveState.1.durable = g.ballot := by
  rcases saveState_durable g with hd | ⟨hf, -⟩
  · exact hd
  · rw [h] at hf
    cases hf

/-! ## §4 — Standing for election and voting. -/

theorem VoteInv.emit {a : Act} (hv : VoteInv i g) (honest : a.Honest i)
    (htells : ∀ t x, a.Tells t x → g.durable = ⟨t, some x⟩) : VoteStep i g (g.emit a) := by
  have hmem : ∀ {o : Output}, o ∈ (g.emit a).out → o ∈ g.out ∨ o.act = a := by
    intro o ho
    refine (List.mem_append.mp ho).imp id fun ho => ?_
    rw [List.mem_singleton.mp ho]
  have hvoter : VoterStep g.durable (g.emit a).durable g.Cast (g.emit a).Cast := by
    refine ⟨le_rfl, ?_⟩
    rintro t x ⟨o, ho, ht⟩
    rcases hmem ho with ho | rfl
    · exact .inl ⟨o, ho, ht⟩
    · exact .inr (htells t x ht)
  have hrecorded : VotesRecorded i (g.emit a) := by
    refine ⟨hv.self, ?_, hv.ok.step hvoter⟩
    intro o ho
    rcases hmem ho with ho | rfl
    · exact hv.honest o ho
    · exact honest
  exact ⟨fun _ => List.mem_append_left _, hvoter, hrecorded,
    fun _ => ⟨hrecorded, hv.durable_le, hv.standing⟩⟩

theorem broadcastRequestVote_ballotFrame (hg : g.serverId = i) :
    BallotFrame i g g.broadcastRequestVote := by
  refine .foldl _ (fun g hg peer => .emit g ⟨hg, rfl⟩ ?_) hg
  rintro t x ⟨resp, hr, -⟩
  cases hr

theorem broadcastPreVote_ballotFrame (hg : g.serverId = i) :
    BallotFrame i g g.broadcastPreVote := by
  refine .foldl _ (fun g hg peer => .emit g rfl ?_) hg
  rintro t x ⟨resp, hr, -⟩
  cases hr

/-- A candidate's own vote is on disk before anyone is asked; a failed save aborts. -/
theorem VoteInv.becomeCandidate (hv : VoteInv i g) (hi : i ≠ -1)
    (hterm : g.el.currentTerm < 2 ^ 32 - 1) : VoteStep i g g.becomeCandidate.1 := by
  have hballot : g.candidacy.ballot = ⟨g.el.currentTerm + 1, some i⟩ := by
    show (⟨add32 g.el.currentTerm 1, voteOf g.serverId⟩ : Ballot NodeId) = _
    rw [hv.self, voteOf_of_ne hi, add32_of_lt (Nat.lt_sub_iff_add_lt.mp hterm)]
  have hle : g.candidacy.durable ≤ g.candidacy.ballot := by
    refine hv.durable_le.trans ?_
    rw [hballot]
    exact Ballot.le_of_term_lt (Nat.lt_succ_self _)
  have hsave : BallotFrame i g.candidacy g.candidacy.saveState.1 := .of_frame (.saveState _)
  have hcandidate : VotesRecorded i g.candidacy := ⟨hv.self, hv.honest, hv.ok⟩
  have hrecorded := hcandidate.frame hle hsave
  have hstand : SilentStep g g.candidacy := .of_eq rfl rfl
  have hsilent := hstand.trans (hsave.silentStep hle)
  have hsaved : g.candidacy.saveState.2 = true → VoteInv i g.candidacy.saveState.1 := by
    intro hok
    have hd := saveState_ok hok
    have ht : g.candidacy.saveState.1.el.currentTerm = g.el.currentTerm + 1 :=
      congrArg Ballot.term (hsave.ballot.trans hballot)
    exact ⟨hrecorded, (hd.trans hsave.ballot.symm).le, fun _ => by rw [hd, hballot, ht]⟩
  have hrole : g.candidacy.saveState.1.el.role = .candidate :=
    (ElectionFrame.saveState g.candidacy).role
  unfold RaftGroup.becomeCandidate
  dsimp only
  split
  · exact ⟨hsilent.keeps, ⟨hsilent.grows, fun hc => .inl (hsilent.cast hc)⟩, 
      ⟨hrecorded.self, hrecorded.honest, hrecorded.ok⟩, fun hup => by cases hup⟩
  have hinv := hsaved (by simpa using ‹¬(!g.candidacy.saveState.2) = true›)
  split
  · refine VoteStep.after (hinv.stepFrame ?_) hsilent
    exact .of_eq rfl rfl (fun _ => by rw [hrole]; decide) rfl rfl
  refine VoteStep.after (hinv.stepFrame ?_) hsilent
  exact (broadcastRequestVote_ballotFrame hinv.self).trans (.of_eq rfl rfl id rfl rfl)

/-- `voted_for_ = candidate`, not yet saved. -/
def RaftGroup.takeVote (g : RaftGroup) (candidate : NodeId) : RaftGroup :=
  { g with el := { g.el with votedFor := candidate } }

variable {c : NodeId}

theorem takeVote_ballot (hc : c ≠ -1) : (g.takeVote c).ballot = ⟨g.el.currentTerm, some c⟩ := by
  show (⟨g.el.currentTerm, voteOf c⟩ : Ballot NodeId) = _
  rw [voteOf_of_ne hc]

/-- The two ways `HandleRequestVote` ends: nothing changes and the answer is no, or the vote is taken
and the answer is yes exactly when it is saved. -/
theorem voteRest_cases (g : RaftGroup) (req : RequestVoteRequest) :
    (g.voteRest req).1 = g ∧ (g.voteRest req).2.voteGranted = false ∨
      g.el.currentTerm ≤ req.term ∧
      (g.el.votedFor = -1 ∨ g.el.votedFor = req.candidateId) ∧
      (g.voteRest req).1 = (g.takeVote req.candidateId).resetElectionTimer.saveState.1 ∧
      (g.voteRest req).2.voteGranted =
        (g.takeVote req.candidateId).resetElectionTimer.saveState.2 := by
  unfold RaftGroup.voteRest
  split
  · exact .inl ⟨rfl, rfl⟩
  split
  · exact .inl ⟨rfl, rfl⟩
  split
  · exact .inl ⟨rfl, rfl⟩
  split
  · exact .inl ⟨rfl, rfl⟩
  split
  · rename_i hterm _ _ _ hfree
    exact .inr ⟨not_lt.mp hterm, by simpa using hfree, rfl, rfl⟩
  · exact .inl ⟨rfl, rfl⟩

/-- A vote may be taken when there is none, or again. -/
theorem VoteInv.takeVote (hv : VoteInv i g) (hc : c ≠ -1)
    (hfree : g.el.votedFor = -1 ∨ g.el.votedFor = c) : VoteInv i (g.takeVote c) where
  toVotesRecorded := ⟨hv.self, hv.honest, hv.ok⟩
  durable_le := by
    refine hv.durable_le.trans ?_
    rw [takeVote_ballot hc]
    refine .inr ⟨rfl, ?_⟩
    rcases hfree with hnone | rfl
    · exact .inl (by simp [RaftGroup.ballot, voteOf, hnone])
    · exact .inr (voteOf_of_ne hc)
  standing := hv.standing

/-- **A vote that is granted is on disk.** -/
theorem VoteInv.answerVote {reply : ReplyTo} {req : RequestVoteRequest} (hv : VoteInv i g)
    (hterm : req.term ≤ g.el.currentTerm) (hreply : reply = ⟨req.candidateId, .vote req.term⟩)
    (hcand : req.candidateId ≠ -1) : VoteStep i g (g.answerVote reply req) := by
  show VoteStep i g ((g.voteRest req).1.emit (.replied reply (.vote (g.voteRest req).2)))
  rcases voteRest_cases g req with ⟨hsame, hno⟩ | ⟨hge, hfree, hsaved, hyes⟩
  · rw [hsame]
    refine hv.emit trivial ?_
    rintro t x ⟨resp, hr, hgranted⟩
    obtain ⟨-, rfl⟩ : _ ∧ (g.voteRest req).2 = resp := by simpa using hr
    rw [hno] at hgranted
    cases hgranted
  · have htaken := hv.takeVote hcand hfree
    have hsave : BallotFrame i (g.takeVote req.candidateId)
        (g.takeVote req.candidateId).resetElectionTimer.saveState.1 :=
      .of_frame ((RaftGroup.resetElectionTimer_talks _).frame.toElectionFrame.trans (.saveState _))
    have hsilent : SilentStep g (g.takeVote req.candidateId) := .of_eq rfl rfl
    rw [hsaved]
    refine VoteStep.after ((htaken.frame hsave).emit trivial ?_)
      (hsilent.trans (hsave.silentStep htaken.durable_le))
    rintro t x ⟨resp, hr, hgranted⟩
    obtain ⟨hr, rfl⟩ : reply = ⟨x, .vote t⟩ ∧ (g.voteRest req).2 = resp := by simpa using hr
    obtain ⟨rfl, rfl⟩ : req.candidateId = x ∧ req.term = t := by
      rw [hreply] at hr
      simpa using hr
    rw [hyes] at hgranted
    rw [saveState_ok hgranted, le_antisymm hterm hge]
    exact takeVote_ballot hcand

theorem start_eq (g : RaftGroup) (recovered : Recovered) :
    ∃ g₁ : RaftGroup, g.start recovered =
      (g₁.stepDownElection g₁.el.currentTerm).stepDownRest true ∧ g₁.opts = g.opts ∧
      g₁.disk = g.disk ∧ g₁.out = g.out ∧ g₁.ballot = g.durable ∧ g₁.el.role = .follower := by
  refine ⟨_, rfl, ?_⟩
  unfold RaftGroup.loadSnapshot RaftGroup.loadState RaftGroup.durable
  cases recovered.snapshot <;> cases hdisk : g.disk <;>
    simp [RaftGroup.loadLog, RaftGroup.fresh, RaftGroup.ballot, PersistentState.ballot, voteOf,
      hdisk]

/-- A node comes back with the ballot on its disk. -/
theorem VotesRecorded.start (hr : VotesRecorded i g) (recovered : Recovered) :
    VoteStep i g (g.start recovered) := by
  obtain ⟨g₁, hstart, hopts, hdisk, hout, hballot, hrole⟩ := start_eq g recovered
  have hdurable : g₁.durable = g.durable :=
    congrArg (fun d => (d.map PersistentState.ballot).getD ⟨0, none⟩) hdisk
  have hsilent : SilentStep g g₁ := .of_eq hdisk hout
  have hloaded : VoteInv i g₁ := by
    refine ⟨⟨?_, ?_, ?_⟩, ?_, fun h => absurd hrole h⟩
    · unfold RaftGroup.serverId
      rw [hopts]
      exact hr.self
    · rw [hout]
      exact hr.honest
    · rw [hdurable]
      exact hr.ok.step ⟨le_rfl, fun hc => .inl (hsilent.cast hc)⟩
    · rw [hdurable, hballot]
  rw [hstart]
  refine VoteStep.after ((hloaded.stepDownElection le_rfl).stepFrame ?_)
    (hsilent.trans (.of_eq rfl rfl))
  exact .of_frame (RaftGroup.stepDownRest_talks _ true).frame.toElectionFrame

/-! ## §5 — Every step. -/

theorem VoteInv.move {w : Option Waiting} (hv : VoteInv i g) (hm : m.Trusted) (hi : i ≠ -1)
    (hterm : g.el.currentTerm < 2 ^ 32 - 1) (h : ElectionMove m g g' w) : VoteStep i g g' := by
  cases h with
  | quiet h => exact hv.stepFrame (.of_frame h.toElectionFrame)
  | preVoteTimeout hm h =>
    exact hv.stepFrame ((setPreVotes_ballotFrame g _).trans (.of_frame h.toElectionFrame))
  | preVoteCounted => exact hv.stepFrame (setPreVotes_ballotFrame g _)
  | @preVoteRound g₁ h hkeeps =>
    have hround : BallotFrame i g (g₁.setPreVotes _) :=
      (BallotFrame.of_frame h.toElectionFrame).trans
        (setPreVotes_ballotFrame g₁ ⟨true, add32 g₁.el.currentTerm 1, {g₁.serverId}⟩)
    exact hv.stepFrame (hround.trans (broadcastPreVote_ballotFrame (hv.frame hround).self))
  | preVoteReply asked =>
    refine hv.stepFrame (.emit g trivial ?_)
    rintro t x ⟨resp, hr, -⟩
    obtain ⟨rfl, -⟩ : _ = (⟨x, .vote t⟩ : ReplyTo) ∧ _ := by simpa using hr
    cases hm.preVote asked
  | vote h hreq asked =>
    have hframe : BallotFrame i g _ := .of_frame h.toElectionFrame
    obtain ⟨hreply, hcand⟩ := hm.vote asked
    refine VoteStep.after_frame ?_ hv hframe
    exact (hv.frame hframe).answerVote (h.currentTerm ▸ hreq) hreply hcand
  | @stepDown p g₁ t _ _ h ht hrest =>
    have hframe : BallotFrame i g g₁ :=
      (setPreVotes_ballotFrame g p).trans (.of_frame h.toElectionFrame)
    have hle : g₁.el.currentTerm ≤ t := by
      rw [h.currentTerm]
      exact ht.elim (fun h => h.1.le) fun h => h.1.ge
    have hdown := (hv.frame hframe).stepDownElection hle
    refine VoteStep.after_frame ?_ hv hframe
    exact ⟨fun _ => id, .refl _ _, hdown.toVotesRecorded, fun _ => hdown⟩
  | @checkQuorum g₁ h hrole hm =>
    have hframe : BallotFrame i g g₁ := .of_frame h.toElectionFrame
    have hdown := (hv.frame hframe).stepDownElection h.currentTerm.le
    have hrest : VoteStep i (g₁.stepDownElection g.el.currentTerm) _ := hdown.stepFrame
      (.of_frame (RaftGroup.stepDownRest_talks _ true).frame.toElectionFrame)
    exact hrest.after ((hframe.silentStep hv.durable_le).trans (.of_eq rfl rfl))
  | @candidacy p g₁ h hkeeps hrole hm =>
    have hframe : BallotFrame i g g₁ :=
      (setPreVotes_ballotFrame g p).trans (.of_frame h.toElectionFrame)
    refine VoteStep.after_frame ?_ hv hframe
    exact (hv.frame hframe).becomeCandidate hi (h.currentTerm ▸ hterm)
  | voteCounted hrole granted => exact hv.stepFrame (.of_eq rfl rfl id rfl rfl)
  | elected hrole granted hquorum =>
    exact hv.stepFrame (.of_eq rfl rfl (fun _ => by rw [hrole]; decide) rfl rfl)

/-- **Every step of a node is a step of its ballot.** -/
theorem VotesRecorded.step (hr : VotesRecorded i g) (hup : g.halt = none → VoteInv i g)
    (hm : m.Trusted) (hi : i ≠ -1) (hterm : g.halt = none → g.el.currentTerm < 2 ^ 32 - 1)
    (h : GroupStep m g g') : VoteStep i g g' := by
  cases h with
  | crash => exact ⟨fun _ => id, .refl _ _, ⟨hr.self, hr.honest, hr.ok⟩, fun h => by cases h⟩
  | @restart recovered env down =>
    have henv : VotesRecorded i { g with env := env } := ⟨hr.self, hr.honest, hr.ok⟩
    exact (henv.start recovered).after (.of_eq rfl rfl)
  | call up h => exact (hup up).stepFrame (.of_frame h)
  | @move _ env _ up h =>
    have hframe : BallotFrame i g { g with env := env } := .of_eq rfl rfl id rfl rfl
    exact (((hup up).frame hframe).move hm hi (hterm up) h).after_frame (hup up) hframe

end Step

/-! ## §6 — Roles and votes after a section. -/

/-- `g'` is `g` after it has sent messages. -/
def RaftGroup.Sends (g g' : RaftGroup) : Prop :=
  ∃ out, g' = { g with out := out } ∧ GoesOn (·.term = g.el.currentTerm) g.out out

theorem emits_eq {α : Type*} (f : RaftGroup → α → Act) (l : List α) (g : RaftGroup) :
    g.Sends (l.foldl (fun g a => g.emit (f g a)) g) := by
  induction l generalizing g with
  | nil => exact ⟨g.out, rfl, .of_eq rfl⟩
  | cons a l ih =>
    obtain ⟨out, hout, hterms⟩ := ih (g.emit (f g a))
    exact ⟨out, hout, GoesOn.trans (.single rfl) hterms⟩

variable (g : RaftGroup)

theorem broadcastRequestVote_eq : g.Sends g.broadcastRequestVote := emits_eq _ _ g

theorem broadcastPreVote_eq : g.Sends g.broadcastPreVote := emits_eq _ _ g

theorem add32_one_ne (t : Nat) : add32 t 1 ≠ t := by
  unfold add32
  omega

theorem answerVote_keeps (reply : ReplyTo) (req : RequestVoteRequest) :
    (g.answerVote reply req).el.role = g.el.role ∧
      (g.answerVote reply req).el.currentTerm = g.el.currentTerm ∧
      (g.answerVote reply req).el.votesReceived = g.el.votesReceived ∧
      (g.answerVote reply req).el.preVotes = g.el.preVotes ∧
      (g.answerVote reply req).opts = g.opts := by
  show (g.voteRest req).1.el.role = _ ∧ (g.voteRest req).1.el.currentTerm = _ ∧
    (g.voteRest req).1.el.votesReceived = _ ∧ (g.voteRest req).1.el.preVotes = _ ∧
    (g.voteRest req).1.opts = _
  rcases voteRest_cases g req with ⟨hsame, -⟩ | ⟨-, -, hsaved, -⟩
  · rw [hsame]
    exact ⟨rfl, rfl, rfl, rfl, rfl⟩
  · have hreset := (RaftGroup.resetElectionTimer_talks (g.takeVote req.candidateId)).frame
    have hsave := hreset.toElectionFrame.trans (.saveState _)
    rw [hsaved]
    exact ⟨hsave.role, hsave.currentTerm, hsave.votesReceived, hsave.preVotes, hsave.opts⟩

/-- A candidacy ends in the next term: elected by its own vote, or waiting for others (or aborted,
when its vote could not be saved). -/
theorem becomeCandidate_cases :
    g.becomeCandidate.1.el.votes = ⟨.leader, add32 g.el.currentTerm 1, g.serverId, {g.serverId}⟩ ∧
        g.mem.config.quorumSatisfied {g.serverId} = true ∨
      g.becomeCandidate.1.el.votes =
        ⟨.candidate, add32 g.el.currentTerm 1, g.serverId, {g.serverId}⟩ := by
  have hvotes := (ElectionFrame.saveState g.candidacy).votes
  have hmem : g.candidacy.saveState.1.mem = g.mem := by
    unfold RaftGroup.saveState
    split <;> rfl
  have hreceived : g.candidacy.saveState.1.el.votesReceived = {g.serverId} :=
    congrArg VoteState.votesReceived hvotes
  have hterm : g.candidacy.saveState.1.el.currentTerm = add32 g.el.currentTerm 1 :=
    congrArg VoteState.currentTerm hvotes
  have hvoted : g.candidacy.saveState.1.el.votedFor = g.serverId :=
    congrArg VoteState.votedFor hvotes
  unfold RaftGroup.becomeCandidate
  dsimp only
  split
  · exact .inr hvotes
  split
  · rename_i hq
    unfold RaftGroup.electionQuorumSatisfied at hq
    rw [hmem, hreceived] at hq
    refine .inl ⟨?_, hq⟩
    show (⟨.leader, g.candidacy.saveState.1.el.currentTerm, g.candidacy.saveState.1.el.votedFor,
      g.candidacy.saveState.1.el.votesReceived⟩ : VoteState) = _
    rw [hterm, hvoted, hreceived]
  · refine .inr ?_
    show g.candidacy.saveState.1.broadcastRequestVote.el.votes = _
    obtain ⟨out, hout, -⟩ := broadcastRequestVote_eq g.candidacy.saveState.1
    rw [hout]
    exact hvotes

/-- What a section does to the role, the term and the votes received. -/
inductive RoleMove (m : Vouched) (g g' : RaftGroup) : Prop
  | kept (hrole : g'.el.role = g.el.role) (hterm : g'.el.currentTerm = g.el.currentTerm)
      (hreceived : g'.el.votesReceived = g.el.votesReceived)
  | down (h : g'.el.role = .follower)
      (hterm : g.el.currentTerm < g'.el.currentTerm ∧ m.carried g'.el.currentTerm ∨
        g.el.role = .leader ∧ m.resigns)
  | stood (hm : m.stands) (hrole : g.el.role ≠ .leader) (h : g'.el.role = .candidate)
      (hterm : g'.el.currentTerm = add32 g.el.currentTerm 1)
      (hreceived : g'.el.votesReceived = {g.serverId})
  | wonAlone (hm : m.stands) (hrole : g.el.role ≠ .leader) (h : g'.el.role = .leader)
      (hterm : g'.el.currentTerm = add32 g.el.currentTerm 1)
      (hquorum : g.mem.config.quorumSatisfied {g.serverId} = true)
  | counted {peer : NodeId} (granted : m.granted peer g.el.currentTerm)
      (hrole : g.el.role = .candidate) (h : g'.el.role = .candidate)
      (hterm : g'.el.currentTerm = g.el.currentTerm)
      (hreceived : g'.el.votesReceived = insert peer g.el.votesReceived)
  | won {peer : NodeId} (granted : m.granted peer g.el.currentTerm)
      (hrole : g.el.role = .candidate) (h : g'.el.role = .leader)
      (hterm : g'.el.currentTerm = g.el.currentTerm)
      (hquorum : g.mem.config.quorumSatisfied (insert peer g.el.votesReceived) = true)

theorem RoleMove.of_votes {g g' : RaftGroup} (h : g'.el.votes = g.el.votes) : RoleMove m g g' :=
  .kept (congrArg VoteState.role h) (congrArg VoteState.currentTerm h)
    (congrArg VoteState.votesReceived h)

theorem ElectionMove.roleMove {g g' : RaftGroup} {w : Option Waiting} (h : ElectionMove m g g' w) :
    RoleMove m g g' := by
  cases h with
  | quiet h | preVoteTimeout _ h => exact .of_votes h.votes
  | preVoteCounted | preVoteReply => exact .of_votes rfl
  | @preVoteRound g₁ h hkeeps =>
    obtain ⟨out, hout, -⟩ := broadcastPreVote_eq
      (g₁.setPreVotes ⟨true, add32 g₁.el.currentTerm 1, {g₁.serverId}⟩)
    rw [hout]
    exact .of_votes h.votes
  | @vote g₁ reply req h hterm asked hkeeps =>
    obtain ⟨hrole, hterm, hreceived, -⟩ := answerVote_keeps g₁ reply req
    exact .kept (hrole.trans h.role) (hterm.trans h.currentTerm) (hreceived.trans h.votesReceived)
  | stepDown h hterm hrest => exact .down rfl (hterm.imp_right fun hlead => hlead.2)
  | checkQuorum h hrole hm =>
    exact .down (RaftGroup.stepDownRest_talks _ true).frame.role (.inr ⟨hrole, hm⟩)
  | @candidacy p g₁ h hkeeps hrole hm =>
    have hid : g₁.serverId = g.serverId := congrArg Options.serverId h.opts
    have hterm : g₁.el.currentTerm = g.el.currentTerm := h.currentTerm
    rcases becomeCandidate_cases g₁ with ⟨hvotes, hquorum⟩ | hvotes
    · rw [hkeeps.mem, hid] at hquorum
      rw [hterm] at hvotes
      exact .wonAlone hm hrole (congrArg VoteState.role hvotes)
        (congrArg VoteState.currentTerm hvotes) hquorum
    · rw [hid, hterm] at hvotes
      exact .stood hm hrole (congrArg VoteState.role hvotes)
        (congrArg VoteState.currentTerm hvotes) (congrArg VoteState.votesReceived hvotes)
  | voteCounted hrole granted => exact .counted granted hrole hrole rfl rfl
  | elected hrole granted hquorum => exact .won granted hrole rfl rfl hquorum

theorem saveState_out : g.saveState.1.out = g.out := by
  unfold RaftGroup.saveState
  split <;> rfl

theorem stepDownRest_out (persistState : Bool) : (g.stepDownRest persistState).out = g.out := by
  unfold RaftGroup.stepDownRest
  dsimp only
  split
  · split <;> exact saveState_out _
  · rfl

theorem start_out (recovered : Recovered) : (g.start recovered).out = g.out := by
  obtain ⟨g₁, hstart, -, -, hout, -⟩ := start_eq g recovered
  rw [hstart, stepDownRest_out]
  exact hout

end RollingRaft
