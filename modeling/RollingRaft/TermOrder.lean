/-
# RollingRaft.TermOrder — terms only grow, below the largest one.

A node takes over every later term it is shown, however large, and adds one to its own when it
stands for election. `current_term_` is a `uint32_t`: in term `2 ^ 32 - 1` the sum is 0, and a node
that voted in that term becomes a candidate of term 0. As long as no candidacy begins there, the
term never falls, and what a node says from some moment on, its votes and its requests for votes
among it, it says in a term no lower than the one it had at that moment.
-/
import RollingRaft.Votes

namespace RollingRaft

open Lib

/-! ## §1 — One section. -/

variable {m : Vouched} {g g' : RaftGroup}

/-- From `g` to `g'` the term does not fall, and whatever is done is done in `g`'s term or later. -/
def RaftGroup.Advances (g g' : RaftGroup) : Prop :=
  g.el.currentTerm ≤ g'.el.currentTerm ∧ GoesOn (g.el.currentTerm ≤ ·.term) g.out g'.out

theorem ElectionFrame.advances (h : ElectionFrame g g') : g.Advances g' :=
  ⟨h.currentTerm.ge, GoesOn.mono h.out fun _ hmade => hmade.2.1.ge⟩

theorem RaftGroup.Advances.trans {g'' : RaftGroup} (h : g.Advances g') (h' : g'.Advances g'') :
    g.Advances g'' :=
  ⟨h.1.trans h'.1, h.2.trans (h'.2.mono fun _ ho => h.1.trans ho)⟩

theorem RaftGroup.Advances.of_sends (h : g.Sends g') : g.Advances g' := by
  obtain ⟨out, rfl, hterms⟩ := h
  exact ⟨le_rfl, hterms.mono fun _ ho => ho.ge⟩

/-- A candidacy begins in the next term. -/
theorem becomeCandidate_advances (hterm : g.el.currentTerm < 2 ^ 32 - 1) :
    g.Advances g.becomeCandidate.1 := by
  have hnext : g.el.currentTerm ≤ g.candidacy.el.currentTerm := by
    show g.el.currentTerm ≤ add32 g.el.currentTerm 1
    rw [add32_of_lt (Nat.lt_sub_iff_add_lt.mp hterm)]
    exact Nat.le_succ _
  have hstand : g.Advances g.candidacy := ⟨hnext, .of_eq rfl⟩
  have hsave := hstand.trans (ElectionFrame.saveState g.candidacy).advances
  unfold RaftGroup.becomeCandidate
  dsimp only
  split
  · exact hsave
  split
  · exact hsave
  · have hsends := RaftGroup.Advances.of_sends (broadcastRequestVote_eq g.candidacy.saveState.1)
    exact hsave.trans ⟨hsends.1, hsends.2⟩

theorem answerVote_advances (reply : ReplyTo) (req : RequestVoteRequest) :
    g.Advances (g.answerVote reply req) := by
  have hterm := (answerVote_keeps g reply req).2.1
  have hrest : (g.voteRest req).1.out = g.out := by
    rcases voteRest_cases g req with ⟨hsame, -⟩ | ⟨-, -, hsaved, -⟩
    · rw [hsame]
    · rw [hsaved, saveState_out]
      rfl
  refine ⟨hterm.ge, GoesOn.trans (.of_eq hrest) (.single ?_)⟩
  exact hterm.ge

/-- **One section** does not lower the term, unless it begins a candidacy in the last one. -/
theorem ElectionMove.advances {w : Option Waiting} (h : ElectionMove m g g' w)
    (hstands : m.stands → g.el.currentTerm < 2 ^ 32 - 1) : g.Advances g' := by
  cases h with
  | quiet h => exact h.advances
  | preVoteTimeout _ h => exact h.advances
  | preVoteCounted | voteCounted | elected => exact ⟨le_rfl, .of_eq rfl⟩
  | preVoteRound h =>
    refine h.advances.trans ?_
    exact RaftGroup.Advances.of_sends (g := RaftGroup.setPreVotes _ _) (broadcastPreVote_eq _)
  | preVoteReply => exact ⟨le_rfl, .single le_rfl⟩
  | vote h => exact h.advances.trans (answerVote_advances _ _)
  | stepDown h hterm =>
    have hle := hterm.elim (fun h => h.1.le) fun h => h.1.ge
    exact ⟨hle, h.advances.2⟩
  | @checkQuorum g₁ h =>
    have hrest := (RaftGroup.stepDownRest_talks (g₁.stepDownElection g.el.currentTerm) true).frame
    exact ⟨hrest.currentTerm.ge, h.advances.2.trans (.of_eq (stepDownRest_out _ true))⟩
  | candidacy h _ _ hm =>
    have hterm := h.currentTerm.trans_lt (hstands hm)
    exact h.advances.trans (becomeCandidate_advances hterm)

/-! ## §2 — Runs. -/

def Event.isRestart : Event → Bool
  | .restart _ => true
  | _ => false

namespace Process

/-- The step is no restart, and no candidacy begins in the largest term. -/
def StandsBelowMax (p : Process) (e : Event × Env) : Prop :=
  e.1.isRestart = false ∧ (e.1.canStand = true → p.group.el.currentTerm < 2 ^ 32 - 1)

variable {p p' : Process} {ev : Event} {env : Env}

theorem Step.advances (hs : p.WaitingSound anyMessages) (hok : p.StandsBelowMax (ev, env))
    (h : p.Step env ev p') : p.group.Advances p'.group := by
  cases h with
  | restart down => cases hok.1
  | crash => exact ⟨le_rfl, .of_eq rfl⟩
  | resume up hw free =>
    -- what waits for a lock begins no candidacy
    have hmove := RaftGroup.runWaiting_move (m := { anyMessages with stands := False })
      (g := p.entered env) (hs _ hw) trivial
    exact hmove.advances False.elim
  | run up hc free ho => exact (RaftGroup.runCall_frame ho).1.advances
  | event up free ho => exact (event_move (vouchedBy_of_canStand hok.2) ho).advances id

end Process

/-- **Terms never fall.** In every run without restarts in which no candidacy begins in term
`2 ^ 32 - 1`, whatever terms the messages carry, from any state on the term does not fall, and votes
are asked for and granted in the term of that state or later ones. -/
theorem terms_never_fall (opts : Options) (p p' : Process)
    (hp : (Process.system opts).Reachable p)
    (h : (Process.system opts).Later Process.StandsBelowMax p p') :
    p.group.el.currentTerm ≤ p'.group.el.currentTerm ∧
      ∃ later, p'.group.out = p.group.out ++ later ∧
        ∀ o ∈ later, p.group.el.currentTerm ≤ o.term := by
  have hrun : p.group.Advances p'.group ∧ p'.WaitingSound anyMessages := by
    refine h.stable (P := fun s => p.group.Advances s.group ∧ s.WaitingSound anyMessages) ?_
      ⟨⟨le_rfl, .of_eq rfl⟩, Process.waitingSound_of_reachable hp⟩
    rintro s ⟨ev, env⟩ s' ⟨hadvances, hs⟩ hok hn
    have hstep := Process.step_of_next hn
    exact ⟨hadvances.trans (hstep.advances hs hok),
      hs.step Process.runCall_framed (vouchedBy_any ev) hstep⟩
  exact hrun.1

instance (p : Process) (e : Event × Env) : Decidable (p.StandsBelowMax e) := by
  unfold Process.StandsBelowMax
  infer_instance

/-- Node 2 gets the vote of node 1 in term `t`. -/
def votesIn (t : Term) : List (Event × Env) :=
  [ (.restart {}, { now := 0 }),
    (.request ⟨2, .vote t⟩ (.requestVote ⟨t, 2, 0, 0⟩), { now := 10 }), (.resume, { now := 10 }) ]

/-- A node that has voted in term 7 stands for election. -/
theorem terms_never_fall_standing :
    ∃ p p' : Process, (Process.system votingOne).Reachable p ∧ p.group.el.currentTerm = 7 ∧
      p.group.el.votedFor = 2 ∧ p'.group.el.role = .candidate ∧
      (p.group.el.currentTerm ≤ p'.group.el.currentTerm ∧
        ∃ later, p'.group.out = p.group.out ++ later ∧
          ∀ o ∈ later, p.group.el.currentTerm ≤ o.term) := by
  obtain ⟨p, hreach, hterm, hvoted, hok, p', hn, hrole⟩ := (Process.system votingOne).reaches
    (votesIn 7) rfl (P := fun p => p.group.el.currentTerm = 7 ∧ p.group.el.votedFor = 2 ∧
      p.StandsBelowMax (.electionTick, { now := 1000 }) ∧
        ∃ p' ∈ p.next (.electionTick, { now := 1000 }), p'.group.el.role = .candidate)
    (by decide +kernel)
  exact ⟨p, p', hreach, hterm, hvoted, hrole,
    terms_never_fall votingOne p p' hreach (.step (.refl p) hok hn)⟩

/-- A node that has voted in the largest term becomes a candidate of term 0 when its election timer
expires. -/
theorem voter_stands_for_term_zero :
    ∃ p p', (Process.system votingOne).Reachable p ∧ p.group.el.votedFor = 2 ∧
      p.next (.electionTick, { now := 1000 }) = some p' ∧ p'.group.el.role = .candidate ∧
      p'.group.el.currentTerm < p.group.el.currentTerm := by
  obtain ⟨p, hreach, hvoted, p', hn, hfalls⟩ := (Process.system votingOne).reaches
    (votesIn (2 ^ 32 - 1)) rfl (P := fun p => p.group.el.votedFor = 2 ∧
      ∃ p' ∈ p.next (.electionTick, { now := 1000 }), p'.group.el.role = .candidate ∧
        p'.group.el.currentTerm < p.group.el.currentTerm) (by decide +kernel)
  exact ⟨p, p', hreach, hvoted, hn, hfalls⟩

end RollingRaft
