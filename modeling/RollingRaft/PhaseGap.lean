/-
# RollingRaft.PhaseGap — the two phases of AppendEntries.

`HandleAppendEntries` checks the term under `election_mtx_`, lets go of it, and changes the log under
`replication_mtx_`. In between and while the second phase runs, a vote request or a response may move
the node to a later term, an election may make it a leader, and the second phase looks at neither. A
leader that gets a request of its own term does not step down in the first phase. Without these the
second phase runs in the request's term, on a node that does not lead.
-/
import RollingRaft.Overlap

namespace RollingRaft

open Lib

/-! ## §1 — What unsettles term and role. -/

/-- The event may raise the term or make the node a leader: a message of a higher term, a vote or
pre-vote that is granted, an election timeout. -/
def Event.unsettles (g : RaftGroup) (env : Env) : Event → Bool
  | .request _ (.preVote _) => false
  | .request _ req => g.el.currentTerm < req.term
  | .response _ callback resp =>
    g.el.currentTerm < resp.term || match callback, resp with
      | .vote _, .vote r => r.voteGranted
      | .preVote _, .vote r => r.voteGranted
      | _, _ => false
  | .forwardedReadIndex t => g.el.currentTerm < t
  | .electionTick =>
    g.running && g.el.electionTimerEnabled && g.el.electionDeadline ≤ env.now
  | _ => false

/-- AppendEntries of its own term arrives at a leader. -/
def Event.appendsToLeader (g : RaftGroup) : Event → Bool
  | .request _ (.appendEntries req) => g.el.role = .leader && req.term = g.el.currentTerm
  | _ => false

/-- Nothing unsettles the node from the end of a request's first phase to the end of its second, and
a leader gets no AppendEntries of its own term. -/
def Process.Settled (p : Process) (e : Event × Env) : Prop :=
  (p.calls.any (·.request?.isSome) = true → e.1.unsettles p.group e.2 = false) ∧
    e.1.appendsToLeader p.group = false

instance (p : Process) (e : Event × Env) : Decidable (p.Settled e) := by
  unfold Process.Settled
  infer_instance

/-- What leaves term and role of a node of term `t` alone. -/
def settledMessages (t : Term) : Vouched where
  asked _ _ := True
  granted _ _ := False
  carried u := u ≤ t
  preVoteTimesOut := True
  resigns := True
  stands := False

section Settled

variable {g g' : RaftGroup} {ev : Event} {env : Env} {t : Term}

theorem vouchedBy_settled (htick : ev ≠ .electionTick) (h : ev.unsettles g env = false) :
    ev.VouchedBy (settledMessages g.el.currentTerm) := by
  cases ev with
  | request reply req =>
    cases req with
    | preVote req => trivial
    | _ => exact ⟨trivial, not_lt.mp (of_decide_eq_false h)⟩
  | response peer callback resp =>
    obtain ⟨hterm, hvote⟩ := Bool.or_eq_false_iff.mp h
    refine ⟨not_lt.mp (of_decide_eq_false hterm), ?_⟩
    rintro t r rfl hgranted
    refine ⟨?_, ?_⟩ <;> rintro rfl <;> exact absurd hgranted (Bool.eq_false_iff.mp hvote)
  | forwardedReadIndex t => exact not_lt.mp (of_decide_eq_false h)
  | electionTick => exact absurd rfl htick
  | persisted index ok => cases ok <;> trivial
  | _ => trivial

/-- **A settled section keeps term and role** of a node that does not lead. -/
theorem ElectionMove.settled {w : Option Waiting}
    (h : ElectionMove (settledMessages g.el.currentTerm) g g' w) (hrole : g.el.role ≠ .leader) :
    g'.el.currentTerm = g.el.currentTerm ∧ g'.el.role = g.el.role := by
  cases h.roleMove with
  | kept hsame hterm hreceived => exact ⟨hterm, hsame⟩
  | down h hterm =>
    rcases hterm with ⟨hlt, hle⟩ | ⟨hlead, -⟩
    · exact absurd hlt (not_lt.mpr hle)
    · exact absurd hlead hrole
  | stood hm | wonAlone hm => exact hm.elim
  | counted granted | won granted => exact granted.elim

theorem onEvent_settled {call : Nat} {o : SectionEnd} (hrole : g.el.role ≠ .leader)
    (h : ev.unsettles g env = false) (henv : g.env = env) (ho : g.onEvent call ev = some o) :
    o.group.el.currentTerm = g.el.currentTerm ∧ o.group.el.role = g.el.role := by
  by_cases htick : ev = .electionTick
  · subst htick henv
    cases ho
    have hidle : g.electionTick = (g, none) := if_neg (Bool.eq_false_iff.mp h)
    show g.electionTick.1.el.currentTerm = _ ∧ g.electionTick.1.el.role = _
    rw [hidle]
    exact ⟨rfl, rfl⟩
  · exact (RaftGroup.onEvent_move (vouchedBy_settled htick h) ho).settled hrole

theorem Waiting.Sound.settled {w : Waiting} {el : ElectionState} (h : w.Sound anyMessages el) :
    w.Sound (settledMessages t) el := by
  cases w with
  | lead => exact h
  | stepDown persistState rest => cases rest <;> exact h

end Settled

/-! ## §2 — Where calls of phase 2 come from. -/

section Calls

variable {g : RaftGroup} {c : Call} {o : SectionEnd} {req : AppendEntriesRequest}

/-- Only an AppendEntries request leaves such a call behind. -/
theorem onEvent_appends {call : Nat} {ev : Event} (ho : g.onEvent call ev = some o)
    (hc : c ∈ o.calls) (hreq : c.request? = some req) :
    ∃ reply, ev = .request reply (.appendEntries req) := by
  cases RaftGroup.onEvent_starts ho hc with
  | append reply respTerm req => cases hreq; exact ⟨reply, rfl⟩
  | _ => cases hreq

/-- A request that goes on to its second phase leaves term and role alone. -/
theorem handleAppendEntries_keeps {reply : ReplyTo} {req : AppendEntriesRequest}
    (hc : c ∈ (g.onRequest reply (.appendEntries req)).calls) :
    (∃ respTerm, c = .follower (.append reply respTerm req)) ∧
      (g.onRequest reply (.appendEntries req)).group.el.currentTerm = g.el.currentTerm ∧
      (g.onRequest reply (.appendEntries req)).group.el.role = g.el.role := by
  have hrecord := (RaftGroup.recordActivity_talks g false).frame
  unfold RaftGroup.onRequest SectionEnd.ofHandler RaftGroup.handleAppendEntries at hc ⊢
  dsimp only at hc ⊢
  split at hc
  · cases hc
  rw [if_neg ‹_›]
  split at hc
  · cases hc
  rw [if_neg ‹_›]
  have hrest := hrecord.trans (RaftGroup.appendEntriesRest_talks _ reply req).frame
  refine ⟨?_, hrest.currentTerm, hrest.role⟩
  unfold RaftGroup.appendEntriesRest at hc
  split at hc
  · cases hc
  · exact ⟨_, List.mem_singleton.mp hc⟩

theorem Call.StartedIn.inTerm {el : ElectionState} (h : c.StartedIn el)
    (hreq : c.request? = some req) : el.currentTerm = req.term := by
  unfold Call.request? at hreq
  split at hreq <;> cases hreq
  · exact h.2.symm
  · exact h.elim

end Calls

/-! ## §3 — Runs. -/

/-- Calls of phase 2 belong to the current term, on a node that does not lead. -/
structure PhaseInv (p : Process) : Prop where
  waiting : p.WaitingSound anyMessages
  inTerm : p.group.halt = none → ∀ c ∈ p.calls, ∀ req, c.request? = some req →
    p.group.el.currentTerm = req.term ∧ p.group.el.role ≠ .leader

section Run

variable {p p' : Process} {ev : Event} {env : Env}

theorem PhaseInv.step (h : PhaseInv p) (hsettled : p.Settled (ev, env))
    (hs : p.StepBy RaftGroup.runPart env ev p') : PhaseInv p' := by
  refine ⟨h.waiting.step Process.runPart_framed (vouchedBy_any ev) hs, ?_⟩
  intro hup c hc req hreq
  cases hs with
  | restart down => cases hc
  | crash => cases hup
  | @resume w up hw free =>
    have hsound := h.waiting _ hw
    have hmove : (p.entered env).el.role ≠ .leader → _ :=
      (RaftGroup.runWaiting_move (g := p.entered env) hsound.settled trivial).settled
    rcases List.mem_append.mp hc with hc | hc
    · obtain ⟨hterm, hrole⟩ := h.inTerm up c hc req hreq
      obtain ⟨hterm', hrole'⟩ := hmove hrole
      exact ⟨hterm'.trans hterm, fun hlead => hrole (hrole'.symm.trans hlead)⟩
    · have hstarted := RaftGroup.runWaiting_startedIn (g := p.entered env) hsound hc
      refine ⟨hstarted.inTerm hreq, fun hlead => ?_⟩
      cases w with
      | lead => cases hc
      | stepDown persistState rest =>
        have hfollower : p.group.el.role = .follower := hsound.1
        have hrole : (p.entered env).el.role ≠ .leader := by
          intro hlead
          cases hfollower.symm.trans hlead
        exact hrole ((hmove hrole).2.symm.trans hlead)
  | @run i input d o up hi free ho =>
    -- a part of phase 2 leaves a call with the request it had
    have hpart := RaftGroup.part_of_runPart ho
    obtain ⟨hterm, hrole⟩ : p.group.el.currentTerm = req.term ∧ p.group.el.role ≠ .leader := by
      rcases List.mem_append.mp hc with hc | hc
      · exact h.inTerm up c (List.mem_of_mem_eraseIdx hc) req hreq
      · exact h.inTerm up d (List.mem_of_getElem? hi) req (hpart.request hc hreq)
    have hframe := hpart.frame.1
    exact ⟨hframe.currentTerm.trans hterm, fun hlead => hrole (hframe.role.symm.trans hlead)⟩
  | event up free ho =>
    rcases List.mem_append.mp hc with hc | hc
    · obtain ⟨hterm, hrole⟩ := h.inTerm up c hc req hreq
      have hquiet := hsettled.1 (List.any_eq_true.mpr ⟨c, hc, by rw [hreq]; rfl⟩)
      obtain ⟨hterm', hrole'⟩ := onEvent_settled (g := p.entered env) hrole hquiet rfl ho
      exact ⟨hterm'.trans hterm, fun hlead => hrole (hrole'.symm.trans hlead)⟩
    · have hin := (RaftGroup.onEvent_startedIn ho hc).inTerm hreq
      obtain ⟨reply, rfl⟩ := onEvent_appends ho hc hreq
      cases ho
      obtain ⟨-, hterm, hrole⟩ := handleAppendEntries_keeps hc
      refine ⟨hin, fun hlead => ?_⟩
      have hlead' : p.group.el.role = .leader := hrole.symm.trans hlead
      have hterm' : req.term = p.group.el.currentTerm := hin.symm.trans hterm
      have hnot := hsettled.2
      simp [Event.appendsToLeader, hlead', hterm'] at hnot

theorem PhaseInv.initial (opts : Options) : PhaseInv (Process.initial opts) where
  waiting _ hw := by cases hw
  inTerm hup := by cases hup

theorem phaseInv_of_settled {opts : Options}
    (h : (Process.parts opts).ReachableWith Process.Settled p) : PhaseInv p := by
  refine h.invariant ?_ ?_
  · rintro p rfl
    exact .initial opts
  · rintro p ⟨ev, env⟩ p' hinv hsettled hn
    exact hinv.step hsettled (Process.stepBy_of_nextInParts hn)

end Run

/-- **The second phase of AppendEntries.** In every run in which nothing unsettles a node from the end
of a request's first phase to the end of its second and no leader gets a request of its own term,
every part of the second phase runs in the term of the request, on a node that does not lead. -/
theorem appendEntries_phase2_in_term {opts : Options} {p p' : Process} {i : Nat} {c : Call}
    {req : AppendEntriesRequest} {input : CallInput} {env : Env}
    (h : (Process.parts opts).ReachableWith Process.Settled p) (hcall : p.calls[i]? = some c)
    (hreq : c.request? = some req) (hnext : p.nextInParts (.run i input, env) = some p') :
    p.group.el.currentTerm = req.term ∧ p.group.el.role ≠ .leader := by
  cases Process.stepBy_of_nextInParts hnext with
  | run up hi free ho =>
    exact (phaseInv_of_settled h).inTerm up c (List.mem_of_getElem? hcall) req hreq
  | event up free ho => cases ho

/-! ## §4 — The gap. -/

/-- Leader 2 of term 1 sends node 1 an entry, and the first phase accepts it. -/
def betweenPhases : List (Event × Env) :=
  [ (.restart {}, { now := 0 }),
    (.request ⟨2, .append false 0⟩ (.appendEntries entryOfTermOne), { now := 10 }),
    (.resume, { now := 10 }) ]
where
  /-- The request of leader 2. -/
  entryOfTermOne : AppendEntriesRequest :=
    { term := 1, leaderId := 2, prevLogIndex := 0, prevLogTerm := 0, entries := [⟨1, 1, [1]⟩],
      leaderCommit := 0 }

/-- The second phase has begun. -/
def inPhaseTwo : List (Event × Env) := betweenPhases ++ [(.run 0 {}, { now := 500 })]

/-- While it runs, node 3 asks for a vote of term 2. -/
def voteInPhaseTwo : Event × Env :=
  (.request ⟨3, .vote 2⟩ (.requestVote
    { term := 2, candidateId := 3, lastLogIndex := 0, lastLogTerm := 0 }), { now := 500 })

/-- The request is in its second phase, in term `t`, and the next part changes the log. -/
def ChangesInTerm (t : Term) (p : Process) : Prop :=
  p.calls[0]?.bind Call.request? = some betweenPhases.entryOfTermOne ∧ p.group.el.currentTerm = t ∧
    ∃ p' ∈ p.nextInParts (.run 0 {}, { now := 500 }), p'.group.rep.log ≠ p.group.rep.log

instance (t : Term) (p : Process) : Decidable (ChangesInTerm t p) := by
  unfold ChangesInTerm
  infer_instance

/-- A request of term 1 changes the log of a node that has moved on to term 2. -/
theorem phase2_in_later_term :
    ∃ p env p' c req, (Process.parts nodeOne).Reachable p ∧ p.calls[0]? = some c ∧
      c.request? = some req ∧ p.nextInParts (.run 0 {}, env) = some p' ∧
      p'.group.rep.log ≠ p.group.rep.log ∧
      ¬(p.group.el.currentTerm = req.term ∧ p.group.el.role ≠ .leader) := by
  obtain ⟨p, hreach, hcall, hterm, p', hnext, hlog⟩ := (Process.parts nodeOne).reaches
    (inPhaseTwo ++ [voteInPhaseTwo]) rfl (P := ChangesInTerm 2) (by decide +kernel)
  obtain ⟨c, hc, hreq⟩ := Option.bind_eq_some_iff.mp hcall
  refine ⟨p, _, p', c, _, hreach, hc, hreq, hnext, hlog, fun hin => ?_⟩
  cases hterm.symm.trans hin.1

theorem appendEntries_phase2_in_term_settled :
    ∃ p env p' c req, (Process.parts nodeOne).ReachableWith Process.Settled p ∧
      p.calls[0]? = some c ∧ c.request? = some req ∧ p.nextInParts (.run 0 {}, env) = some p' ∧
      p'.group.rep.log ≠ p.group.rep.log ∧
      p.group.el.currentTerm = req.term ∧ p.group.el.role ≠ .leader := by
  obtain ⟨p, hreach, hcall, -, p', hnext, hlog⟩ := (Process.parts nodeOne).reachesWith
    Process.Settled inPhaseTwo rfl (P := ChangesInTerm 1) (by decide +kernel)
  obtain ⟨c, hc, hreq⟩ := Option.bind_eq_some_iff.mp hcall
  exact ⟨p, _, p', c, _, hreach, hc, hreq, hnext, hlog,
    appendEntries_phase2_in_term hreach hc hreq hnext⟩

end RollingRaft
