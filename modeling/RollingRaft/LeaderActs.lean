/-
# RollingRaft.LeaderActs — who acts as a leader.

Entries are made and AppendEntries and InstallSnapshot are sent by leaders, in their term. Two
sections break this: `HandleClientRequest` checks the role under both locks, lets go of
`election_mtx_`, and appends and sends under `replication_mtx_` alone; and a JOINT that is applied in
phase 2 of `HandleAppendEntries` checks the role and proposes FINALIZE without `election_mtx_`. A
step-down that runs in between has changed role and term by then, and the entry is made, or sent, by
a follower in a term it does not lead. Without such a step-down, and when no leader is in phase 2,
everything a leader does is done by a leader, and with a fixed configuration no two nodes make entries
of the same term.
-/
import RollingRaft.ElectionSafety
import RollingRaft.Overlap

namespace RollingRaft

open Lib

/-! ## §1 — Acts of leaders. -/

/-- The term a leader's act is for. -/
def Act.leaderTerm : Act → Option Term
  | .sent _ r _ => if r.isLeaderRequest then some r.term else none
  | .created e => some e.term
  | _ => none

/-- What only leaders do is done by a leader, in its term. -/
def Output.Lawful (o : Output) : Prop :=
  o.act.isLeaderAct = true → o.role = .leader ∧ o.act.leaderTerm = some o.term

variable {el : ElectionState}

theorem Output.MadeIn.lawful {o : Output} (h : o.MadeIn el) (hrole : el.role = .leader) :
    o.Lawful := by
  obtain ⟨horole, hoterm, hact⟩ := h
  intro hlead
  refine ⟨horole.trans hrole, ?_⟩
  rw [hoterm]
  cases hoact : o.act with
  | sent peer r callback =>
    rw [hoact] at hact
    rw [Act.leaderTerm, if_pos hact.1, hact.2]
  | created e =>
    rw [hoact] at hact
    exact congrArg some hact
  | _ => rw [hoact] at hlead; cases hlead

/-- New acts of a leader are made in the state before the step, by a leader. -/
def LeaderActsFrom (g g' : RaftGroup) : Prop :=
  ∀ o ∈ g'.out, o.act.isLeaderAct = true → o ∈ g.out ∨ g.el.role = .leader ∧ o.MadeIn g.el

section Moves

variable {m : Vouched} {g g' g₁ : RaftGroup}

theorem GuardedFrame.leaderActs (h : GuardedFrame g g') : LeaderActsFrom g g' := by
  intro o ho hlead
  by_cases hrole : g.el.role = .leader
  · exact (GoesOn.mem_or h.out ho).imp id fun hmade => ⟨hrole, hmade⟩
  · exact .inl ((h.lead hrole).1 o ho hlead)

theorem LeaderActsFrom.of_out (h : LeaderActsFrom g g₁)
    (hout : ∀ o ∈ g'.out, o.act.isLeaderAct = true → o ∈ g₁.out) : LeaderActsFrom g g' :=
  fun o ho hlead => h o (hout o ho hlead) hlead

theorem LeaderActsFrom.refl (g : RaftGroup) : LeaderActsFrom g g := fun _ ho _ => .inl ho

variable {o : Output} {w : Option Waiting}

theorem mem_out_of_emits {α : Type*} {f : RaftGroup → α → Act}
    (hf : ∀ g a, (f g a).isLeaderAct = false) (l : List α)
    (ho : o ∈ (l.foldl (fun g a => g.emit (f g a)) g).out) (hlead : o.act.isLeaderAct = true) :
    o ∈ g.out := by
  induction l generalizing g with
  | nil => exact ho
  | cons a l ih => exact mem_out_of_emit (hf g a) (ih ho) hlead

theorem mem_out_of_answerVote {reply : ReplyTo} {req : RequestVoteRequest}
    (ho : o ∈ (g.answerVote reply req).out) (hlead : o.act.isLeaderAct = true) : o ∈ g.out := by
  have hrest := mem_out_of_emit rfl ho hlead
  rcases voteRest_cases g req with ⟨hsame, -⟩ | ⟨-, -, hsaved, -⟩
  · rwa [hsame] at hrest
  · rw [hsaved, saveState_out] at hrest
    exact hrest

theorem mem_out_of_becomeCandidate (ho : o ∈ g.becomeCandidate.1.out)
    (hlead : o.act.isLeaderAct = true) : o ∈ g.out := by
  have hsave : o ∈ g.candidacy.saveState.1.out := by
    unfold RaftGroup.becomeCandidate at ho
    dsimp only at ho
    split at ho
    · exact ho
    split at ho
    · exact ho
    · exact mem_out_of_emits (fun _ _ => rfl) _ ho hlead
  rw [saveState_out] at hsave
  exact hsave

/-- **Every election move acts as a leader only if the node leads.** -/
theorem ElectionMove.leaderActs (h : ElectionMove m g g' w) : LeaderActsFrom g g' := by
  cases h with
  | quiet h | preVoteTimeout _ h | stepDown h => exact h.leaderActs
  | preVoteCounted | voteCounted | elected => exact .refl g
  | preVoteRound h hkeeps =>
    refine h.leaderActs.of_out fun o ho hlead => ?_
    exact mem_out_of_emits (g := RaftGroup.setPreVotes _ _) (fun _ _ => rfl) _ ho hlead
  | preVoteReply asked => exact fun o ho hlead => .inl (mem_out_of_emit rfl ho hlead)
  | vote h hterm asked hkeeps => exact h.leaderActs.of_out fun o ho hlead => mem_out_of_answerVote ho hlead
  | @checkQuorum g₁ h hrole hm =>
    have hdown := (RaftGroup.stepDownRest_talks (g₁.stepDownElection g.el.currentTerm) true).frame
    exact h.leaderActs.of_out (hdown.lead (by simp [RaftGroup.stepDownElection])).1
  | candidacy h hkeeps hrole hm =>
    exact h.leaderActs.of_out fun o ho hlead => mem_out_of_becomeCandidate ho hlead

/-! ## §2 — Snapshot transfers of leaders. -/

/-- Only a leader sends a snapshot. -/
def RaftGroup.SendsOk (g : RaftGroup) : Prop := g.el.role ≠ .leader → g.snap.sends = ∅

theorem GuardedFrame.sendsOk (h : GuardedFrame g g') (hs : g.SendsOk) : g'.SendsOk := by
  intro hrole
  rw [h.role] at hrole
  exact (h.lead hrole).2 (hs hrole)

theorem saveState_snap (g : RaftGroup) : g.saveState.1.snap = g.snap := by
  unfold RaftGroup.saveState
  split <;> rfl

theorem answerVote_snap (g : RaftGroup) (reply : ReplyTo) (req : RequestVoteRequest) :
    (g.answerVote reply req).snap = g.snap := by
  show (g.voteRest req).1.snap = g.snap
  rcases voteRest_cases g req with ⟨hsame, -⟩ | ⟨-, -, hsaved, -⟩
  · rw [hsame]
  · rw [hsaved, saveState_snap]
    rfl

theorem becomeCandidate_sendsOk (hs : g.snap.sends = ∅) : g.becomeCandidate.1.SendsOk := by
  intro _
  unfold RaftGroup.becomeCandidate
  dsimp only
  split
  · exact (congrArg SnapshotState.sends (saveState_snap _)).trans hs
  split
  · rfl
  obtain ⟨out, hout, -⟩ := broadcastRequestVote_eq g.candidacy.saveState.1
  rw [hout]
  exact (congrArg SnapshotState.sends (saveState_snap _)).trans hs

theorem stepDownRest_sends (g : RaftGroup) (persistState : Bool) :
    (g.stepDownRest persistState).snap.sends = ∅ := by
  unfold RaftGroup.stepDownRest
  dsimp only
  split
  · split <;> exact congrArg SnapshotState.sends (saveState_snap _)
  · rfl

/-- A section that does not stop in the middle of a step-down leaves no transfer to a follower. -/
theorem ElectionMove.sendsOk (h : ElectionMove m g g' w) (hs : g.SendsOk)
    (hw : ∀ b r, w ≠ some (.stepDown b r)) : g'.SendsOk := by
  cases h with
  | quiet h | preVoteTimeout _ h => exact h.sendsOk hs
  | preVoteCounted | preVoteReply | voteCounted => exact hs
  | @preVoteRound g₁ h hkeeps =>
    obtain ⟨out, hout, -⟩ := broadcastPreVote_eq
      (g₁.setPreVotes ⟨true, add32 g₁.el.currentTerm 1, {g₁.serverId}⟩)
    rw [hout]
    exact h.sendsOk hs
  | @vote g₁ reply req h hterm asked hkeeps =>
    intro hrole
    rw [(answerVote_keeps g₁ reply req).1] at hrole
    rw [answerVote_snap]
    exact h.sendsOk hs hrole
  | stepDown h hterm hrest => exact absurd rfl (hw _ _)
  | checkQuorum h hrole hm => exact fun _ => stepDownRest_sends _ true
  | candidacy h hkeeps hrole hm =>
    exact becomeCandidate_sendsOk ((h.lead hrole).2 (hs hrole))
  | elected hrole granted hquorum => exact fun _ => rfl

/-! ## §3 — A leader that nothing makes step down. -/

theorem ElectionMove.leader (h : ElectionMove m g g' w) (hlead : g.el.role = .leader)
    (hcarried : ∀ t, m.carried t → t ≤ g.el.currentTerm) (hstays : ¬m.resigns) :
    g'.el.role = .leader := by
  cases h.roleMove with
  | kept hsame hterm hreceived => exact hsame.trans hlead
  | down h hterm =>
    rcases hterm with ⟨hlt, hm⟩ | ⟨-, hm⟩
    · exact absurd hlt (not_lt.mpr (hcarried _ hm))
    · exact absurd hm hstays
  | stood hm hrole | wonAlone hm hrole => exact absurd hlead hrole
  | counted granted hcand | won granted hcand => cases hlead.symm.trans hcand

end Moves

/-- The event makes a leader step down, though `replication_mtx_` is not free. -/
def Event.stepsDown (g : RaftGroup) : Event → Bool
  | .request _ (.requestVote req) => g.el.currentTerm < req.term
  | .request _ (.appendEntries req) =>
    g.mem.config.isVoter req.leaderId && g.el.currentTerm < req.term
  | .request _ (.installSnapshot req) =>
    g.mem.config.isVoter req.leaderId && g.el.currentTerm < req.term
  | .response _ (.snapshot _) (.snapshot t) => g.running && g.el.currentTerm < t
  | .forwardedReadIndex t => g.el.currentTerm < t
  | .persisted index false => index ∈ g.rep.awaitingFlush
  | _ => false

/-- What keeps a leader of term `t` in place. -/
def steadyMessages (t : Term) : Vouched where
  asked _ _ := True
  granted _ _ := True
  carried u := u ≤ t
  preVoteTimesOut := True
  resigns := False
  stands := True

section Steady

variable {g : RaftGroup} {call : Nat} {ev : Event} {o : SectionEnd}

theorem leader_of_vouched (hlead : g.el.role = .leader) (ho : g.onEvent call ev = some o)
    (hm : ev.VouchedBy (steadyMessages g.el.currentTerm)) : o.group.el.role = .leader :=
  (RaftGroup.onEvent_move hm ho).leader hlead (fun _ => id) id

variable {reply : ReplyTo}

/-- AppendEntries from a node that is not a voter is only answered. -/
theorem handleAppendEntries_nonvoter {req : AppendEntriesRequest}
    (hvoter : g.mem.config.isVoter req.leaderId = false) :
    (g.handleAppendEntries reply req).1.el.role = g.el.role := by
  have hrecord : (g.recordActivity false).mem = g.mem :=
    (RaftGroup.exitQuiesced_keeps _ false).mem
  unfold RaftGroup.handleAppendEntries
  dsimp only
  rw [hrecord, if_pos (by simp [hvoter])]
  exact (RaftGroup.recordActivity_talks g false).frame.role

theorem onRequest_leader {req : Request} (hlead : g.el.role = .leader)
    (hstays : (Event.request reply req).stepsDown g = false)
    (ho : g.onEvent call (.request reply req) = some o) : o.group.el.role = .leader := by
  cases req with
  | requestVote req =>
    exact leader_of_vouched hlead ho ⟨trivial, not_lt.mp (of_decide_eq_false hstays)⟩
  | preVote req => exact leader_of_vouched hlead ho trivial
  | appendEntries req =>
    by_cases hvoter : g.mem.config.isVoter req.leaderId = true
    · have hterm : ¬g.el.currentTerm < req.term := by simpa [Event.stepsDown, hvoter] using hstays
      exact leader_of_vouched hlead ho ⟨trivial, not_lt.mp hterm⟩
    cases ho
    exact (handleAppendEntries_nonvoter (by simpa using hvoter)).trans hlead
  | installSnapshot req =>
    by_cases hvoter : g.mem.config.isVoter req.leaderId = true
    · have hterm : ¬g.el.currentTerm < req.term := by simpa [Event.stepsDown, hvoter] using hstays
      exact leader_of_vouched hlead ho ⟨trivial, not_lt.mp hterm⟩
    cases ho
    show (g.handleInstallSnapshot reply req).1.el.role = .leader
    unfold RaftGroup.handleInstallSnapshot
    rw [if_pos (by simp [hvoter])]
    exact hlead

theorem onResponse_leader {peer : NodeId} {callback : Callback} {resp : Response}
    (hlead : g.el.role = .leader)
    (hneeds : (Event.response peer callback resp).needs.replication = false)
    (hstays : (Event.response peer callback resp).stepsDown g = false)
    (ho : g.onEvent call (.response peer callback resp) = some o) : o.group.el.role = .leader := by
  cases callback with
  | vote t =>
    cases resp with
    | vote resp =>
      cases ho
      show (g.handleRequestVoteResponse peer resp t).1.el.role = .leader
      unfold RaftGroup.handleRequestVoteResponse
      rw [if_pos (by simp [hlead])]
      exact hlead
    | _ => cases ho
  | preVote t =>
    cases resp with
    | vote resp =>
      cases ho
      show (g.handlePreVoteResponse peer resp t).1.el.role = .leader
      unfold RaftGroup.handlePreVoteResponse
      split
      · exact hlead
      rw [if_pos (by simp [hlead])]
      exact hlead
    | _ => cases ho
  | append | readHeartbeat => cases hneeds
  | snapshot =>
    cases resp with
    | snapshot t =>
      cases ho
      show (g.handleInstallSnapshotResponse t).1.el.role = .leader
      unfold RaftGroup.handleInstallSnapshotResponse
      split
      · exact hlead
      rename_i hrun
      have hterm : ¬g.el.currentTerm < t := by
        have hrunning : g.running = true := by simp_all
        simpa [Event.stepsDown, hrunning] using hstays
      rw [if_neg hterm]
      exact hlead
    | _ => cases ho

/-- **A leader stays one** through every section that leaves `replication_mtx_` alone, unless the
event is one of those that make it step down. -/
theorem onEvent_leader (hlead : g.el.role = .leader) (hneeds : ev.needs.replication = false)
    (hstays : ev.stepsDown g = false) (ho : g.onEvent call ev = some o) :
    o.group.el.role = .leader := by
  cases ev with
  | request reply req => exact onRequest_leader hlead hstays ho
  | response peer callback resp => exact onResponse_leader hlead hneeds hstays ho
  | persisted index ok =>
    cases ok with
    | true => cases hneeds
    | false =>
      have hnot : index ∉ g.rep.awaitingFlush := of_decide_eq_false hstays
      simp only [RaftGroup.onEvent, RaftGroup.onPersisted, if_neg hnot] at ho
      cases ho
  | forwardedReadIndex t =>
    simp only [RaftGroup.onEvent, RaftGroup.forwardedReadIndex, if_neg (of_decide_eq_false hstays)] at ho
    cases ho
  | heartbeatTick | removeNode | transferLeadership => cases hneeds
  | _ => exact leader_of_vouched hlead ho trivial

end Steady

/-! ## §4 — The gap. -/

/-- Nothing makes the node step down between a call's look at the role and the end of its broadcast,
and no request is past its first phase on a leader. -/
def Process.GapFree (p : Process) (e : Event × Env) : Prop :=
  (p.calls.any Call.leads = true → e.1.stepsDown p.group = false) ∧
    (p.calls.any (·.request?.isSome) = true → p.group.el.role ≠ .leader)

/-- The state of a process without gaps, as far as leadership goes. -/
structure LeaderInv (p : Process) : Prop where
  lawful : ∀ o ∈ p.group.out, o.Lawful
  waiting : p.WaitingSound anyMessages
  sends : p.group.halt = none → (∀ b r, p.waiting ≠ some (.stepDown b r)) → p.group.SendsOk
  leading : p.group.halt = none → ∀ c ∈ p.calls, c.leads = true → p.group.el.role = .leader

theorem Call.StartedIn.leader {c : Call} (h : c.StartedIn el) (hc : c.leads = true) :
    el.role = .leader := by
  unfold Call.leads at hc
  split at hc
  · exact h
  · exact h.elim
  · cases hc

section Gap

variable {p p' : Process} {ev : Event} {env : Env} {c : Call}

theorem needs_of_leads {l : Locks} (hc : c ∈ p.calls) (hl : c.leads = true)
    (free : p.canTake l = true) : l.replication = false := by
  have hholds : c.holdsReplication = true := by
    unfold Call.leads at hl
    split at hl
    · rfl
    · rfl
    · cases hl
  have hheld : p.replicationHeld = true := List.any_eq_true.mpr ⟨c, hc, hholds⟩
  simp_all [Process.canTake]

/-- A call that goes on acts as a leader only if the node leads. -/
theorem LeaderInv.run_guarded {input : CallInput} {o : SectionEnd} (h : LeaderInv p)
    (up : p.group.halt = none) (hc : c ∈ p.calls) (free : p.canTake c.needs = true)
    (ho : (p.entered env).runPart input c = some o) : GuardedFrame (p.entered env) o.group := by
  obtain ⟨hframe, -, hguarded | hleads | hunchecked⟩ := (RaftGroup.part_of_runPart ho).frame
  · exact hguarded
  · exact .of_leader hframe (h.leading up c hc hleads)
  · cases c with
    | client c =>
      cases c with
      | propose call req => exact .of_leader hframe (h.leading up _ hc rfl)
      | _ => cases hunchecked
    | snapshotResponse peer rpcSuccess =>
      have hnone := Process.waiting_none_of_canTake free rfl
      cases ho
      exact RaftGroup.snapshotResponded_guarded (h.sends up (by simp [hnone]))
    | _ => cases hunchecked

/-- **One step.** What only leaders do is done by a leader that is up. -/
theorem LeaderInv.leaderActs (h : LeaderInv p) (hs : p.StepBy RaftGroup.runPart env ev p') {o : Output}
    (ho : o ∈ p'.group.out) (hlead : o.act.isLeaderAct = true) :
    o ∈ p.group.out ∨
      p.group.halt = none ∧ p.group.el.role = .leader ∧ o.MadeIn p.group.el := by
  cases hs with
  | restart down => exact .inl (start_out (p.entered env) _ ▸ ho)
  | crash => exact .inl ho
  | resume up hw free =>
    have hmove := RaftGroup.runWaiting_move (g := p.entered env) (h.waiting _ hw) trivial
    exact (hmove.leaderActs o ho hlead).imp id fun hnew => ⟨up, hnew⟩
  | run up hc free ho' =>
    have hguarded := h.run_guarded up (List.mem_of_getElem? hc) free ho'
    exact (hguarded.leaderActs o ho hlead).imp id fun hnew => ⟨up, hnew⟩
  | event up free ho' =>
    have hmove := Process.event_move (vouchedBy_any _) ho'
    exact (hmove.leaderActs o ho hlead).imp id fun hnew => ⟨up, hnew⟩

theorem runWaiting_sendsOk {g : RaftGroup} {w : Waiting} (hw : w.Sound anyMessages g.el) :
    (g.runWaiting w).group.SendsOk := by
  cases w with
  | lead => exact fun hrole => absurd ((RaftGroup.becomeLeaderRest_frame g).role.trans hw) hrole
  | stepDown persistState rest =>
    intro _
    have hsends := stepDownRest_sends g persistState
    have hrole : (g.stepDownRest persistState).el.role ≠ .leader := by
      rw [(RaftGroup.stepDownRest_talks g persistState).frame.role, hw.1]
      decide
    unfold RaftGroup.runWaiting
    dsimp only
    split
    · exact hsends
    cases rest with
    | nothing | failProposal => exact hsends
    | requestVote reply req =>
      exact (congrArg SnapshotState.sends (answerVote_snap _ reply req)).trans hsends
    | appendEntries reply req =>
      exact ((RaftGroup.appendEntriesRest_talks _ reply req).frame.lead hrole).2 hsends
    | installSnapshot reply req =>
      exact ((RaftGroup.installSnapshotRest_talks _ reply req).frame.lead hrole).2 hsends

theorem LeaderInv.sendsOk (h : LeaderInv p) (hs : p.StepBy RaftGroup.runPart env ev p')
    (hup : p'.group.halt = none) (hw : ∀ b r, p'.waiting ≠ some (.stepDown b r)) : p'.group.SendsOk := by
  cases hs with
  | restart down => exact fun _ => stepDownRest_sends _ true
  | crash => cases hup
  | resume up hw' free => exact runWaiting_sendsOk (g := p.entered env) (h.waiting _ hw')
  | run up hc free ho =>
    have hguarded := h.run_guarded up (List.mem_of_getElem? hc) free ho
    obtain ⟨-, hnone⟩ := Process.runPart_framed ho
    exact hguarded.sendsOk (h.sends up (by simpa [Process.absorb, hnone] using hw))
  | event up free ho =>
    by_cases hwait : p.waiting = none
    · refine (Process.event_move (vouchedBy_any _) ho).sendsOk (h.sends up (by simp [hwait])) ?_
      simpa [Process.absorb, hwait] using hw
    have hfree : ev.needs.election = false := by
      by_contra hl
      exact hwait (Process.waiting_none_of_canTake free (by simpa using hl))
    obtain ⟨hframe, hnone⟩ := RaftGroup.onEvent_guarded hfree ho
    exact hframe.sendsOk (h.sends up (by simpa [Process.absorb, hnone] using hw))

theorem LeaderInv.leads (h : LeaderInv p) (hgap : p.GapFree (ev, env))
    (hs : p.StepBy RaftGroup.runPart env ev p') (hup : p'.group.halt = none) (hc : c ∈ p'.calls)
    (hl : c.leads = true) : p'.group.el.role = .leader := by
  cases hs with
  | restart down => cases hc
  | crash => cases hup
  | resume up hw free =>
    rcases List.mem_append.mp hc with hc | hc
    · have hneeds : Locks.r.replication = false := needs_of_leads (p := p) hc hl free
      cases hneeds
    · exact (RaftGroup.runWaiting_startedIn (g := p.entered env) (h.waiting _ hw) hc).leader hl
  | @run i input d o up hi free ho =>
    have hpart := RaftGroup.part_of_runPart ho
    refine hpart.frame.1.role.trans ?_
    rcases List.mem_append.mp hc with hc | hc
    · exact h.leading up c (List.mem_of_mem_eraseIdx hc) hl
    · exact h.leading up d (List.mem_of_getElem? hi) (hpart.leads hc hl)
  | event up free ho =>
    rcases List.mem_append.mp hc with hc | hc
    · have hstays := hgap.1 (List.any_eq_true.mpr ⟨c, hc, hl⟩)
      exact onEvent_leader (g := p.entered env) (h.leading up c hc hl) (needs_of_leads hc hl free)
        hstays ho
    · exact (RaftGroup.onEvent_startedIn ho hc).leader hl

theorem LeaderInv.step (h : LeaderInv p) (hgap : p.GapFree (ev, env))
    (hs : p.StepBy RaftGroup.runPart env ev p') : LeaderInv p' where
  lawful o ho hlead := by
    rcases h.leaderActs hs ho hlead with hold | ⟨-, hrole, hmade⟩
    · exact h.lawful o hold hlead
    · exact hmade.lawful hrole hlead
  waiting := h.waiting.step Process.runPart_framed (vouchedBy_any ev) hs
  sends := h.sendsOk hs
  leading hup _ hc hl := h.leads hgap hs hup hc hl

theorem LeaderInv.initial (opts : Options) : LeaderInv (Process.initial opts) where
  lawful o ho := by cases ho
  waiting _ hw := by cases hw
  sends hup := by cases hup
  leading hup := by cases hup

theorem leaderInv_of_gapFree {opts : Options}
    (h : (Process.parts opts).ReachableWith Process.GapFree p) : LeaderInv p := by
  refine h.invariant ?_ ?_
  · rintro p rfl
    exact .initial opts
  · rintro p ⟨ev, env⟩ p' hinv hgap hn
    exact hinv.step hgap (Process.stepBy_of_nextInParts hn)

end Gap

/-! ## §5 — Entries of the cluster. -/

namespace Deployment

variable {D : Deployment} {members : List NodeId} {c c' : Cluster}

/-- The acting node has no gap. -/
def GapFree (c : Cluster) (e : NodeId × Event × Env) : Prop := (c e.1).GapFree e.2

/-- No gaps, and a fixed configuration. -/
def GapFreeFixed (D : Deployment) (members : List NodeId) (c : Cluster)
    (e : NodeId × Event × Env) : Prop :=
  GapFree c e ∧ D.FixedConfig members c e

/-- Whoever acted as a leader was elected. -/
structure ActsInv (D : Deployment) (members : List NodeId) (c : Cluster) : Prop where
  election : ElectionInv D members c
  leader : ∀ i, LeaderInv (c i)
  elected : ∀ i, ∀ o ∈ (c i).group.out, ∀ t, o.act.leaderTerm = some t → c.Elected members t i

theorem ActsInv.initial (D : Deployment) (members : List NodeId) : ActsInv D members D.initial where
  election := .initial D members
  leader i := .initial (D.options i)
  elected i o ho := by cases ho

theorem isLeaderAct_of_leaderTerm {a : Act} {t : Term} (h : a.leaderTerm = some t) :
    a.isLeaderAct = true := by
  cases a with
  | sent peer r callback =>
    change (if r.isLeaderRequest = true then some r.term else none) = some t at h
    split at h
    · assumption
    · cases h
  | created e => rfl
  | _ => cases h

theorem ActsInv.step {i : NodeId} {ev : Event} {env : Env} (h : ActsInv D members c)
    (hc : D.GapFreeFixed members c (i, ev, env)) (hn : D.parts.next c (i, ev, env) = some c') :
    ActsInv D members c' := by
  obtain ⟨hi, hm, p, hs, rfl⟩ := Deployment.parts_next_eq hn
  obtain ⟨helection, hsteps⟩ := h.election.update Process.runPart_framed hc.2 hi hm hs
  refine ⟨helection, fun j => ?_, fun j o ho t ht => ?_⟩
  · by_cases hji : j = i
    · subst hji
      rw [Function.update_self]
      exact (h.leader j).step hc.1 hs
    · rw [Function.update_of_ne hji]
      exact h.leader j
  · refine ElectionInv.elected_step hsteps ?_
    by_cases hji : j = i
    · subst hji
      rw [Function.update_self] at ho
      have hlead := isLeaderAct_of_leaderTerm ht
      rcases (h.leader j).leaderActs hs ho hlead with hold | ⟨hup, hrole, hmade⟩
      · exact h.elected j o hold t ht
      · obtain ⟨-, hterm⟩ := hmade.lawful hrole hlead
        obtain rfl : o.term = t := Option.some.inj (hterm.symm.trans ht)
        rw [hmade.2.1]
        exact h.election.leads j hup hrole
    · rw [Function.update_of_ne hji] at ho
      exact h.elected j o ho t ht

theorem actsInv_of_reachable (h : D.parts.ReachableWith (D.GapFreeFixed members) c) :
    ActsInv D members c := by
  refine h.invariant ?_ ?_
  · rintro c rfl
    exact .initial D members
  · rintro c ⟨i, ev, env⟩ c' hinv hc hn
    exact hinv.step hc hn

end Deployment

/-- **Leaders' acts.** In every run of a node in which nothing makes it step down between a call's
look at the role and the end of its broadcast, and no request is past its first phase while it leads,
entries are made and AppendEntries and InstallSnapshot are sent by a leader, in its current term. In
every run of a cluster of such nodes with a fixed configuration, no two nodes make entries of one
index and term. -/
theorem leaderActs_of_gapFree (opts : Options) (D : Deployment) (members : List NodeId) :
    (∀ p, (Process.parts opts).ReachableWith Process.GapFree p →
      ∀ o ∈ p.group.out, o.act.isLeaderAct = true →
        o.role = .leader ∧ o.act.leaderTerm = some o.term) ∧
    ∀ c, D.parts.ReachableWith (D.GapFreeFixed members) c →
      ∀ i j o o' e e', o ∈ (c i).group.out → o' ∈ (c j).group.out → o.act = .created e →
        o'.act = .created e' → e.index = e'.index → e.term = e'.term → i = j := by
  refine ⟨fun p h => (leaderInv_of_gapFree h).lawful, ?_⟩
  intro c h i j o o' e e' ho ho' hact hact' _ hterm
  have hinv := Deployment.actsInv_of_reachable h
  have helected := hinv.elected i o ho e.term (by rw [hact]; rfl)
  have helected' := hinv.elected j o' ho' e.term (by rw [hact', hterm]; rfl)
  exact Lib.Elected.unique Quorum.meet helected helected'

instance (p : Process) (e : Event × Env) : Decidable (p.GapFree e) := by
  unfold Process.GapFree
  infer_instance

instance (D : Deployment) (members : List NodeId) (c : Cluster) (e : NodeId × Event × Env) :
    Decidable (D.GapFreeFixed members c e) := by
  unfold Deployment.GapFreeFixed Deployment.GapFree
  infer_instance

/-- Node 1 is elected and takes a client's command. -/
def trioEntry : List (NodeId × Event × Env) :=
  trioElection ++
    [ (1, .clientRequest { command := [1], clientId := 7, seq := 1 }, { now := 1000 }),
      (1, .run 0 {}, { now := 1000 }) ]

theorem leaderActs_of_gapFree_trio :
    (∃ p, (Process.parts votingOne).ReachableWith Process.GapFree p ∧ p.calls.any Call.leads = true ∧
      ∃ o ∈ p.group.out, o.act.isLeaderAct = true ∧ o.role = .leader ∧
        o.act.leaderTerm = some o.term) ∧
    ∃ c, trio.parts.ReachableWith (trio.GapFreeFixed [1, 2, 3]) c ∧
      (∃ o ∈ (c 1).group.out, o.act = .created ⟨1, 1, [1]⟩) ∧
      ∀ j, ∀ o ∈ (c j).group.out, ∀ e, o.act = .created e → e.index = 1 → e.term = 1 → 1 = j := by
  have hacts := leaderActs_of_gapFree votingOne trio [1, 2, 3]
  refine ⟨?_, ?_⟩
  · -- what node 1 alone does of it, and it has begun to send the entry
    obtain ⟨p, hreach, hleads, o, ho, hlead⟩ := (Process.parts votingOne).reachesWith Process.GapFree
      (trioEntry.filterMap fun e => if e.1 = 1 then some e.2 else none) rfl
      (P := fun p => p.calls.any Call.leads = true ∧ ∃ o ∈ p.group.out, o.act.isLeaderAct = true)
      (by decide +kernel)
    exact ⟨p, hreach, hleads, o, ho, hlead, hacts.1 p hreach o ho hlead⟩
  obtain ⟨c, hreach, o, ho, hact⟩ := trio.parts.reachesWith (trio.GapFreeFixed [1, 2, 3]) trioEntry rfl
    (P := fun c => ∃ o ∈ (c 1).group.out, o.act = .created ⟨1, 1, [1]⟩) (by decide +kernel)
  refine ⟨c, hreach, ⟨o, ho, hact⟩, fun j o' ho' e hact' hindex hterm => ?_⟩
  exact hacts.2 c hreach 1 j o o' _ e ho ho' hact hact' hindex.symm hterm.symm

/-- Node 1 leads term 1 and has checked its role for a client's command when node 2 asks for votes
of term 2. Node 1 steps down and then appends. Node 3 elects node 2, which appends as well. -/
def gapEvents : List (NodeId × Event × Env) :=
  let vote : RequestVoteRequest := { term := 2, candidateId := 2, lastLogIndex := 0, lastLogTerm := 0 }
  let later : Env := { now := 2000 }
  [ (1, .clientRequest { command := [1], clientId := 7, seq := 1 }, { now := 1000 }),
    (2, .electionTick, later),
    (1, .request ⟨2, .vote 2⟩ (.requestVote vote), later), (1, .run 0 {}, later),
    (3, .restart {}, later),
    (3, .request ⟨2, .vote 2⟩ (.requestVote vote), later), (3, .resume, later),
    (2, .response 3 (.vote 2) (.vote ⟨2, true⟩), later), (2, .resume, later),
    (2, .clientRequest { command := [2], clientId := 8, seq := 1 }, later), (2, .run 0 {}, later) ]

theorem follower_creates_entry :
    ∃ c, trio.parts.Reachable c ∧
      (∃ o ∈ (c 1).group.out, ¬ (o.act.isLeaderAct = true →
        o.role = .leader ∧ o.act.leaderTerm = some o.term)) ∧
      ∃ o ∈ (c 1).group.out, ∃ o' ∈ (c 2).group.out, ∃ e e', o.act = .created e ∧
        o'.act = .created e' ∧ e.index = e'.index ∧ e.term = e'.term ∧ e ≠ e' := by
  -- Two different entries of index 1 and term 2, the first made by a follower.
  obtain ⟨c, hreach, ⟨o, ho, hrole, hact⟩, o', ho', hact'⟩ := trio.parts.reaches
    (trioElection ++ gapEvents) rfl (P := fun c =>
      (∃ o ∈ (c 1).group.out, o.role = .follower ∧ o.act = .created ⟨1, 2, [1]⟩) ∧
      ∃ o ∈ (c 2).group.out, o.act = .created ⟨1, 2, [2]⟩) (by decide +kernel)
  refine ⟨c, hreach, ⟨o, ho, fun hlawful => ?_⟩, o, ho, o', ho', _, _, hact, hact', rfl, rfl, by decide⟩
  have hleader := (hlawful (by rw [hact]; rfl)).1
  rw [hrole] at hleader
  cases hleader

end RollingRaft
