/-
# RollingRaft.VoteCheck — votes and the position of the log.

A voter grants votes and pre-votes to candidates whose log is at least as up to date as its own.
Its own position is that of its last entry; when a snapshot has emptied the log, it should be that
of the snapshot. `GetLastLogInfo` answers `(0, 0)` then, both for the check and for the position a
candidate reports, so the check is the right one exactly when there is an entry or no snapshot.
-/
import Mathlib.Data.Prod.Lex
import RollingRaft.Votes

namespace RollingRaft

open Lib

/-! ## §1 — Positions. -/

/-- A position in the log: positions are compared by term first. -/
abbrev Position := Term ×ₗ Index

def RequestVoteRequest.position (req : RequestVoteRequest) : Position :=
  toLex (req.lastLogTerm, req.lastLogIndex)

namespace RaftGroup

/-- The position of the last entry or, when the log is empty, of the snapshot. -/
def lastPosition (g : RaftGroup) : Position :=
  match g.rep.log.entries.getLast? with
  | some e => toLex (e.term, e.index)
  | none => toLex (g.snap.lastSnapshotTerm, g.snap.lastSnapshotIndex)

/-- There is an entry, or no snapshot. -/
def KnowsPosition (g : RaftGroup) : Prop :=
  g.rep.log.entries ≠ [] ∨ g.snap.lastSnapshotTerm = 0 ∧ g.snap.lastSnapshotIndex = 0

/-- The code's check compares with the position the node would report itself. -/
theorem logIsUpToDate_iff (g : RaftGroup) (req : RequestVoteRequest) (t : Term) :
    g.logIsUpToDate req = true ↔ (g.voteRequest t).position ≤ req.position := by
  unfold logIsUpToDate voteRequest RequestVoteRequest.position
  rw [Prod.Lex.toLex_le_toLex]
  simp only [Bool.or_eq_true, Bool.and_eq_true, decide_eq_true_eq]
  exact or_congr_right (and_congr_left fun _ => eq_comm)

/-- **The reported position is the right one exactly when there is an entry or no snapshot.** -/
theorem position_voteRequest_iff (g : RaftGroup) (t : Term) :
    (g.voteRequest t).position = g.lastPosition ↔ g.KnowsPosition := by
  unfold voteRequest RequestVoteRequest.position lastPosition KnowsPosition RaftLog.getLastLogInfo
  cases hlast : g.rep.log.entries.getLast? with
  | none =>
    have hnil : g.rep.log.entries = [] := List.getLast?_eq_none_iff.mp hlast
    rw [toLex_inj, Prod.mk.injEq]
    simp [hnil, eq_comm]
  | some e =>
    have hne : g.rep.log.entries ≠ [] := by
      rintro hnil
      rw [hnil] at hlast
      cases hlast
    exact iff_of_true rfl (.inl hne)

end RaftGroup

/-! ## §2 — What sections say about positions. -/

/-- A vote is granted to a candidate that asked and passed the check; a vote is asked for with the
position the log gives. -/
def Act.PositionChecked (m : Vouched) (g : RaftGroup) : Act → Prop
  | .replied reply (.vote resp) => resp.voteGranted = true → ∃ req,
      (m.asked reply (.requestVote req) ∨ m.asked reply (.preVote req)) ∧ g.logIsUpToDate req = true
  | .sent _ (.requestVote req) _ => ∃ t, req = g.voteRequest t
  | .sent _ (.preVote req) _ => ∃ t, req = g.voteRequest t
  | _ => True

/-- What `g'` has done beyond `g`. -/
def RaftGroup.Adds (P : Act → Prop) (g g' : RaftGroup) : Prop :=
  ∃ new, g'.out = g.out ++ new ∧ ∀ o ∈ new, P o.act

section Sections

variable {m : Vouched} {P : Act → Prop} {g g₁ g' : RaftGroup}

theorem RaftGroup.Adds.of_out (h : g'.out = g.out) : g.Adds P g' := GoesOn.of_eq h

theorem RaftGroup.Adds.trans (h : g.Adds P g₁) (h' : g₁.Adds P g') : g.Adds P g' :=
  GoesOn.trans h h'

theorem RaftGroup.Adds.emit {a : Act} (ha : P a) : g.Adds P (g.emit a) := GoesOn.single ha

theorem RaftGroup.Adds.emits {α : Type*} {f : RaftGroup → α → Act}
    (hf : ∀ out a, P (f { g with out := out } a)) (l : List α) :
    g.Adds P (l.foldl (fun g a => g.emit (f g a)) g) := by
  induction l generalizing g with
  | nil => exact .of_out rfl
  | cons a l ih => exact (RaftGroup.Adds.emit (hf g.out a)).trans (ih fun out b => hf out b)

theorem Act.Ordinary.positionChecked {a : Act} {t : Term} (h : a.Ordinary t) :
    a.PositionChecked m g := by
  cases a with
  | sent peer r callback =>
    cases r with
    | requestVote | preVote => cases h.1
    | _ => trivial
  | replied reply resp =>
    cases resp with
    | vote resp => cases h
    | _ => trivial
  | _ => trivial

theorem ElectionFrame.positionChecked (h : ElectionFrame g₁ g') (hout : g₁.out = g.out) :
    g.Adds (Act.PositionChecked m g) g' := by
  unfold RaftGroup.Adds
  rw [← hout]
  exact GoesOn.mono h.out fun _ hmade => hmade.2.2.positionChecked

variable {req : RequestVoteRequest}

/-- A vote is granted only after the check. -/
theorem voteRest_granted (h : (g.voteRest req).2.voteGranted = true) :
    g.logIsUpToDate req = true := by
  unfold RaftGroup.voteRest at h
  by_contra hcheck
  split at h
  · cases h
  split at h
  · cases h
  rw [if_pos (by simpa using hcheck)] at h
  cases h

theorem answerVote_positionChecked {reply : ReplyTo}
    (asked : m.asked reply (.requestVote req)) :
    g.Adds (Act.PositionChecked m g) (g.answerVote reply req) := by
  have hout : (g.voteRest req).1.out = g.out := by
    rcases voteRest_cases g req with ⟨hsame, -⟩ | ⟨-, -, hsaved, -⟩
    · rw [hsame]
    · rw [hsaved]
      exact saveState_out _
  exact (RaftGroup.Adds.of_out hout).trans
    (.emit fun hgranted => ⟨req, .inl asked, voteRest_granted hgranted⟩)

theorem becomeCandidate_positionChecked :
    g.Adds (Act.PositionChecked m g) g.becomeCandidate.1 := by
  have hlog : g.candidacy.saveState.1.rep.log = g.rep.log := by
    unfold RaftGroup.saveState
    split <;> rfl
  have hopts : g.candidacy.saveState.1.opts = g.opts := (ElectionFrame.saveState _).opts
  have hsave : g.Adds (Act.PositionChecked m g) g.candidacy.saveState.1 :=
    .of_out (saveState_out g.candidacy)
  unfold RaftGroup.becomeCandidate
  dsimp only
  split
  · exact hsave
  split
  · exact hsave
  refine hsave.trans (.emits (fun out peer => ?_) _)
  refine ⟨g.candidacy.saveState.1.el.currentTerm, ?_⟩
  show RequestVoteRequest.mk _ _ _ _ = RequestVoteRequest.mk _ _ _ _
  dsimp only [RaftGroup.serverId]
  rw [hlog, hopts]

theorem RaftGroup.Adds.positionChecked_of_keeps (h : g₁.Adds (Act.PositionChecked m g₁) g')
    (hkeeps : g.Keeps g₁) (hopts : g₁.opts = g.opts) : g₁.Adds (Act.PositionChecked m g) g' := by
  have hreq : ∀ t, g₁.voteRequest t = g.voteRequest t := by
    intro t
    unfold RaftGroup.voteRequest RaftGroup.serverId
    rw [hkeeps.log, hopts]
  have hcheck : g₁.logIsUpToDate = g.logIsUpToDate := by
    unfold RaftGroup.logIsUpToDate
    rw [hkeeps.log]
  have hacts : Act.PositionChecked m g₁ = Act.PositionChecked m g := by
    unfold Act.PositionChecked
    simp only [hreq, hcheck]
  rwa [hacts] at h

/-- **Every section checks positions as the log gives them.** -/
theorem ElectionMove.positionChecked {w : Option Waiting} (h : ElectionMove m g g' w) :
    g.Adds (Act.PositionChecked m g) g' := by
  cases h with
  | quiet h | preVoteTimeout _ h | stepDown h => exact h.toElectionFrame.positionChecked rfl
  | preVoteCounted | voteCounted | elected => exact .of_out rfl
  | @preVoteRound g₁ h hkeeps =>
    refine (h.toElectionFrame.positionChecked rfl).trans ?_
    refine RaftGroup.Adds.positionChecked_of_keeps ?_ hkeeps h.opts
    exact .emits (g := g₁.setPreVotes _) (fun out peer => ⟨_, rfl⟩) _
  | @preVoteReply reply req asked =>
    refine .emit fun hgranted => ⟨req, .inr asked, ?_⟩
    simp_all [RaftGroup.preVoteGranted]
  | vote h hterm asked hkeeps =>
    refine (h.toElectionFrame.positionChecked rfl).trans ?_
    exact (answerVote_positionChecked asked).positionChecked_of_keeps hkeeps h.opts
  | @checkQuorum g₁ h hrole hm =>
    refine (h.toElectionFrame.positionChecked rfl).trans (.of_out ?_)
    exact stepDownRest_out _ true
  | @candidacy p g₁ h hkeeps hrole hm =>
    have hbefore : g.Adds (Act.PositionChecked m g) g₁ := h.toElectionFrame.positionChecked rfl
    refine hbefore.trans (RaftGroup.Adds.positionChecked_of_keeps ?_ hkeeps h.opts)
    exact becomeCandidate_positionChecked

end Sections

/-! ## §3 — Steps of a process. -/

namespace Process

/-- The vote request that a step answers: one that arrives, or the one that a step-down was for. -/
def answers (p : Process) : Event → Option (ReplyTo × RequestVoteRequest)
  | .request reply (.requestVote req) => some (reply, req)
  | .request reply (.preVote req) => some (reply, req)
  | .resume =>
    match p.waiting with
    | some (.stepDown _ (.requestVote reply req)) => some (reply, req)
    | _ => none
  | _ => none

/-- Only what the step answers has been asked. -/
def asking (p : Process) (ev : Event) : Vouched :=
  { anyMessages with
    asked := fun reply r => ∀ req, r = .requestVote req ∨ r = .preVote req →
      p.answers ev = some (reply, req) }

variable {p p' : Process} {ev : Event} {env : Env}

theorem vouchedBy_asking (p : Process) (ev : Event) : ev.VouchedBy (p.asking ev) := by
  refine vouchedBy_of ?_ (fun _ _ _ _ _ => trivial) fun _ => trivial
  rintro reply _ rfl req (rfl | rfl) <;> rfl

theorem waitingSound_asking {w : Waiting} (hw : p.waiting = some w)
    (h : w.Sound anyMessages p.group.el) : w.Sound (p.asking .resume) p.group.el := by
  cases w with
  | lead => exact h
  | stepDown persistState rest =>
    refine ⟨h.1, ?_⟩
    cases rest with
    | requestVote reply req =>
      refine ⟨h.2.1, ?_⟩
      rintro _ (heq | heq) <;> cases heq
      unfold answers
      rw [hw]
    | appendEntries => exact h.2
    | installSnapshot => exact ⟨h.2.1, by rintro _ (heq | heq) <;> cases heq⟩
    | _ => trivial

/-- **One step.** -/
theorem Step.positionChecked (hs : p.WaitingSound anyMessages) (h : p.Step env ev p') :
    p.group.Adds (Act.PositionChecked (p.asking ev) p.group) p'.group := by
  cases h with
  | restart down => exact .of_out (start_out (p.entered env) _)
  | crash => exact .of_out rfl
  | resume up hw free =>
    have hsound := waitingSound_asking hw (hs _ hw)
    exact (RaftGroup.runWaiting_move (g := p.entered env) hsound trivial).positionChecked
  | run up hc free ho => exact (RaftGroup.runCall_frame ho).1.positionChecked rfl
  | event up free ho => exact (event_move (p.vouchedBy_asking ev) ho).positionChecked

def newOutputs (p p' : Process) : List Output := p'.group.out.drop p.group.out.length

/-- A step grants votes and pre-votes only to candidates at or beyond the node's own position, and
asks for them with this position. -/
structure RespectsPosition (p : Process) (ev : Event) (p' : Process) : Prop where
  granted : ∀ o ∈ newOutputs p p', ∀ reply resp, o.act = .replied reply (.vote resp) →
    resp.voteGranted = true →
      ∃ req, p.answers ev = some (reply, req) ∧ p.group.lastPosition ≤ req.position
  reported : ∀ o ∈ newOutputs p p', ∀ peer req callback,
    o.act = .sent peer (.requestVote req) callback ∨ o.act = .sent peer (.preVote req) callback →
      req.position = p.group.lastPosition

theorem Step.respectsPosition (hs : p.WaitingSound anyMessages) (hknows : p.group.KnowsPosition)
    (h : p.Step env ev p') : p.RespectsPosition ev p' := by
  obtain ⟨new, hnew, hchecked⟩ := h.positionChecked hs
  have hdrop : newOutputs p p' = new := by
    unfold newOutputs
    rw [hnew, List.drop_left]
  have hposition := fun t => (p.group.position_voteRequest_iff t).mpr hknows
  refine ⟨fun o ho reply resp hact hgranted => ?_, fun o ho peer req callback hact => ?_⟩
  · have hact' := hchecked o (hdrop ▸ ho)
    rw [hact] at hact'
    obtain ⟨req, hasked, hcheck⟩ := hact' hgranted
    refine ⟨req, hasked.elim (· req (.inl rfl)) (· req (.inr rfl)), ?_⟩
    rw [← hposition 0]
    exact (p.group.logIsUpToDate_iff req 0).mp hcheck
  · have hact' := hchecked o (hdrop ▸ ho)
    rcases hact with hact | hact <;> rw [hact] at hact' <;> obtain ⟨t, rfl⟩ := hact' <;>
      exact hposition t

end Process

/-- **Votes and positions.** A node compares and reports positions as it should exactly when its log
has an entry or it has no snapshot: then every step grants votes and pre-votes only to candidates at
or beyond its own position, and it asks for votes with that position. -/
theorem respectsPosition_iff {opts : Options} {p : Process}
    (h : (Process.system opts).Reachable p) :
    ((∀ ev env p', p.next (ev, env) = some p' → p.RespectsPosition ev p') ∧
      ∀ t, (p.group.voteRequest t).position = p.group.lastPosition) ↔ p.group.KnowsPosition := by
  constructor
  · rintro ⟨-, hreports⟩
    exact (p.group.position_voteRequest_iff 0).mp (hreports 0)
  · intro hknows
    refine ⟨fun ev env p' hn => ?_, fun t => (p.group.position_voteRequest_iff t).mpr hknows⟩
    exact (Process.step_of_next hn).respectsPosition (Process.waitingSound_of_reachable h) hknows

/-- Node 1 receives the snapshot of a leader, which empties its log. Node 3, whose log is empty as
well and which has no snapshot, asks for its vote. -/
def snapshotThenVote : List (Event × Env) :=
  let snapshot : InstallSnapshotRequest :=
    { term := 1, leaderId := 2, lastIncludedIndex := 5, lastIncludedTerm := 1, offset := 0
      data := [7], done := true }
  [ (.restart {}, { now := 0 }),
    (.request ⟨2, .snapshot 0⟩ (.installSnapshot snapshot), { now := 10 }), (.resume, { now := 10 }),
    (.run 0 {}, { now := 10 }), (.run 0 {}, { now := 11 }), (.run 0 {}, { now := 12 }),
    (.request ⟨3, .vote 2⟩ (.requestVote emptyLogVote), { now := 500 }) ]
where
  /-- The request of node 3. -/
  emptyLogVote : RequestVoteRequest :=
    { term := 2, candidateId := 3, lastLogIndex := 0, lastLogTerm := 0 }

/-- A voter that has a snapshot up to position `(1, 5)` votes for a candidate with nothing. -/
theorem vote_below_snapshot :
    ∃ p env p', (Process.system nodeOne).Reachable p ∧ p.next (.resume, env) = some p' ∧
      ∃ o ∈ p.newOutputs p', ∃ reply req resp, o.act = .replied reply (.vote resp) ∧
        resp.voteGranted = true ∧ p.answers .resume = some (reply, req) ∧
        req.position < p.group.lastPosition := by
  obtain ⟨p, hreach, hposition, hanswers, p', hnext, o, ho, hact⟩ := (Process.system nodeOne).reaches
    snapshotThenVote rfl (P := fun p => p.group.lastPosition = toLex (1, 5) ∧
      p.answers .resume = some (⟨3, .vote 2⟩, snapshotThenVote.emptyLogVote) ∧
      ∃ p' ∈ p.next (.resume, { now := 500 }), ∃ o ∈ p.newOutputs p',
        o.act = .replied ⟨3, .vote 2⟩ (.vote ⟨2, true⟩)) (by decide +kernel)
  refine ⟨p, _, p', hreach, hnext, o, ho, _, _, _, hact, rfl, hanswers, ?_⟩
  rw [hposition]
  decide

/-- A node that comes back with an entry after its snapshot. -/
theorem respectsPosition_iff_recovered :
    ∃ p, (Process.system nodeOne).Reachable p ∧ p.group.lastPosition = toLex (1, 6) ∧
      (((∀ ev env p', p.next (ev, env) = some p' → p.RespectsPosition ev p') ∧
        ∀ t, (p.group.voteRequest t).position = p.group.lastPosition) ↔ p.group.KnowsPosition) := by
  obtain ⟨p, hreach, hposition⟩ := (Process.system nodeOne).reaches
    [(.restart { snapshot := some (5, 1), entries := [⟨6, 1, []⟩] }, { now := 0 })] rfl
    (P := fun p => p.group.lastPosition = toLex (1, 6)) (by decide +kernel)
  exact ⟨p, hreach, hposition, respectsPosition_iff hreach⟩

end RollingRaft
