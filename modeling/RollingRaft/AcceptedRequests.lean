/-
# RollingRaft.AcceptedRequests — the role of a node that accepts a leader's request.

AppendEntries and InstallSnapshot of a higher term make their receiver a follower. A request of the
current term passes the same checks and leaves the role as it is: a candidate that accepts one keeps
counting its votes, and may come to lead the term whose leader it has just followed. A node that was
a follower stays one until it stands for election.
-/
import RollingRaft.PhaseGap

namespace RollingRaft

open Lib

/-! ## §1 — Accepting a request. -/

/-- Term and sender of a request that has passed the first phase of its handler. -/
def Call.accepted : Call → Option (Term × NodeId)
  | .follower (.append _ _ req) => some (req.term, req.leaderId)
  | .follower (.chunk _ _ req) => some (req.term, req.leaderId)
  | _ => none

namespace Process

/-- The step from `p` to `p'` accepts a request of the node's term from another node. -/
def Accepts (p p' : Process) : Prop :=
  p'.calls.dropLast = p.calls ∧ ∃ req ∈ p'.calls.getLast?.bind Call.accepted,
    req.1 = p'.group.el.currentTerm ∧ req.2 ≠ p'.group.serverId

instance (p p' : Process) : Decidable (p.Accepts p') := by
  unfold Accepts
  infer_instance

/-- The step from `p` to `p'` starts an election. -/
def StartsElection (p p' : Process) : Prop :=
  p'.group.el.role ≠ .follower ∧ p'.group.el.currentTerm ≠ p.group.el.currentTerm

def NoElection (p : Process) (e : Event × Env) : Prop :=
  ∀ p', p.next e = some p' → ¬p.StartsElection p'

/-- The node is a follower until it next starts an election. -/
def StaysFollower (opts : Options) (p : Process) : Prop :=
  ∀ p', (Process.system opts).Later NoElection p p' → p'.group.el.role = .follower

end Process

/-! ## §2 — Followers. -/

section Followers

variable {m : Vouched} {g g' : RaftGroup}

/-- A follower that is one no longer has gone to the next term. -/
theorem ElectionMove.follower {w : Option Waiting} (h : ElectionMove m g g' w)
    (hrole : g.el.role = .follower) :
    g'.el.role = .follower ∨ g'.el.currentTerm = add32 g.el.currentTerm 1 := by
  cases h.roleMove with
  | kept hsame hterm hreceived => exact .inl (hsame.trans hrole)
  | down h hterm => exact .inl h
  | stood hm hlead h hterm | wonAlone hm hlead h hterm => exact .inr hterm
  | counted granted hcand | won granted hcand => cases hrole.symm.trans hcand

theorem GroupStep.follower (h : GroupStep m g g') (hrole : g.el.role = .follower) :
    g'.el.role = .follower ∨ g'.el.currentTerm = add32 g.el.currentTerm 1 := by
  cases h with
  | crash => exact .inl hrole
  | restart down => exact .inl (RaftGroup.stepDownRest_talks _ true).frame.role
  | call up h => exact .inl (h.role.trans hrole)
  | move up h => exact h.follower hrole

end Followers

namespace Process

variable {opts : Options} {p p' : Process} {e : Event × Env} {ev : Event} {env : Env}

theorem follower_step (hs : p.WaitingSound anyMessages) (hrole : p.group.el.role = .follower)
    (hno : p.NoElection e) (hn : p.next e = some p') : p'.group.el.role = .follower := by
  by_contra hstands
  apply hno p' hn
  refine ⟨hstands, ?_⟩
  rcases ((step_of_next hn).groupStep runCall_framed hs (vouchedBy_any e.1)).follower hrole with h | h
  · exact absurd h hstands
  · rw [h]
    exact add32_one_ne _

/-- A follower stays one until it starts an election. -/
theorem staysFollower (h : (Process.system opts).Reachable p)
    (hrole : p.group.el.role = .follower) : StaysFollower opts p := by
  intro p' hlater
  have hstep := hlater.stable (P := fun p =>
    (Process.system opts).Reachable p ∧ p.group.el.role = .follower) ?_ ⟨h, hrole⟩
  · exact hstep.2
  · intro p e p' hp hno hn
    exact ⟨.step hp.1 trivial hn, follower_step (waitingSound_of_reachable hp.1) hp.2 hno hn⟩

/-! ## §3 — The step that accepts. -/

theorem onRequest_role {g : RaftGroup} {reply : ReplyTo} {req : Request} {c : Call}
    (hc : c ∈ (g.onRequest reply req).calls) :
    (g.onRequest reply req).group.el.role = g.el.role := by
  cases req with
  | requestVote | preVote => cases hc
  | appendEntries req => exact (handleAppendEntries_keeps hc).2.2
  | installSnapshot req =>
    unfold RaftGroup.onRequest SectionEnd.ofHandler RaftGroup.handleInstallSnapshot at hc ⊢
    dsimp only at hc ⊢
    split at hc
    · cases hc
    rw [if_neg ‹_›]
    split at hc
    · cases hc
    rw [if_neg ‹_›]
    exact (RaftGroup.installSnapshotRest_talks g reply req).frame.role

/-- To accept a request leaves the role alone; the step-down to its term came before. -/
theorem Accepts.role (h : p.Accepts p') (hs : p.WaitingSound anyMessages) (hstep : p.Step env ev p') :
    p'.group.el.role = p.group.el.role := by
  obtain ⟨hdrop, req, hreq, -⟩ := h
  obtain ⟨c, hlast, hc⟩ := Option.bind_eq_some_iff.mp hreq
  have hcalls : p'.calls = p.calls ++ [c] := by
    rw [← hdrop, List.dropLast_append_getLast? c hlast]
  have hlength := congrArg List.length hcalls
  rw [List.length_append, List.length_singleton] at hlength
  cases hstep with
  | restart down => cases hlength
  | crash => exact absurd hlength (Nat.lt_succ_self _).ne
  | @resume w up hw free =>
    have hleft : ((p.entered env).runWaiting w).calls = [c] := List.append_cancel_left hcalls
    cases w with
    | lead => cases hleft
    | stepDown persistState rest =>
      have hsound := hs _ hw
      have hrole : p.group.el.role ≠ .leader := by
        intro hlead
        cases hsound.1.symm.trans hlead
      exact ((RaftGroup.runWaiting_move (g := p.entered env) hsound.settled trivial).settled hrole).2
  | @run i input d o up hd free ho => exact (RaftGroup.runCall_frame ho).1.role
  | @event ev o up free ho =>
    have hleft : o.calls = [c] := List.append_cancel_left hcalls
    have hmem : c ∈ o.calls := hleft ▸ List.mem_singleton_self c
    cases RaftGroup.onEvent_starts ho hmem with
    | append | chunk => cases ho; exact onRequest_role hmem
    | _ => cases hc

end Process

/-- **Who stays a follower after accepting a request.** A node that accepts AppendEntries or
InstallSnapshot of its term is a follower until it next starts an election exactly when it was one
before. -/
theorem staysFollower_iff {opts : Options} {p p' : Process} {e : Event × Env}
    (h : (Process.system opts).Reachable p) (hn : p.next e = some p') (haccepts : p.Accepts p') :
    Process.StaysFollower opts p' ↔ p.group.el.role = .follower := by
  have hrole := haccepts.role (Process.waitingSound_of_reachable h) (Process.step_of_next hn)
  constructor
  · intro hstays
    exact hrole.symm.trans (hstays p' (.refl p'))
  · intro hfollower
    exact Process.staysFollower (.step h trivial hn) (hrole.trans hfollower)

/-- Node 1 has stepped down to the term of leader 2, and accepts its request. -/
theorem staysFollower_steppedDown :
    ∃ p p', (Process.system nodeOne).Reachable p ∧ p.next (.resume, { now := 10 }) = some p' ∧
      p.Accepts p' ∧ Process.StaysFollower nodeOne p' := by
  have hrun : ((Process.system nodeOne).replay (fun _ _ => true) (Process.initial nodeOne)
      (betweenPhases.take 2)).any (fun p => p.group.el.role = .follower &&
        (p.next (.resume, { now := 10 })).any fun p' => p.Accepts p') = true := by
    decide +kernel
  obtain ⟨p, hp, hends⟩ := (Option.any_eq_true _ _).mp hrun
  obtain ⟨hrole, hnext⟩ := Bool.and_eq_true_iff.mp hends
  obtain ⟨p', hp', haccepts⟩ := (Option.any_eq_true _ _).mp hnext
  have hreach := (TransitionSystem.reachableWith_of_replay (.init rfl) hp).reachable
  refine ⟨p, p', hreach, hp', of_decide_eq_true haccepts, ?_⟩
  exact (staysFollower_iff hreach hp' (of_decide_eq_true haccepts)).mpr (of_decide_eq_true hrole)

/-! ## §4 — A candidate that accepts a request of its term. -/

/-- Node 1 stands for term 1. -/
def standsForOne : List (Event × Env) :=
  [(.restart {}, { now := 0 }), (.electionTick, { now := 1000 })]

/-- A heartbeat of term 1 from node 2. -/
def heartbeatOfOne : AppendEntriesRequest :=
  { term := 1, leaderId := 2, prevLogIndex := 0, prevLogTerm := 0, entries := [], leaderCommit := 0 }

def ownTermHeartbeat : Event × Env :=
  (.request ⟨2, .append true 0⟩ (.appendEntries heartbeatOfOne), { now := 1001 })

/-- The vote of node 3 arrives. -/
def thirdVote : Event × Env := (.response 3 (.vote 1) (.vote ⟨1, true⟩), { now := 1002 })

/-- The heartbeat is accepted, and the vote makes the node lead the term it was accepted in. -/
def winsAfterHeartbeat (p : Process) : Bool :=
  (p.next ownTermHeartbeat).any fun p₁ => p.Accepts p₁ && (p₁.next thirdVote).any fun p₂ =>
    p₂.group.el.role = .leader && p₂.group.el.currentTerm = p₁.group.el.currentTerm

theorem standsForOne_wins :
    ((Process.system votingOne).replay (fun _ _ => true) (Process.initial votingOne)
      standsForOne).any winsAfterHeartbeat = true := by
  decide +kernel

/-- A candidate accepts a heartbeat of its term and then leads that term, with no election in
between. -/
theorem candidate_wins_after_heartbeat :
    ∃ p p₁ p₂, (Process.system votingOne).Reachable p ∧ p.next ownTermHeartbeat = some p₁ ∧
      p.Accepts p₁ ∧ (Process.system votingOne).Later Process.NoElection p₁ p₂ ∧
      p₂.group.el.role = .leader ∧ p₂.group.el.currentTerm = p₁.group.el.currentTerm := by
  obtain ⟨p, hp, hends⟩ := (Option.any_eq_true _ _).mp standsForOne_wins
  obtain ⟨p₁, hp₁, hends⟩ := (Option.any_eq_true _ _).mp hends
  obtain ⟨haccepts, hnext⟩ := Bool.and_eq_true_iff.mp hends
  obtain ⟨p₂, hp₂, hwins⟩ := (Option.any_eq_true _ _).mp hnext
  simp only [Bool.and_eq_true, decide_eq_true_eq] at haccepts hwins
  refine ⟨p, p₁, p₂, (TransitionSystem.reachableWith_of_replay (.init rfl) hp).reachable, hp₁,
    haccepts, .step (e := thirdVote) (.refl p₁) ?_ hp₂, hwins.1, hwins.2⟩
  intro p' hp' hstarts
  cases hp₂.symm.trans hp'
  exact hstarts.2 hwins.2

end RollingRaft
