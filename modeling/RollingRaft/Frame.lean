/-
# RollingRaft.Frame — what code that is not about elections leaves alone.

`ElectionFrame g g'` says that a piece of code kept role, term, votes and the pre-vote round, wrote
nothing to the disk but the current term and vote, and that all it did is marked with the role and
term it had; code that sends without looking at the role keeps this frame. `GuardedFrame g g'` adds
that it acted as a leader only if it was one, and began no snapshot transfer otherwise: one that
survived a step-down could be continued by a follower, so the frame carries that along.
-/
import RollingRaft.Group
import RollingRaft.Lib.Transition

namespace RollingRaft

open Lib

/-! ## §1 — What is framed. -/

/-- The part of the election state that elections are decided by. -/
structure VoteState where
  role : Role
  currentTerm : Term
  votedFor : NodeId
  votesReceived : Finset NodeId
  deriving DecidableEq

/-- The state of the pre-vote round. -/
structure PreVoteState where
  preVoteRunning : Bool
  preVoteTerm : Term
  preVotesReceived : Finset NodeId
  deriving DecidableEq

def ElectionState.votes (e : ElectionState) : VoteState :=
  ⟨e.role, e.currentTerm, e.votedFor, e.votesReceived⟩

def ElectionState.preVotes (e : ElectionState) : PreVoteState :=
  ⟨e.preVoteRunning, e.preVoteTerm, e.preVotesReceived⟩

/-- Only leaders do this: send AppendEntries or InstallSnapshot, make an entry. -/
def Act.isLeaderAct : Act → Bool
  | .sent _ r _ => r.isLeaderRequest
  | .created _ => true
  | _ => false

/-- An act that is not about votes; a leader's message or a new entry is one of term `t`. -/
def Act.Ordinary (t : Term) : Act → Prop
  | .sent _ r _ => r.isLeaderRequest = true ∧ r.term = t
  | .created e => e.term = t
  | .replied _ (.vote _) => False
  | _ => True

/-- An ordinary output made in election state `el`. -/
def Output.MadeIn (el : ElectionState) (o : Output) : Prop :=
  o.role = el.role ∧ o.term = el.currentTerm ∧ o.act.Ordinary el.currentTerm

/-- All that the election frame looks at. -/
structure Framed where
  opts : Options
  votes : VoteState
  preVotes : PreVoteState
  disk : Option PersistentState
  out : List Output

def RaftGroup.framed (g : RaftGroup) : Framed :=
  ⟨g.opts, g.el.votes, g.el.preVotes, g.disk, g.out⟩

/-! ## §2 — The election frame. -/

structure ElectionFrame (g g' : RaftGroup) : Prop where
  opts : g'.opts = g.opts
  votes : g'.el.votes = g.el.votes
  preVotes : g'.el.preVotes = g.el.preVotes
  disk : g'.disk = g.disk ∨ ∃ c, g'.disk = some ⟨g.el.currentTerm, g.el.votedFor, c⟩
  out : ∃ new, g'.out = g.out ++ new ∧ ∀ o ∈ new, o.MadeIn g.el

namespace ElectionFrame

variable {g g' g'' : RaftGroup}

theorem role (h : ElectionFrame g g') : g'.el.role = g.el.role := congrArg VoteState.role h.votes

theorem currentTerm (h : ElectionFrame g g') : g'.el.currentTerm = g.el.currentTerm :=
  congrArg VoteState.currentTerm h.votes

theorem votedFor (h : ElectionFrame g g') : g'.el.votedFor = g.el.votedFor :=
  congrArg VoteState.votedFor h.votes

theorem votesReceived (h : ElectionFrame g g') : g'.el.votesReceived = g.el.votesReceived :=
  congrArg VoteState.votesReceived h.votes

variable {o : Output}

theorem madeIn (h : ElectionFrame g g') (ho : o.MadeIn g'.el) : o.MadeIn g.el := by
  unfold Output.MadeIn at ho ⊢
  rwa [h.role, h.currentTerm] at ho

theorem of_eq (h : g'.framed = g.framed) : ElectionFrame g g' where
  opts := congrArg Framed.opts h
  votes := congrArg Framed.votes h
  preVotes := congrArg Framed.preVotes h
  disk := .inl (congrArg Framed.disk h)
  out := GoesOn.of_eq (congrArg Framed.out h)

theorem refl (g : RaftGroup) : ElectionFrame g g := of_eq rfl

theorem trans (h : ElectionFrame g g') (h' : ElectionFrame g' g'') : ElectionFrame g g'' where
  opts := h'.opts.trans h.opts
  votes := h'.votes.trans h.votes
  preVotes := h'.preVotes.trans h.preVotes
  disk := by
    rcases h'.disk with hd | ⟨c, hd⟩
    · rw [hd]; exact h.disk
    · exact .inr ⟨c, by rw [hd, h.currentTerm, h.votedFor]⟩
  out := GoesOn.trans h.out (GoesOn.mono h'.out fun _ => h.madeIn)

theorem after (h : ElectionFrame g' g'') (heq : g'.framed = g.framed) : ElectionFrame g g'' :=
  (of_eq heq).trans h

theorem emit (g : RaftGroup) {a : Act} (ha : a.Ordinary g.el.currentTerm) :
    ElectionFrame g (g.emit a) :=
  ⟨rfl, rfl, rfl, .inl rfl, GoesOn.single ⟨rfl, rfl, ha⟩⟩

theorem saveState (g : RaftGroup) : ElectionFrame g g.saveState.1 := by
  unfold RaftGroup.saveState
  split
  · exact ⟨rfl, rfl, rfl, .inr ⟨_, rfl⟩, GoesOn.of_eq rfl⟩
  · exact ⟨rfl, rfl, rfl, .inr ⟨_, rfl⟩, GoesOn.of_eq rfl⟩
  · exact of_eq rfl

end ElectionFrame

/-! ## §3 — The guarded frame. -/

structure GuardedFrame (g g' : RaftGroup) : Prop extends ElectionFrame g g' where
  lead : g.el.role ≠ .leader → (∀ o ∈ g'.out, o.act.isLeaderAct → o ∈ g.out) ∧
    (g.snap.sends = ∅ → g'.snap.sends = ∅)

theorem mem_out_of_emit {g : RaftGroup} {o : Output} {a : Act} (ha : a.isLeaderAct = false)
    (ho : o ∈ (g.emit a).out) (hlead : o.act.isLeaderAct = true) : o ∈ g.out := by
  rcases List.mem_append.mp ho with ho | ho
  · exact ho
  · obtain rfl := List.mem_singleton.mp ho
    rw [ha] at hlead
    cases hlead

namespace GuardedFrame

variable {g g' g'' : RaftGroup}

theorem of_eq (h : g'.framed = g.framed) (sends : g'.snap.sends = g.snap.sends) :
    GuardedFrame g g' := by
  have hout : g'.out = g.out := congrArg Framed.out h
  exact ⟨.of_eq h, fun _ => ⟨fun _ ho _ => hout ▸ ho, fun hs => sends.trans hs⟩⟩

theorem refl (g : RaftGroup) : GuardedFrame g g := of_eq rfl rfl

theorem trans (h : GuardedFrame g g') (h' : GuardedFrame g' g'') : GuardedFrame g g'' := by
  refine ⟨h.toElectionFrame.trans h'.toElectionFrame, ?_⟩
  intro hrole
  obtain ⟨hout, hsends⟩ := h.lead hrole
  obtain ⟨hout', hsends'⟩ := h'.lead (by rw [h.role]; exact hrole)
  exact ⟨fun o ho hl => hout o (hout' o ho hl) hl, fun hs => hsends' (hsends hs)⟩

theorem after (h : GuardedFrame g' g'') (heq : g'.framed = g.framed)
    (sends : g'.snap.sends = g.snap.sends) : GuardedFrame g g'' :=
  (of_eq heq sends).trans h

/-- A leader may do whatever keeps the election frame. -/
theorem of_leader (h : ElectionFrame g g') (hrole : g.el.role = .leader) : GuardedFrame g g' :=
  ⟨h, fun hn => absurd hrole hn⟩

theorem emit (g : RaftGroup) {a : Act} (ha : a.Ordinary g.el.currentTerm)
    (hl : a.isLeaderAct = false) : GuardedFrame g (g.emit a) :=
  ⟨.emit g ha, fun _ => ⟨fun _ => mem_out_of_emit hl, id⟩⟩

theorem saveState (g : RaftGroup) : GuardedFrame g g.saveState.1 := by
  have hkeep : g.saveState.1.out = g.out ∧ g.saveState.1.snap = g.snap := by
    unfold RaftGroup.saveState
    split <;> exact ⟨rfl, rfl⟩
  refine ⟨.saveState g, fun _ => ?_⟩
  rw [hkeep.1, hkeep.2]
  exact ⟨fun _ ho _ => ho, id⟩

end GuardedFrame

/-! ## §4 — The core and the quiet frame. -/

/-- The part of a group that elections, timers and sending leave alone. -/
structure Core where
  opts : Options
  rt : RuntimeConfig
  log : RaftLog
  commitIndex : Index
  pendingProposals : Map Index ProposalCallback
  proposalSessions : Map Index (Nat × Nat)
  clientSessions : Map Nat ClientSession
  quorumAcks : Map NodeId Time
  leaderLeaseExpiry : Time
  mem : MembershipState
  app : ApplierState
  lastSnapshotIndex : Index
  lastSnapshotTerm : Term
  recvFile : Option Bytes
  recvIndex : Index
  recvTerm : Term
  recvExpectedOffset : Nat
  restoreInProgress : Bool

namespace RaftGroup

def core (g : RaftGroup) : Core where
  opts := g.opts
  rt := g.rt
  log := g.rep.log
  commitIndex := g.rep.commitIndex
  pendingProposals := g.rep.pendingProposals
  proposalSessions := g.rep.proposalSessions
  clientSessions := g.rep.clientSessions
  quorumAcks := g.rep.quorumAcks
  leaderLeaseExpiry := g.rep.leaderLeaseExpiry
  mem := g.mem
  app := g.app
  lastSnapshotIndex := g.snap.lastSnapshotIndex
  lastSnapshotTerm := g.snap.lastSnapshotTerm
  recvFile := g.snap.recvFile
  recvIndex := g.snap.recvIndex
  recvTerm := g.snap.recvTerm
  recvExpectedOffset := g.snap.recvExpectedOffset
  restoreInProgress := g.snap.restoreInProgress

end RaftGroup

/-- To send a request and to answer one. -/
def Act.isTalk : Act → Bool
  | .sent _ _ _ | .replied _ _ | .readAnswered _ => true
  | _ => false

/-- The core is kept and whatever is done is talk. -/
structure Quiet (g g' : RaftGroup) : Prop where
  core : g'.core = g.core
  out : ∃ new, g'.out = g.out ++ new ∧ ∀ o ∈ new, o.act.isTalk = true

namespace Quiet

variable {g g' g'' : RaftGroup}

theorem of_core (core : g'.core = g.core) (out : g'.out = g.out) : Quiet g g' :=
  ⟨core, GoesOn.of_eq out⟩

theorem refl (g : RaftGroup) : Quiet g g := of_core rfl rfl

theorem trans (h : Quiet g g') (h' : Quiet g' g'') : Quiet g g'' :=
  ⟨h'.core.trans h.core, GoesOn.trans h.out h'.out⟩

theorem after (h : Quiet g' g'') (core : g'.core = g.core) (out : g'.out = g.out) : Quiet g g'' :=
  (of_core core out).trans h

theorem emit (g : RaftGroup) {a : Act} (ha : a.isTalk = true) : Quiet g (g.emit a) :=
  ⟨rfl, GoesOn.single ha⟩

theorem saveState (g : RaftGroup) : Quiet g g.saveState.1 := by
  unfold RaftGroup.saveState
  split <;> exact of_core rfl rfl

theorem app (h : Quiet g g') : g'.app = g.app := congrArg Core.app h.core

theorem mem (h : Quiet g g') : g'.mem = g.mem := congrArg Core.mem h.core

theorem log (h : Quiet g g') : g'.rep.log = g.rep.log := congrArg Core.log h.core

end Quiet

/-! ## §5 — Talk. -/

/-- A frame `R` is kept and so is the core: whatever was done is talk. -/
structure Talks (R : RaftGroup → RaftGroup → Prop) (g g' : RaftGroup) : Prop where
  frame : R g g'
  quiet : Quiet g g'

instance : IsPreorder RaftGroup ElectionFrame := { refl := .refl, trans := fun _ _ _ => .trans }

instance : IsPreorder RaftGroup GuardedFrame := { refl := .refl, trans := fun _ _ _ => .trans }

instance : IsPreorder RaftGroup Quiet := { refl := .refl, trans := fun _ _ _ => .trans }

variable {R : RaftGroup → RaftGroup → Prop} [IsPreorder RaftGroup R]

/-- A loop keeps the frame that its body keeps. -/
theorem foldl_frame {α : Type*} {f : RaftGroup → α → RaftGroup} (hf : ∀ g a, R g (f g a))
    (l : List α) (g : RaftGroup) : R g (l.foldl f g) :=
  List.foldlRecOn l f (refl_of R g) fun _ h a _ => trans_of R h (hf _ a)

namespace Talks

variable {g g' g'' : RaftGroup}

theorem refl (g : RaftGroup) : Talks R g g := ⟨refl_of R g, .refl g⟩

theorem trans (h : Talks R g g') (h' : Talks R g' g'') : Talks R g g'' :=
  ⟨trans_of R h.frame h'.frame, h.quiet.trans h'.quiet⟩

instance : IsPreorder RaftGroup (Talks R) := { refl := refl, trans := fun _ _ _ => trans }

theorem of_eq (h : g'.framed = g.framed) (core : g'.core = g.core) : Talks ElectionFrame g g' :=
  ⟨.of_eq h, .of_core core (congrArg Framed.out h)⟩

theorem after (h : Talks ElectionFrame g' g'') (heq : g'.framed = g.framed)
    (core : g'.core = g.core) : Talks ElectionFrame g g'' := (of_eq heq core).trans h

theorem emit (g : RaftGroup) {a : Act} (ha : a.Ordinary g.el.currentTerm) (ht : a.isTalk = true) :
    Talks ElectionFrame g (g.emit a) := ⟨.emit g ha, .emit g ht⟩

theorem of_leader (h : Talks ElectionFrame g g') (hrole : g.el.role = .leader) :
    Talks GuardedFrame g g' := ⟨.of_leader h.frame hrole, h.quiet⟩

theorem of_eq_guarded (h : g'.framed = g.framed) (core : g'.core = g.core)
    (sends : g'.snap.sends = g.snap.sends) : Talks GuardedFrame g g' :=
  ⟨.of_eq h sends, .of_core core (congrArg Framed.out h)⟩

theorem after_guarded (h : Talks GuardedFrame g' g'') (heq : g'.framed = g.framed)
    (core : g'.core = g.core) (sends : g'.snap.sends = g.snap.sends) : Talks GuardedFrame g g'' :=
  (of_eq_guarded heq core sends).trans h

end Talks

end RollingRaft
