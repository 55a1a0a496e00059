/-
# RollingRaft.Overlap — the sections under `replication_mtx_` alone, in parts.

`ProposeAndWaitLocked` and phase 2 of `HandleAppendEntries` hold `replication_mtx_` but not
`election_mtx_`, and both wait for the disk. Meanwhile a section that takes only `election_mtx_` can
change role and term. `Process.next` runs each of them in one step, which the log and the pipeline
cannot tell from this. Where role and term matter they run in parts: here a step stores one entry,
applies one, or is one `SendAppendEntriesToPeerLocked`, and anything that does not need
`replication_mtx_` can happen in between.

A JOINT that a leader applies in phase 2 stays one part with its FINALIZE, which looks at `role_` and
sends without `election_mtx_`; results about this system leave out runs with a leader in phase 2.
-/
import RollingRaft.Cluster

namespace RollingRaft

open Lib

/-! ## §1 — Parts. -/

/-- Phase 2 goes on with a stage, or is over. -/
def SectionEnd.ofStage (reply : ReplyTo) (respTerm : Term) (req : AppendEntriesRequest)
    (r : RaftGroup × Option ReplicateStage) : SectionEnd :=
  { group := r.1, calls := (r.2.map fun s => Call.begun (.replicate reply respTerm req s)).toList }

namespace RaftGroup

/-- One `SendAppendEntriesToPeerLocked` of `BroadcastAppendEntriesLocked`, with the peers that are
left: a peer stays as long as its `next_index_` advances. -/
def sendPart (g : RaftGroup) (peer : NodeId) (rest : List NodeId) : RaftGroup × List NodeId :=
  let g₁ := (g.touchNextIndex peer).sendAppendEntriesToPeer peer
  (g₁, if g₁.rep.nextIndex.lookup peer = (g.touchNextIndex peer).rep.nextIndex.lookup peer then rest
    else peer :: rest)

/-- `ProposeAndWaitLocked` up to the broadcast. -/
def proposePart (g : RaftGroup) (input : CallInput) (call : Nat) (req : ClientRequest) : SectionEnd :=
  let c := g.createEntry req.command
  let f := c.1.flushNow c.2
  if f.2 then
    let g := f.1.awaitProposal c.2 (.client call)
    { group := g, calls := [.begun (.send call req c.2 g.mem.peerMap.keys)] }
  else { group := f.1, calls := [.client (.finish call req { errorMessage := input.message })] }

/-- Phase 2 up to the second loop. -/
def beginReplicate (g : RaftGroup) (reply : ReplyTo) (respTerm : Term)
    (req : AppendEntriesRequest) : RaftGroup × Option ReplicateStage :=
  match g.prevLogConflict req with
  | some i => (g.emit (.replied reply (.append { term := respTerm, conflictIndex := i })), none)
  | none => (g.truncateConflict req.entries, some (.store req.entries))

/-- The next part of phase 2. -/
def replicatePart (g : RaftGroup) (reply : ReplyTo) (respTerm : Term) (req : AppendEntriesRequest) :
    ReplicateStage → RaftGroup × Option ReplicateStage
  | .store (e :: rest) =>
    match g.appendNew [e] with
    | (g, some i) => (g.emit (.replied reply (.append { term := respTerm, conflictIndex := i })), none)
    | (g, none) => (g, some (.store rest))
  | .store [] =>
    if g.rep.commitIndex < req.leaderCommit then
      ({ g with rep := { g.rep with
          commitIndex := min req.leaderCommit g.rep.log.getLastLogInfo.1 } }, some .apply)
    else (g, some .succeed)
  | .apply =>
    if g.app.lastEnqueued < g.rep.commitIndex then (g.enqueueNext, some .apply)
    else (g, some .succeed)
  | .succeed =>
    (g.emit (.replied reply (.append
      { term := respTerm, success := true, entriesCount := req.entries.length })), none)

/-- The next section of a call, or the next part of it. -/
def runPart (g : RaftGroup) (input : CallInput) : Call → Option SectionEnd
  | .client (.propose call req) => some (g.proposePart input call req)
  | .begun (.send call req index (peer :: rest)) =>
    let r := g.sendPart peer rest
    some { group := r.1, calls := [.begun (.send call req index r.2)] }
  | .begun (.send call req index []) =>
    some { group := g, calls := [.client (.waiting call req index)] }
  | .follower (.append reply respTerm req) =>
    some (.ofStage reply respTerm req (g.beginReplicate reply respTerm req))
  | .begun (.replicate reply respTerm req stage) =>
    some (.ofStage reply respTerm req (g.replicatePart reply respTerm req stage))
  | c => g.runCall input c

end RaftGroup

/-! ## §2 — What the parts do. -/

/-- The call has found `role_ == LEADER` and is not through with what it does as a leader. -/
def Call.leads : Call → Bool
  | .client (.propose _ _) | .begun (.send _ _ _ _) => true
  | _ => false

/-- The request whose phase 2 is still to run, or runs. -/
def Call.request? : Call → Option AppendEntriesRequest
  | .follower (.append _ _ req) | .begun (.replicate _ _ req _) => some req
  | _ => none

namespace RaftGroup

variable {g : RaftGroup} {reply : ReplyTo} {respTerm : Term} {req : AppendEntriesRequest}

theorem sendPart_frame (peer : NodeId) (rest : List NodeId) :
    ElectionFrame g (g.sendPart peer rest).1 :=
  (touchNextIndex_talks g peer).frame.toElectionFrame.trans (sendAppendEntriesToPeer_talks _ _).frame

theorem proposePart_frame (input : CallInput) (call : Nat) (req : ClientRequest) :
    ElectionFrame g (g.proposePart input call req).group ∧
      (g.proposePart input call req).waiting = none := by
  have hflush := (createEntry_frame g req.command).trans
    (flushNow_talks _ (g.createEntry req.command).2).frame
  unfold proposePart
  dsimp only
  split
  · exact ⟨hflush.trans (awaitProposal_frame _ _ _), rfl⟩
  · exact ⟨hflush, rfl⟩

theorem beginReplicate_guarded : GuardedFrame g (g.beginReplicate reply respTerm req).1 := by
  unfold beginReplicate
  split
  · exact .emit g trivial rfl
  · exact truncateConflict_guarded g _

theorem replicatePart_guarded (stage : ReplicateStage) :
    GuardedFrame g (g.replicatePart reply respTerm req stage).1 := by
  fun_cases replicatePart with
  | case1 e rest g' i heq =>
    have happend := appendNew_guarded g [e]
    rw [heq] at happend
    exact happend.trans (.emit _ (by trivial) rfl)
  | case2 e rest g' heq =>
    have happend := appendNew_guarded g [e]
    rw [heq] at happend
    exact happend
  | case3 => exact .of_eq rfl rfl
  | case4 => exact .refl g
  | case5 => exact enqueueNext_guarded g
  | case6 => exact .refl g
  | case7 => exact .emit g trivial rfl

/-- What `runPart` can be. -/
inductive Part (g : RaftGroup) (input : CallInput) : Call → SectionEnd → Prop
  | propose (call : Nat) (req : ClientRequest) :
      Part g input (.client (.propose call req)) (g.proposePart input call req)
  | send (call : Nat) (req : ClientRequest) (index : Index) (peer : NodeId) (rest : List NodeId) :
      Part g input (.begun (.send call req index (peer :: rest)))
        { group := (g.sendPart peer rest).1
          calls := [.begun (.send call req index (g.sendPart peer rest).2)] }
  | sent (call : Nat) (req : ClientRequest) (index : Index) :
      Part g input (.begun (.send call req index []))
        { group := g, calls := [.client (.waiting call req index)] }
  | start (reply : ReplyTo) (respTerm : Term) (req : AppendEntriesRequest) :
      Part g input (.follower (.append reply respTerm req))
        (.ofStage reply respTerm req (g.beginReplicate reply respTerm req))
  | replicate (reply : ReplyTo) (respTerm : Term) (req : AppendEntriesRequest)
      (stage : ReplicateStage) :
      Part g input (.begun (.replicate reply respTerm req stage))
        (.ofStage reply respTerm req (g.replicatePart reply respTerm req stage))
  | call {c : Call} {o : SectionEnd} (h : g.runCall input c = some o) : Part g input c o

variable {input : CallInput} {c d : Call} {o : SectionEnd}

theorem part_of_runPart (h : g.runPart input c = some o) : Part g input c o := by
  unfold runPart at h
  split at h
  · cases h; exact .propose _ _
  · cases h; exact .send _ _ _ _ _
  · cases h; exact .sent _ _ _
  · cases h; exact .start _ _ _
  · cases h; exact .replicate _ _ _ _
  · exact .call h

/-- **A part of a call** leaves the election state alone, and acts as a leader only in a call that has
found the node to lead, or in the second phase of a snapshot's response. -/
theorem Part.frame (h : Part g input c o) :
    ElectionFrame g o.group ∧ o.waiting = none ∧
      (GuardedFrame g o.group ∨ c.leads = true ∨ c.unchecked = true) := by
  cases h with
  | propose call req =>
    obtain ⟨hframe, hnone⟩ := proposePart_frame (g := g) input call req
    exact ⟨hframe, hnone, .inr (.inl rfl)⟩
  | send call req index peer rest => exact ⟨sendPart_frame peer rest, rfl, .inr (.inl rfl)⟩
  | sent => exact ⟨.refl g, rfl, .inr (.inl rfl)⟩
  | start => exact ⟨beginReplicate_guarded.toElectionFrame, rfl, .inl beginReplicate_guarded⟩
  | replicate reply respTerm req stage =>
    exact ⟨(replicatePart_guarded stage).toElectionFrame, rfl, .inl (replicatePart_guarded stage)⟩
  | call h =>
    obtain ⟨hframe, hnone, hguarded⟩ := runCall_frame h
    exact ⟨hframe, hnone, hguarded.imp id .inr⟩

theorem mem_ofStage {r : RaftGroup × Option ReplicateStage}
    (h : d ∈ (SectionEnd.ofStage reply respTerm req r).calls) :
    ∃ s ∈ r.2, d = .begun (.replicate reply respTerm req s) := by
  obtain ⟨s, hs, rfl⟩ := Option.map_eq_some_iff.mp (Option.mem_toList.mp h)
  exact ⟨s, hs, rfl⟩

theorem Part.leads (h : Part g input c o) (hd : d ∈ o.calls) (hl : d.leads = true) :
    c.leads = true := by
  cases h with
  | propose | send | sent => rfl
  | start | replicate =>
    obtain ⟨s, -, rfl⟩ := mem_ofStage hd
    cases hl
  | call h => cases runCall_continues h hd <;> cases hl

/-- Phase 2 goes on with its own request. -/
theorem Part.request (h : Part g input c o) (hd : d ∈ o.calls) (hreq : d.request? = some req) :
    c.request? = some req := by
  cases h with
  | propose call creq =>
    unfold proposePart at hd
    dsimp only at hd
    split at hd <;> obtain rfl := List.mem_singleton.mp hd <;> cases hreq
  | send | sent => obtain rfl := List.mem_singleton.mp hd; cases hreq
  | start | replicate => obtain ⟨s, -, rfl⟩ := mem_ofStage hd; exact hreq
  | call h => cases runCall_continues h hd <;> cases hreq

end RaftGroup

/-! ## §3 — Runs in parts. -/

namespace Process

/-- One event; a call runs the next part. -/
def nextInParts (p : Process) (step : Event × Env) : Option Process :=
  match step.1 with
  | .run i input =>
    match p.calls[i]? with
    | some c =>
      if p.group.halt.isNone && p.canTake c.needs then
        ((p.entered step.2).runPart input c).map fun o =>
          ({ p with calls := p.calls.eraseIdx i }).absorb o
      else none
    | none => none
  | _ => p.next step

/-- A process on its own, in parts. -/
def parts (opts : Options) : TransitionSystem Process (Event × Env) where
  init p := p = initial opts
  next := nextInParts

variable {p p' : Process} {ev : Event} {env : Env}

theorem runPart_framed : Framed RaftGroup.runPart := fun _ _ _ _ h =>
  have hframe := (RaftGroup.part_of_runPart h).frame
  ⟨hframe.1, hframe.2.1⟩

theorem stepBy_of_nextInParts (h : p.nextInParts (ev, env) = some p') :
    p.StepBy RaftGroup.runPart env ev p' := by
  unfold nextInParts at h
  split at h
  · rename_i i input heq
    subst heq
    split at h
    · rename_i c hc
      obtain ⟨hfree, h⟩ := Option.ite_none_right_eq_some.mp h
      obtain ⟨hup, hfree⟩ := Bool.and_eq_true_iff.mp hfree
      obtain ⟨o, ho, rfl⟩ := Option.map_eq_some_iff.mp h
      exact .run (Option.isNone_iff_eq_none.mp hup) hc hfree ho
    · cases h
  · rename_i hnot
    cases step_of_next h with
    | restart down => exact .restart down
    | crash => exact .crash
    | resume up hw free => exact .resume up hw free
    | @run i input => exact absurd rfl (hnot i input)
    | event up free ho => exact .event up free ho

end Process

namespace Deployment

variable (D : Deployment)

/-- Any interleaving of the nodes of `D`, in parts. -/
def parts : TransitionSystem Cluster (NodeId × Event × Env) where
  init c := c = D.initial
  next c e :=
    if e.1 ∈ D.nodes ∧ c.delivered e.1 e.2.1 then
      ((c e.1).nextInParts e.2).map fun p => Function.update c e.1 p
    else none

variable {D} {c c' : Cluster} {i : NodeId} {ev : Event} {env : Env}

theorem parts_next_eq (h : D.parts.next c (i, ev, env) = some c') :
    i ∈ D.nodes ∧ ev.VouchedBy (c.vouched i) ∧
      ∃ p, (c i).StepBy RaftGroup.runPart env ev p ∧ c' = Function.update c i p := by
  obtain ⟨hguard, h⟩ := Option.ite_none_right_eq_some.mp h
  obtain ⟨p, hp, rfl⟩ := Option.map_eq_some_iff.mp h
  exact ⟨hguard.1, Cluster.vouchedBy_of_delivered hguard.2, p, Process.stepBy_of_nextInParts hp, rfl⟩

end Deployment

end RollingRaft
