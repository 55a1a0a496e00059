/-
# RollingRaft.PipelineSteps — the sections of a node run the pipeline machine.

The moves of `Sections` say of every section that is about elections or progress that it does a list
of `work`. The sections about single commands, the apply thread and the snapshots of the log are given
exactly; membership calls edit the peers as well.
-/
import RollingRaft.Steps

namespace RollingRaft

open Lib

namespace RaftGroup

variable (g : RaftGroup) (cmd : Bytes) (id : NodeId) (command : Bytes) (es : List LogEntry)
  (req : ClientRequest) (call : Nat) (respTerm : Term) (addr : Bytes) (commands : List Bytes)
  {g' : RaftGroup} {o : SectionEnd} {ev : Event} {ops : List PipeOp} {input : CallInput}
  {c : ClientCall}

/-! ## §1 — New leaders. -/

/-- A new leader in joint mode proposes FINALIZE of the voters in force. -/
theorem becomeLeaderRest_does : g.Does [] g.becomeLeaderRest ∨ g.mem.config.isJoint = true ∧
    g.Does [.create (g.newEntry (finalizeCommand g.opts.json g.mem.config.nodes))]
      g.becomeLeaderRest := by
  have htimers : g.startHeartbeatTimer.startSnapshotCheckTimer.kept = g.kept ∧
      g.startHeartbeatTimer.startSnapshotCheckTimer.el = g.el := by
    unfold startSnapshotCheckTimer
    split <;> exact ⟨rfl, rfl⟩
  unfold becomeLeaderRest
  dsimp only
  generalize g.startHeartbeatTimer.startSnapshotCheckTimer = g₁ at htimers ⊢
  obtain ⟨hkept, hel⟩ := htimers
  split
  · rename_i hjoint
    have hmem : g₁.mem = g.mem := congrArg Kept.mem hkept
    have hopts : g₁.opts = g.opts := congrArg Kept.opts hkept
    have hlog : g₁.rep.log = g.rep.log := congrArg (·.pipeline.log) hkept
    have hfinal := ((appendFinalize_does g₁ g₁.mem.config.nodes).then_kept
      (broadcastAppendEntries_talks _).quiet.kept).after_kept hkept
    unfold newEntry at hfinal ⊢
    rw [hmem, hopts, hlog, hel] at hfinal
    rw [hmem] at hjoint ⊢
    exact .inr ⟨hjoint, hfinal⟩
  · exact .inl (.of_kept ((broadcastAppendEntries_talks _).quiet.kept.trans hkept))

theorem runWaiting_does (w : Waiting) :
    ∃ ops, (∀ op ∈ ops, isWork g.el.currentTerm op) ∧ g.Does ops (g.runWaiting w).group ∧
      .stuck ∉ ops := by
  cases w with
  | stepDown persistState rest =>
    have hrest := (stepDownRest_talks g persistState).quiet
    refine ⟨[], by simp, .of_kept ?_, by simp⟩
    show (if (g.stepDownRest persistState).halt.isSome then
      { group := g.stepDownRest persistState }
      else (g.stepDownRest persistState).runRest rest : SectionEnd).group.kept = g.kept
    split
    · exact hrest.kept
    · exact (hrest.trans (runRest_quiet _ rest)).kept
  | lead =>
    rcases becomeLeaderRest_does g with hdoes | ⟨-, hdoes⟩
    · exact ⟨[], by simp, hdoes, by simp⟩
    · exact ⟨_, by simp [isWork, newEntry], hdoes, by simp⟩

/-! ## §2 — Calls of users that concern no single command. -/

theorem proposeConfigChange_kept : (g.proposeConfigChange cmd).1.kept =
    ⟨g.pipeline.addEntry (g.newEntry cmd), g.opts, { g.mem with pendingConfigChange :=
      (g.proposeConfigChange cmd).2 || g.mem.pendingConfigChange }⟩ := by
  have hflush := (flushNow_talks (g.createEntry cmd).1 (g.createEntry cmd).2).quiet.kept
  unfold proposeConfigChange
  dsimp only
  generalize (g.createEntry cmd).1.flushNow (g.createEntry cmd).2 = f at hflush ⊢
  have hmem : f.1.mem = g.mem := congrArg Kept.mem hflush
  have hopts : f.1.opts = g.opts := congrArg Kept.opts hflush
  have hpipe : f.1.pipeline = g.pipeline.addEntry (g.newEntry cmd) :=
    (congrArg Kept.pipeline hflush).trans (createEntry_pipeline g cmd)
  split
  · show (⟨f.1.pipeline, f.1.opts, { f.1.mem with pendingConfigChange := true }⟩ : Kept) = _
    rw [hpipe, hopts, hmem]
    rfl
  · show (⟨f.1.pipeline, f.1.opts, f.1.mem⟩ : Kept) = _
    rw [hpipe, hopts, hmem]
    rfl

/-- What a membership call does: it is refused, fails to write its entry, or goes on to edit the
peers. -/
inductive CallsFor (wrong : Option Bytes) (cmd : Bytes)
    (edit : Map NodeId Bytes → Map NodeId Bytes) : RaftGroup → Status → Prop
  | refused {status : Status} (hcheck : g.membershipCheck wrong = some status) :
      CallsFor wrong cmd edit g status
  | unwritten (hcheck : g.membershipCheck wrong = none)
      (hwritten : ¬ (g.proposeConfigChange cmd).2 = true) :
      CallsFor wrong cmd edit (g.proposeConfigChange cmd).1 .flushFailed
  | accepted {g' : RaftGroup} (hcheck : g.membershipCheck wrong = none)
      (hwritten : (g.proposeConfigChange cmd).2 = true)
      (hkept : g'.kept = { (g.proposeConfigChange cmd).1.kept with
        mem := { (g.proposeConfigChange cmd).1.mem with
          peerMap := edit (g.proposeConfigChange cmd).1.mem.peerMap } }) :
      CallsFor wrong cmd edit g' .ok

theorem addNode_calls :
    ∃ wrong, CallsFor g wrong (g.jointCommand g.mem.config.nodes (g.mem.config.nodes ++ [id]))
      (AList.insert id addr) (g.addNode id addr).1 (g.addNode id addr).2 := by
  unfold addNode
  dsimp only
  split
  · exact ⟨_, .refused ‹_›⟩
  split
  · exact ⟨_, .accepted ‹_› ‹_› (broadcastAppendEntries_talks _).quiet.kept⟩
  · exact ⟨_, .unwritten ‹_› ‹_›⟩

theorem addLearner_calls :
    ∃ wrong, CallsFor g wrong
      (ascii "CONFIG_CHANGE:ADD_LEARNER:" ++ ascii (toString id) ++ ascii ":" ++ addr)
      (AList.insert id addr) (g.addLearner id addr).1 (g.addLearner id addr).2 := by
  unfold addLearner
  dsimp only
  split
  · exact ⟨_, .refused ‹_›⟩
  split
  · exact ⟨_, .accepted ‹_› ‹_› (broadcastAppendEntries_talks _).quiet.kept⟩
  · exact ⟨_, .unwritten ‹_› ‹_›⟩

theorem promoteLearner_calls :
    ∃ wrong, CallsFor g wrong (g.jointCommand g.mem.config.nodes (g.mem.config.nodes ++ [id]))
      (fun peers => peers) (g.promoteLearner id).1 (g.promoteLearner id).2 := by
  unfold promoteLearner
  dsimp only
  split
  · exact ⟨_, .refused ‹_›⟩
  split
  · exact ⟨_, .accepted ‹_› ‹_› (broadcastAppendEntries_talks _).quiet.kept⟩
  · exact ⟨_, .unwritten ‹_› ‹_›⟩

/-- A leader that removes itself steps down as well. -/
theorem removeNode_calls :
    CallsFor g (if g.mem.config.contains id then none else some (ascii "Node not in cluster"))
      (g.jointCommand g.mem.config.nodes (g.mem.config.nodes.filter (· ≠ id))) (AList.erase id)
      (g.removeNode id).1 (g.removeNode id).2.2 := by
  unfold removeNode
  dsimp only
  generalize (if g.mem.config.contains id = true then none
    else some (ascii "Node not in cluster")) = wrong
  split
  · exact .refused ‹_›
  split
  · split
    · exact .accepted ‹_› ‹_›
        ((broadcastAppendEntries_talks _).quiet.trans (stepDownElection_quiet _ _)).kept
    · exact .accepted ‹_› ‹_› (broadcastAppendEntries_talks _).quiet.kept
  · exact .unwritten ‹_› ‹_›

theorem CallsFor.runs {g : RaftGroup} {wrong : Option Bytes} {cmd : Bytes}
    {edit : Map NodeId Bytes → Map NodeId Bytes} {status : Status}
    (h : CallsFor g wrong cmd edit g' status) :
    ∃ ops, (∀ op ∈ ops, isWork g.el.currentTerm op) ∧ g.Runs ops g' ∧ .stuck ∉ ops := by
  have hcreate : ∀ {g'' : RaftGroup}, g''.pipeline = (g.proposeConfigChange cmd).1.pipeline →
      ∃ ops, (∀ op ∈ ops, isWork g.el.currentTerm op) ∧ g.Runs ops g'' ∧ .stuck ∉ ops := by
    intro g'' heq
    refine ⟨[.create (g.newEntry cmd)], by simp [isWork, newEntry], .single ?_, by simp⟩
    have hpipe := congrArg Kept.pipeline (proposeConfigChange_kept g cmd)
    exact (if_pos rfl).trans (congrArg some (heq.trans hpipe).symm)
  cases h with
  | refused hcheck => exact ⟨[], by simp, .nil _, by simp⟩
  | unwritten hcheck hwritten => exact hcreate rfl
  | accepted hcheck hwritten hkept => exact hcreate (congrArg Kept.pipeline hkept)

/-- The events that are not about single commands, the apply thread or snapshots of the log. -/
def isOrdinary : Event → Bool
  | .compact _ _ | .applyTake | .applyLoad | .applyTask _ | .applyPublish | .drain => false
  | .clientRequest _ | .propose _ _ _ | .proposeBatch _ => false
  | _ => true

theorem onEvent_calls {call : Nat} (hev : Process.isMembershipCall ev = true)
    (h : g.onEvent call ev = some o) :
    ∃ wrong cmd edit status, CallsFor g wrong cmd edit o.group status := by
  cases ev with
  | addNode id addr =>
    cases h
    exact ⟨_, _, _, _, (addNode_calls g id addr).choose_spec⟩
  | addLearner id addr =>
    cases h
    exact ⟨_, _, _, _, (addLearner_calls g id addr).choose_spec⟩
  | promoteLearner id =>
    cases h
    exact ⟨_, _, _, _, (promoteLearner_calls g id).choose_spec⟩
  | removeNode id => cases h; exact ⟨_, _, _, _, removeNode_calls g id⟩
  | _ => cases hev

theorem onEvent_works {call : Nat} (hord : isOrdinary ev = true)
    (hev : Process.isMembershipCall ev = false) (h : g.onEvent call ev = some o) :
    Works g.el.currentTerm g o.group := by
  have hany := vouchedBy_any ev
  refine (onEvent_move (m := { anyMessages with commands := False }) ?_ h).works id
  cases ev with
  | request reply req => cases req <;> exact hany
  | persisted index ok => cases ok <;> exact hany
  | resume => cases h
  | addNode | addLearner | promoteLearner | removeNode => cases hev
  | compact | applyTake | applyLoad | applyTask | applyPublish | drain => cases hord
  | clientRequest | propose | proposeBatch => cases hord
  | _ => exact hany

/-! ## §3 — Commands. -/

theorem respond_does (resp : ClientResponse) :
    g.Does [.respond req resp] (g.emit (.responded req resp)) :=
  .of_next (congrArg some (emit_pipeline g rfl).symm) rfl rfl

/-- How `HandleClientRequest` begins. A session record exists once a leader has looked at it. -/
inductive ClientBegins (req : ClientRequest) : RaftGroup × ClientNext → Prop
  | refused (resp : ClientResponse) : ClientBegins req (g.recordActivity true, .respond resp)
  | reads : ClientBegins req (g.recordActivity true, .read)
  | repeated (resp : ClientResponse) :
      ClientBegins req ((g.recordActivity true).setSession req.clientId
        (g.sessionOf req.clientId), .respond resp)
  | first (hrole : g.el.role = .leader) (hread : req.readOnly = false)
      (hseq : (g.sessionOf req.clientId).lastSeq < req.seq) :
      ClientBegins req ((g.recordActivity true).setSession req.clientId
        (g.sessionOf req.clientId), .propose)

theorem handleClientRequest_begins : ClientBegins g req (g.handleClientRequest req) := by
  have hsession : (g.recordActivity true).sessionOf req.clientId = g.sessionOf req.clientId := by
    unfold sessionOf
    rw [show (g.recordActivity true).rep.clientSessions = g.rep.clientSessions from
      congrArg Core.clientSessions (recordActivity_talks g true).quiet.core]
  unfold handleClientRequest
  dsimp only
  rw [hsession]
  split
  · exact .refused _
  split
  · exact .refused _
  rename_i hleader
  split
  · exact .reads
  rename_i hread
  split
  · exact .repeated _
  rename_i hseq
  refine .first ?_ (by simpa using hread) (not_le.mp hseq)
  rw [← (recordActivity_talks g true).frame.role]
  exact not_not.mp hleader

/-- The operations of the first section of a client's request. It answers, or looks at the session,
or goes on to append with a sequence number above the session's. -/
inductive ClientRequestOps (role : Role) (session : ClientSession) (req : ClientRequest) :
    List Call → List PipeOp → Prop
  | nothing : ClientRequestOps role session req [] []
  | respond (resp : ClientResponse) : ClientRequestOps role session req [] [.respond req resp]
  | halted : ClientRequestOps role session req [] [.setSession req.clientId session]
  | repeated (resp : ClientResponse) : ClientRequestOps role session req []
      [.setSession req.clientId session, .respond req resp]
  | first {call : Nat} (hrole : role = .leader) (hseq : session.lastSeq < req.seq) :
      ClientRequestOps role session req [.client (.propose call req)]
        [.setSession req.clientId session]

theorem onClientRequest_does (req : ClientRequest) :
    ∃ ops, ClientRequestOps g.el.role (g.sessionOf req.clientId) req
        (g.onClientRequest call req).calls ops ∧
      g.Does ops (g.onClientRequest call req).group := by
  have hrecord := (recordActivity_talks g true).quiet.kept
  have hset : g.Does [.setSession req.clientId (g.sessionOf req.clientId)]
      ((g.recordActivity true).setSession req.clientId (g.sessionOf req.clientId)) :=
    .after_kept (.of_next rfl rfl rfl) hrecord
  have hbegins := handleClientRequest_begins g req
  unfold onClientRequest
  generalize g.handleClientRequest req = r at hbegins ⊢
  cases hbegins with
  | refused resp =>
    dsimp only
    split
    · exact ⟨_, .nothing, .of_kept hrecord⟩
    · exact ⟨_, .respond resp, .after_kept (respond_does _ req resp) hrecord⟩
  | reads => exact ⟨_, .nothing, .of_kept hrecord⟩
  | repeated resp =>
    dsimp only
    split
    · exact ⟨_, .halted, hset⟩
    · exact ⟨_, .repeated resp, hset.trans (respond_does _ req resp)⟩
  | first hrole hread hseq => exact ⟨_, .first hrole hseq, hset⟩

theorem touch_does (sessions : List SessionEntry) :
    g.Does [.touch sessions] { g with app := { g.app with sessions := sessions } } :=
  .of_next rfl rfl rfl

theorem flushLater_await (i : Index) (cb : ProposalCallback) :
    ((g.flushLater i).awaitProposal i cb).kept =
      ⟨g.pipeline.await i cb (0, 0), g.opts, g.mem⟩ := by
  show (⟨{ (g.flushLater i).kept.pipeline with
    pendingProposals := (g.flushLater i).kept.pipeline.pendingProposals.insert i cb },
    (g.flushLater i).kept.opts, (g.flushLater i).kept.mem⟩ : Kept) = _
  rw [(flushLater_talks g i).quiet.kept]
  rfl

theorem proposeEntry_does {command : Bytes} {e : LogEntry} (sessionId seqNum : Nat)
    (he : g.newEntry command = e) :
    g.Does [.submit e (.propose call) (sessionId, seqNum)]
      (g.proposeEntry command call sessionId seqNum) := by
  subst he
  have hnote : ∀ g₁ : RaftGroup, ∀ i,
      (((g₁.noteProposalSession i sessionId seqNum).flushLater i).awaitProposal i
        (.propose call)).kept =
      ⟨g₁.pipeline.await i (.propose call) (sessionId, seqNum), g₁.opts, g₁.mem⟩ := by
    intro g₁ i
    rw [flushLater_await]
    unfold noteProposalSession Pipeline.await
    split <;> rfl
  have hkept : (g.proposeEntry command call sessionId seqNum).kept =
      ⟨(g.pipeline.addEntry (g.newEntry command)).await (g.newEntry command).index
        (.propose call) (sessionId, seqNum), g.opts, g.mem⟩ := by
    unfold proposeEntry
    rw [(broadcastAppendEntries_talks _).quiet.kept, hnote, createEntry_pipeline]
    rfl
  exact .of_pipeline (if_pos rfl) hkept rfl

/-- What `Propose` does to the pipeline; `dup` is what `IsDuplicate` finds for its session. -/
inductive ProposeRuns (e : LogEntry) (dup : List SessionEntry × Option ApplyResult)
    (call sessionId seqNum : Nat) : List PipeOp → Prop
  | refused : ProposeRuns e dup call sessionId seqNum []
  | plain (hs : sessionId = 0) : ProposeRuns e dup call sessionId seqNum
      [.submit e (.propose call) (sessionId, seqNum)]
  | repeated {cached : ApplyResult} (hs : sessionId ≠ 0) (hdup : dup.2 = some cached) :
      ProposeRuns e dup call sessionId seqNum [.touch dup.1, .complete (.propose call) cached]
  | first (hs : sessionId ≠ 0) (hdup : dup.2 = none) : ProposeRuns e dup call sessionId seqNum
      [.touch dup.1, .submit e (.propose call) (sessionId, seqNum)]

theorem newEntry_of_quiet {g : RaftGroup} (h : Quiet g g')
    (ht : g'.el.currentTerm = g.el.currentTerm) (data : Bytes) :
    g'.newEntry data = g.newEntry data := by
  unfold newEntry
  rw [h.log, ht]

theorem propose_does (sessionId seqNum : Nat) :
    ∃ ops, ProposeRuns (g.newEntry command) (isDuplicate g.app.sessions sessionId seqNum) call
        sessionId seqNum ops ∧
      g.Does ops (g.propose command call sessionId seqNum).1 := by
  have hrecord := (recordActivity_talks g true).quiet
  have hterm := (recordActivity_talks g true).frame.currentTerm
  have hentry : (g.recordActivity true).newEntry command = g.newEntry command :=
    newEntry_of_quiet hrecord hterm command
  have hsessions : (g.recordActivity true).app.sessions = g.app.sessions := by rw [hrecord.app]
  unfold propose
  dsimp only
  rw [hsessions]
  split
  · exact ⟨_, .refused, .of_kept hrecord.kept⟩
  split
  · exact ⟨_, .refused, .of_kept hrecord.kept⟩
  split
  · rename_i hs
    exact ⟨_, .plain hs,
      (proposeEntry_does _ call sessionId seqNum hentry).after_kept hrecord.kept⟩
  rename_i hs
  have htouch := (touch_does (g.recordActivity true)
    (isDuplicate g.app.sessions sessionId seqNum).1).after_kept hrecord.kept
  split
  · rename_i cached hdup
    refine ⟨_, .repeated hs hdup, htouch.trans (.of_next ?_ rfl rfl)⟩
    exact congrArg some (emit_pipeline _ rfl).symm
  rename_i hdup
  exact ⟨_, .first hs hdup, htouch.trans (proposeEntry_does _ call sessionId seqNum hentry)⟩

theorem appendBatch_kept :
    (g.appendBatch commands).1.kept =
        ⟨g.pipeline.addAll g.el.currentTerm commands, g.opts, g.mem⟩ ∧
      (g.appendBatch commands).2 = g.pipeline.indicesOf g.el.currentTerm commands := by
  induction commands generalizing g with
  | nil => exact ⟨rfl, rfl⟩
  | cons command rest ih =>
    obtain ⟨hkept, hindices⟩ := ih (g.createEntry command).1
    rw [createEntry_pipeline] at hkept hindices
    exact ⟨hkept, congrArg (_ :: ·) hindices⟩

theorem registerBatch_kept (slot : Nat) (indices : List Index) :
    (g.registerBatch call slot indices).kept =
      ⟨g.kept.pipeline.awaitAll call slot indices, g.kept.opts, g.kept.mem⟩ := by
  induction indices generalizing g slot with
  | nil => rfl
  | cons i rest ih =>
    rw [registerBatch, ih, flushLater_await]
    rfl

theorem batchOps_submit {q : Pipeline} {t : Term} {call slot : Nat} {commands : List Bytes} :
    ∀ op ∈ q.batchOps t call slot commands,
      ∃ e callback, op = .submit e callback (0, 0) ∧ e.data ∈ commands := by
  induction commands generalizing q slot with
  | nil => simp [Pipeline.batchOps]
  | cons data rest ih =>
    refine List.forall_mem_cons.mpr ⟨⟨_, _, rfl, List.mem_cons_self⟩, fun op hop => ?_⟩
    obtain ⟨e, callback, heq, hdata⟩ := ih op hop
    exact ⟨e, callback, heq, List.mem_cons_of_mem _ hdata⟩

theorem batchOps_command {q : Pipeline} {t : Term} {call slot : Nat} {commands : List Bytes} :
    ∀ op ∈ q.batchOps t call slot commands, op.isCommand = true := by
  intro op hop
  obtain ⟨e, callback, rfl, -⟩ := batchOps_submit op hop
  rfl

/-- `ProposeBatch` submits its commands one by one and then tries to commit. -/
theorem proposeBatch_does (call : Nat) :
    g.Does [] (g.proposeBatch commands call).1 ∨
      ∃ g₁, g.Does (g.pipeline.batchOps g.el.currentTerm call 0 commands) g₁ ∧
        Works g.el.currentTerm g₁ (g.proposeBatch commands call).1 := by
  have hrecord := (recordActivity_talks g true).quiet.kept
  have hterm := (recordActivity_talks g true).frame.currentTerm
  unfold proposeBatch
  dsimp only
  generalize g.recordActivity true = g₀ at hrecord hterm ⊢
  split
  · exact .inl (.of_kept hrecord)
  split
  · exact .inl (.of_kept hrecord)
  split
  · exact .inl (.of_kept hrecord)
  right
  obtain ⟨hkept, hindices⟩ := appendBatch_kept g₀ commands
  have hframe := (registerBatch_frame (g₀.appendBatch commands).1 call 0
    (g₀.appendBatch commands).2).currentTerm.trans (appendBatch_frame _ _).currentTerm
  refine ⟨(g₀.appendBatch commands).1.registerBatch call 0 (g₀.appendBatch commands).2, ?_, ?_⟩
  · rw [← hterm, ← show g₀.pipeline = g.pipeline from congrArg Kept.pipeline hrecord]
    refine Does.after_kept ?_ hrecord
    unfold Does
    rw [registerBatch_kept, hindices, hkept]
    exact .of_path batchOps_command (Pipeline.path_batch _ _ _ _ _)
  · rw [← hterm, ← hframe]
    exact tryCommit_works (broadcastAppendEntries_talks _).quiet.kept
      (broadcastAppendEntries_talks _).frame.currentTerm

/-! ## §4 — The calls of followers. -/

/-- The test of the first loop: another entry is in the way. -/
def conflictsWith (g : RaftGroup) (e : LogEntry) : Bool :=
  g.getLogTerm e.index ≠ 0 && g.getLogTerm e.index ≠ e.term

theorem truncateConflict_cases (g : RaftGroup) (es : List LogEntry) :
    g.truncateConflict es = g ∧ (∀ e ∈ es, g.conflictsWith e = false) ∨
      ∃ e ∈ es, g.conflictsWith e = true ∧
        g.truncateConflict es = g.setLog (g.rep.log.truncateSuffix e.index) := by
  induction es with
  | nil => exact .inl ⟨rfl, by simp⟩
  | cons e es ih =>
    rw [truncateConflict]
    split
    · exact .inr ⟨e, List.mem_cons_self, ‹_›, rfl⟩
    rename_i hnot
    have hno : g.conflictsWith e = false := by simpa [conflictsWith] using hnot
    rcases ih with ⟨hsame, hall⟩ | ⟨e', he', hc, hcut⟩
    · exact .inl ⟨hsame, List.forall_mem_cons.mpr ⟨hno, hall⟩⟩
    · exact .inr ⟨e', List.mem_cons_of_mem _ he', hc, hcut⟩

/-- A follower cuts its log at an entry of the request that conflicts with it, or not at all. -/
def cutsFor (req : AppendEntriesRequest) (ops : List PipeOp) : Prop :=
  ops = [] ∨ ∃ e ∈ req.entries, g.conflictsWith e = true ∧ ops = [.truncate e.index]

theorem appendNew_does :
    ∃ ops, (∀ op ∈ ops, ∃ e ∈ es, op = .extend e) ∧ g.Does ops (g.appendNew es).1 := by
  induction es generalizing g with
  | nil => exact ⟨[], by simp, .of_kept rfl⟩
  | cons e es ih =>
    have hlater : ∀ {ops : List PipeOp}, (∀ op ∈ ops, ∃ e ∈ es, op = .extend e) →
        ∀ op ∈ ops, ∃ e' ∈ e :: es, op = .extend e' := by
      intro ops hops op hop
      obtain ⟨e', he', rfl⟩ := hops op hop
      exact ⟨e', List.mem_cons_of_mem _ he', rfl⟩
    rw [appendNew]
    split
    · obtain ⟨ops, hops, hdoes⟩ := ih g
      exact ⟨ops, hlater hops, hdoes⟩
    split
    · obtain ⟨ops, hops, hdoes⟩ := ih g
      exact ⟨ops, hlater hops, hdoes⟩
    split
    · exact ⟨[], by simp, .of_kept rfl⟩
    rename_i hindex
    have hindex : e.index = g.pipeline.log.newIndex := not_not.mp hindex
    obtain ⟨ops, hops, hdoes⟩ := ih (g.setLog (g.rep.log.append e.term e.data).1)
    refine ⟨.extend e :: ops, ?_, ?_⟩
    · rintro op (_ | ⟨_, hop⟩)
      · exact ⟨e, List.mem_cons_self, rfl⟩
      · exact hlater hops op hop
    · -- `Append` makes the same entry again.
      have hentry : (⟨g.rep.log.newIndex, e.term, e.data⟩ : LogEntry) = e := by
        rw [show g.rep.log.newIndex = e.index from hindex.symm]
      have hlog : (g.rep.log.append e.term e.data).1 = g.rep.log.appendLogEntry e := by
        unfold RaftLog.append RaftLog.appendLogEntry
        rw [hentry]
      rw [hlog] at hdoes ⊢
      have hextend : g.Does [.extend e] (g.setLog (g.rep.log.appendLogEntry e)) :=
        .of_next (if_pos hindex) rfl rfl
      exact hextend.trans hdoes

theorem storeEntries_does (req : AppendEntriesRequest) :
    ∃ cut ops, g.cutsFor req cut ∧ (∀ op ∈ ops, ∃ e ∈ req.entries, op = .extend e) ∧
      g.Does (cut ++ ops) (g.storeEntries req.entries).1 := by
  unfold storeEntries
  rcases truncateConflict_cases g req.entries with ⟨hsame, _⟩ | ⟨e, he, hconflict, hcut⟩
  · rw [hsame]
    obtain ⟨ops, hops, hdoes⟩ := appendNew_does g req.entries
    exact ⟨[], ops, .inl rfl, hops, hdoes⟩
  · rw [hcut]
    have hcuts : g.Does [.truncate e.index] (g.setLog (g.rep.log.truncateSuffix e.index)) :=
      .of_next rfl rfl rfl
    obtain ⟨ops, hops, hdoes⟩ := appendNew_does
      (g.setLog (g.rep.log.truncateSuffix e.index)) req.entries
    exact ⟨[.truncate e.index], ops, .inr ⟨e, he, hconflict, rfl⟩, hops, hcuts.trans hdoes⟩

theorem followCommit_does (leaderCommit : Index) :
    ∃ ops, (∀ op ∈ ops, op = .follow leaderCommit ∨ handsOver g.el.currentTerm op) ∧
      g.Does ops (g.followCommit leaderCommit) ∧
      ((g.followCommit leaderCommit).halt = none → .stuck ∉ ops) := by
  unfold followCommit
  split
  · rename_i hlt
    have hlt : g.pipeline.commitIndex < leaderCommit := hlt
    have hfollow : g.Does [.follow leaderCommit] { g with rep := { g.rep with
        commitIndex := min leaderCommit g.rep.log.getLastLogInfo.1 } } :=
      .of_next (if_pos hlt) rfl rfl
    obtain ⟨ops, hops, hdoes, hstuck⟩ := applyCommitted_handsOver { g with rep := { g.rep with
      commitIndex := min leaderCommit g.rep.log.getLastLogInfo.1 } }
    refine ⟨.follow leaderCommit :: ops, ?_, hfollow.trans hdoes, ?_⟩
    · rintro op (_ | ⟨_, hop⟩)
      · exact .inl rfl
      · exact .inr (hops op hop)
    · intro hup
      exact List.not_mem_cons_of_ne_of_not_mem (by simp) (hstuck hup)
  · exact ⟨[], by simp, .of_kept rfl, by simp⟩

/-- An operation of phase 2 of `HandleAppendEntries` after the log has been cut. -/
def replicatesOp (req : AppendEntriesRequest) (op : PipeOp) : Prop :=
  (∃ e ∈ req.entries, op = .extend e) ∨ op = .follow req.leaderCommit ∨
    handsOver g.el.currentTerm op

def replicatesOps (req : AppendEntriesRequest) (ops : List PipeOp) : Prop :=
  ∃ cut rest, ops = cut ++ rest ∧ g.cutsFor req cut ∧ ∀ op ∈ rest, g.replicatesOp req op

/-- What holds of a cut, of appending, of following and of handing over holds of all of them. -/
theorem replicatesOps_all {req : AppendEntriesRequest} {P : PipeOp → Prop}
    (h : g.replicatesOps req ops) (hcut : ∀ i, P (.truncate i)) (hextend : ∀ e, P (.extend e))
    (hfollow : P (.follow req.leaderCommit)) (hhands : ∀ op, handsOver g.el.currentTerm op → P op) :
    ∀ op ∈ ops, P op := by
  obtain ⟨cut, rest, rfl, hcuts, hrest⟩ := h
  intro op hop
  rcases List.mem_append.mp hop with hop | hop
  · obtain rfl | ⟨e, -, -, rfl⟩ := hcuts
    · cases hop
    · rw [List.mem_singleton.mp hop]
      exact hcut e.index
  · rcases hrest op hop with ⟨e, -, rfl⟩ | rfl | h
    · exact hextend e
    · exact hfollow
    · exact hhands op h

theorem storeEntries_currentTerm : (g.storeEntries es).1.el.currentTerm = g.el.currentTerm :=
  ((truncateConflict_guarded g es).trans (appendNew_guarded _ es)).currentTerm

theorem replicate_does (req : AppendEntriesRequest) :
    ∃ ops, g.replicatesOps req ops ∧ g.Does ops (g.replicate respTerm req).1 ∧
      ((g.replicate respTerm req).1.halt = none → .stuck ∉ ops) := by
  unfold replicate
  split
  · exact ⟨[], ⟨[], [], rfl, .inl rfl, by simp⟩, .of_kept rfl, by simp⟩
  obtain ⟨cut, ops, hcut, hops, hdoes⟩ := storeEntries_does g req
  have hstored : .stuck ∉ cut ++ ops := by
    intro hmem
    rcases List.mem_append.mp hmem with hmem | hmem
    · obtain rfl | ⟨e, -, -, rfl⟩ := hcut <;> simp at hmem
    · obtain ⟨e, -, heq⟩ := hops _ hmem
      cases heq
  dsimp only
  split
  · exact ⟨cut ++ ops, ⟨cut, ops, rfl, hcut, fun op hop => .inl (hops op hop)⟩, hdoes,
      fun _ => hstored⟩
  obtain ⟨ops', hops', hdoes', hstuck⟩ := followCommit_does (g.storeEntries req.entries).1
    req.leaderCommit
  rw [storeEntries_currentTerm] at hops'
  refine ⟨cut ++ ops ++ ops', ⟨cut, ops ++ ops', List.append_assoc _ _ _, hcut, ?_⟩,
    hdoes.trans hdoes', ?_⟩
  · exact List.forall_mem_append.mpr ⟨fun op hop => .inl (hops op hop),
      fun op hop => .inr (hops' op hop)⟩
  · intro hup hmem
    exact (List.mem_append.mp hmem).elim hstored (hstuck hup)

theorem receiveChunk_kept (req : InstallSnapshotRequest) : (g.receiveChunk req).1.kept =
    ⟨{ g.pipeline with receiving := (g.receiveChunk req).1.receiving }, g.opts, g.mem⟩ := by
  obtain ⟨_, _, _, _, _, _, heq⟩ := receiveChunk_receives g req
  rw [heq]
  rfl

theorem replyUnlessHalted_kept (reply : ReplyTo) (response : Response) :
    (g.replyUnlessHalted reply response).kept = g.kept := by
  unfold replyUnlessHalted
  split
  · rfl
  · exact emit_kept _ rfl

def followerOps (restored : Bool) : FollowerCall → List PipeOp → Prop
  | .append _ _ req, ops => g.replicatesOps req ops
  | .chunk _ _ req, ops =>
    ∃ env, ops = [.receive (({ g with env := env } : RaftGroup).receiveChunk req).1.receiving]
  | .restore _ _ received, ops =>
    ops = if restored then [.restore received.index received.term received.data] else [.endRestore]
  | .install _ _ received, ops =>
    ops = if received.index ≤ g.snap.lastSnapshotIndex || received.index < g.rep.commitIndex then
        [.endRestore]
      else [.install received.index received.term]

theorem runFollowerCall_does (restored : Bool) (c : FollowerCall) :
    ∃ ops, g.followerOps restored c ops ∧ g.Does ops (g.runFollowerCall restored c).1 ∧
      ((g.runFollowerCall restored c).1.halt = none → .stuck ∉ ops) := by
  cases c with
  | append reply respTerm req =>
    obtain ⟨ops, hops, hdoes, hstuck⟩ := replicate_does g respTerm req
    refine ⟨ops, hops, hdoes.then_kept (replyUnlessHalted_kept _ _ _), fun hup => hstuck ?_⟩
    rw [← hup]
    show _ = (RaftGroup.replyUnlessHalted _ reply _).halt
    unfold replyUnlessHalted
    split <;> rfl
  | chunk reply respTerm req =>
    have hreceive : g.Does [.receive (g.receiveChunk req).1.receiving] (g.receiveChunk req).1 :=
      .of_pipeline rfl (receiveChunk_kept g req) rfl
    refine ⟨_, ⟨g.env, rfl⟩, ?_, by simp⟩
    rw [runFollowerCall]
    split
    · exact hreceive
    · exact hreceive.then_kept (emit_kept _ rfl)
  | restore reply respTerm received =>
    refine ⟨_, rfl, ?_, by split <;> simp⟩
    rw [runFollowerCall]
    split
    · exact .of_next (congrArg some (emit_pipeline _ rfl).symm) rfl rfl
    · exact .of_next (congrArg some (emit_pipeline_of_not g.endRestore rfl).symm) rfl rfl
  | install reply respTerm received =>
    have hend : (g.runFollowerCall restored (.install reply respTerm received)).1.kept =
        (g.installReceived received).endRestore.kept := emit_kept _ rfl
    refine ⟨_, rfl, ?_, by split <;> simp⟩
    split
    · rename_i hskip
      refine Does.then_kept (.of_next ?_ ?_ ?_) hend <;>
      · rw [installReceived, if_pos hskip]
        rfl
    rename_i hskip
    refine Does.then_kept (.of_next ?_ ?_ ?_) hend <;> rw [installReceived, if_neg hskip]
    · exact if_neg hskip
    · rfl
    · rfl

/-! ## §5 — The calls of clients, the apply thread, starting and stopping. -/

theorem proposeAndWait_does :
    ((g.proposeAndWait command call).2 = some (g.newEntry command).index ∧
      g.Does [.submit (g.newEntry command) (.client call) (0, 0)]
        (g.proposeAndWait command call).1) ∨
    ((g.proposeAndWait command call).2 = none ∧
      g.Does [.create (g.newEntry command)] (g.proposeAndWait command call).1) := by
  have hflush := (flushNow_talks (g.createEntry command).1 (g.createEntry command).2).quiet.kept
  unfold proposeAndWait
  dsimp only
  generalize (g.createEntry command).1.flushNow (g.createEntry command).2 = f at hflush ⊢
  split
  · have hpipe : f.1.pipeline = g.pipeline.addEntry (g.newEntry command) :=
      (congrArg Kept.pipeline hflush).trans (createEntry_pipeline g command)
    refine .inl ⟨rfl, Does.then_kept (.of_next ?_ ?_ ?_)
      (broadcastAppendEntries_talks _).quiet.kept⟩
    · refine (if_pos rfl).trans (congrArg some ?_)
      rw [← hpipe]
      rfl
    · exact congrArg Kept.opts hflush
    · exact congrArg Kept.mem hflush
  · exact .inr ⟨rfl, (createEntry_does g command).then_kept hflush⟩

def sessionAfter (req : ClientRequest) (result : ApplyResult) : ClientSession :=
  if result.success then
    { lastSeq := req.seq, lastResponse := result.response, lastIndex := result.appliedIndex
      lastTerm := g.el.currentTerm }
  else g.sessionOf req.clientId

def clientOps (input : CallInput) : ClientCall → List PipeOp → Prop
  | .propose call req, ops =>
    ops = [.submit (g.newEntry req.command) (.client call) (0, 0)] ∨
      ops = [.create (g.newEntry req.command)]
  | .waiting _ _ index, ops => ops = if input.timedOut then [.forget index] else []
  | .finish _ req result, ops =>
    ∃ resp, ops = [.setSession req.clientId (g.sessionAfter req result), .respond req resp]

theorem runClientCall_does (h : g.runClientCall input c = some o) :
    ∃ ops, g.clientOps input c ops ∧ g.Does ops o.group := by
  cases c with
  | propose call req =>
    have hgroup : o.group = (g.proposeAndWait req.command call).1 := by
      unfold runClientCall at h
      dsimp only at h
      split at h <;> (cases h; rfl)
    rw [hgroup]
    rcases proposeAndWait_does g req.command call with ⟨-, hdoes⟩ | ⟨-, hdoes⟩
    · exact ⟨_, .inl rfl, hdoes⟩
    · exact ⟨_, .inr rfl, hdoes⟩
  | waiting call req index =>
    refine ⟨_, rfl, ?_⟩
    rw [runClientCall] at h
    split at h
    · rename_i htimed
      cases h
      rw [if_pos htimed]
      exact .of_next rfl rfl rfl
    rename_i htimed
    obtain ⟨result, -, rfl⟩ := Option.map_eq_some_iff.mp h
    rw [if_neg htimed]
    exact .of_kept rfl
  | finish call req result =>
    cases h
    have hset : g.Does [.setSession req.clientId (g.sessionAfter req result)]
        (g.finishClientRequest req result).1 := .of_next rfl rfl rfl
    exact ⟨_, ⟨_, rfl⟩, hset.trans (respond_does _ req _)⟩

theorem runCallback_pipeline (callback : Option ProposalCallback) (result : ApplyResult) :
    (g.runCallback callback result).pipeline = g.pipeline.callBack callback result := by
  cases callback with
  | none => rfl
  | some cb => exact emit_pipeline _ rfl

theorem runCallback_mem (callback : Option ProposalCallback) (result : ApplyResult) :
    (g.runCallback callback result).mem = g.mem := by
  cases callback <;> rfl

theorem recorded_pipeline (t : ApplyTask) (result : ApplyResult) :
    (if t.sessionId = 0 then g else { g with app := { g.app with
      sessions := recordResult g.app.sessions t.sessionId t.seqNum result } }).pipeline =
    if t.sessionId = 0 then g.pipeline else { g.pipeline with
      sessions := recordResult g.pipeline.sessions t.sessionId t.seqNum result } := by
  split <;> rfl

theorem applyTask_does {result : ApplyResult} (h : g.applyTask result = some g') :
    g.Does [.task result] g' := by
  have h₀ := h
  unfold applyTask at h
  split at h
  · rename_i last t rest hlast hbatch
    have hnext : g.pipeline.next (.task result) = some (g.pipeline.runTask last t rest result) := by
      have hlast' : g.pipeline.thread.newLastApplied = some last := hlast
      have hbatch' : g.pipeline.thread.batch = t :: rest := hbatch
      simp only [Pipeline.next, hlast', hbatch']
    have hopts := (applyTask_guarded h₀).opts
    suffices hrun : some (g.pipeline.runTask last t rest result) = some g'.pipeline ∧ g'.mem = g.mem
      from .of_next (hnext.trans hrun.1) hopts hrun.2
    unfold Pipeline.runTask
    split at h
    · cases h
      rw [if_pos ‹_›, runCallback_pipeline, runCallback_mem]
      exact ⟨rfl, rfl⟩
    rw [if_neg ‹_›]
    split at h
    · cases h
      rw [if_pos ‹_›]
      exact ⟨rfl, rfl⟩
    cases h
    rw [if_neg ‹_›, runCallback_pipeline, runCallback_mem]
    have hdid := emit_pipeline { g with app := { g.app with thread :=
      { g.app.thread with batch := rest, newLastApplied := some t.index } } }
      (a := .applied t.index t.data result) rfl
    rw [recorded_pipeline, hdid]
    refine ⟨rfl, ?_⟩
    split <;> rfl
  · cases h

theorem applySnapshot_does (index : Index) (term : Term) :
    ∃ ops, (ops = [] ∨ ops = [.compact index term]) ∧ g.Does ops (g.applySnapshot index term) := by
  unfold applySnapshot
  split
  · exact ⟨[], .inl rfl, .of_kept rfl⟩
  split
  · exact ⟨[], .inl rfl, .of_kept rfl⟩
  rename_i hnew
  split
  · exact ⟨[], .inl rfl, .of_kept rfl⟩
  rename_i hlast
  have hnew : g.pipeline.snapshotIndex < index := not_le.mp hnew
  have hlast : g.pipeline.log.getLastLogInfo.1 ≤ index := not_lt.mp hlast
  exact ⟨[.compact index term], .inr rfl,
    .of_next (if_pos (by simpa using ⟨hnew, hlast⟩)) rfl rfl⟩

theorem emits_kept (result : ApplyResult) (cbs : List ProposalCallback) :
    (cbs.foldl (fun g cb => g.emit (.completed cb result)) g).kept =
      ⟨cbs.foldl (fun q cb => q.did (.completed cb result)) g.pipeline, g.opts, g.mem⟩ := by
  induction cbs generalizing g with
  | nil => rfl
  | cons cb cbs ih =>
    rw [List.foldl_cons, List.foldl_cons, ih, emit_pipeline g rfl]
    rfl

theorem drain_does (h : g.drain = some g') : g.Does [.drain] g' := by
  unfold drain at h
  split at h
  · cases h
  rename_i hidle
  cases h
  refine .of_pipeline (if_neg ?_) (emits_kept _ _ _) rfl
  exact fun hworking => hidle (by simp [show g.app.thread.working = true from hworking])

theorem loadSnapshot_pipeline (snapshot : Option (Index × Term)) :
    (g.loadSnapshot snapshot).pipeline = match snapshot with
      | none => g.pipeline
      | some (i, t) =>
        { g.pipeline with
          log := { startIndex := add32 i 1 }, commitIndex := i, lastApplied := i
          lastEnqueued := i, snapshotIndex := i, snapshotTerm := t } := by
  cases snapshot <;> rfl

theorem start_pipeline (recovered : Recovered) :
    (g.start recovered).pipeline = g.pipeline.boot recovered := by
  have hload : g.fresh.loadState.pipeline = { acts := g.pipeline.acts } := by
    unfold loadState
    split <;> rfl
  have hsnap : (g.fresh.loadState.loadSnapshot recovered.snapshot).pipeline =
      g.pipeline.bootSnapshot recovered.snapshot := by
    rw [loadSnapshot_pipeline, hload]
    cases recovered.snapshot <;> rfl
  unfold start Pipeline.boot
  rw [(stepDownRest_talks _ true).quiet.pipeline, (stepDownElection_quiet _ _).pipeline, ← hsnap]
  rfl

/-! ## §6 — The steps of a process. -/

def callOps (input : CallInput) : Call → List PipeOp → Prop
  | .follower c, ops => g.followerOps input.restored c ops
  | .client c, ops => g.clientOps input c ops
  | .snapshotResponse _ _, ops => ∀ op ∈ ops, isWork g.el.currentTerm op
  | .failProposal index, ops => ops = [] ∨ ops = [.fail index { errorMessage := input.message }]
  | .begun _, _ => False

theorem clientOps_command (h : g.clientOps input c ops) : ∀ op ∈ ops, op.isCommand = true := by
  cases c with
  | propose call req => obtain rfl | rfl := h <;> simp [PipeOp.isCommand]
  | waiting call req index =>
    obtain rfl := h
    split <;> simp [PipeOp.isCommand]
  | finish call req result =>
    obtain ⟨resp, rfl⟩ := h
    simp [PipeOp.isCommand]

theorem runCall_does {c : Call} (h : g.runCall input c = some o) :
    ∃ ops, g.callOps input c ops ∧ g.Does ops o.group ∧ (o.group.halt = none → .stuck ∉ ops) ∧
      ∀ peer ok, c = .snapshotResponse peer ok → ∀ e, .create e ∉ ops := by
  cases c with
  | follower c =>
    cases h
    obtain ⟨ops, hops, hdoes, hstuck⟩ := runFollowerCall_does g input.restored c
    exact ⟨ops, hops, hdoes, hstuck, by simp⟩
  | client c =>
    obtain ⟨ops, hops, hdoes⟩ := runClientCall_does g h
    exact ⟨ops, hops, hdoes, fun _ hstuck => (nomatch clientOps_command g hops _ hstuck), by simp⟩
  | snapshotResponse peer rpcSuccess =>
    cases h
    obtain ⟨ops, hops, hdoes, hstuck⟩ := snapshotResponded_works g peer rpcSuccess
    exact ⟨ops, fun op hop => isWork_of_settles (hops op hop), hdoes, hstuck,
      fun _ _ _ e he => hops _ he⟩
  | failProposal index =>
    cases h
    show ∃ ops, _ ∧ g.Does ops (g.failProposal index input.message) ∧ _
    unfold failProposal
    split
    · exact ⟨[], .inl rfl, .of_kept rfl, by simp, by simp⟩
    rename_i cb hcb
    have hcb : g.pipeline.pendingProposals.lookup index = some cb := hcb
    refine ⟨[.fail index { errorMessage := input.message }], .inr rfl, .of_next ?_ rfl rfl, by simp,
      by simp⟩
    rw [emit_pipeline (a := .completed cb _) _ rfl]
    simp only [Pipeline.next, hcb]
    rfl
  | begun b => cases h

/-- The operations of an event that begins a section; `call` numbers a new call, `calls` are those
that go on. -/
def eventOps (call : Nat) (calls : List Call) : Event → List PipeOp → Prop
  | .compact index term, ops => ops = [] ∨ ops = [.compact index term]
  | .applyTake, ops => ops = [.take]
  | .applyLoad, ops => ops = [.load]
  | .applyTask result, ops => ops = [.task result]
  | .applyPublish, ops => ops = [.publish]
  | .drain, ops => ops = [.drain]
  | .clientRequest req, ops =>
    ClientRequestOps g.el.role (g.sessionOf req.clientId) req calls ops
  | .propose command sessionId seqNum, ops =>
    ProposeRuns (g.newEntry command) (isDuplicate g.app.sessions sessionId seqNum) call sessionId
      seqNum ops
  | .proposeBatch commands, ops =>
    ops = [] ∨ ∃ work, ops = g.pipeline.batchOps g.el.currentTerm call 0 commands ++ work ∧
      ∀ op ∈ work, isWork g.el.currentTerm op
  | _, ops => ∀ op ∈ ops, isWork g.el.currentTerm op

/-- The operations of an event are never stuck, but for those that commit, and make no entries. -/
theorem eventOps_found {call : Nat} {calls : List Call} (hord : isOrdinary ev = false)
    (hbatch : ∀ commands, ev ≠ .proposeBatch commands) (h : g.eventOps call calls ev ops) :
    .stuck ∉ ops ∧ ∀ e, .create e ∉ ops := by
  cases ev with
  | compact index term => obtain rfl | rfl := h <;> simp
  | applyTake | applyLoad | applyTask | applyPublish | drain =>
    rw [show ops = _ from h]
    simp
  | clientRequest | propose => cases h <;> simp
  | proposeBatch commands => exact absurd rfl (hbatch commands)
  | _ => cases hord

/-- What an event does that is no membership call. Only commands of clients are appended. -/
theorem onEvent_does {call : Nat} (hev : Process.isMembershipCall ev = false)
    (h : g.onEvent call ev = some o) :
    ∃ ops, g.eventOps call o.calls ev ops ∧ g.Does ops o.group ∧
      (o.group.halt = none → .stuck ∉ ops) ∧ ∀ e, .create e ∉ ops := by
  have hfound : isOrdinary ev = false → (∀ commands, ev ≠ .proposeBatch commands) →
      (∃ ops, g.eventOps call o.calls ev ops ∧ g.Does ops o.group) →
      ∃ ops, g.eventOps call o.calls ev ops ∧ g.Does ops o.group ∧
        (o.group.halt = none → .stuck ∉ ops) ∧ ∀ e, .create e ∉ ops := by
    rintro hord hbatch ⟨ops, hops, hdoes⟩
    obtain ⟨hstuck, hcreate⟩ := eventOps_found g hord hbatch hops
    exact ⟨ops, hops, hdoes, fun _ => hstuck, hcreate⟩
  cases ev with
  | compact index term =>
    cases h
    exact hfound rfl (by simp) (applySnapshot_does g index term)
  | applyTake =>
    obtain ⟨g', hg', rfl⟩ := Option.map_eq_some_iff.mp h
    unfold applyTake at hg'
    split at hg'
    · cases hg'
    cases hg'
    exact hfound rfl (by simp) ⟨_, rfl, .of_next (if_neg ‹_›) rfl rfl⟩
  | applyLoad =>
    obtain ⟨g', hg', rfl⟩ := Option.map_eq_some_iff.mp h
    unfold applyLoad at hg'
    split at hg'
    · cases hg'
      exact hfound rfl (by simp) ⟨_, rfl, .of_next (if_pos ‹_›) rfl rfl⟩
    · cases hg'
  | applyTask result =>
    obtain ⟨g', hg', rfl⟩ := Option.map_eq_some_iff.mp h
    exact hfound rfl (by simp) ⟨_, rfl, applyTask_does g hg'⟩
  | applyPublish =>
    obtain ⟨g', hg', rfl⟩ := Option.map_eq_some_iff.mp h
    unfold applyPublish at hg'
    split at hg'
    · rename_i last hlast hbatch
      have hlast : g.pipeline.thread.newLastApplied = some last := hlast
      have hbatch : g.pipeline.thread.batch = [] := hbatch
      cases hg'
      refine hfound rfl (by simp) ⟨_, rfl, .of_pipeline ?_ (processPendingReads_kept _) rfl⟩
      simp only [Pipeline.next, hlast, hbatch]
      rfl
    · cases hg'
  | drain =>
    obtain ⟨g', hg', rfl⟩ := Option.map_eq_some_iff.mp h
    exact hfound rfl (by simp) ⟨_, rfl, drain_does g hg'⟩
  | clientRequest req => cases h; exact hfound rfl (by simp) (onClientRequest_does g call req)
  | propose command sessionId seqNum =>
    cases h
    exact hfound rfl (by simp) (propose_does g command call sessionId seqNum)
  | proposeBatch commands =>
    cases h
    rcases proposeBatch_does g commands call with hdoes | ⟨g₁, hdoes, ops, hops, hdoes', hstuck⟩
    · exact ⟨[], .inl rfl, hdoes, by simp, by simp⟩
    · refine ⟨_, .inr ⟨ops, rfl, fun op hop => isWork_of_settles (hops op hop)⟩,
        hdoes.trans hdoes', fun hup hmem => ?_, fun e hmem => ?_⟩
      · rcases List.mem_append.mp hmem with h | h
        · cases batchOps_command _ h
        · exact hstuck hup h
      · rcases List.mem_append.mp hmem with h | h
        · obtain ⟨_, _, heq, -⟩ := batchOps_submit _ h
          cases heq
        · exact hops _ h
  | addNode | addLearner | promoteLearner | removeNode => cases hev
  | _ =>
    obtain ⟨ops, hops, hdoes, hstuck⟩ := onEvent_works g rfl rfl h
    exact ⟨ops, fun op hop => isWork_of_settles (hops op hop), hdoes, hstuck, fun e he => hops _ he⟩

theorem onEvent_runs {call : Nat} (h : g.onEvent call ev = some o) :
    ∃ ops, g.eventOps call o.calls ev ops ∧ g.Runs ops o.group ∧
      (o.group.halt = none → .stuck ∉ ops) := by
  cases hev : Process.isMembershipCall ev with
  | true =>
    obtain ⟨_, _, _, _, hcalls⟩ := onEvent_calls g hev h
    obtain ⟨ops, hops, hruns, hstuck⟩ := hcalls.runs
    refine ⟨ops, ?_, hruns, fun _ => hstuck⟩
    cases ev <;> first | exact hops | cases hev
  | false =>
    obtain ⟨ops, hops, hdoes, hstuck, -⟩ := onEvent_does g hev h
    exact ⟨ops, hops, hdoes.runs, hstuck⟩

end RaftGroup

namespace Process

/-- The operations of a step of a process; `calls` are the calls a client's request leaves. -/
def stepOps (p : Process) (calls : List Call) : Event → List PipeOp → Prop
  | .restart recovered, ops => ops = [.boot recovered]
  | .crash, ops => ops = []
  | .resume, ops => ∀ op ∈ ops, RaftGroup.isWork p.group.el.currentTerm op
  | .run i input, ops => ∃ c, p.calls[i]? = some c ∧ p.group.callOps input c ops
  | ev, ops => p.group.eventOps p.nextCall calls ev ops

variable {env : Env} {ops : List PipeOp} {p : Process}

theorem eventOps_entered {call : Nat} {calls : List Call} {ev : Event}
    (h : (p.entered env).eventOps call calls ev ops) :
    p.group.eventOps call calls ev ops := by
  cases ev <;> exact h

theorem callOps_entered {input : CallInput} {c : Call}
    (h : (p.entered env).callOps input c ops) : p.group.callOps input c ops := by
  cases c with
  | follower c | client c => cases c <;> exact h
  | _ => exact h

variable {p' : Process} {ev : Event}

theorem stepOps_of_event {o : SectionEnd} (ho : (p.entered env).onEvent p.nextCall ev = some o)
    (hops : (p.entered env).eventOps p.nextCall o.calls ev ops) : p.stepOps o.calls ev ops := by
  have hops := eventOps_entered hops
  cases ev with
  | resume | run | crash | restart => cases ho
  | _ => exact hops

theorem Step.does (h : p.Step env ev p') (hstart : ∀ recovered, ev ≠ .restart recovered)
    (hev : isMembershipCall ev = false) :
    ∃ calls ops, (∀ req, ev = .clientRequest req → p'.calls = p.calls ++ calls) ∧
      p.stepOps calls ev ops ∧ p.group.Does ops p'.group ∧
      (p'.group.halt = none → .stuck ∉ ops) := by
  cases h with
  | restart down => exact absurd rfl (hstart _)
  | crash => exact ⟨[], [], by simp, rfl, .of_kept rfl, by simp⟩
  | resume up hw free =>
    obtain ⟨ops, hops, hdoes, hstuck⟩ := (p.entered env).runWaiting_does _
    exact ⟨[], ops, by simp, hops, hdoes, fun _ => hstuck⟩
  | run up hc free ho =>
    obtain ⟨ops, hops, hdoes, hstuck, -⟩ := (p.entered env).runCall_does ho
    exact ⟨[], ops, by simp, ⟨_, hc, callOps_entered hops⟩, hdoes, hstuck⟩
  | event up free ho =>
    obtain ⟨ops, hops, hdoes, hstuck, -⟩ := (p.entered env).onEvent_does hev ho
    exact ⟨_, ops, fun _ _ => rfl, stepOps_of_event ho hops, hdoes, hstuck⟩

/-- **Every step of a process is a run of the pipeline machine**, with the operations its event
allows. A node that is still up afterwards has found every entry it handed over. -/
theorem Step.runs (h : p.Step env ev p') :
    ∃ calls ops, (∀ req, ev = .clientRequest req → p'.calls = p.calls ++ calls) ∧
      p.stepOps calls ev ops ∧ p.group.Runs ops p'.group ∧
      (p'.group.halt = none → .stuck ∉ ops) := by
  have hdoes : (∀ recovered, ev ≠ .restart recovered) → isMembershipCall ev = false → _ :=
    h.does
  cases h with
  | @restart recovered down =>
    refine ⟨[], [.boot recovered], by simp, rfl, .single ?_, by simp⟩
    rw [RaftGroup.start_pipeline]
    rfl
  | event up free ho =>
    obtain ⟨ops, hops, hruns, hstuck⟩ := (p.entered env).onEvent_runs ho
    exact ⟨_, ops, fun _ _ => rfl, stepOps_of_event ho hops, hruns, hstuck⟩
  | _ =>
    obtain ⟨calls, ops, hcalls, hops, hdoes, hstuck⟩ := hdoes (by simp) rfl
    exact ⟨calls, ops, hcalls, hops, hdoes.runs, hstuck⟩

end Process

end RollingRaft
