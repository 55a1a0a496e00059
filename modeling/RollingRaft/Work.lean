/-
# RollingRaft.Work — what code does to the pipeline machine.

`g.Runs ops g'` says that what a section does to the pipeline is the list of operations `ops`.
`g.Does ops g'` says in addition that these are all it does to the membership: a configuration entry
takes effect as it is handed over. Quiet code does nothing. Code that may commit does a list of
`work`: commits and what they hand over.
-/
import RollingRaft.ConfigChange
import RollingRaft.Pipeline

namespace RollingRaft

open Lib

/-- The calls that propose a change of the membership. -/
def Process.isMembershipCall : Event → Bool
  | .addNode _ _ | .addLearner _ _ | .promoteLearner _ | .removeNode _ => true
  | _ => false

/-- An operation on behalf of a single command. -/
def PipeOp.isCommand : PipeOp → Bool
  | .create _ | .submit _ _ _ | .forget _ | .setSession _ _ | .respond _ _ => true
  | _ => false

/-! ## §1 — Runs. -/

namespace RaftGroup

/-- The section that leads from `g` to `g'` does the operations `ops`. -/
def Runs (g : RaftGroup) (ops : List PipeOp) (g' : RaftGroup) : Prop :=
  Pipeline.machine.Path g.pipeline ops g'.pipeline

variable {g g' : RaftGroup}

theorem Runs.next {op : PipeOp} (h : g.Runs [op] g') :
    g.pipeline.next op = some g'.pipeline := h.next_single

end RaftGroup

theorem Quiet.pipeline {g g' : RaftGroup} (h : Quiet g g') : g'.pipeline = g.pipeline := by
  obtain ⟨new, hnew, htalk⟩ := h.out
  have hacts : g'.pipeline.acts = g.pipeline.acts := by
    show (g'.out.map Output.act).filter Act.isPipe = (g.out.map Output.act).filter Act.isPipe
    have hnone : (new.map Output.act).filter Act.isPipe = [] := by
      simp only [List.filter_eq_nil_iff, List.mem_map, forall_exists_index, and_imp]
      rintro _ o ho rfl
      have ht := htalk o ho
      cases hact : o.act <;> simp_all [Act.isTalk, Act.isPipe]
    rw [hnew, List.map_append, List.filter_append, hnone, List.append_nil]
  calc g'.pipeline
      = { log := g'.core.log, commitIndex := g'.core.commitIndex
          pendingProposals := g'.core.pendingProposals
          proposalSessions := g'.core.proposalSessions
          clientSessions := g'.core.clientSessions, lastApplied := g'.core.app.lastApplied
          lastEnqueued := g'.core.app.lastEnqueued, applyQueue := g'.core.app.applyQueue
          thread := g'.core.app.thread, sessions := g'.core.app.sessions
          snapshotIndex := g'.core.lastSnapshotIndex, snapshotTerm := g'.core.lastSnapshotTerm
          receiving :=
            { file := g'.core.recvFile, index := g'.core.recvIndex, term := g'.core.recvTerm
              expectedOffset := g'.core.recvExpectedOffset
              restoring := g'.core.restoreInProgress }
          acts := g'.pipeline.acts } := rfl
    _ = g.pipeline := by rw [h.core, hacts]; rfl

/-- What only commands, elections, commits and configuration changes touch. -/
structure Kept where
  pipeline : Pipeline
  opts : Options
  mem : MembershipState

def RaftGroup.kept (g : RaftGroup) : Kept := ⟨g.pipeline, g.opts, g.mem⟩

theorem Quiet.kept {g g' : RaftGroup} (h : Quiet g g') : g'.kept = g.kept := by
  have hopts : g'.opts = g.opts := congrArg Core.opts h.core
  unfold RaftGroup.kept
  rw [h.pipeline, hopts, h.mem]

/-- What an operation does to the membership: a configuration entry takes effect as it is handed
over, and what a leader makes of it is FINALIZE of the voters it has put in force. -/
def PipeOp.Turns (opts : Options) (m m' : MembershipState) : PipeOp → Prop
  | .handOverConfig e made =>
    m' = (ConfigChange.readChange opts.json e.data).effect opts.serverId m ∧
      ∀ e' ∈ made, m'.config.isJoint = true ∧ e'.data = finalizeCommand opts.json m'.config.nodes
  | _ => m' = m

namespace Kept

structure Step (k : Kept) (op : PipeOp) (k' : Kept) : Prop where
  pipeline : k.pipeline.next op = some k'.pipeline
  opts : k'.opts = k.opts
  mem : op.Turns k.opts k.mem k'.mem

/-- The operations, one after the other. -/
inductive Does : Kept → List PipeOp → Kept → Prop
  | nil (k : Kept) : Does k [] k
  | cons {k k₁ k' : Kept} {op : PipeOp} {ops : List PipeOp} (h : k.Step op k₁)
      (rest : Does k₁ ops k') : Does k (op :: ops) k'

variable {k k' k'' : Kept} {ops ops' : List PipeOp}

theorem Does.append (h : k.Does ops k') (h' : k'.Does ops' k'') : k.Does (ops ++ ops') k'' := by
  induction h with
  | nil => exact h'
  | cons hstep _ ih => exact .cons hstep (ih h')

theorem Does.path (h : k.Does ops k') : Pipeline.machine.Path k.pipeline ops k'.pipeline := by
  induction h with
  | nil => exact .nil _
  | cons hstep _ ih => exact .cons hstep.pipeline ih

theorem Does.of_path {q q' : Pipeline} {opts : Options} {m : MembershipState}
    (hops : ∀ op ∈ ops, op.isCommand = true) (h : Pipeline.machine.Path q ops q') :
    Does ⟨q, opts, m⟩ ops ⟨q', opts, m⟩ := by
  induction h with
  | nil => exact .nil _
  | @cons q q₁ q' op ops hn _ ih =>
    have hop := hops op List.mem_cons_self
    have hmem : op.Turns opts m m := by cases op <;> first | rfl | cases hop
    have hstep : Step ⟨q, opts, m⟩ op ⟨q₁, opts, m⟩ := ⟨hn, rfl, hmem⟩
    exact .cons hstep (ih fun op hop => hops op (List.mem_cons_of_mem _ hop))

end Kept

namespace RaftGroup

/-- The section does the operations `ops`, and nothing else to the pipeline and the membership. -/
def Does (g : RaftGroup) (ops : List PipeOp) (g' : RaftGroup) : Prop := g.kept.Does ops g'.kept

section Does

variable {g g' g'' : RaftGroup} {ops ops' : List PipeOp}

theorem Does.runs (h : g.Does ops g') : g.Runs ops g' := Kept.Does.path h

theorem Does.trans (h : g.Does ops g') (h' : g'.Does ops' g'') : g.Does (ops ++ ops') g'' :=
  Kept.Does.append h h'

theorem Does.of_next {op : PipeOp} (h : g.pipeline.next op = some g'.pipeline)
    (hopts : g'.opts = g.opts) (hmem : op.Turns g.opts g.mem g'.mem) : g.Does [op] g' := by
  have hstep : g.kept.Step op g'.kept := ⟨h, hopts, hmem⟩
  exact .cons hstep (.nil _)

theorem Does.of_pipeline {op : PipeOp} {q : Pipeline} (h : g.pipeline.next op = some q)
    (hkept : g'.kept = ⟨q, g.opts, g.mem⟩) (hmem : op.Turns g.opts g.mem g.mem) :
    g.Does [op] g' := by
  have hstep : g.kept.Step op ⟨q, g.opts, g.mem⟩ := ⟨h, rfl, hmem⟩
  unfold Does
  rw [hkept]
  exact .cons hstep (.nil _)

theorem Does.then_kept (h : g.Does ops g') (heq : g''.kept = g'.kept) : g.Does ops g'' := by
  unfold Does at h ⊢
  rwa [heq]

theorem Does.after_kept (h : g'.Does ops g'') (heq : g'.kept = g.kept) : g.Does ops g'' := by
  unfold Does at h ⊢
  rwa [← heq]

theorem Does.of_kept (h : g'.kept = g.kept) : g.Does [] g' := then_kept (.nil g.kept) h

end Does

variable (g : RaftGroup)

/-! ## §2 — Acts and entries. -/

variable (nodes : List NodeId) (cmd : Bytes) (peer : NodeId) (call readId : Nat) (data : Bytes)
  (rpcSuccess : Bool) {a : Act} {g' : RaftGroup}

theorem emit_pipeline (ha : a.isPipe = true) : (g.emit a).pipeline = g.pipeline.did a := by
  simp [pipeline, receiving, emit, Pipeline.did, ha]

theorem emit_pipeline_of_not (ha : a.isPipe = false) : (g.emit a).pipeline = g.pipeline := by
  simp [pipeline, receiving, emit, ha]

theorem emit_kept (ha : a.isPipe = false) : (g.emit a).kept = g.kept := by
  unfold kept
  rw [emit_pipeline_of_not g ha]
  rfl

/-- The entry `log_.Append(current_term_, data)` makes. -/
def newEntry (data : Bytes) : LogEntry := ⟨g.rep.log.newIndex, g.el.currentTerm, data⟩

theorem createEntry_pipeline :
    (g.createEntry data).1.pipeline = g.pipeline.addEntry (g.newEntry data) :=
  emit_pipeline _ rfl

theorem createEntry_does : g.Does [.create (g.newEntry data)] (g.createEntry data).1 := by
  refine .of_next ?_ rfl rfl
  rw [createEntry_pipeline]
  exact if_pos rfl

/-! ## §3 — Configuration changes. -/

/-- A configuration command makes at most one entry, FINALIZE of the voters it has put in force. -/
def MakesAtMostOne (g g' : RaftGroup) : Prop :=
  ∃ made : Option LogEntry, (∀ e ∈ made, (e.index = g.rep.log.newIndex ∧
    e.term = g.el.currentTerm) ∧ g'.mem.config.isJoint = true ∧
      e.data = finalizeCommand g.opts.json g'.mem.config.nodes) ∧
    g'.pipeline = g.pipeline.addMade made

theorem MakesAtMostOne.of_eq {g : RaftGroup} (h : g'.pipeline = g.pipeline) :
    MakesAtMostOne g g' :=
  ⟨none, by simp, h⟩

theorem appendFinalize_does :
    g.Does [.create (g.newEntry (finalizeCommand g.opts.json nodes))] (g.appendFinalize nodes) :=
  (createEntry_does g _).then_kept (flushLater_talks _ _).quiet.kept

theorem Configures.makes {g : RaftGroup} (h : Configures g g') : MakesAtMostOne g g' := by
  cases h with
  | changed mem nextIndex matchIndex => exact .of_eq rfl
  | saved mem nextIndex matchIndex => exact .of_eq (Quiet.saveState _).pipeline
  | @finalizes mem g₁ nodes hg₁ hjoint hnodes hrole =>
    -- Saving the configuration comes first, FINALIZE after it.
    obtain ⟨hpipe, hopts, hterm, hmem⟩ : g₁.pipeline = g.pipeline ∧ g₁.opts = g.opts ∧
        g₁.el.currentTerm = g.el.currentTerm ∧ g₁.mem = mem := by
      rw [hg₁]
      exact ⟨(Quiet.saveState _).pipeline, (ElectionFrame.saveState _).opts,
        (ElectionFrame.saveState _).currentTerm, saveState_mem _⟩
    have hlog : g₁.rep.log = g.rep.log := congrArg Pipeline.log hpipe
    have hmem' : (g₁.appendFinalize nodes).broadcastAppendEntries.mem = mem := by
      rw [(broadcastAppendEntries_talks _).quiet.mem, appendFinalize_mem, hmem]
    refine ⟨some (g₁.newEntry (finalizeCommand g₁.opts.json nodes)), ?_, ?_⟩
    · rintro e ⟨⟩
      rw [hmem', hnodes]
      exact ⟨⟨by rw [← hlog]; rfl, hterm⟩, hjoint, by rw [← hopts]; rfl⟩
    · rw [(broadcastAppendEntries_talks _).quiet.pipeline, ← hpipe]
      exact (flushLater_talks _ _).quiet.pipeline.trans (createEntry_pipeline g₁ _)

/-! ## §4 — Committing and handing over. -/

theorem completeConfigChange_pipeline (i : Index) :
    (g.completeConfigChange i).pipeline = g.pipeline.succeed i := by
  have heq : g.pipeline.pendingProposals = g.rep.pendingProposals := rfl
  unfold completeConfigChange Pipeline.succeed
  rw [heq]
  cases g.rep.pendingProposals.lookup i with
  | none => rfl
  | some cb => exact emit_pipeline (a := .completed cb _) _ rfl

theorem completeConfigChange_rest (i : Index) :
    (g.completeConfigChange i).opts = g.opts ∧ (g.completeConfigChange i).mem = g.mem := by
  unfold completeConfigChange
  split <;> exact ⟨rfl, rfl⟩

theorem enqueueTask_pipeline (t : ApplyTask) : (g.enqueueTask t).pipeline = g.pipeline.enqueue t :=
  rfl

theorem applyConfigChange_makes : MakesAtMostOne g (g.applyConfigChange cmd) :=
  (runConfigCommand_configures g cmd).makes

/-- An operation of the loop that hands committed entries over; entries are made in term `t`. -/
def handsOver (t : Term) : PipeOp → Prop
  | .handOver _ | .stuck => True
  | .handOverConfig _ made => ∀ e ∈ made, e.term = t
  | _ => False

theorem enqueueNext_does (hlt : g.app.lastEnqueued < g.rep.commitIndex) :
    ∃ op, handsOver g.el.currentTerm op ∧ g.Does [op] g.enqueueNext ∧
      (g.enqueueNext.halt = none → op ≠ .stuck) := by
  have hlt' : g.pipeline.lastEnqueued < g.pipeline.commitIndex := hlt
  unfold enqueueNext
  dsimp only
  split
  · rename_i hnone
    have hnone' : g.pipeline.log.getEntry g.pipeline.nextIndex = none := hnone
    refine ⟨.stuck, trivial, .of_next ?_ rfl rfl, nofun⟩
    exact if_pos (by simp [hlt', hnone'])
  rename_i e he
  have he' : g.pipeline.log.getEntry g.pipeline.nextIndex = some e := he
  split
  · rename_i hconfig
    obtain ⟨made, hmade, heq⟩ := applyConfigChange_makes
      { g with app := { g.app with lastEnqueued := add32 g.app.lastEnqueued 1 } } e.data
    obtain ⟨hopts, hmem⟩ := completeConfigChange_rest (RaftGroup.applyConfigChange
      { g with app := { g.app with lastEnqueued := add32 g.app.lastEnqueued 1 } } e.data)
      (add32 g.app.lastEnqueued 1)
    refine ⟨.handOverConfig e made, fun e he => (hmade e he).1.2,
      .of_next ?_ (hopts.trans (applyConfigChange_guarded _ e.data).opts) ⟨?_, ?_⟩, by simp⟩
    case refine_2 => exact hmem.trans (applyConfigChange_mem _ e.data)
    case refine_3 =>
      show ∀ e' ∈ made, (RaftGroup.mem (completeConfigChange _ _)).config.isJoint = true ∧ e'.data =
        finalizeCommand _ (RaftGroup.mem (completeConfigChange _ _)).config.nodes
      rw [hmem]
      exact fun e' he' => (hmade e' he').2
    have hguard : made.all (·.index = g.pipeline.log.newIndex) = true := by
      cases made with
      | none => rfl
      | some e => exact decide_eq_true (hmade e rfl).1.1
    refine (if_pos (by simp [hlt', he', hconfig, hguard])).trans (congrArg some ?_)
    -- Making an entry and moving `last_enqueued_` touch different fields.
    have hmoved : ({ g.pipeline.addMade made with
        lastEnqueued := g.pipeline.nextIndex } : Pipeline) = (RaftGroup.applyConfigChange
          { g with app := { g.app with lastEnqueued := add32 g.app.lastEnqueued 1 } }
          e.data).pipeline := by
      rw [heq]
      cases made <;> rfl
    unfold Pipeline.handOverConfig
    rw [hmoved, enqueueTask_pipeline, completeConfigChange_pipeline]
    rfl
  · rename_i hconfig
    refine ⟨.handOver e, trivial, .of_next ?_ rfl rfl, by simp⟩
    exact if_pos (by simp [hlt', he', hconfig])

/-- A list of operations that hand over. A node that is still up has found every entry. -/
def HandsOver (t : Term) (g g' : RaftGroup) : Prop :=
  ∃ ops, (∀ op ∈ ops, handsOver t op) ∧ g.Does ops g' ∧ (g'.halt = none → .stuck ∉ ops)

theorem enqueueWhileCommitted_handsOver (rounds : Nat) :
    HandsOver g.el.currentTerm g (g.enqueueWhileCommitted rounds) := by
  induction rounds generalizing g with
  | zero => exact ⟨[], by simp, .of_kept rfl, by simp⟩
  | succ rounds ih =>
    rw [enqueueWhileCommitted]
    split
    · rename_i hlt
      obtain ⟨op, hop, hdoes, hfound⟩ := enqueueNext_does g hlt
      dsimp only
      split
      · rename_i hhalt
        refine ⟨[op], by simpa using hop, hdoes, fun hup => ?_⟩
        rw [hup] at hhalt
        cases hhalt
      rename_i hup
      obtain ⟨ops, hops, hrest, hstuck⟩ := ih g.enqueueNext
      rw [(enqueueNext_guarded g).currentTerm] at hops
      refine ⟨op :: ops, by simpa using ⟨hop, hops⟩, hdoes.trans hrest, fun hup' => ?_⟩
      have hne : .stuck ≠ op := (hfound (by simpa using hup)).symm
      exact List.not_mem_cons_of_ne_of_not_mem hne (hstuck hup')
    · exact ⟨[], by simp, .of_kept rfl, by simp⟩

theorem applyCommitted_handsOver : HandsOver g.el.currentTerm g g.applyCommitted :=
  enqueueWhileCommitted_handsOver g _

theorem commitIndex_of_handsOver {t : Term} {op : PipeOp} {q q' : Pipeline} (hop : handsOver t op)
    (hn : q.next op = some q') : q'.commitIndex = q.commitIndex :=
  (Pipeline.next_frame hn).commit (by cases op <;> first | rfl | exact hop.elim)

theorem HandsOver.commitIndex {t : Term} {g : RaftGroup} (h : HandsOver t g g') :
    g'.rep.commitIndex = g.rep.commitIndex := by
  obtain ⟨ops, hops, hdoes, -⟩ := h
  refine hdoes.runs.invariant (P := fun q => q.commitIndex = g.rep.commitIndex) ?_ rfl
  intro q q' op hop hq hn
  exact (commitIndex_of_handsOver (hops op hop) hn).trans hq

/-- What a node does of its own accord in term `t`, other than make entries: it commits and hands
over, and forgets the sessions of clients when it becomes a leader. -/
def settles (t : Term) : PipeOp → Prop
  | .commit _ | .clearSessions => True
  | op => handsOver t op

/-- What it does when it may also make entries. -/
def isWork (t : Term) : PipeOp → Prop
  | .create e => e.term = t
  | .commit _ | .clearSessions => True
  | op => handsOver t op

theorem isWork_of_settles {t : Term} {op : PipeOp} (h : settles t op) : isWork t op := by
  cases op <;> first | exact h | exact h.elim

/-- A list of such operations. A node that is still up has found every entry it committed. -/
def Works (t : Term) (g g' : RaftGroup) : Prop :=
  ∃ ops, (∀ op ∈ ops, settles t op) ∧ g.Does ops g' ∧ (g'.halt = none → .stuck ∉ ops)

section Works

variable {t : Term} {g g' g'' : RaftGroup}

theorem Works.of_kept (h : g'.kept = g.kept) : Works t g g' :=
  ⟨[], by simp, .of_kept h, by simp⟩

theorem Works.of_quiet (h : Quiet g g') : Works t g g' := .of_kept h.kept

theorem Works.after_kept (h : Works t g' g'') (heq : g'.kept = g.kept) : Works t g g'' := by
  obtain ⟨ops, hops, hdoes, hstuck⟩ := h
  exact ⟨ops, hops, hdoes.after_kept heq, hstuck⟩

theorem Works.then_kept (h : Works t g g') (hup : g'.halt = none)
    (heq : g''.kept = g'.kept) : Works t g g'' := by
  obtain ⟨ops, hops, hdoes, hstuck⟩ := h
  exact ⟨ops, hops, hdoes.then_kept heq, fun _ => hstuck hup⟩

end Works

variable {index : Index}

theorem tryCommitFrom_works (hindex : index ≤ g.rep.log.getLastLogInfo.1) :
    Works g.el.currentTerm g (g.tryCommitFrom index) := by
  induction index with
  | zero => exact .of_kept rfl
  | succ i ih =>
    rw [tryCommitFrom]
    split
    · rename_i hlt
      split
      · exact .of_kept rfl
      split
      · have hlt' : g.pipeline.commitIndex < i + 1 := hlt
        have hle : i + 1 ≤ g.pipeline.log.getLastLogInfo.1 := hindex
        obtain ⟨ops, hops, hdoes, hstuck⟩ := applyCommitted_handsOver
          { g with rep := { g.rep with commitIndex := i + 1 } }
        have hcan : (decide (g.pipeline.commitIndex < i + 1) &&
            decide (i + 1 ≤ g.pipeline.log.getLastLogInfo.1)) = true := by
          rw [Bool.and_eq_true, decide_eq_true_eq, decide_eq_true_eq]
          exact ⟨hlt', hle⟩
        have hcommit : g.Does [.commit (i + 1)]
            { g with rep := { g.rep with commitIndex := i + 1 } } :=
          .of_next (if_pos hcan) rfl rfl
        refine ⟨.commit (i + 1) :: ops, ?_, hcommit.trans hdoes, ?_⟩
        · rintro op (_ | ⟨_, hop⟩)
          · trivial
          · have hhands := hops op hop
            cases op <;> first | exact hhands | exact hhands.elim
        · intro hup
          exact List.not_mem_cons_of_ne_of_not_mem (by simp) (hstuck hup)
      · exact ih (Nat.le_of_succ_le hindex)
    · exact .of_kept rfl

theorem tryCommit_works {g g₁ : RaftGroup} (h : g₁.kept = g.kept)
    (hterm : g₁.el.currentTerm = g.el.currentTerm) : Works g.el.currentTerm g g₁.tryCommit := by
  rw [← hterm]
  exact (tryCommitFrom_works g₁ (min_le_left _ _)).after_kept h

/-! ## §5 — Elections, responses and timers. -/

theorem stepDownElection_quiet (t : Term) : Quiet g (g.stepDownElection t) := .of_core rfl rfl

theorem broadcastRequestVote_quiet : Quiet g g.broadcastRequestVote :=
  foldl_frame (fun g _ => .emit g rfl) _ g

theorem broadcastPreVote_quiet : Quiet g g.broadcastPreVote :=
  foldl_frame (fun g _ => .emit g rfl) _ g

theorem voteRest_quiet (req : RequestVoteRequest) : Quiet g (g.voteRest req).1 := by
  unfold voteRest
  repeat' split
  all_goals first
    | exact .refl g
    | exact (Quiet.saveState _).after rfl rfl

theorem answerVote_quiet (reply : ReplyTo) (req : RequestVoteRequest) : Quiet g (g.answerVote reply req) :=
  (voteRest_quiet g req).trans (.emit _ rfl)

theorem runRest_quiet (rest : Rest) : Quiet g (g.runRest rest).group := by
  cases rest with
  | nothing | failProposal => exact .refl g
  | requestVote reply req => exact answerVote_quiet g reply req
  | appendEntries reply req => exact (appendEntriesRest_talks g reply req).quiet
  | installSnapshot reply req => exact (installSnapshotRest_talks g reply req).quiet

theorem completeRead_kept (e : Sigma fun _ : Nat => PendingReadIndex) :
    (g.completeRead e).kept = g.kept :=
  emit_kept (a := .readReady e.2.callback) _ rfl

theorem processPendingReads_kept : g.processPendingReads.kept = g.kept :=
  List.foldlRecOn (motive := fun g' => g'.kept = g.kept) _ _ rfl
    fun g' h e _ => (completeRead_kept g' e).trans h

theorem handleReadIndexAck_kept : (g.handleReadIndexAck peer readId).kept = g.kept := by
  unfold handleReadIndexAck
  split
  · rfl
  dsimp only
  split
  · split
    · exact processPendingReads_kept _
    · rfl
  split
  · exact completeRead_kept _ _
  · rfl

theorem noteAck_kept : (g.noteAck peer).kept = g.kept := by
  unfold noteAck
  dsimp only
  split
  · split <;> rfl
  · split <;> rfl

theorem heartbeatRejected_quiet (conflictIndex : Index) :
    Quiet g (g.heartbeatRejected peer conflictIndex) := by
  unfold heartbeatRejected
  dsimp only
  split
  · split
    · exact (sendInstallSnapshotToPeer_talks _ peer).quiet.after rfl rfl
    · exact .of_core rfl rfl
  · exact .of_core rfl rfl

theorem broadcastReadIndexHeartbeats_kept :
    (g.broadcastReadIndexHeartbeats readId).kept = g.kept := by
  have hsent := (foldl_frame (sendReadHeartbeat_talks readId) g.readHeartbeatPeers g).quiet
  unfold broadcastReadIndexHeartbeats
  dsimp only
  split
  · exact hsent.kept
  · exact hsent.kept

theorem leaderReadIndex_kept : (g.leaderReadIndex call).kept = g.kept := by
  unfold leaderReadIndex
  dsimp only
  split
  · exact processPendingReads_kept _
  · exact broadcastReadIndexHeartbeats_kept _ _

theorem readIndex_kept : (g.readIndex call).1.kept = g.kept := by
  have hrecord := (recordActivity_talks g false).quiet.kept
  unfold readIndex
  dsimp only
  split
  · exact hrecord
  split
  · exact (leaderReadIndex_kept _ call).trans hrecord
  · split <;> exact hrecord

/-! ## §6 — Sections that may commit. -/

theorem appendSucceeded_works (rest : List InflightEntry) (head : InflightEntry)
    (entriesCount : Nat) : Works g.el.currentTerm g
      ((g.setInflight peer rest).appendSucceeded peer head entriesCount) := by
  have hnote := noteAck_kept
    (((g.setInflight peer rest).advanceProgress peer head entriesCount).clearRetry peer) peer
  have hterm := (noteAck_guarded
    (((g.setInflight peer rest).advanceProgress peer head entriesCount).clearRetry peer)
    peer).currentTerm
  have hcommits : Works g.el.currentTerm g _ := tryCommit_works hnote hterm
  unfold appendSucceeded
  dsimp only
  split
  · exact hcommits
  rename_i hup
  have hup := Option.not_isSome_iff_eq_none.mp hup
  split
  · exact hcommits.then_kept hup
      ((touchNextIndex_talks _ peer).quiet.trans (sendAppendEntriesToPeer_talks _ peer).quiet).kept
  · exact hcommits.then_kept hup (touchNextIndex_talks _ peer).quiet.kept

theorem snapshotResponded_works :
    Works g.el.currentTerm g (g.snapshotResponded peer rpcSuccess) := by
  unfold snapshotResponded
  split
  · exact .of_kept rfl
  rename_i st _
  split
  · exact .of_kept rfl
  split
  · refine tryCommit_works ?_ ?_ <;> rfl
  · exact .of_quiet ((sendNextSnapshotChunk_talks _ peer).quiet.after rfl rfl)

theorem becomeLeaderElection_works {t : Term} {g g₁ : RaftGroup} (h : g₁.kept = g.kept) :
    Works t g g₁.becomeLeaderElection := by
  have hclear : g₁.Does [.clearSessions] g₁.becomeLeaderElection := .of_next rfl rfl rfl
  exact ⟨[.clearSessions], by simp [settles], hclear.after_kept h, by simp⟩

theorem becomeCandidate_works (t : Term) : Works t g g.becomeCandidate.1 := by
  have hsave : Quiet g g.candidacy.saveState.1 := (Quiet.saveState _).after rfl rfl
  unfold becomeCandidate
  dsimp only
  split
  · exact .of_quiet (hsave.trans (.of_core rfl rfl))
  split
  · exact becomeLeaderElection_works hsave.kept
  exact .of_quiet ((hsave.trans (broadcastRequestVote_quiet _)).trans (resetElectionTimer_talks _).quiet)

end RaftGroup

end RollingRaft
