/-
# RollingRaft.ApplyOrder — the apply thread against the installation of snapshots.

The apply thread takes a batch off the queue and copies `last_applied_`; from then on it looks at
its copy only. `HandleInstallSnapshot` restores the state machine without a lock, then stores a new
`last_applied_` and clears the queue, but not the batch. So a batch that was taken before a snapshot
goes on after it: it applies indices the snapshot covers and stores an older `last_applied_`.

The history of a node is kept as a list of what happens to its state machine. It is in order in every
run in which no batch and no snapshot are under way at the same time.
-/
import RollingRaft.PipelineSteps
import RollingRaft.SnapshotInstall

namespace RollingRaft

open Lib

/-! ## §1 — What touches the state machine. -/

/-- What happens to the state machine of a node, and to `last_applied_`. -/
inductive ApplyEvent where
  | restarted
  /-- The state machine is replaced by a received snapshot. -/
  | restored (i : Index)
  /-- That snapshot is installed. -/
  | installed (i : Index)
  /-- `state_machine_->Apply` is called. -/
  | applied (i : Index)
  /-- The value of `last_applied_`. -/
  | lastApplied (i : Index)
  deriving DecidableEq

def Act.applyEvent : Act → Option ApplyEvent
  | .applied i _ _ => some (.applied i)
  | .restored i _ _ => some (.restored i)
  | _ => none

/-- An operation that leaves the apply thread, `last_applied_` and the state machine alone. -/
def PipeOp.isCalm : PipeOp → Bool
  | .take | .load | .task _ | .publish | .restore _ _ _ | .install _ _ | .drain | .boot _ => false
  | _ => true

/-- The operations that leave the entries of the log and the tasks of the queue where they are. -/
def PipeOp.grows : PipeOp → Bool
  | .truncate _ | .compact _ _ | .take | .install _ _ | .drain | .boot _ => false
  | _ => true

/-- Operations that leave the state machine alone, and cut or compact the log before they hand
anything over. -/
def CutsFirst (ops : List PipeOp) : Prop :=
  ∃ cut rest, ops = cut ++ rest ∧ (∀ op ∈ cut, op.isCalm = true ∧ op.keepsQueue = true) ∧
    ∀ op ∈ rest, op.isCalm = true ∧ op.grows = true

namespace CutsFirst

variable {ops : List PipeOp}

theorem of_grows (h : ∀ op ∈ ops, op.isCalm = true ∧ op.grows = true) : CutsFirst ops :=
  ⟨[], ops, rfl, by simp, h⟩

theorem of_cut (h : ∀ op ∈ ops, op.isCalm = true ∧ op.keepsQueue = true) : CutsFirst ops :=
  ⟨ops, [], (List.append_nil _).symm, h, by simp⟩

theorem calm (h : CutsFirst ops) : ∀ op ∈ ops, op.isCalm = true := by
  obtain ⟨cut, rest, rfl, hcut, hrest⟩ := h
  exact List.forall_mem_append.mpr ⟨fun op hop => (hcut op hop).1, fun op hop => (hrest op hop).1⟩

end CutsFirst

namespace Pipeline

/-- Nothing happens to the state machine between `q` and `q'`. -/
structure Calm (q q' : Pipeline) : Prop where
  thread : q'.thread = q.thread
  lastApplied : q'.lastApplied = q.lastApplied
  acts : ∃ new, q'.acts = q.acts ++ new ∧ ∀ a ∈ new, a.applyEvent = none

namespace Calm

variable {q q' q'' : Pipeline}

theorem of_eq (hthread : q'.thread = q.thread) (hlast : q'.lastApplied = q.lastApplied)
    (hacts : q'.acts = q.acts) : Calm q q' :=
  ⟨hthread, hlast, GoesOn.of_eq hacts⟩

theorem refl (q : Pipeline) : Calm q q := of_eq rfl rfl rfl

theorem trans (h : Calm q q') (h' : Calm q' q'') : Calm q q'' :=
  ⟨h'.thread.trans h.thread, h'.lastApplied.trans h.lastApplied, GoesOn.trans h.acts h'.acts⟩

theorem of_next {op : PipeOp} (hop : op.isCalm = true) (h : q.next op = some q') : Calm q q' := by
  cases op with
  | create e | submit e =>
    obtain ⟨-, ⟨⟩⟩ := Option.ite_none_right_eq_some.mp h
    exact ⟨rfl, rfl, GoesOn.single rfl⟩
  | handOver | extend | compact | commit | follow | stuck =>
    obtain ⟨-, ⟨⟩⟩ := Option.ite_none_right_eq_some.mp h
    exact of_eq rfl rfl rfl
  | handOverConfig e made =>
    simp only [next, Option.ite_none_right_eq_some, handOverConfig_eq] at h
    obtain ⟨-, ⟨⟩⟩ := h
    refine ⟨rfl, rfl, _, List.append_assoc _ _ _, ?_⟩
    intro a ha
    rcases List.mem_append.mp ha with ha | ha <;> obtain ⟨x, -, rfl⟩ := List.mem_map.mp ha <;> rfl
  | complete callback result =>
    cases h
    exact ⟨rfl, rfl, GoesOn.single rfl⟩
  | fail i result =>
    simp only [next] at h
    split at h
    · cases h
    cases h
    exact ⟨rfl, rfl, GoesOn.single rfl⟩
  | respond request response =>
    cases h
    exact ⟨rfl, rfl, GoesOn.single rfl⟩
  | truncate | receive | endRestore | forget | setSession | clearSessions | touch =>
    cases h
    exact of_eq rfl rfl rfl
  | take | load | task | publish | restore | install | drain | boot => cases hop

theorem of_path {ops : List PipeOp} (hops : ∀ op ∈ ops, op.isCalm = true)
    (h : machine.Path q ops q') : Calm q q' := by
  refine h.invariant ?_ (.refl q)
  intro s s' op hop hs hn
  exact hs.trans (.of_next (hops op hop) hn)

end Calm

end Pipeline

namespace Process

/-- The steps that do touch it, and the operation each of them is. -/
inductive Touches (p : Process) : Event → PipeOp → Prop
  | restart (recovered : Recovered) : Touches p (.restart recovered) (.boot recovered)
  | take : Touches p .applyTake .take
  | load : Touches p .applyLoad .load
  | task (result : ApplyResult) : Touches p (.applyTask result) (.task result)
  | publish : Touches p .applyPublish .publish
  | drain : Touches p .drain .drain
  | restore {i : Nat} {input : CallInput} {reply : ReplyTo} {t : Term} {received : ReceivedSnapshot}
      (hc : p.calls[i]? = some (.follower (.restore reply t received)))
      (hrestored : input.restored = true) :
      Touches p (.run i input) (.restore received.index received.term received.data)
  | install {i : Nat} {input : CallInput} {reply : ReplyTo} {t : Term} {received : ReceivedSnapshot}
      (hc : p.calls[i]? = some (.follower (.install reply t received)))
      (hnew : ¬ p.group.skipsInstall received) :
      Touches p (.run i input) (.install received.index received.term)

/-- What a step adds to the history besides the acts it does. -/
def applyMarks (p : Process) : Event → List ApplyEvent
  | .restart _ => [.restarted]
  | .run i _ =>
    match p.calls[i]? with
    | some (.follower (.install _ _ received)) =>
      if p.group.skipsInstall received then [] else [.installed received.index]
    | _ => []
  | _ => []

end Process

theorem calm_of_isWork {t : Term} {op : PipeOp} (h : RaftGroup.isWork t op) :
    op.isCalm = true ∧ op.grows = true := by
  cases op <;> first | exact ⟨rfl, rfl⟩ | exact h.elim

variable {ops : List PipeOp} {h : List ApplyEvent} {g : RaftGroup}

theorem calm_of_replicates {req : AppendEntriesRequest} (h : g.replicatesOps req ops) :
    CutsFirst ops := by
  obtain ⟨cut, rest, rfl, hcut, hrest⟩ := h
  refine ⟨cut, rest, rfl, ?_, fun op hop => ?_⟩
  · obtain rfl | ⟨e, -, -, rfl⟩ := hcut <;> simp [PipeOp.isCalm, PipeOp.keepsQueue]
  · rcases hrest op hop with ⟨e, -, rfl⟩ | rfl | hhands
    · exact ⟨rfl, rfl⟩
    · exact ⟨rfl, rfl⟩
    · cases op <;> first | exact ⟨rfl, rfl⟩ | exact hhands.elim

theorem calm_of_isCommand {op : PipeOp} (h : op.isCommand = true) :
    op.isCalm = true ∧ op.grows = true := by
  cases op <;> first | exact ⟨rfl, rfl⟩ | cases h

namespace Process

variable {p p' : Process} {ev : Event} {env : Env} {ops : List PipeOp}

theorem callOps_calm {i : Nat} {input : CallInput} {c : Call} (hc : p.calls[i]? = some c)
    (h : p.group.callOps input c ops) :
    (CutsFirst ops ∧ p.applyMarks (.run i input) = []) ∨
      ∃ op, ops = [op] ∧ p.Touches (.run i input) op := by
  have hmarks : (∀ reply t received, c ≠ .follower (.install reply t received)) →
      p.applyMarks (.run i input) = [] := by
    intro hne
    unfold applyMarks
    dsimp only
    rw [hc]
    split
    · rename_i heq
      cases heq
      exact absurd rfl (hne _ _ _)
    · rfl
  cases c with
  | follower c =>
    cases c with
    | append reply t req =>
      exact .inl ⟨calm_of_replicates h, hmarks (by simp)⟩
    | chunk reply t req =>
      obtain ⟨env, rfl⟩ := h
      exact .inl ⟨.of_cut (by simp [PipeOp.isCalm, PipeOp.keepsQueue]), hmarks (by simp)⟩
    | restore reply t received =>
      obtain rfl : ops = _ := h
      split
      · exact .inr ⟨_, rfl, .restore hc ‹_›⟩
      · exact .inl ⟨.of_cut (by simp [PipeOp.isCalm, PipeOp.keepsQueue]), hmarks (by simp)⟩
    | install reply t received =>
      obtain rfl : ops = _ := h
      split
      · rename_i hskip
        refine .inl ⟨.of_cut (by simp [PipeOp.isCalm, PipeOp.keepsQueue]), ?_⟩
        simp only [applyMarks, hc]
        exact if_pos (by simpa [RaftGroup.skipsInstall] using hskip)
      rename_i hskip
      exact .inr ⟨_, rfl, .install hc (by simpa [RaftGroup.skipsInstall] using hskip)⟩
  | client c =>
    exact .inl ⟨.of_grows fun op hop => calm_of_isCommand (p.group.clientOps_command h op hop),
      hmarks (by simp)⟩
  | snapshotResponse peer ok =>
    exact .inl ⟨.of_grows fun op hop => calm_of_isWork (h op hop), hmarks (by simp)⟩
  | failProposal index =>
    refine .inl ⟨.of_cut ?_, hmarks (by simp)⟩
    obtain rfl | rfl := h <;> simp [PipeOp.isCalm, PipeOp.keepsQueue]
  | begun b => exact h.elim

/-- **A step touches the state machine by one operation, or not at all.** -/
theorem stepOps_calm {calls : List Call} (h : p.stepOps calls ev ops) :
    (CutsFirst ops ∧ p.applyMarks ev = []) ∨ ∃ op, ops = [op] ∧ p.Touches ev op := by
  cases ev with
  | restart recovered => exact .inr ⟨_, h, .restart recovered⟩
  | run i input =>
    obtain ⟨c, hc, hops⟩ := h
    exact callOps_calm hc hops
  | applyTake => exact .inr ⟨_, h, .take⟩
  | applyLoad => exact .inr ⟨_, h, .load⟩
  | applyTask result => exact .inr ⟨_, h, .task result⟩
  | applyPublish => exact .inr ⟨_, h, .publish⟩
  | compact index term =>
    refine .inl ⟨.of_cut ?_, rfl⟩
    obtain rfl | rfl := h <;> simp [PipeOp.isCalm, PipeOp.keepsQueue]
  | crash =>
    obtain rfl : ops = [] := h
    exact .inl ⟨.of_cut (by simp), rfl⟩
  | drain => exact .inr ⟨_, h, .drain⟩
  | clientRequest | propose =>
    refine .inl ⟨.of_cut ?_, rfl⟩
    cases h <;> simp [PipeOp.isCalm, PipeOp.keepsQueue]
  | proposeBatch commands =>
    refine .inl ⟨.of_grows ?_, rfl⟩
    obtain rfl | ⟨work, rfl, hwork⟩ := h
    · simp
    · exact List.forall_mem_append.mpr
        ⟨fun op hop => calm_of_isCommand (RaftGroup.batchOps_command op hop),
        fun op hop => calm_of_isWork (hwork op hop)⟩
  | _ => exact .inl ⟨.of_grows fun op hop => calm_of_isWork (h op hop), rfl⟩

end Process

/-! ## §2 — Histories, the latest event first. -/

/-- What has happened since `mark`; everything, when it has never happened. -/
def since (mark : ApplyEvent) (h : List ApplyEvent) : List ApplyEvent := h.takeWhile (· ≠ mark)

theorem mem_since_cons {mark e a : ApplyEvent} :
    e ∈ since mark (a :: h) ↔ a ≠ mark ∧ (e = a ∨ e ∈ since mark h) := by
  unfold since
  rw [List.takeWhile_cons]
  split <;> simp_all

/-- An event may follow a history: `Apply` is called above all earlier indices and above every
installed snapshot, no index of a snapshot has been applied between restoring and installing it, and
`last_applied_` has not decreased. A restart begins anew. -/
def ApplyEvent.Follows (past : List ApplyEvent) : ApplyEvent → Prop
  | .restarted => True
  | .restored _ => True
  | .installed i => ∀ j, .applied j ∈ since (.restored i) past → i < j
  | .applied j => ∀ k, .applied k ∈ since .restarted past ∨ .installed k ∈ since .restarted past →
      k < j
  | .lastApplied i => ∀ k, .lastApplied k ∈ since .restarted past → k ≤ i

/-- Every event of the history may follow what came before it. -/
def AppliesInOrder : List ApplyEvent → Prop
  | [] => True
  | e :: past => e.Follows past ∧ AppliesInOrder past

/-- The index up to which the apply thread takes entries to be applied. -/
def Pipeline.mark (q : Pipeline) : Index := q.thread.newLastApplied.getD q.lastApplied

theorem Pipeline.mark_of_none {q : Pipeline} (h : q.thread.newLastApplied = none) :
    q.mark = q.lastApplied := by
  rw [mark, h]
  rfl

theorem Pipeline.mark_of_some {q : Pipeline} {last : Index}
    (h : q.thread.newLastApplied = some last) : q.mark = last := by
  rw [mark, h]
  rfl

/-- The pipeline has got as far as the event says. -/
def ApplyEvent.Below (q : Pipeline) : ApplyEvent → Prop
  | .applied k | .installed k => k ≤ q.mark
  | .lastApplied k => k ≤ q.lastApplied
  | _ => True

/-- The apply thread is not behind its history. -/
structure InStep (q : Pipeline) (h : List ApplyEvent) : Prop where
  below : ∀ e ∈ since .restarted h, e.Below q
  le_mark : q.lastApplied ≤ q.mark
  idle : q.thread.working = false → q.thread.newLastApplied = none
  ordered : AppliesInOrder h

namespace InStep

variable {q q' : Pipeline} {h : List ApplyEvent}

theorem cons {e : ApplyEvent} (hq : InStep q h) (hfollows : e.Follows h) (hbelow : e.Below q) :
    InStep q (e :: h) where
  below e' he' := by
    rcases (mem_since_cons.mp he').2 with rfl | he'
    · exact hbelow
    · exact hq.below e' he'
  le_mark := hq.le_mark
  idle := hq.idle
  ordered := ⟨hfollows, hq.ordered⟩

theorem publish (hq : InStep q h) : InStep q (.lastApplied q.lastApplied :: h) :=
  hq.cons (fun _ hk => hq.below _ hk) le_rfl

theorem mark_of_idle (hq : InStep q h) (hidle : q.thread.working = false) :
    q.mark = q.lastApplied := Pipeline.mark_of_none (hq.idle hidle)

theorem le_of_mem (hq : InStep q h) {k : Index}
    (hk : .applied k ∈ since .restarted h ∨ .installed k ∈ since .restarted h) : k ≤ q.mark :=
  hk.elim (hq.below _) (hq.below _)

theorem advance (hq : InStep q h) (hmark : q.mark ≤ q'.mark)
    (hlast : q.lastApplied ≤ q'.lastApplied) (hle : q'.lastApplied ≤ q'.mark)
    (hidle : q'.thread.working = false → q'.thread.newLastApplied = none) : InStep q' h where
  below e he := by
    have hbelow := hq.below e he
    cases e with
    | applied k | installed k => exact hbelow.trans hmark
    | lastApplied k => exact hbelow.trans hlast
    | restarted | restored => trivial
  le_mark := hle
  idle := hidle
  ordered := hq.ordered

theorem apply (hq : InStep q h) {j : Index} (hj : q.mark < j) (hmark : q'.mark = j)
    (hlast : q'.lastApplied = q.lastApplied)
    (hidle : q'.thread.working = false → q'.thread.newLastApplied = none) :
    InStep q' (.applied j :: h) := by
  have hle : q'.lastApplied ≤ q'.mark := by
    rw [hlast, hmark]
    exact hq.le_mark.trans hj.le
  refine (hq.advance (hj.le.trans hmark.ge) hlast.ge hle hidle).cons ?_ hmark.ge
  exact fun k hk => (hq.le_of_mem hk).trans_lt hj

/-- A snapshot that is not older than `last_applied_` is installed while the thread is idle. -/
theorem install (hq : InStep q h) {i : Index} (hidle : q.thread.working = false)
    (hi : q.lastApplied ≤ i) (hsince : ∀ j, .applied j ∉ since (.restored i) h)
    (hthread : q'.thread = q.thread) (hlast : q'.lastApplied = i) :
    InStep q' (.installed i :: h) := by
  have hnone : q'.thread.newLastApplied = none := hthread ▸ hq.idle hidle
  have hmark : q'.mark = i := (Pipeline.mark_of_none hnone).trans hlast
  have hle := (hq.mark_of_idle hidle).trans_le hi
  refine (hq.advance (hle.trans hmark.ge) (hi.trans hlast.ge) (hlast.trans hmark.symm).le
    fun _ => hnone).cons ?_ hmark.ge
  exact fun j hj => absurd hj (hsince j)

theorem restart (hq : InStep q h) (hthread : q'.thread = {}) : InStep q' (.restarted :: h) where
  below e he := by simp [mem_since_cons] at he
  le_mark := (Pipeline.mark_of_none (by rw [hthread])).ge
  idle _ := by rw [hthread]
  ordered := ⟨trivial, hq.ordered⟩

end InStep

/-! ## §3 — Runs. -/

theorem InStep.silent {q q' : Pipeline} (hacts : q'.acts = q.acts) (hq : InStep q' h) :
    InStep q' (q.newSeen Act.applyEvent q' ++ h) := by
  rw [Pipeline.newSeen_of_eq hacts]
  exact hq

theorem applyEvent_of_completed (callback : Option ProposalCallback) (result : ApplyResult) :
    ∀ a ∈ callback.toList.map fun cb => Act.completed cb result, a.applyEvent = none := by
  intro a ha
  obtain ⟨cb, -, rfl⟩ := List.mem_map.mp ha
  rfl

theorem InStep.task {q q' : Pipeline} {result : ApplyResult} (hq : InStep q h)
    (hn : q.next (.task result) = some q') :
    InStep q' (q.newSeen Act.applyEvent q' ++ h) := by
  simp only [Pipeline.next] at hn
  split at hn
  · rename_i last t rest hlast hbatch
    have hrun := Option.some.inj hn
    have hmark := Pipeline.mark_of_some hlast
    have hworking : q.thread.working = true := by
      by_contra hidle
      have hnone := hq.idle (by simpa using hidle)
      rw [hlast] at hnone
      cases hnone
    have hle : q.lastApplied ≤ last := hq.le_mark.trans_eq hmark
    rcases le_or_gt t.index last with hdone | hnew
    · rw [q.runTask_skip rest result hdone] at hrun
      have hacts := (congrArg Pipeline.acts hrun).symm
      rw [Pipeline.newSeen_of_silent hacts (applyEvent_of_completed _ _), ← hrun]
      exact hq.advance hmark.le le_rfl hle (by simp [hworking])
    · by_cases hconfig : t.isConfigChange = true
      · rw [q.runTask_config rest result hnew hconfig] at hrun
        have hacts : q'.acts = q.acts := by rw [← hrun]
        rw [Pipeline.newSeen_of_eq hacts, ← hrun]
        exact hq.advance (hmark.le.trans hnew.le) le_rfl (hle.trans hnew.le) (by simp [hworking])
      · rw [q.runTask_apply rest result hnew (by simpa using hconfig)] at hrun
        have hacts := (congrArg Pipeline.acts hrun).symm
        have hsilent := List.filterMap_eq_nil_iff.mpr (applyEvent_of_completed t.callback result)
        rw [Pipeline.newSeen_of_append hacts, List.filterMap_cons, hsilent, ← hrun]
        exact hq.apply (hmark.trans_lt hnew) rfl rfl (by simp [hworking])
  · cases hn

theorem InStep.boot {q : Pipeline} {recovered : Recovered} (hq : InStep q h) :
    InStep (q.boot recovered) (q.newSeen Act.applyEvent (q.boot recovered) ++ (.restarted :: h)) := by
  obtain ⟨hacts, hthread, -⟩ := q.bootSnapshot_fields recovered.snapshot
  rw [Pipeline.newSeen_of_eq (show (q.boot recovered).acts = q.acts from hacts)]
  exact hq.restart hthread

/-- The call is about to install the snapshot it has restored. -/
def Call.installs : Call → Bool
  | .follower (.install _ _ _) => true
  | _ => false

theorem Call.eq_install {c : Call} (h : c.installs = true) :
    ∃ reply t received, c = .follower (.install reply t received) := by
  cases c with
  | follower c =>
    cases c with
    | install reply t received => exact ⟨reply, t, received, rfl⟩
    | _ => cases h
  | _ => cases h

namespace Process

def applyEvents (p : Process) (e : Event × Env) (p' : Process) : List ApplyEvent :=
  .lastApplied p'.group.app.lastApplied ::
    (p.group.pipeline.newSeen Act.applyEvent p'.group.pipeline ++ p.applyMarks e.1)

/-- No batch is taken while a restored snapshot waits for its installation, none is under way when
one is restored, and `commit_index_` is not behind `last_applied_` when one is installed. -/
def keepsApart (p : Process) : Event → Bool
  | .applyTake => !p.calls.any Call.installs
  | .run i input =>
    match p.calls[i]? with
    | some (.follower (.restore _ _ _)) => !input.restored || !p.group.app.thread.working
    | some (.follower (.install _ _ _)) => p.group.app.lastApplied ≤ p.group.rep.commitIndex
    | _ => true
  | _ => true

/-- The history is in order, and while a snapshot waits for its installation nothing is applied. -/
structure OrderInv (s : Process × List ApplyEvent) : Prop where
  inStep : InStep s.1.group.pipeline s.2
  pending : ∀ reply t received, .follower (.install reply t received) ∈ s.1.calls →
    s.1.group.app.thread.working = false ∧ ∀ j, .applied j ∉ since (.restored received.index) s.2

variable {p p' : Process} {ev : Event} {env : Env} {h : List ApplyEvent} {reply : ReplyTo}
  {received : ReceivedSnapshot}

/-- A call that installs has restored just before, or was there already. -/
theorem Step.installs {t : Term} (hstep : p.Step env ev p')
    (hc : .follower (.install reply t received) ∈ p'.calls) :
    (∀ recovered, ev ≠ .restart recovered) ∧
      (.follower (.install reply t received) ∈ p.calls ∨
        ∃ i input, ev = .run i input ∧ input.restored = true ∧
          p.calls[i]? = some (.follower (.restore reply t received))) := by
  cases hstep with
  | restart down => cases hc
  | crash => exact ⟨by simp, .inl hc⟩
  | resume up hw free =>
    refine ⟨by simp, ?_⟩
    rcases List.mem_append.mp hc with hc | hc
    · exact .inl hc
    · obtain ⟨persistState, rest, -, hleaves⟩ := RaftGroup.runWaiting_leaves hc
      cases rest <;> simp [RaftGroup.Rest.leaves] at hleaves
  | @run i input c o up hi free ho =>
    refine ⟨by simp, ?_⟩
    rcases List.mem_append.mp hc with hc | hc
    · exact .inl (List.mem_of_mem_eraseIdx hc)
    · cases RaftGroup.runCall_continues ho hc with
      | install _ _ _ hrestored => exact .inr ⟨i, input, rfl, hrestored, hi⟩
  | event up free ho =>
    refine ⟨?_, ?_⟩
    · rintro recovered rfl
      cases ho
    · rcases List.mem_append.mp hc with hc | hc
      · exact .inl hc
      · cases RaftGroup.onEvent_starts ho hc

variable {op : PipeOp}

/-- A step that touches the state machine keeps the thread in step with the history. -/
theorem Touches.inStep {q : Pipeline} (htouch : p.Touches ev op)
    (hinv : OrderInv (p, h)) (hok : p.keepsApart ev = true)
    (hn : p.group.pipeline.next op = some q) :
    InStep q (p.group.pipeline.newSeen Act.applyEvent q ++ (p.applyMarks ev ++ h)) := by
  have hq : InStep p.group.pipeline h := hinv.inStep
  cases htouch with
  | restart recovered =>
    cases hn
    exact hq.boot
  | take =>
    obtain ⟨hidle, -, rfl⟩ := Pipeline.take_cases hn
    have hmark := hq.mark_of_idle hidle
    exact .silent rfl (hq.advance hmark.le le_rfl le_rfl fun _ => rfl)
  | load =>
    obtain ⟨hworking, hnone, rfl⟩ := Pipeline.load_cases hn
    have hmark := Pipeline.mark_of_none hnone
    exact .silent rfl (hq.advance hmark.le le_rfl le_rfl (by simp [hworking]))
  | task result => exact hq.task hn
  | publish =>
    obtain ⟨last, hlast, -, rfl⟩ := Pipeline.publish_cases hn
    have hmark := Pipeline.mark_of_some hlast
    exact .silent rfl (hq.advance hmark.le (hq.le_mark.trans_eq hmark) le_rfl fun _ => rfl)
  | drain =>
    obtain ⟨hidle, rfl⟩ := Pipeline.drain_cases hn
    have hmark := hq.mark_of_idle hidle
    rw [Pipeline.newSeen_of_silent rfl (by simp [Act.applyEvent])]
    exact hq.advance hmark.le le_rfl le_rfl fun _ => rfl
  | @restore i input reply t received hc hrestored =>
    cases hn
    rw [Pipeline.newSeen_did]
    simp only [applyMarks, hc]
    exact (hq.cons (e := .restored _) trivial trivial).advance le_rfl le_rfl hq.le_mark hq.idle
  | @install i input reply t received hc hnew =>
    obtain rfl := Pipeline.install_cases hn
    obtain ⟨hidle, hsince⟩ := hinv.pending reply t received (List.mem_of_getElem? hc)
    have hcommit : p.group.app.lastApplied ≤ p.group.rep.commitIndex := by
      simpa [keepsApart, hc] using hok
    have hreceived : p.group.rep.commitIndex ≤ received.index :=
      not_lt.mp fun hlt => hnew (.inr hlt)
    simp only [applyMarks, hc, if_neg hnew]
    exact .silent rfl (hq.install hidle (hcommit.trans hreceived) hsince rfl rfl)

theorem not_applied_since {evs : List ApplyEvent} {mark : ApplyEvent}
    (hevs : ∀ j, .applied j ∉ evs) (hh : ∀ j, .applied j ∉ since mark h) (j : Index) :
    .applied j ∉ since mark (evs ++ h) := by
  induction evs with
  | nil => exact hh j
  | cons e evs ih =>
    intro hj
    rcases (mem_since_cons.mp hj).2 with rfl | hj
    · exact hevs j List.mem_cons_self
    · exact ih (fun j hj => hevs j (List.mem_cons_of_mem _ hj)) hj

/-- While the thread is idle and takes no batch, nothing is applied. -/
theorem Touches.stays_idle {q : Pipeline} (htouch : p.Touches ev op)
    (hq : InStep p.group.pipeline h) (hn : p.group.pipeline.next op = some q)
    (hidle : p.group.pipeline.thread.working = false) (htake : ev ≠ .applyTake)
    (hrestart : ∀ recovered, ev ≠ .restart recovered) :
    q.thread.working = false ∧
      ∀ j, .applied j ∉ p.group.pipeline.newSeen Act.applyEvent q ++ p.applyMarks ev := by
  have hnone := hq.idle hidle
  cases htouch with
  | restart recovered => exact absurd rfl (hrestart recovered)
  | take => exact absurd rfl htake
  | load => simp [Pipeline.next, hidle] at hn
  | task | publish => simp [Pipeline.next, hnone] at hn
  | drain =>
    obtain ⟨-, rfl⟩ := Pipeline.drain_cases hn
    rw [Pipeline.newSeen_of_silent rfl (by simp [Act.applyEvent])]
    exact ⟨rfl, by simp [applyMarks]⟩
  | @restore i input reply t received hc hrestored =>
    cases hn
    refine ⟨hidle, ?_⟩
    rw [Pipeline.newSeen_did]
    simp [applyMarks, hc, Act.applyEvent]
  | @install i input reply t received hc hnew =>
    have heq := Pipeline.install_cases hn
    rw [Pipeline.newSeen_of_eq (by rw [heq]), heq]
    exact ⟨hidle, by simp [applyMarks, hc, hnew]⟩

theorem restore_events {i : Nat} {input : CallInput} {t : Term}
    (hstep : p.Step env (.run i input) p')
    (hi : p.calls[i]? = some (.follower (.restore reply t received)))
    (hrestored : input.restored = true) :
    p.group.pipeline.newSeen Act.applyEvent p'.group.pipeline ++ p.applyMarks (.run i input) =
      [.restored received.index] := by
  obtain ⟨calls, ops, -, ⟨c, hc, hops⟩, hruns, -⟩ := hstep.runs
  obtain rfl : .follower (.restore reply t received) = c := Option.some.inj (hi.symm.trans hc)
  obtain rfl : ops = if input.restored then _ else _ := hops
  rw [if_pos hrestored] at hruns
  rw [← Option.some.inj hruns.next, Pipeline.newSeen_did]
  simp [applyMarks, hi, Act.applyEvent]

theorem OrderInv.step {s s' : Process × List ApplyEvent} {e : Event × Env} {opts : Options}
    (hinv : OrderInv s) (hok : s.1.keepsApart e.1 = true)
    (hn : ((system opts).recording applyEvents).next s e = some s') : OrderInv s' := by
  obtain ⟨p, h⟩ := s
  obtain ⟨p', h'⟩ := s'
  obtain ⟨ev, env⟩ := e
  obtain ⟨hnext, hh⟩ := TransitionSystem.recording_next hn
  obtain rfl : h' = .lastApplied p'.group.app.lastApplied ::
    ((p.group.pipeline.newSeen Act.applyEvent p'.group.pipeline ++ p.applyMarks ev) ++ h) := hh
  have hstep : p.Step env ev p' := step_of_next hnext
  have hq : InStep p.group.pipeline h := hinv.inStep
  obtain ⟨calls, ops, -, hops, hruns, -⟩ := hstep.runs
  -- The thread stays in step; and with a snapshot pending it stays idle.
  have hinstep : InStep p'.group.pipeline
      ((p.group.pipeline.newSeen Act.applyEvent p'.group.pipeline ++ p.applyMarks ev) ++ h) ∧
      (p.group.pipeline.thread.working = false → ev ≠ .applyTake →
        (∀ recovered, ev ≠ .restart recovered) → p'.group.pipeline.thread.working = false ∧
          ∀ j, .applied j ∉ p.group.pipeline.newSeen Act.applyEvent p'.group.pipeline ++ p.applyMarks ev) := by
    rcases stepOps_calm hops with ⟨hcuts, hmarks⟩ | ⟨op, rfl, htouch⟩
    · have hc := Pipeline.Calm.of_path hcuts.calm hruns
      obtain ⟨new, hacts, hnew⟩ := hc.acts
      have hmark : p'.group.pipeline.mark = p.group.pipeline.mark := by
        unfold Pipeline.mark
        rw [hc.thread, hc.lastApplied]
      rw [Pipeline.newSeen_of_silent hacts hnew, hmarks]
      refine ⟨?_, fun hidle _ _ => ⟨by rw [hc.thread, hidle], by simp⟩⟩
      refine hq.advance hmark.ge hc.lastApplied.ge ?_ ?_
      · rw [hmark, hc.lastApplied]
        exact hq.le_mark
      · rw [hc.thread]
        exact hq.idle
    · refine ⟨?_, htouch.stays_idle hq hruns.next⟩
      rw [List.append_assoc]
      exact htouch.inStep hinv hok hruns.next
  refine ⟨hinstep.1.publish, ?_⟩
  intro reply t received hc
  obtain ⟨hrestart, hmem | ⟨i, input, rfl, hrestored, hi⟩⟩ := hstep.installs hc
  · obtain ⟨hidle, hsince⟩ := hinv.pending reply t received hmem
    have htake : ev ≠ .applyTake := by
      rintro rfl
      have hany : p.calls.any Call.installs = true := List.any_eq_true.mpr ⟨_, hmem, rfl⟩
      simp [keepsApart, hany] at hok
    obtain ⟨hidle', hevs⟩ := hinstep.2 hidle htake hrestart
    refine ⟨hidle', fun j hj => ?_⟩
    rcases (mem_since_cons.mp hj).2 with heq | hj
    · cases heq
    · exact not_applied_since hevs hsince j hj
  · have hidle : p.group.app.thread.working = false := by
      simpa [keepsApart, hi, hrestored] using hok
    refine ⟨(hinstep.2 hidle (by simp) hrestart).1, fun j hj => ?_⟩
    rw [restore_events hstep hi hrestored] at hj
    simp [mem_since_cons] at hj

end Process

def applySystem (opts : Options) : TransitionSystem (Process × List ApplyEvent) (Event × Env) :=
  (Process.system opts).recording Process.applyEvents

theorem applySystem_init (opts : Options) :
    (applySystem opts).init (Process.initial opts, []) := ⟨rfl, rfl⟩

/-- **Applying in order.** In every run that keeps batches and snapshots apart, `last_applied_` never
decreases, `Apply` is called with increasing indices, and no index that an installed snapshot covers
is applied after the snapshot was restored. -/
theorem applies_in_order {opts : Options} {s : Process × List ApplyEvent}
    (h : (applySystem opts).ReachableWith (fun s e => s.1.keepsApart e.1 = true) s) :
    AppliesInOrder s.2 := by
  have hinv : Process.OrderInv s := by
    refine h.invariant ?_ ?_
    · rintro ⟨p, h⟩ ⟨rfl, rfl⟩
      exact ⟨⟨by simp [since], le_rfl, fun _ => rfl, trivial⟩, by
        intro reply t received hc
        cases hc⟩
    · intro s e s' hinv hok hn
      exact hinv.step hok hn
  exact hinv.inStep.ordered

/-! ## §4 — A batch that goes on after a snapshot. -/

/-- Node 1 gets entry 1 from its leader, committed. -/
def firstEntryArrives : List (Event × Env) :=
  let entry : AppendEntriesRequest :=
    { term := 1, leaderId := 2, prevLogIndex := 0, prevLogTerm := 0
      entries := [⟨1, 1, [10]⟩], leaderCommit := 1 }
  [ (.restart {}, { now := 0 }),
    (.request ⟨2, .append false 0⟩ (.appendEntries entry), { now := 10 }),
    (.resume, { now := 10 }), (.run 0 {}, { now := 11 }) ]

/-- A snapshot that ends at index 5 arrives and is installed. -/
def fifthSnapshotArrives : List (Event × Env) :=
  let snapshot : InstallSnapshotRequest :=
    { term := 1, leaderId := 2, lastIncludedIndex := 5, lastIncludedTerm := 1, offset := 0
      data := [7], done := true }
  [ (.request ⟨2, .snapshot 1⟩ (.installSnapshot snapshot), { now := 20 }),
    (.run 0 {}, { now := 21 }), (.run 0 {}, { now := 22 }), (.run 0 {}, { now := 23 }) ]

/-- The apply thread takes its batch before the snapshot and runs it afterwards. -/
def batchOvertaken : List (Event × Env) :=
  firstEntryArrives ++ [(.applyTake, { now := 12 }), (.applyLoad, { now := 12 })] ++
    fifthSnapshotArrives ++ [(.applyTask {}, { now := 24 }), (.applyPublish, { now := 25 })]

/-- A reachable history in which index 1 is applied after a snapshot that covers it was installed,
and `last_applied_` decreases from 5 to 1. -/
theorem overtaken_batch_applies :
    ∃ s past, (applySystem nodeOne).Reachable s ∧
      s.2 = .lastApplied 1 :: .lastApplied 5 :: .applied 1 :: past ∧
      .installed 5 ∈ since .restarted past ∧ ¬ AppliesInOrder s.2 := by
  obtain ⟨s, hreach, hends, hmem⟩ := (applySystem nodeOne).reaches batchOvertaken (applySystem_init _)
    (P := fun s => s.2.take 3 = [.lastApplied 1, .lastApplied 5, .applied 1] ∧
      .installed 5 ∈ since .restarted (s.2.drop 3)) (by decide +kernel)
  have heq : s.2 = .lastApplied 1 :: .lastApplied 5 :: .applied 1 :: s.2.drop 3 := by
    rw [← List.take_append_drop 3 s.2, hends]
    rfl
  refine ⟨s, _, hreach, heq, hmem, ?_⟩
  rw [heq]
  rintro ⟨-, -, happlied, -⟩
  exact absurd (happlied 5 (.inr hmem)) (by decide)

/-- The same messages, with the batch done before the snapshot is restored. -/
def batchFirst : List (Event × Env) :=
  firstEntryArrives ++
    [(.applyTake, { now := 12 }), (.applyLoad, { now := 12 }), (.applyTask {}, { now := 13 }),
      (.applyPublish, { now := 14 })] ++ fifthSnapshotArrives

theorem batchFirst_in_order :
    ∃ s, (applySystem nodeOne).ReachableWith (fun s e => s.1.keepsApart e.1 = true) s ∧
      .applied 1 ∈ s.2 ∧ .installed 5 ∈ s.2 ∧ AppliesInOrder s.2 := by
  obtain ⟨s, hreach, happlied, hinstalled⟩ := (applySystem nodeOne).reachesWith
    (fun s e => s.1.keepsApart e.1 = true) batchFirst (applySystem_init _)
    (P := fun s => .applied 1 ∈ s.2 ∧ .installed 5 ∈ s.2) (by decide +kernel)
  exact ⟨s, hreach, happlied, hinstalled, applies_in_order hreach⟩

end RollingRaft
