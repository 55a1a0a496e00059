/-
# RollingRaft.ReceivedSnapshots — one received snapshot at a time.

`snapshot_restore_in_progress_` is set when the last chunk of a snapshot has arrived and cleared when
its call is done with it. While it is set no transfer is under way and none can start, so at most one
`HandleInstallSnapshot` call is in phases 2b and 2c.
-/
import RollingRaft.Lib.Accounting
import RollingRaft.PipelineSteps

namespace RollingRaft

open Lib

/-- The call restores a received snapshot, or is about to install it. -/
def Call.restores : Call → Bool
  | .follower (.restore _ _ _) | .follower (.install _ _ _) => true
  | _ => false

/-! ## §1 — What a chunk does. -/

namespace RaftGroup

/-- The transfer that a chunk belongs to is there only when no snapshot is being restored. -/
theorem openReceive_restoring {g : RaftGroup} {req : InstallSnapshotRequest}
    (hfile : g.receiving.restoring = true → g.receiving.file = none)
    (hstart : (req.offset = 0 && g.snap.restoreInProgress) = false) :
    (g.openReceive req).1.receiving.restoring = g.receiving.restoring ∧
      (g.receiving.restoring = true →
        (g.openReceive req).2 = false ∧ (g.openReceive req).1.receiving.file = none) := by
  unfold openReceive
  split
  · rename_i hoffset
    refine ⟨rfl, fun hrestoring => ?_⟩
    have hrestoring : g.snap.restoreInProgress = true := hrestoring
    simp [hoffset, hrestoring] at hstart
  unfold continueReceive
  split
  · exact ⟨rfl, fun _ => ⟨rfl, rfl⟩⟩
  rename_i hcontinues
  refine ⟨rfl, fun hrestoring => ?_⟩
  have hnone : g.snap.recvFile = none := hfile hrestoring
  simp [hnone] at hcontinues

/-- A chunk that completes a snapshot begins its restoration; any other one leaves that alone. -/
theorem receiveChunk_restoring {g : RaftGroup} (req : InstallSnapshotRequest)
    (hfile : g.receiving.restoring = true → g.receiving.file = none) :
    ((g.receiveChunk req).2 = none ∧
        (g.receiveChunk req).1.receiving.restoring = g.receiving.restoring ∧
        (g.receiving.restoring = true → (g.receiveChunk req).1.receiving.file = none)) ∨
      (∃ received, (g.receiveChunk req).2 = some received ∧ g.receiving.restoring = false ∧
        (g.receiveChunk req).1.receiving.restoring = true ∧
        (g.receiveChunk req).1.receiving.file = none) := by
  unfold receiveChunk
  split
  · exact .inl ⟨rfl, rfl, hfile⟩
  rename_i hstart
  obtain ⟨hsame, hclosed⟩ := openReceive_restoring hfile (Bool.eq_false_iff.mpr hstart)
  dsimp only
  split
  · exact .inl ⟨rfl, hsame, fun hrestoring => (hclosed hrestoring).2⟩
  rename_i hopen
  have hidle : g.receiving.restoring = false := by
    by_contra hrestoring
    have hnot := (hclosed (by simpa using hrestoring)).1
    simp [hnot] at hopen
  split
  · unfold storeChunk
    split
    · exact .inr ⟨_, rfl, hidle, rfl, rfl⟩
    · exact .inl ⟨rfl, hsame, fun hrestoring => by simp [hidle] at hrestoring⟩
  · exact .inl ⟨rfl, hsame, fun hrestoring => by simp [hidle] at hrestoring⟩

end RaftGroup

/-! ## §2 — The other steps. -/

namespace Pipeline

variable {q q' : Pipeline}

theorem path_receiving {ops : List PipeOp} (hops : ∀ op ∈ ops, op.receives = false)
    (h : machine.Path q ops q') : q'.receiving = q.receiving := by
  induction h with
  | nil => rfl
  | cons hn _ ih =>
    rw [ih fun op hop => hops op (List.mem_cons_of_mem _ hop)]
    exact (next_frame hn).receiving (hops _ List.mem_cons_self)

end Pipeline

theorem not_receives_of_isWork {t : Term} {op : PipeOp} (h : RaftGroup.isWork t op) :
    op.receives = false := by
  cases op <;> first | rfl | exact h.elim

theorem not_receives_of_isCommand {op : PipeOp} (h : op.isCommand = true) :
    op.receives = false := by
  cases op <;> first | rfl | cases h

/-- The call is one of the sections that receive a snapshot. -/
def Call.isReceiver : Call → Bool
  | .follower (.append _ _ _) => false
  | .follower _ => true
  | _ => false

namespace RaftGroup

variable {g : RaftGroup} {ops : List PipeOp}

theorem callOps_receives {input : CallInput} {c : Call}
    (hc : c.isReceiver = false) (h : g.callOps input c ops) : ∀ op ∈ ops, op.receives = false := by
  cases c with
  | follower c =>
    cases c with
    | append reply t req =>
      refine replicatesOps_all g h (fun _ => rfl) (fun _ => rfl) rfl ?_
      intro op hop
      cases op <;> first | rfl | exact hop.elim
    | _ => cases hc
  | client c => exact fun op hop => not_receives_of_isCommand (g.clientOps_command h op hop)
  | snapshotResponse peer ok => exact fun op hop => not_receives_of_isWork (h op hop)
  | failProposal index => obtain rfl | rfl := h <;> simp [PipeOp.receives]
  | begun b => exact h.elim

theorem eventOps_receives {call : Nat} {calls : List Call} {ev : Event}
    (h : g.eventOps call calls ev ops) : ∀ op ∈ ops, op.receives = false := by
  cases ev with
  | applyTake | applyLoad | applyTask | applyPublish | drain =>
    rw [show ops = _ from h]
    simp [PipeOp.receives]
  | compact index term => obtain rfl | rfl := h <;> simp [PipeOp.receives]
  | clientRequest | propose => cases h <;> simp [PipeOp.receives]
  | proposeBatch commands =>
    obtain rfl | ⟨work, rfl, hwork⟩ := h
    · simp
    · exact List.forall_mem_append.mpr
        ⟨fun op hop => not_receives_of_isCommand (batchOps_command op hop),
        fun op hop => not_receives_of_isWork (hwork op hop)⟩
  | _ => exact fun op hop => not_receives_of_isWork (h op hop)

theorem runChunk (g : RaftGroup) (restored : Bool) (reply : ReplyTo) (t : Term)
    (req : InstallSnapshotRequest) :
    (g.runFollowerCall restored (.chunk reply t req)).1.receiving =
        (g.receiveChunk req).1.receiving ∧
      (g.runFollowerCall restored (.chunk reply t req)).2 =
        (g.receiveChunk req).2.map (.restore reply t) := by
  rw [runFollowerCall]
  split
  · rename_i received hreceived
    exact ⟨rfl, by rw [hreceived]; rfl⟩
  rename_i hnone
  exact ⟨rfl, by rw [hnone]; rfl⟩

/-- **One token**: a section that starts to restore a snapshot, or goes on with it, holds the token
that the flag stands for, or gets it by setting the flag. -/
theorem runCall_token {input : CallInput} {c : Call} {o : SectionEnd}
    (hfile : g.receiving.restoring = true → g.receiving.file = none)
    (ho : g.runCall input c = some o) :
    o.calls.countP Call.restores + g.receiving.restoring.toNat ≤
        (if c.restores then 1 else 0) + o.group.receiving.restoring.toNat ∧
      (o.group.receiving.restoring = true → o.group.receiving.file = none) := by
  by_cases hreceiver : c.isReceiver = true
  · cases c with
    | follower c =>
      cases c with
      | append reply t req => cases hreceiver
      | chunk reply t req =>
        cases ho
        obtain ⟨hreceiving, hnext⟩ := g.runChunk input.restored reply t req
        show List.countP _ (Option.toList (Option.map _ _)) + _ ≤
            0 + (runFollowerCall _ _ _).1.receiving.restoring.toNat ∧
          ((runFollowerCall _ _ _).1.receiving.restoring = true →
            (runFollowerCall _ _ _).1.receiving.file = none)
        rw [hnext, hreceiving]
        rcases receiveChunk_restoring req hfile with
          ⟨hnone, hsame, hclosed⟩ | ⟨received, hsome, hidle, hflag, hclosed⟩
        · rw [hnone, hsame]
          exact ⟨le_rfl, hclosed⟩
        · rw [hsome, hflag, hidle]
          exact ⟨le_rfl, fun _ => hclosed⟩
      | restore reply t received =>
        simp only [runCall, runFollowerCall] at ho
        split at ho <;> cases ho
        · exact ⟨le_rfl, hfile⟩
        · exact ⟨(Nat.zero_add _).trans_le (Bool.toNat_le _), fun hflag => by cases hflag⟩
      | install reply t received =>
        cases ho
        exact ⟨(Nat.zero_add _).trans_le (Bool.toNat_le _), fun hflag => by cases hflag⟩
    | _ => cases hreceiver
  · obtain ⟨ops, hops, hdoes, -⟩ := g.runCall_does ho
    have hsame : o.group.receiving = g.receiving := Pipeline.path_receiving
      (callOps_receives (by simpa using hreceiver) hops) hdoes.runs
    have hnone : o.calls.countP Call.restores = 0 := by
      rw [List.countP_eq_zero]
      intro d hd
      cases runCall_continues ho hd <;> simp_all [Call.isReceiver, Call.restores]
    rw [hnone, hsame]
    exact ⟨by omega, hfile⟩

theorem start_receiving (g : RaftGroup) (recovered : Recovered) :
    (g.start recovered).receiving = {} := by
  have hboot := congrArg Pipeline.receiving (g.start_pipeline recovered)
  exact hboot.trans (g.pipeline.bootSnapshot_fields recovered.snapshot).2.2.2.1

end RaftGroup

/-! ## §3 — At most one. -/

namespace Process

variable {p p' : Process} {ev : Event} {env : Env}

/-- At most one call restores or installs, and only while the flag is set. -/
structure OneRestore (p : Process) : Prop where
  count : p.calls.countP Call.restores ≤ p.group.receiving.restoring.toNat
  file : p.group.receiving.restoring = true → p.group.receiving.file = none

theorem OneRestore.rest_none {i : Nat} {c : Call} (h : OneRestore p) (hc : p.calls[i]? = some c)
    (hrestores : c.restores = true) : ∀ d ∈ p.calls.eraseIdx i, d.restores = false := by
  have hcount := countP_eraseIdx Call.restores hc
  rw [if_pos hrestores] at hcount
  have hle := h.count.trans (Bool.toNat_le _)
  have hzero : (p.calls.eraseIdx i).countP Call.restores = 0 := by omega
  intro d hd
  exact Bool.eq_false_of_not_eq_true (List.countP_eq_zero.mp hzero d hd)

/-- Sections that leave the receiving side alone and start no such call. -/
theorem OneRestore.keep (h : OneRestore p) (hreceiving : p'.group.receiving = p.group.receiving)
    (hcalls : p'.calls.countP Call.restores ≤ p.calls.countP Call.restores) : OneRestore p' :=
  ⟨by rw [hreceiving]; exact hcalls.trans h.count, by rw [hreceiving]; exact h.file⟩

theorem OneRestore.run {i : Nat} {input : CallInput} {c : Call} {o : SectionEnd}
    (h : OneRestore p) (hc : p.calls[i]? = some c) (ho : (p.entered env).runCall input c = some o) :
    OneRestore (({ p with calls := p.calls.eraseIdx i }).absorb o) := by
  have hcount := countP_eraseIdx Call.restores hc
  obtain ⟨htoken, hfile⟩ := RaftGroup.runCall_token (g := p.entered env) h.file ho
  refine ⟨?_, hfile⟩
  show List.countP _ (p.calls.eraseIdx i ++ o.calls) ≤ o.group.receiving.restoring.toNat
  have hold : _ ≤ (p.entered env).receiving.restoring.toNat := h.count
  rw [List.countP_append]
  omega

theorem OneRestore.step (h : OneRestore p) (hstep : p.Step env ev p') : OneRestore p' := by
  cases hstep with
  | @restart recovered down =>
    have hreceiving := (p.entered env).start_receiving recovered
    exact ⟨Nat.zero_le _, fun hrestoring => by rw [hreceiving] at hrestoring; cases hrestoring⟩
  | crash => exact h.keep rfl le_rfl
  | @resume w up hw free =>
    obtain ⟨ops, hops, hdoes, -⟩ := (p.entered env).runWaiting_does w
    refine h.keep (Pipeline.path_receiving (fun op hop => not_receives_of_isWork (hops op hop))
      hdoes.runs) ?_
    have hnone : ((p.entered env).runWaiting w).calls.countP Call.restores = 0 := by
      rw [List.countP_eq_zero]
      intro c hc
      obtain ⟨persistState, rest, -, hleaves⟩ := RaftGroup.runWaiting_leaves hc
      cases rest <;> simp_all [RaftGroup.Rest.leaves, Call.restores]
      all_goals obtain ⟨respTerm, rfl⟩ := hleaves; simp
    show List.countP _ (p.calls ++ _) ≤ _
    rw [List.countP_append, hnone, Nat.add_zero]
  | run up hc free ho => exact h.run hc ho
  | @event ev o up free ho =>
    obtain ⟨ops, hops, hruns, -⟩ := (p.entered env).onEvent_runs ho
    refine h.keep (Pipeline.path_receiving (RaftGroup.eventOps_receives hops) hruns) ?_
    have hnone : o.calls.countP Call.restores = 0 := by
      rw [List.countP_eq_zero]
      intro c hc
      cases RaftGroup.onEvent_starts ho hc <;> simp [Call.restores]
    show List.countP _ (p.calls ++ _) ≤ _
    rw [List.countP_append, hnone, Nat.add_zero]

/-- **At most one received snapshot is restored or waits for its installation**, in every run. -/
theorem oneRestore_of_reachable {opts : Options} (h : (system opts).Reachable p) : OneRestore p := by
  refine h.invariant ?_ ?_
  · rintro p rfl
    exact ⟨Nat.zero_le _, fun hrestoring => by cases hrestoring⟩
  · rintro p ⟨ev, env⟩ p' hinv - hn
    exact hinv.step (step_of_next hn)

/-- A snapshot of one chunk, between its arrival and its restoring. -/
theorem oneRestore_of_reachable_arrived :
    ∃ p, (system nodeOne).Reachable p ∧ p.calls.countP Call.restores = 1 ∧ OneRestore p := by
  let snapshot : InstallSnapshotRequest :=
    { term := 1, leaderId := 2, lastIncludedIndex := 1, lastIncludedTerm := 1, offset := 0
      data := [7], done := true }
  obtain ⟨p, hreach, hone⟩ := (system nodeOne).reaches
    [(.restart {}, { now := 0 }), (.request ⟨2, .snapshot 1⟩ (.installSnapshot snapshot), { now := 1 }),
      (.resume, { now := 1 }), (.run 0 {}, { now := 2 })] rfl
    (P := fun p => p.calls.countP Call.restores = 1) (by decide +kernel)
  exact ⟨p, hreach, hone, oneRestore_of_reachable hreach⟩

end Process

end RollingRaft
