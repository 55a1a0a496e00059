/-
# RollingRaft.Completions — whose command a completed callback stands for.

`Propose`, `ProposeBatch` and `ProposeAndWaitLocked` append an entry and leave their callback in
`pending_proposals_` under the index of the entry, and the session of the command in
`proposal_sessions_`. `ApplyCommittedLocked` looks up both by the index of the entry it hands over.
Neither a step-down nor a truncation touches the two maps. So a callback whose entry was cut off is
completed, with success, by whatever entry is committed at its index later.
-/
import RollingRaft.ProposalHistory

namespace RollingRaft

open Lib

/-! ## §1 — What a step hands over. -/

namespace Process

/-- The next section of a call leaves the entries alone that something waits for. -/
def keepsOwnCall (p : Process) (input : CallInput) : Call → Prop
  | .follower (.append _ _ req) => ∀ e ∈ req.entries, p.group.conflictsWith e = true →
      p.group.pipeline.WaitsBelow e.index
  | .follower (.install _ _ received) => ¬ p.group.skipsInstall received →
      received.index < 2 ^ 32 ∧ p.group.app.thread.working = false ∧
        p.group.pipeline.WaitsBelow 0
  | .client (.propose _ _) => p.group.rep.log.Contiguous
  | .client (.waiting call _ index) => input.timedOut = true →
      ∀ cb ∈ p.group.rep.pendingProposals.lookup index, cb = .client call
  | _ => True

/-- No entry is cut off that something waits for; a snapshot replaces the log only when nothing
waits, and is not installed while a batch is in hand; commands are appended to logs whose entries
stand in the slots of their indices and have room below `2 ^ 32`; a call that stops waiting finds no
other's callback at its index. -/
def keepsOwn (p : Process) : Event → Prop
  | .restart recovered => recovered.fits
  | .propose _ _ _ => p.group.rep.log.Contiguous
  | .proposeBatch commands => p.group.rep.log.Contiguous ∧
      p.group.rep.log.startIndex + p.group.rep.log.entries.length + commands.length < 2 ^ 32
  | .compact index _ => p.group.snap.lastSnapshotIndex < index →
      p.group.rep.log.getLastLogInfo.1 ≤ index → p.group.pipeline.WaitsBelow 0
  | .run i input => ∀ c ∈ p.calls[i]?, p.keepsOwnCall input c
  | _ => True

end Process

namespace Process

variable {p p' : Process} {ev : Event} {env : Env} {h : List ProposalEvent}

/-- What is registered after a step. -/
def known (p : Process) (ev : Event) (p' : Process) (h : List ProposalEvent) : Registrations :=
  Registered (p.registrations ev p' ++ h)

/-- What a step does to the maps and to the queue, with its own registrations among those known. The
callbacks it leaves wait, or are gone already. -/
def HandsOwn (p : Process) (ev : Event) (p' : Process) (h : List ProposalEvent) : Prop :=
  p'.group.pipeline.Waits (p.known ev p' h) ∧
    ∃ ts new, Pipeline.Hands (p.known ev p' h) p.group.pipeline p'.group.pipeline ts new ∧
      ∀ cb e s, .registered cb e s ∈ p.registrations ev p' →
        p'.group.pipeline.pendingProposals.lookup e.index = some cb ∨
          p'.group.pipeline.Gone (p.known ev p' h) ts new e.index cb

section HandsOwn

variable (hw : p.group.pipeline.Waits (Registered h)) (hfits : p.group.pipeline.Fits)
  {ops : List PipeOp}

include hw hfits

section Waiting

variable (hregs : ∀ cb e s, .registered cb e s ∈ p.registrations ev p' →
    p'.group.pipeline.pendingProposals.lookup e.index = some cb)
include hregs

theorem handsOwn_of_handing (hops : ∀ op ∈ ops, op.isHanding = true)
    (hruns : p.group.Runs ops p'.group) : p.HandsOwn ev p' h := by
  obtain ⟨hw', ts, new, hh⟩ := Pipeline.Hands.path (hw.append _) hfits hops hruns
  exact ⟨hw', ts, new, hh, fun cb e s hr => .inl (hregs cb e s hr)⟩

theorem handsOwn_of_replicates {req : AppendEntriesRequest}
    (hok : ∀ e ∈ req.entries, p.group.conflictsWith e = true → p.group.pipeline.WaitsBelow e.index)
    (hops : p.group.replicatesOps req ops) (hruns : p.group.Runs ops p'.group) :
    p.HandsOwn ev p' h := by
  obtain ⟨cut, rest, rfl, rfl | ⟨e, he, hconflict, rfl⟩, hrest⟩ := hops
  · exact handsOwn_of_handing hw hfits hregs
      (fun op hop => Pipeline.handing_of_replicates (hrest op hop)) hruns
  · cases hruns with
    | @cons _ q₁ _ _ _ hn hpath =>
      have hn : p.group.pipeline.next (.truncate e.index) = some q₁ := hn
      have hw₁ := (hw.truncate (hok e he hconflict) hn).append (p.registrations ev p')
      have hfits₁ := hfits.next (show PipeOp.fits (.truncate e.index) from trivial) hn
      obtain ⟨hw', ts, new, hh⟩ := Pipeline.Hands.path hw₁ hfits₁
        (fun op hop => Pipeline.handing_of_replicates (hrest op hop)) hpath
      -- The cut itself hands nothing over.
      cases hn
      exact ⟨hw', ts, new, ⟨hh.queue, hh.moved, hh.bound, hh.made, hh.acts, hh.completed, hh.kept⟩,
        fun cb e s hr => .inl (hregs cb e s hr)⟩

end Waiting

omit hfits in
theorem handsOwn_of_submit {e : LogEntry} {cb : ProposalCallback} {s : Nat × Nat}
    {sessions : List SessionEntry} (hlog : p.group.rep.log.Contiguous)
    (hreg : p'.group.pipeline.acts = p.group.pipeline.acts ++ [.created e] →
      p'.group.pipeline.pendingProposals.lookup e.index = some cb →
      p.registrations ev p' = [.registered cb e s])
    (hn : ({ p.group.pipeline with sessions := sessions } : Pipeline).next (.submit e cb s) =
      some p'.group.pipeline) : p.HandsOwn ev p' h := by
  have hw₀ : ({ p.group.pipeline with sessions := sessions } : Pipeline).Waits
      (p.known ev p' h) := (hw.append _).of_eq rfl rfl rfl
  obtain ⟨hh, hleft⟩ := Pipeline.Hands.submit hw₀ hlog hn
  have hregs := hreg hh.acts hleft
  have hknown : p.known ev p' h cb e s := by
    unfold known
    rw [hregs]
    exact List.mem_cons_self
  refine ⟨hw₀.submit hknown hlog hn, [], _,
    ⟨hh.queue, hh.moved, hh.bound, hh.made, hh.acts, hh.completed, hh.kept⟩, fun cb' e' s' hr => ?_⟩
  rw [hregs] at hr
  cases List.mem_singleton.mp hr
  exact .inl hleft

theorem handsOwn_of_batch {commands : List Bytes} {work : List PipeOp}
    (hok : p.keepsOwn (.proposeBatch commands))
    (hwork : ∀ op ∈ work, RaftGroup.isWork p.group.el.currentTerm op) (hruns : p.group.Runs
      (p.group.pipeline.batchOps p.group.el.currentTerm p.nextCall 0 commands ++ work) p'.group) :
    p.HandsOwn (.proposeBatch commands) p' h := by
  obtain ⟨q₁, hbatch, hpath⟩ := TransitionSystem.Path.split hruns
  have hwork : ∀ op ∈ work, op.isHanding = true :=
    fun op hop => Pipeline.handing_of_isWork (hwork op hop)
  -- The callbacks of the batch, and what was registered before.
  obtain ⟨R, hR⟩ : ∃ R : Registrations, ∀ cb e s, R cb e s ↔
      (∃ k, (p.group.pipeline.batchEntries p.group.el.currentTerm commands)[k]? = some e ∧
        cb = .batch p.nextCall (0 + k) ∧ s = (0, 0)) ∨ .registered cb e s ∈ h :=
    ⟨_, fun _ _ _ => Iff.rfl⟩
  obtain ⟨hw₁, hfits₁, h₁, hlog₁, hwaits⟩ := Pipeline.Hands.batch
    (hw.mono fun cb e s hr => (hR cb e s).mpr (.inr hr)) hfits hok.1 hok.2
    (fun k e hk => (hR _ e _).mpr (.inl ⟨k, hk, rfl, rfl⟩)) hbatch
  obtain ⟨hw', ts, new, h₂⟩ := Pipeline.Hands.path hw₁ hfits₁ hwork hpath
  have hh := h₁.trans h₂ (Pipeline.extends_of_path hwork hpath)
  -- The first entries that the step makes are those of the batch.
  have hmade := Pipeline.created_of_append hh.acts
  rw [List.filterMap_append, List.filterMap_map] at hmade
  have hcreated := hmade.trans (congrArg (· ++ _) List.filterMap_some)
  have hregistered : ∀ {cb e s},
      .registered cb e s ∈ p.registrations (.proposeBatch commands) p' ↔
      ∃ k, (p.group.pipeline.batchEntries p.group.el.currentTerm commands)[k]? = some e ∧
        cb = .batch p.nextCall (0 + k) ∧ s = (0, 0) := by
    intro cb e s
    simp only [registrations]
    rw [hcreated, List.take_left' (Pipeline.batchEntries_length _ _ _), List.mem_map]
    constructor
    · rintro ⟨⟨e', k⟩, hk, heq⟩
      cases heq
      exact ⟨k, List.mem_zipIdx_iff_getElem?.mp hk, by rw [Nat.zero_add], rfl⟩
    · rintro ⟨k, hk, rfl, rfl⟩
      exact ⟨(e, k), List.mem_zipIdx_iff_getElem?.mpr hk, by rw [Nat.zero_add]⟩
  obtain rfl : R = p.known (.proposeBatch commands) p' h := by
    funext cb e s
    refine propext ((hR cb e s).trans ?_)
    rw [← hregistered]
    exact List.mem_append.symm
  refine ⟨hw', _, _, hh, fun cb e s hr => ?_⟩
  obtain ⟨k, hk, rfl, -⟩ := hregistered.mp hr
  refine (h₂.kept _ _ (hwaits k e hk)).imp_right fun hgone => hgone.mono (.refl _) ?_ ?_
  · exact List.subset_append_right _ _
  · exact List.subset_append_right _ _

theorem handsOwn_of_propose {command : Bytes} {sessionId seqNum : Nat}
    (hfresh : ∀ cb e s, .registered cb e s ∈ h → cb.call < p.nextCall)
    (hok : p.group.rep.log.Contiguous)
    (hops : RaftGroup.ProposeRuns (p.group.newEntry command)
      (isDuplicate p.group.app.sessions sessionId seqNum) p.nextCall sessionId seqNum ops)
    (hruns : p.group.Runs ops p'.group) : p.HandsOwn (.propose command sessionId seqNum) p' h := by
  have hreg : ∀ {e}, p'.group.pipeline.acts = p.group.pipeline.acts ++ [.created e] →
      p.registrations (.propose command sessionId seqNum) p' =
        [.registered (.propose p.nextCall) e (sessionId, seqNum)] := by
    intro e hacts
    simp only [registrations]
    rw [Pipeline.created_of_append hacts]
    rfl
  have hunregistered : ∀ {new}, p'.group.pipeline.acts = p.group.pipeline.acts ++ new →
      new.filterMap Act.createdEntry = [] →
      p.registrations (.propose command sessionId seqNum) p' = [] := by
    intro new hacts hnew
    simp only [registrations]
    rw [Pipeline.created_of_append hacts, hnew]
    rfl
  cases hops with
  | refused =>
    refine handsOwn_of_handing hw hfits ?_ (by simp) hruns
    have hsame : p'.group.pipeline.acts = p.group.pipeline.acts ++ [] := by
      rw [TransitionSystem.Path.eq_of_nil hruns, List.append_nil]
    rw [hunregistered hsame rfl]
    intro _ _ _ hmem
    exact absurd hmem List.not_mem_nil
  | plain hs =>
    exact handsOwn_of_submit hw hok (fun hacts _ => hreg hacts) hruns.next
  | @repeated cached hs hdup =>
    cases hruns with
    | cons htouch hruns =>
      cases htouch
      have heq := Option.some.inj hruns.next_single
      have hacts : p'.group.pipeline.acts = p.group.pipeline.acts ++
          [.completed (.propose p.nextCall) cached] := (congrArg Pipeline.acts heq).symm
      have hnone := hunregistered hacts rfl
      refine ⟨(hw.append _).of_eq ?_ ?_ ?_, [], _, .of_acts ?_ ?_ hacts ?_ ?_, ?_⟩
      · rw [← heq]; rfl
      · rw [← heq]; rfl
      · rw [← heq]; rfl
      · rw [← heq]; rfl
      · rw [← heq]; exact le_rfl
      · intro a ha
        refine .inr ⟨_, _, List.mem_singleton.mp ha, .inr fun e s hr => ?_⟩
        -- The call has just begun, so nothing is registered under its number.
        unfold known at hr
        rw [hnone] at hr
        exact lt_irrefl _ (hfresh _ e s hr)
      · rw [← heq]
        exact fun _ _ hcb => .inl hcb
      · rw [hnone]
        intro _ _ _ hmem
        exact absurd hmem List.not_mem_nil
  | first hs hdup =>
    cases hruns with
    | cons htouch hruns =>
      cases htouch
      exact handsOwn_of_submit hw hok (fun hacts _ => hreg hacts) hruns.next_single

theorem handsOwn_of_call {i : Nat} {input : CallInput} {c : Call}
    (hc : p.calls[i]? = some c) (hok : p.keepsOwnCall input c)
    (hfarewell : p.farewells (.run i input) = []) (hops : p.group.callOps input c ops)
    (hcalm : ∀ op ∈ ops, op.isCalm = true) (hruns : p.group.Runs ops p'.group) :
    p.HandsOwn (.run i input) p' h := by
  have hhanding : (∀ op ∈ ops, op.isHanding = true) → p.HandsOwn (.run i input) p' h :=
    fun hops => handsOwn_of_handing hw hfits (fun _ _ _ hr => registrations_run hr) hops hruns
  cases c with
  | follower c =>
    cases c with
    | append reply t req =>
      exact handsOwn_of_replicates hw hfits (fun _ _ _ hr => registrations_run hr) hok hops hruns
    | chunk reply t req =>
      obtain ⟨env, rfl⟩ := hops
      exact hhanding (by simp [PipeOp.isHanding])
    | restore | install =>
      refine hhanding ?_
      rw [show ops = _ from hops] at hcalm ⊢
      revert hcalm
      split <;> simp [PipeOp.isCalm, PipeOp.isHanding]
  | client c =>
    cases c with
    | propose call req =>
      obtain rfl | rfl := hops
      · refine handsOwn_of_submit hw hok (fun hacts hpending => ?_) hruns.next
        simp only [registrations, hc]
        rw [Pipeline.created_of_append hacts]
        simp [Act.createdEntry, hpending]
      · exact hhanding (by simp [PipeOp.isHanding])
    | waiting call req index =>
      obtain rfl := hops
      have hwaits : ¬ input.timedOut = true := by
        intro htimed
        simp [farewells, hc, htimed] at hfarewell
      exact hhanding (by simp [hwaits])
    | finish call req result =>
      obtain ⟨resp, rfl⟩ := hops
      exact hhanding (by simp [PipeOp.isHanding])
  | snapshotResponse peer ok =>
    exact hhanding fun op hop => Pipeline.handing_of_isWork (hops op hop)
  | failProposal index =>
    obtain rfl | rfl := hops <;> exact hhanding (by simp [PipeOp.isHanding])
  | begun b => exact hops.elim

theorem handsOwn_of_calm {calls : List Call} (hids : CallIds p h)
    (hok : p.keepsOwn ev) (hfarewell : p.farewells ev = []) (hops : p.stepOps calls ev ops)
    (hcalm : ∀ op ∈ ops, op.isCalm = true) (hruns : p.group.Runs ops p'.group) :
    p.HandsOwn ev p' h := by
  have hhanding : p.registrations ev p' = [] → (∀ op ∈ ops, op.isHanding = true) →
      p.HandsOwn ev p' h := by
    intro hnone hops
    refine handsOwn_of_handing hw hfits ?_ hops hruns
    rw [hnone]
    intro _ _ _ hmem
    exact absurd hmem List.not_mem_nil
  cases ev with
  | restart | applyTake | applyLoad | applyTask | applyPublish | drain =>
    rw [show ops = _ from hops] at hcalm
    cases hcalm _ List.mem_cons_self
  | crash =>
    obtain rfl : ops = [] := hops
    exact hhanding rfl (by simp)
  | run i input =>
    obtain ⟨c, hc, hops⟩ := hops
    exact handsOwn_of_call hw hfits hc (hok c hc) hfarewell hops hcalm hruns
  | compact index term =>
    obtain rfl | rfl := hops
    · exact hhanding rfl (by simp)
    · have hn := hruns.next
      simp only [Pipeline.next, Option.ite_none_right_eq_some, Bool.and_eq_true,
        decide_eq_true_eq] at hn
      obtain ⟨⟨hnew, hlast⟩, heq⟩ := hn
      have heq := Option.some.inj heq
      have hnone : p'.group.pipeline.WaitsBelow 0 := by
        rw [← heq]
        exact hok hnew hlast
      refine ⟨.of_none hnone, [], [], ?_, fun _ _ _ hr => by cases hr⟩
      rw [← heq]
      exact .of_eq rfl le_rfl rfl rfl
  | clientRequest req =>
    refine hhanding rfl ?_
    cases hops <;> simp [PipeOp.isHanding]
  | propose command sessionId seqNum =>
    exact handsOwn_of_propose hw hfits hids.fresh hok hops hruns
  | proposeBatch commands =>
    obtain rfl | ⟨work, rfl, hwork⟩ := hops
    · refine hhanding ?_ (by simp)
      simp [registrations, Pipeline.created, TransitionSystem.Path.eq_of_nil hruns]
    · exact handsOwn_of_batch hw hfits hok hwork hruns
  | _ => exact hhanding rfl fun op hop => Pipeline.handing_of_isWork (hops op hop)

end HandsOwn

end Process

/-! ## §2 — Every run. -/

namespace Process

/-- What waits, waits for its own entry, and what no longer waits is settled; a task is made of the
entry that was handed over at its index, with what waited for it. -/
structure OwnInv (s : Process × List ProposalEvent) : Prop where
  line : LineInv s.1
  waits : s.1.group.pipeline.Waits (Registered s.2)
  tasks : s.1.group.halt = none → s.1.group.app.thread.stopped = false →
    ∀ t ∈ s.1.group.app.thread.batch ++ s.1.group.app.applyQueue,
      ∃ e, RollingRaft.handed s.2 t.index = some e ∧ t.MadeOf (Registered s.2) e
  ids : CallIds s.1 s.2
  own : CompletesOwn s.2
  accounted : ∀ cb e t, .registered cb e t ∈ sinceRestart s.2 →
    s.1.group.pipeline.pendingProposals.lookup e.index = some cb ∨
      RollingRaft.Settled (sinceRestart s.2) cb e

variable {p p' : Process} {ev : Event} {env : Env} {h : List ProposalEvent} {t : ApplyTask}

theorem OwnInv.task_le (hinv : OwnInv (p, h)) (hup : p.group.halt = none)
    (hrunning : p.group.app.thread.stopped = false)
    (ht : t ∈ p.group.app.thread.batch ++ p.group.app.applyQueue) :
    t.index ≤ p.group.app.lastEnqueued := by
  have hline := hinv.line.line hup hrunning
  have hmem : t.index ∈ List.range' (p.group.pipeline.mark + 1)
      (p.group.pipeline.lastEnqueued - p.group.pipeline.mark) := by
    rw [← hline.indices]
    exact List.mem_map.mpr ⟨t, ht, rfl⟩
  have hlt := (List.mem_range'_1.mp hmem).2
  rw [Nat.add_right_comm, Nat.add_sub_cancel' hline.le] at hlt
  exact Nat.le_of_lt_succ hlt

variable {ts : List ApplyTask} {new : List Act} {input : CallInput} {calls : List Call}
  {ops : List PipeOp}

theorem known_eq (env : Env) :
    p.known ev p' h = Registered (p.proposalEvents (ev, env) p' ++ h) := by
  funext cb e s
  unfold known Registered
  rw [List.mem_append, List.mem_append, mem_events]
  rfl

/-- What a step does that hands the tasks `ts` over and does the acts `new`: what it adds to the
history is made of these, and every callback that waited or is left now waits, is gone, or is given
up; or all are lost. -/
structure Handles (p : Process) (ev : Event) (p' : Process) (h : List ProposalEvent)
    (ts : List ApplyTask) (new : List Act) : Prop where
  waits : p'.group.pipeline.Waits (p.known ev p' h)
  acts : p'.group.pipeline.acts = p.group.pipeline.acts ++ new
  handed : ∀ i e, .handedOver i e ∈ p.group.pipeline.handedOver p'.group.pipeline ↔
    p'.group.pipeline.log.HasAt i e ∧ ∃ t ∈ ts, t.index = i
  made : ∀ t ∈ ts, ∃ e, p'.group.pipeline.log.HasAt t.index e ∧ t.MadeOf (p.known ev p' h) e
  tasks : p'.group.halt = none → p'.group.pipeline.thread.stopped = false →
    ∀ t ∈ p'.group.pipeline.thread.batch ++ p'.group.pipeline.applyQueue, t ∈ ts ∨
      p.group.halt = none ∧ p.group.pipeline.thread.stopped = false ∧
        t ∈ p.group.pipeline.thread.batch ++ p.group.pipeline.applyQueue ∧
        ∀ t' ∈ ts, t'.index ≠ t.index
  accounted : .restarted ∈ p.farewells ev ∧ p.registrations ev p' = [] ∨
    .restarted ∉ p.farewells ev ∧ ∀ cb e s,
      (p.group.pipeline.pendingProposals.lookup e.index = some cb ∨
        .registered cb e s ∈ p.registrations ev p') →
      p'.group.pipeline.pendingProposals.lookup e.index = some cb ∨
        p'.group.pipeline.Gone (p.known ev p' h) ts new e.index cb ∨ .gaveUp cb ∈ p.farewells ev

theorem Handles.handed_now {i : Index} {e : LogEntry} (hh : p.Handles ev p' h ts new) (env : Env)
    (he : p'.group.pipeline.log.HasAt i e) (ht : ∃ t ∈ ts, t.index = i) :
    RollingRaft.handed (p.proposalEvents (ev, env) p' ++ h) i = some e := by
  rw [handed_append, handed_of_mem (mem_events.mpr ((hh.handed i e).mpr ⟨he, ht⟩))]
  · rfl
  · intro e' he'
    exact he.unique ((hh.handed i e').mp (mem_events.mp he')).1

/-- The state after such a step, when what it adds is right. -/
theorem OwnInv.handles (hinv : OwnInv (p, h)) (hstep : p.Step env ev p') (hline : LineInv p')
    (hh : p.Handles ev p' h ts new) (hown : CompletesOwn (p.proposalEvents (ev, env) p' ++ h)) :
    OwnInv (p', p.proposalEvents (ev, env) p' ++ h) := by
  have hids := hinv.ids.step hstep
  refine ⟨hline, known_eq env ▸ hh.waits, fun hup hrunning t ht => ?_, hids, hown, ?_⟩
  · rcases hh.tasks hup hrunning t ht with ht | ⟨hup, hrunning, ht, hnew⟩
    · obtain ⟨e, he, hmade⟩ := hh.made t ht
      exact ⟨e, hh.handed_now env he ⟨t, ht, rfl⟩, known_eq env ▸ hmade⟩
    · obtain ⟨e, he, hmade⟩ := hinv.tasks hup hrunning t ht
      refine ⟨e, ?_, hmade.mono fun _ _ _ hr => List.mem_append_right _ hr⟩
      rw [handed_append_of_not_mem fun e' he' => ?_, he]
      obtain ⟨-, t', ht', hindex⟩ := (hh.handed _ e').mp (mem_events.mp he')
      exact hnew t' ht' hindex
  intro cb e s hr
  have hmem : .registered cb e s ∈ p.proposalEvents (ev, env) p' ++ h :=
    (List.takeWhile_sublist _).subset hr
  rcases hh.accounted with ⟨hlost, hnone⟩ | ⟨hno, hkept⟩
  · -- Nothing was left since the restart.
    have hr := mem_events.mp (sinceRestart_subset (mem_events.mpr hlost) hr)
    have hr : .registered cb e s ∈ p.registrations ev p' := hr
    rw [hnone] at hr
    cases hr
  have hnow : (p.group.pipeline.pendingProposals.lookup e.index = some cb ∨
        .registered cb e s ∈ p.registrations ev p') →
      p'.group.pipeline.pendingProposals.lookup e.index = some cb ∨
        RollingRaft.Settled (p.proposalEvents (ev, env) p') cb e := by
    intro hwaits
    rcases hkept cb e s hwaits with
      hwaits | (⟨t, ht, hindex, e', s', hr', he'⟩ | ⟨result, hdone, hfailed⟩) | hgave
    · exact .inl hwaits
    · rw [known_eq env] at hr'
      obtain rfl := (hids.unique cb e e' s s' hmem hr').1
      exact .inr (.inl (mem_events.mpr ((hh.handed _ e').mpr ⟨he', t, ht, hindex⟩)))
    · refine .inr (.inr (.inl ⟨result, mem_events.mpr ?_, hfailed⟩))
      show _ ∈ p.group.pipeline.newSeen Act.proposalEvent p'.group.pipeline
      rw [Pipeline.newSeen_of_append hh.acts]
      exact List.mem_reverse.mpr (List.mem_filterMap.mpr ⟨_, hdone, rfl⟩)
    · exact .inr (.inr (.inr (mem_events.mpr hgave)))
  rw [sinceRestart_append fun hmem => hno (mem_events.mp hmem)] at hr ⊢
  have hsettled := fun hs : RollingRaft.Settled (p.proposalEvents (ev, env) p') cb e =>
    hs.mono (List.subset_append_left _ (sinceRestart h))
  rcases List.mem_append.mp hr with hr | hr
  · exact (hnow (.inr (mem_events.mp hr))).imp_right hsettled
  · rcases hinv.accounted cb e s hr with hwaits | hold
    · exact (hnow (.inl hwaits)).imp_right hsettled
    · exact .inr (hold.mono (List.subset_append_right _ _))

theorem OwnInv.completes (hinv : OwnInv (p, h)) (hstep : p.Step env ev p')
    (hh : p.Handles ev p' h ts new) (hrecord : p.recordings ev = [])
    (hcompleted : ∀ a ∈ new, p'.group.pipeline.Rightly (p.known ev p' h) ts a)
    (htold : ∀ i e, .overwritten i e ∈ p.overwrites ev p' → p.farewells ev = [] ∧
      (e.index = i → ∀ cb s, .registered cb e s ∈ sinceRestart h → IsFailed h cb)) :
    CompletesOwn (p.proposalEvents (ev, env) p' ++ h) := by
  have hpart : ∀ k, ∀ r ∈ p.eventsOf ev p' k, r.part = k := fun _ _ hr => part_of_mem hr
  have hplain : CompletesOwn (p.farewells ev ++ h) := hinv.own.append_plain rfl (hpart .gone)
  have hcut : CompletesOwn (p.overwrites ev p' ++ (p.farewells ev ++ h)) := by
    refine hplain.append_overwritten (hpart .overwritten) fun i e hover => ?_
    obtain ⟨hnone, htold⟩ := htold i e hover
    rw [hnone]
    exact htold
  have hleft := hcut.append_plain rfl (hpart .left)
  have hpast := hleft.append_plain (l := (p.eventsOf ev p' .handedOver).reverse) rfl
    fun r hr => hpart .handedOver r (List.mem_reverse.mp hr)
  generalize hp : List.reverse _ ++ _ = past at hpast
  have hevents : p.proposalEvents (ev, env) p' ++ h =
      p.group.pipeline.newSeen Act.proposalEvent p'.group.pipeline ++ past := by
    unfold proposalEvents
    rw [hrecord, ← hp]
    simp [eventsOf]
  have hids := hinv.ids.step hstep
  rw [hevents]
  refine hpast.append_acted (hpart .acted) fun cb result hdone hsuccess e s hr => ?_
  have hr : .registered cb e s ∈ p.proposalEvents (ev, env) p' ++ h := by
    rw [hevents]
    exact List.mem_append_right _ hr
  rw [Pipeline.newSeen_of_append hh.acts] at hdone
  obtain ⟨a, ha, heq⟩ := List.mem_filterMap.mp (List.mem_reverse.mp hdone)
  obtain rfl : a = .completed cb result := by cases a <;> cases heq; rfl
  rcases hcompleted _ ha with hsilent | ⟨_, _, ⟨⟩, ⟨e', s', t, ht, hr', hindex, he, hconfig⟩ | hnone⟩
  · simp [Act.isSilent, hsuccess] at hsilent
  · rw [known_eq env] at hr'
    obtain rfl := (hids.unique cb e e' s s' hr hr').1
    obtain ⟨e'', he'', hmade⟩ := hh.made t ht
    refine ⟨?_, .inl (by rw [← he.unique he'', ← hmade.config, hconfig])⟩
    have hnow := hh.handed_now env he ⟨t, ht, rfl⟩
    have hno : ∀ e, .handedOver t.index e ∉
        p.group.pipeline.newSeen Act.proposalEvent p'.group.pipeline :=
      fun _ hmem => by cases hpart .acted _ hmem
    rw [hevents, handed_append_of_not_mem hno] at hnow
    rw [hindex]
    exact hnow
  · rw [known_eq env] at hnone
    exact absurd hr (hnone e s)

theorem OwnInv.calm (hinv : OwnInv (p, h)) (hstep : p.Step env ev p') (hline : LineInv p')
    (hup : p'.group.halt = none → p.group.halt = none) (hrecord : p.recordings ev = [])
    (hfarewell : p.farewells ev = []) (hthread : p'.group.app.thread = p.group.app.thread)
    (htold : ∀ i e, .overwritten i e ∈ p.overwrites ev p' → e.index = i →
      ∀ cb s, .registered cb e s ∈ sinceRestart h → IsFailed h cb)
    (hown : p.HandsOwn ev p' h) :
    OwnInv (p', p.proposalEvents (ev, env) p' ++ h) := by
  obtain ⟨hw, ts, new, hh, hleft⟩ := hown
  have hhandles : p.Handles ev p' h ts new := by
    refine ⟨hw, hh.acts, fun i e => Pipeline.mem_handedOver hh.queue, hh.made, ?_, .inr ⟨?_, ?_⟩⟩
    · intro hup' hrunning t ht
      rw [show p'.group.pipeline.thread = p.group.pipeline.thread from hthread] at hrunning ht
      rw [hh.queue, ← List.append_assoc] at ht
      rcases List.mem_append.mp ht with ht | ht
      · refine .inr ⟨hup hup', hrunning, ht, fun t' ht' heq => ?_⟩
        have hlt := (hh.bound t' ht').1
        rw [heq] at hlt
        exact absurd (hinv.task_le (hup hup') hrunning ht) (not_le.mpr hlt)
      · exact .inl ht
    · rw [hfarewell]
      exact List.not_mem_nil
    · rintro cb e s (hwaits | hr)
      · exact (hh.kept _ cb hwaits).imp_right .inl
      · exact (hleft cb e s hr).imp_right .inl
  exact hinv.handles hstep hline hhandles (hinv.completes hstep hhandles hrecord hh.completed
    fun i e hover => ⟨hfarewell, htold i e hover⟩)

/-- Every callback of `p` still waits in `p'`, or is told of a failure or given up; or all are lost. -/
def Dismisses (p : Process) (ev : Event) (p' : Process) (new : List Act) : Prop :=
  p.farewells ev = [.restarted] ∨ .restarted ∉ p.farewells ev ∧
    ∀ j cb, p.group.pipeline.pendingProposals.lookup j = some cb →
      p'.group.pipeline.pendingProposals.lookup j = some cb ∨
        (∃ result, .completed cb result ∈ new ∧ result.success = false) ∨
        .gaveUp cb ∈ p.farewells ev

theorem Dismisses.of_eq (hfarewell : p.farewells ev = [])
    (hpending : p'.group.pipeline.pendingProposals = p.group.pipeline.pendingProposals) :
    p.Dismisses ev p' new := by
  refine .inr ⟨by rw [hfarewell]; exact List.not_mem_nil, fun j cb hcb => .inl ?_⟩
  rw [hpending]
  exact hcb

/-- The tasks of `p'` are among those of `p`. -/
def TasksFrom (p p' : Process) : Prop :=
  p'.group.halt = none → p'.group.pipeline.thread.stopped = false →
    ∀ t ∈ p'.group.pipeline.thread.batch ++ p'.group.pipeline.applyQueue,
      p.group.halt = none ∧ p.group.pipeline.thread.stopped = false ∧
        t ∈ p.group.pipeline.thread.batch ++ p.group.pipeline.applyQueue

theorem Handles.nothing (hregs : p.registrations ev p' = [])
    (hhanded : p'.group.pipeline.applyQueue.length ≤ p.group.pipeline.applyQueue.length)
    (hacts : p'.group.pipeline.acts = p.group.pipeline.acts ++ new)
    (hkept : p.Dismisses ev p' new) (hw : p'.group.pipeline.Waits (Registered h))
    (htasks : p.TasksFrom p') : p.Handles ev p' h [] new := by
  refine ⟨hw.append _, hacts, fun i e => ?_, List.forall_mem_nil _, fun hup hrunning t ht => ?_, ?_⟩
  · unfold Pipeline.handedOver
    rw [List.drop_eq_nil_of_le hhanded]
    simp
  · obtain ⟨hup, hrunning, ht⟩ := htasks hup hrunning t ht
    exact .inr ⟨hup, hrunning, ht, List.forall_mem_nil _⟩
  rcases hkept with hlost | ⟨hno, hkept⟩
  · exact .inl ⟨by rw [hlost]; exact List.mem_cons_self, hregs⟩
  refine .inr ⟨hno, fun cb e s hwaits => ?_⟩
  rcases hwaits with hwaits | hr
  · exact (hkept _ cb hwaits).imp_right fun hgone => hgone.imp_left .inr
  · rw [hregs] at hr
    cases hr

theorem OwnInv.quiet (hinv : OwnInv (p, h)) (hstep : p.Step env ev p') (hline : LineInv p')
    (hrecord : p.recordings ev = []) (hregs : p.registrations ev p' = [] ∧ p.overwrites ev p' = [])
    (hhanded : p'.group.pipeline.applyQueue.length ≤ p.group.pipeline.applyQueue.length)
    (hacts : p'.group.pipeline.acts = p.group.pipeline.acts ++ new)
    (hsilent : ∀ a ∈ new, a.isSilent = true) (hkept : p.Dismisses ev p' new)
    (hw : p'.group.pipeline.Waits (Registered h)) (htasks : p.TasksFrom p') :
    OwnInv (p', p.proposalEvents (ev, env) p' ++ h) := by
  have hhandles := Handles.nothing hregs.1 hhanded hacts hkept hw htasks
  refine hinv.handles hstep hline hhandles (hinv.completes hstep hhandles hrecord
    (fun a ha => .inl (hsilent a ha)) fun i e hover => ?_)
  rw [hregs.2] at hover
  cases hover

theorem OwnInv.task {result : ApplyResult} (hinv : OwnInv (p, h))
    (hstep : p.Step env (.applyTask result) p') (hline : LineInv p')
    (hn : p.group.pipeline.next (.task result) = some p'.group.pipeline)
    (ht : Pipeline.RunsTask p.group.pipeline result p'.group.pipeline t) :
    OwnInv (p', p.proposalEvents (.applyTask result, env) p' ++ h) := by
  have hup := hstep.wasUp (by simp) (by simp)
  have hmarked : p.group.app.thread.newLastApplied = some p.group.pipeline.mark := ht.marked
  have hbatch : p.group.app.thread.batch = t :: p'.group.app.thread.batch := ht.batch
  have hrunning := (hinv.line.working hmarked).2
  obtain ⟨e, he, hmade⟩ := hinv.tasks hup hrunning t (by rw [hbatch]; exact List.mem_cons_self)
  have hle : ¬ t.index ≤ p.group.pipeline.mark := by
    rw [ht.next]
    exact Nat.not_succ_le_self _
  have hrecord : p.recordings (.applyTask result) =
      if t.isConfigChange || t.sessionId = 0 then [] else [.recorded t.index (t.sessionId, t.seqNum)] := by
    simp only [recordings, hmarked, hbatch]
    simp [hle]
  have hnone : p.group.pipeline.handedOver p'.group.pipeline = [] := by
    unfold Pipeline.handedOver
    rw [ht.queue, List.drop_length]
    rfl
  -- The history is what is recorded, and before it what is done.
  have hevents : p.proposalEvents (.applyTask result, env) p' ++ h =
      p.recordings (.applyTask result) ++
        (p.group.pipeline.newSeen Act.proposalEvent p'.group.pipeline ++ h) := by
    unfold proposalEvents
    rw [hnone]
    simp [registrations, overwrites, farewells]
  have hhandles : p.Handles (.applyTask result) p' h [] _ := .nothing rfl (by rw [ht.queue]) ht.acts
    (.of_eq rfl (by rw [Pipeline.task_frame hn])) (hinv.waits.next rfl hn) fun _ _ t' ht' => by
      rw [ht.queue] at ht'
      refine ⟨hup, hrunning, ?_⟩
      rw [ht.batch]
      exact List.mem_cons_of_mem _ ht'
  refine hinv.handles hstep hline hhandles ?_
  rw [hevents, hrecord]
  have hacts := ht.acts
  by_cases hconfig : t.isConfigChange = true
  · rw [Pipeline.newSeen_of_append hacts]
    simpa [hconfig] using hinv.own
  rw [if_neg hconfig] at hacts
  have hconfig : t.isConfigChange = false := by simpa using hconfig
  -- The entry is applied.
  have happlied : e.index = t.index → IsApplied (.applied t.index t.data :: h) e := by
    intro hindex
    refine ⟨?_, .inr ?_⟩
    · rw [hindex]
      exact he
    · rw [hindex, ← hmade.data hconfig]
      exact List.mem_cons_self
  -- Its callback is completed.
  have hcompleted : CompletesOwn ((t.callback.toList.map fun cb => .completed cb result) ++
      .applied t.index t.data :: h) := by
    refine CompletesOwn.append_acted hinv.own (by simp [ProposalEvent.part]) ?_
    intro cb result' hdone _ e' s' hr'
    obtain ⟨_, hcb, ⟨⟩⟩ := List.mem_map.mp hdone
    obtain ⟨-, hindex, s, hr⟩ := hmade.callback cb (Option.mem_toList.mp hcb)
    have hr' : .registered cb e' s' ∈ h := by simpa using hr'
    obtain rfl := (hinv.ids.unique cb e e' s s' hr hr').1
    exact happlied hindex
  have hseen : p.group.pipeline.newSeen Act.proposalEvent p'.group.pipeline ++ h =
      (t.callback.toList.map fun cb => .completed cb result) ++ .applied t.index t.data :: h := by
    rw [Pipeline.newSeen_of_append hacts]
    cases t.callback <;> rfl
  rw [hseen]
  by_cases hsession : t.sessionId = 0
  · simpa [hsession] using hcompleted
  rw [if_neg (by simp [hconfig, hsession]), List.singleton_append]
  obtain ⟨hindex, cb, hr⟩ := hmade.session hsession
  refine ⟨⟨cb, e, ?_, hindex, (happlied hindex).append (by simp)⟩, hcompleted⟩
  exact List.mem_append_right _ (List.mem_cons_of_mem _ hr)

theorem keepsLine_of_keepsOwn (hok : p.keepsOwn ev) : p.keepsLine ev := by
  cases ev with
  | restart recovered => exact hok
  | run i input =>
    intro reply t received hc hnew
    obtain ⟨hi, hidle, -⟩ := hok _ hc hnew
    exact ⟨hi, hidle⟩
  | _ => trivial

theorem Touches.keepsOwn {op : PipeOp} (htouch : p.Touches ev op) (hinv : OwnInv (p, h))
    (hok : p.keepsOwn ev) (hstep : p.Step env ev p')
    (hn : p.group.pipeline.next op = some p'.group.pipeline) :
    OwnInv (p', p.proposalEvents (ev, env) p' ++ h) := by
  have hline := hinv.line.step (keepsLine_of_keepsOwn hok) hstep
  cases htouch with
  | restart recovered =>
    have heq : p.group.pipeline.boot recovered = p'.group.pipeline := Option.some.inj hn
    obtain ⟨hacts, hthread, hqueue, -, -, -⟩ :=
      p.group.pipeline.bootSnapshot_fields recovered.snapshot
    have hacts' : p'.group.pipeline.acts = p.group.pipeline.acts := by
      rw [← heq]
      exact hacts
    have hqueue' : p'.group.pipeline.applyQueue = [] := by
      rw [← heq]
      exact hqueue
    refine hinv.quiet hstep hline rfl ⟨rfl, rfl⟩ (by rw [hqueue']; exact Nat.zero_le _)
      (by rw [hacts', List.append_nil]) (List.forall_mem_nil _) (.inl rfl) ?_ ?_
    · refine .of_none ?_
      rw [← heq]
      show (Pipeline.bootSnapshot _ _).WaitsBelow 0
      cases recovered.snapshot <;> exact ⟨nofun, nofun⟩
    · intro _ _ t ht
      have hthread' : p'.group.pipeline.thread = {} := by
        rw [← heq]
        exact hthread
      rw [hthread', hqueue'] at ht
      cases ht
  | take =>
    have hup := hstep.wasUp (by simp) (by simp)
    obtain ⟨-, hrunning, heq⟩ := Pipeline.take_cases hn
    refine hinv.quiet hstep hline rfl ⟨rfl, rfl⟩ ?_ (by rw [heq, List.append_nil])
      (List.forall_mem_nil _) (.of_eq rfl (by rw [heq])) (hinv.waits.next rfl hn) ?_
    · rw [heq]
      exact (List.drop_sublist _ _).length_le
    · intro _ _ t ht
      rw [heq, List.take_append_drop] at ht
      exact ⟨hup, hrunning, List.mem_append_right _ ht⟩
  | load =>
    have hup := hstep.wasUp (by simp) (by simp)
    obtain ⟨hworking, -, heq⟩ := Pipeline.load_cases hn
    refine hinv.quiet hstep hline rfl ⟨rfl, rfl⟩ (by rw [heq])
      (by rw [heq, List.append_nil]) (List.forall_mem_nil _) (.of_eq rfl (by rw [heq]))
      (hinv.waits.next rfl hn) ?_
    intro _ hrunning t ht
    rw [heq] at hrunning ht
    exact ⟨hup, hrunning, ht⟩
  | task result =>
    obtain ⟨t, ht, -⟩ := hinv.line.task (hstep.wasUp (by simp) (by simp)) hn
    exact hinv.task hstep hline hn ht
  | publish =>
    have hup := hstep.wasUp (by simp) (by simp)
    obtain ⟨last, hlast, hbatch, heq⟩ := Pipeline.publish_cases hn
    refine hinv.quiet hstep hline rfl ⟨rfl, rfl⟩ (by rw [heq])
      (by rw [heq, List.append_nil]) (List.forall_mem_nil _) (.of_eq rfl (by rw [heq]))
      (hinv.waits.next rfl hn) ?_
    intro _ _ t ht
    rw [heq] at ht
    exact ⟨hup, (hinv.line.working hlast).2, List.mem_append_right _ ht⟩
  | drain =>
    obtain ⟨-, heq⟩ := Pipeline.drain_cases hn
    refine hinv.quiet hstep hline rfl ⟨rfl, rfl⟩ (by rw [heq]; exact Nat.zero_le _)
      (congrArg Pipeline.acts heq) ?_ (.inr ⟨nofun, ?_⟩) (hinv.waits.next rfl hn) ?_
    · intro a ha
      obtain ⟨cb, -, rfl⟩ := List.mem_map.mp ha
      rfl
    · intro j cb hcb
      refine .inr (.inl ⟨_, List.mem_map.mpr ⟨cb, List.mem_append_right _ ?_, rfl⟩, rfl⟩)
      exact List.mem_map.mpr ⟨⟨j, cb⟩, AList.mem_lookup_iff.mp hcb, rfl⟩
    · intro _ hrunning
      rw [heq] at hrunning
      cases hrunning
  | @restore i input reply t received hc hrestored =>
    have hup := hstep.wasUp (by simp) (by simp)
    have heq := Option.some.inj hn
    have hacts : p'.group.pipeline.acts = p.group.pipeline.acts ++
        [.restored received.index received.term received.data] := (congrArg Pipeline.acts heq).symm
    refine hinv.quiet hstep hline rfl ⟨by simp [registrations, hc], by simp [overwrites, hc]⟩
      (by rw [← heq]; exact le_rfl)
      hacts (by simp [Act.isSilent]) (.of_eq (by simp [farewells, hc]) (by rw [← heq]; rfl))
      (hinv.waits.next rfl hn) ?_
    intro _ hrunning t ht
    rw [← heq] at hrunning ht
    exact ⟨hup, hrunning, ht⟩
  | @install i input reply t received hc hnew =>
    obtain ⟨-, hidle, hnone⟩ := hok _ hc hnew
    have heq := Pipeline.install_cases hn
    refine hinv.quiet hstep hline rfl ⟨by simp [registrations, hc], by simp [overwrites, hc]⟩
      (by rw [heq]; exact Nat.zero_le _) (by rw [heq, List.append_nil]) (List.forall_mem_nil _)
      (.of_eq (by simp [farewells, hc]) (by rw [heq])) ?_ ?_
    · refine .of_none ?_
      rw [heq]
      exact hnone
    · intro _ _ t ht
      have hbatch : p.group.pipeline.thread.batch = [] := (hinv.line.idle hidle).1
      rw [heq] at ht
      rw [hbatch] at ht
      cases ht

variable {e : LogEntry}

/-- What a request overwrites stands at or above an entry that it conflicts with. -/
theorem overwritten_ge {i : Nat} {j : Index}
    (hops : p.stepOps calls (.run i input) ops) (hruns : p.group.Runs ops p'.group)
    (hover : .overwritten j e ∈ p.overwrites (.run i input) p') :
    ∃ reply t req, p.calls[i]? = some (.follower (.append reply t req)) ∧
      ∃ e₀ ∈ req.entries, p.group.conflictsWith e₀ = true ∧ e₀.index ≤ j := by
  obtain ⟨c, hc, hops⟩ := hops
  simp only [overwrites, hc] at hover
  split at hover
  case h_2 => cases hover
  case h_1 reply t req heq =>
    cases heq
    refine ⟨reply, t, req, hc, ?_⟩
    obtain ⟨⟨e', k⟩, hk, heq⟩ := List.mem_map.mp hover
    cases heq
    obtain ⟨hslot, hgone⟩ := List.mem_filter.mp hk
    have he : p.group.pipeline.log.HasAt (p.group.pipeline.log.startIndex + k) e' := by
      refine ⟨Nat.le_add_right _ _, ?_⟩
      rw [Nat.add_sub_cancel_left]
      exact List.mem_zipIdx_iff_getElem?.mp hslot
    have hgone : ∀ {l : RaftLog}, l.startIndex = p.group.pipeline.log.startIndex →
        l.HasAt (p.group.pipeline.log.startIndex + k) e' → ¬ l.Extends p'.group.pipeline.log := by
      intro l hstart he hext
      have he' := (he.extends hext).2
      rw [hext.1, hstart, Nat.add_sub_cancel_left] at he'
      exact of_decide_eq_true hgone he'
    obtain ⟨cut, rest, rfl, rfl | ⟨e₀, he₀, hconflict, rfl⟩, hrest⟩ := hops
    · exact absurd (Pipeline.extends_of_path
        (fun op hop => Pipeline.handing_of_replicates (hrest op hop)) hruns) (hgone rfl he)
    · refine ⟨e₀, he₀, hconflict, not_lt.mp fun hlt => ?_⟩
      cases hruns with
      | @cons _ q₁ _ _ _ hn hpath =>
        cases hn
        refine hgone ?_ (he.truncate hlt) (Pipeline.extends_of_path
          (fun op hop => Pipeline.handing_of_replicates (hrest op hop)) hpath)
        show (RaftLog.truncateSuffix _ _).startIndex = _
        unfold RaftLog.truncateSuffix
        split
        · rfl
        · split <;> rfl

theorem farewells_cases (hrestart : ∀ recovered, ev ≠ .restart recovered)
    (hfarewell : p.farewells ev ≠ []) : ∃ i input call req index, ev = .run i input ∧
      p.calls[i]? = some (.client (.waiting call req index)) ∧ input.timedOut = true := by
  cases ev with
  | restart recovered => exact absurd rfl (hrestart recovered)
  | run i input =>
    simp only [farewells] at hfarewell
    split at hfarewell
    · rename_i call req index hc
      split at hfarewell
      · exact ⟨i, input, call, req, index, rfl, hc, ‹_›⟩
      · exact absurd rfl hfarewell
    · exact absurd rfl hfarewell
  | _ => exact absurd rfl hfarewell

/-- A call that stops waiting takes its callback along. -/
theorem OwnInv.giveUp {i : Nat} {call : Nat} {req : ClientRequest} {index : Index}
    (hinv : OwnInv (p, h)) (hstep : p.Step env (.run i input) p') (hline : LineInv p')
    (hok : p.keepsOwn (.run i input))
    (hc : p.calls[i]? = some (.client (.waiting call req index))) (htimed : input.timedOut = true)
    (hops : p.stepOps calls (.run i input) ops) (hruns : p.group.Runs ops p'.group) :
    OwnInv (p', p.proposalEvents (.run i input, env) p' ++ h) := by
  obtain ⟨c, hc', hops⟩ := hops
  cases hc.symm.trans hc'
  obtain rfl : ops = [.forget index] := by
    have hops : ops = if input.timedOut then [.forget index] else [] := hops
    rw [hops, if_pos htimed]
  have hn := hruns.next
  have heq := Option.some.inj hn
  have hfarewell : p.farewells (.run i input) = [.gaveUp (.client call)] := by
    simp [farewells, hc, htimed]
  refine hinv.quiet hstep hline rfl ⟨by simp [registrations, hc], by simp [overwrites, hc]⟩
    (by rw [← heq]) (by rw [← heq, List.append_nil]) (List.forall_mem_nil _)
    (.inr ⟨by simp [hfarewell], ?_⟩) (hinv.waits.next rfl hn) ?_
  · intro j cb hcb
    rw [hfarewell, ← heq]
    by_cases hj : j = index
    · rw [hj] at hcb
      rw [hok _ hc htimed cb hcb]
      exact .inr (.inr List.mem_cons_self)
    · exact .inl ((AList.lookup_erase_ne hj).trans hcb)
  · intro hup hrunning t ht
    rw [← heq] at hrunning ht
    exact ⟨hstep.wasUp (by simp) (by simp), hrunning, ht⟩

/-- Since the process started nothing at or above index `i` was handed over, and no call gave up there. -/
def freeFrom (h : List ProposalEvent) (i : Index) : Bool :=
  (sinceRestart h).all fun
    | .handedOver j _ => j < i
    | .registered cb e _ => e.index < i || decide (.gaveUp cb ∉ sinceRestart h)
    | _ => true

/-- A request cuts off nothing that was handed over, or that a call gave up waiting for. -/
def keepsTold (p : Process) (h : List ProposalEvent) : Call → Prop
  | .follower (.append _ _ req) =>
    ∀ e ∈ req.entries, p.group.conflictsWith e = true → freeFrom h e.index = true
  | _ => True

def keepsProposals (s : Process × List ProposalEvent) (ev : Event) : Prop :=
  s.1.keepsOwn ev ∧ match ev with
    | .run i _ => ∀ c ∈ s.1.calls[i]?, s.1.keepsTold s.2 c
    | _ => True

/-- A callback whose entry is overwritten has been told. -/
theorem OwnInv.told (hinv : OwnInv (p, h)) (hok : keepsProposals (p, h) ev)
    (hops : p.stepOps calls ev ops) (hruns : p.group.Runs ops p'.group) {i : Index}
    (hover : .overwritten i e ∈ p.overwrites ev p') (hi : e.index = i) {cb : ProposalCallback}
    {s : Nat × Nat} (hr : .registered cb e s ∈ sinceRestart h) : IsFailed h cb := by
  cases ev with
  | run k input =>
    obtain ⟨reply, t, req, hc, e₀, he₀, hconflict, hle⟩ := overwritten_ge hops hruns hover
    have hbelow : p.group.pipeline.WaitsBelow e₀.index := hok.1 _ hc e₀ he₀ hconflict
    have hfree : freeFrom h e₀.index = true := hok.2 _ hc e₀ he₀ hconflict
    have hfree := List.all_eq_true.mp hfree
    subst hi
    rcases hinv.accounted cb e s hr with
      hwaits | hhanded | ⟨result, hmem, hfailed⟩ | hgave
    · exact absurd (hbelow.pending hwaits) (not_lt.mpr hle)
    · exact absurd (of_decide_eq_true (hfree _ hhanded)) (not_lt.mpr hle)
    · exact ⟨result, (List.takeWhile_sublist _).subset hmem, hfailed⟩
    · have hgave : .gaveUp cb ∈ sinceRestart h := hgave
      have hlt : e.index < e₀.index := by simpa [hgave] using hfree _ hr
      exact absurd hlt (not_lt.mpr hle)
  | _ => cases hover

theorem OwnInv.step {s s' : Process × List ProposalEvent} {e : Event × Env} {opts : Options}
    (hinv : OwnInv s) (hok : keepsProposals s e.1)
    (hn : ((system opts).recording proposalEvents).next s e = some s') : OwnInv s' := by
  obtain ⟨p, h⟩ := s
  obtain ⟨p', h'⟩ := s'
  obtain ⟨ev, env⟩ := e
  obtain ⟨hnext, hh⟩ := TransitionSystem.recording_next hn
  obtain rfl : h' = p.proposalEvents (ev, env) p' ++ h := hh
  have hstep : p.Step env ev p' := step_of_next hnext
  obtain ⟨calls, ops, -, hops, hruns, -⟩ := hstep.runs
  rcases stepOps_calm hops with ⟨hcuts, hmarks⟩ | ⟨op, rfl, htouch⟩
  · have hcalm := hcuts.calm
    have hline := hinv.line.step (keepsLine_of_keepsOwn hok.1) hstep
    have hrestart : ∀ recovered, ev ≠ .restart recovered := by
      rintro recovered rfl
      cases hmarks
    have hrecord : p.recordings ev = [] := by
      cases ev with
      | applyTask result =>
        rw [show ops = _ from hops] at hcalm
        cases hcalm _ List.mem_cons_self
      | _ => rfl
    have hthread := (Pipeline.Calm.of_path hcalm hruns).thread
    by_cases hfarewell : p.farewells ev = []
    · exact hinv.calm hstep hline (hstep.up hrestart) hrecord hfarewell hthread
        (fun i e hover hi cb s hr => hinv.told hok hops hruns hover hi hr)
        (handsOwn_of_calm hinv.waits hinv.line.fits hinv.ids hok.1 hfarewell hops hcalm hruns)
    -- A call stops waiting.
    obtain ⟨i, input, call, req, index, rfl, hc, htimed⟩ := farewells_cases hrestart hfarewell
    exact hinv.giveUp hstep hline hok.1 hc htimed hops hruns
  · exact htouch.keepsOwn hinv hok.1 hstep hruns.next

end Process

def proposalSystem (opts : Options) :
    TransitionSystem (Process × List ProposalEvent) (Event × Env) :=
  (Process.system opts).recording Process.proposalEvents

theorem proposalSystem_init (opts : Options) :
    (proposalSystem opts).init (Process.initial opts, []) := ⟨rfl, rfl⟩

/-- **Completions are those of their entries.** In every run that cuts off no entry something waits
for, that was handed over or that a call gave up waiting for, a callback is completed with success
only when its own entry is the one applied, a result is recorded only for the session whose command
was applied, and the callback of an entry that is overwritten has been called with
`success = false`. -/
theorem completes_own_entries {opts : Options} {s : Process × List ProposalEvent}
    (h : (proposalSystem opts).ReachableWith (fun s e => Process.keepsProposals s e.1) s) :
    CompletesOwn s.2 := by
  have hinv : Process.OwnInv s := by
    refine h.invariant ?_ ?_
    · rintro ⟨p, h⟩ ⟨rfl, rfl⟩
      exact ⟨Process.lineInv_initial opts, ⟨nofun, nofun⟩, nofun,
        ⟨nofun, nofun, Nat.zero_le _, nofun⟩, trivial, nofun⟩
    · intro s e s' hinv hok hn
      exact hinv.step hok hn
  exact hinv.own

/-! ## §3 — The entry of another leader. -/

section Decidable

instance (l : RaftLog) : Decidable l.Contiguous :=
  decidable_of_iff (0 < l.startIndex ∧ l.startIndex + l.entries.length < 2 ^ 32 ∧
      ∀ x ∈ l.entries.zipIdx, x.1.index = l.startIndex + x.2) <| by
    simp only [RaftLog.Contiguous, Prod.forall, List.mem_zipIdx_iff_getElem?]
    grind

instance (q : Pipeline) (i : Index) : Decidable (q.WaitsBelow i) :=
  inferInstanceAs (Decidable (_ ∧ _))

instance (p : Process) (input : CallInput) (c : Call) : Decidable (p.keepsOwnCall input c) := by
  unfold Process.keepsOwnCall
  split <;> infer_instance

instance (p : Process) (ev : Event) : Decidable (p.keepsOwn ev) := by
  cases_type Event <;> dsimp only [Process.keepsOwn] <;> infer_instance

instance (p : Process) (h : List ProposalEvent) (c : Call) : Decidable (p.keepsTold h c) := by
  unfold Process.keepsTold
  split <;> infer_instance

instance (s : Process × List ProposalEvent) (ev : Event) :
    Decidable (Process.keepsProposals s ev) := by
  cases_type Event <;> dsimp only [Process.keepsProposals] <;> infer_instance

end Decidable

/-- Node 1 is elected in term 1 and `Propose` appends an entry for a session. -/
def leaderProposes : List (Event × Env) :=
  [ (.restart {}, { now := 0 }), (.electionTick, { now := 1000 }),
    (.response 2 (.vote 1) (.vote ⟨1, true⟩), { now := 1000 }), (.resume, { now := 1000 }),
    (.propose [10] 5 1, { now := 1001 }) ]

/-- The apply thread runs one task. -/
def oneTaskApplied : List (Event × Env) :=
  [ (.applyTake, { now := 1003 }), (.applyLoad, { now := 1003 }),
    (.applyTask { success := true, response := [1] }, { now := 1003 }) ]

/-- The leader of term 2 has committed another entry at index 1 and sends it. -/
def otherEntryArrives : List (Event × Env) :=
  let entry : AppendEntriesRequest :=
    { term := 2, leaderId := 2, prevLogIndex := 0, prevLogTerm := 0, entries := [⟨1, 2, [20]⟩]
      leaderCommit := 1 }
  [ (.request ⟨2, .append false 0⟩ (.appendEntries entry), { now := 1002 }),
    (.resume, { now := 1002 }), (.run 0 {}, { now := 1002 }) ]

/-- The callback left for `[10]` gets the result of `[20]`, which is recorded for its session. -/
def otherEntryEvents : List ProposalEvent :=
  [ .recorded 1 (5, 1), .completed (.propose 5) { success := true, response := [1] },
    .applied 1 [20], .handedOver 1 ⟨1, 2, [20]⟩, .overwritten 1 ⟨1, 1, [10]⟩,
    .registered (.propose 5) ⟨1, 1, [10]⟩ (5, 1), .restarted ]

/-- A reachable history in which the callback of an overwritten entry is never told, but called with
the success of the entry that took its place; the result goes to the wrong session. -/
theorem completes_other_entry :
    ∃ s, (proposalSystem votingOne).Reachable s ∧ s.2 = otherEntryEvents ∧ ¬ CompletesOwn s.2 := by
  obtain ⟨s, hreach, hends⟩ := (proposalSystem votingOne).reaches
    (leaderProposes ++ otherEntryArrives ++ oneTaskApplied) (proposalSystem_init _)
    (P := fun s => s.2 = otherEntryEvents) (by decide +kernel)
  refine ⟨s, hreach, hends, ?_⟩
  rw [hends]
  rintro ⟨-, hcompleted, -⟩
  have happlied := hcompleted rfl ⟨1, 1, [10]⟩ (5, 1) (by decide)
  exact absurd happlied.1 (by decide)

/-- Node 2 acknowledges the entry of node 1. -/
def ownEntryAcknowledged : List (Event × Env) :=
  let ack : AppendEntriesResponse := { term := 1, success := true, entriesCount := 1 }
  [ (.persisted 1 true, { now := 1002 }),
    (.response 2 (.append false 3) (.append ack), { now := 1002 }) ]

theorem ownEntry_completes :
    ∃ s, (proposalSystem votingOne).ReachableWith (fun s e => Process.keepsProposals s e.1) s ∧
      .recorded 1 (5, 1) ∈ s.2 ∧
      .completed (.propose 5) { success := true, response := [1] } ∈ s.2 ∧ CompletesOwn s.2 := by
  obtain ⟨s, hreach, hrecorded, hcompleted⟩ := (proposalSystem votingOne).reachesWith
    (fun s e => Process.keepsProposals s e.1) (leaderProposes ++ ownEntryAcknowledged ++ oneTaskApplied)
    (proposalSystem_init _) (P := fun s => .recorded 1 (5, 1) ∈ s.2 ∧
      .completed (.propose 5) { success := true, response := [1] } ∈ s.2) (by decide +kernel)
  exact ⟨s, hreach, hrecorded, hcompleted, completes_own_entries hreach⟩

end RollingRaft
