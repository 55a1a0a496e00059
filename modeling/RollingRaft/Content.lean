/-
# RollingRaft.Content — what the state machine holds.

A replica's state machine should hold what the commands of the committed log up to `last_applied_`
make of it. The apply thread works towards that, one index after the other. A received snapshot
replaces the content at once, in phase 2b and without a lock; only phase 2c finds out that a newer
snapshot or commit has overtaken it, and then leaves `last_applied_` where it is. So a complete
transfer of an old snapshot takes the content back.

`upTo` is the abstract content and `content` what the acts of a node make of it.
-/
import RollingRaft.ApplyLine
import RollingRaft.ReceivedSnapshots

namespace RollingRaft

open Lib

/-! ## §1 — State machines. -/

/-- The state machine of a user. `apply` and `restore` are deterministic; a restore that fails leaves
the state as it was. -/
structure StateMachine (σ : Type*) where
  init : σ
  apply : σ → Bytes → Index → σ
  restore : Bytes → σ

/-- What happens to a state machine. -/
inductive MachineEvent where
  | started (recovered : Recovered)
  | applied (index : Index) (data : Bytes)
  | restored (data : Bytes)
  deriving DecidableEq

namespace StateMachine

variable {σ : Type*} (sm : StateMachine σ)

/-- The content after the commands at indices `1..n` of the committed log, each applied once and in
order; configuration changes are none of them. -/
def upTo (committed : Index → Bytes) : Nat → σ
  | 0 => sm.init
  | n + 1 =>
    if isConfigChange (committed (n + 1)) then upTo committed n
    else sm.apply (upTo committed n) (committed (n + 1)) (n + 1)

/-- The content that a restarting node begins with. -/
def recover (recovered : Recovered) : σ :=
  if recovered.snapshot.isSome then sm.restore recovered.snapshotData else sm.init

/-- The content after a history, the latest event first. -/
def content : List MachineEvent → σ
  | [] => sm.init
  | .started recovered :: _ => sm.recover recovered
  | .applied i data :: past => sm.apply (content past) data i
  | .restored data :: _ => sm.restore data

end StateMachine

def Act.machineEvent : Act → Option MachineEvent
  | .applied i data _ => some (.applied i data)
  | .restored _ _ data => some (.restored data)
  | _ => none

theorem machineEvent_of_applyEvent {a : Act} (h : a.applyEvent = none) : a.machineEvent = none := by
  cases a <;> first | rfl | cases h

/-! ## §2 — Runs. -/

/-- The task is made of the committed log's entry at its index. -/
def ApplyTask.Agrees (committed : Index → Bytes) (t : ApplyTask) : Prop :=
  t.isConfigChange = RollingRaft.isConfigChange (committed t.index) ∧
    (t.isConfigChange = false → t.data = committed t.index)

namespace Process

variable {σ : Type*} (sm : StateMachine σ) (committed : Index → Bytes)

/-- What a step adds to the history of the state machine. -/
def machineEvents (p : Process) (e : Event × Env) (p' : Process) : List MachineEvent :=
  p.group.pipeline.newSeen Act.machineEvent p'.group.pipeline ++ match e.1 with
    | .restart recovered => [.started recovered]
    | _ => []

/-- A snapshot holds what it says and is not restored while a batch is in hand; when its
installation comes, no newer commit or snapshot has overtaken it. -/
def keepsContentCall (p : Process) (input : CallInput) : Call → Prop
  | .follower (.restore _ _ received) =>
    input.restored = true → p.group.app.thread.working = false ∧
      sm.restore received.data = sm.upTo committed received.index
  | .follower (.install _ _ received) =>
    received.index < 2 ^ 32 ∧ ¬ p.group.skipsInstall received
  | _ => True

/-- The tasks that are run are made of the committed log; snapshots hold what they say; none is
restored while a batch is in hand, no batch is taken before it is installed, and when its turn comes
no newer commit or snapshot has overtaken it. -/
def keepsContent (p : Process) : Event → Prop
  | .restart recovered =>
    recovered.fits ∧
      sm.recover recovered = sm.upTo committed ((recovered.snapshot.map (·.1)).getD 0)
  | .applyTake => ∀ c ∈ p.calls, c.installs = false
  | .applyTask _ => ∀ t ∈ p.group.app.thread.batch.head?, t.Agrees committed
  | .run i input => ∀ c ∈ p.calls[i]?, p.keepsContentCall sm committed input c
  | _ => True

section Decidable

variable [DecidableEq σ]

instance (t : ApplyTask) : Decidable (t.Agrees committed) := inferInstanceAs (Decidable (_ ∧ _))

instance (p : Process) (input : CallInput) (c : Call) :
    Decidable (p.keepsContentCall sm committed input c) := by
  rcases c with c | c | c | c | c
  · cases c <;> dsimp only [keepsContentCall] <;> infer_instance
  all_goals exact inferInstanceAs (Decidable True)

instance (p : Process) (ev : Event) : Decidable (p.keepsContent sm committed ev) := by
  cases ev <;> dsimp only [keepsContent] <;> infer_instance

end Decidable

/-- The content is that of the committed log up to the mark, or up to the snapshot that has been
restored and not yet installed. -/
structure ContentInv (s : Process × List MachineEvent) : Prop where
  line : LineInv s.1
  one : OneRestore s.1
  settled : (∀ c ∈ s.1.calls, c.installs = false) →
    sm.content s.2 = sm.upTo committed s.1.group.pipeline.mark
  pending : ∀ reply t received, .follower (.install reply t received) ∈ s.1.calls →
    s.1.group.app.thread.working = false ∧ sm.content s.2 = sm.upTo committed received.index

variable {sm committed} {p p' : Process} {ev : Event} {env : Env} {h : List MachineEvent}

theorem Step.keeps_calls {c : Call} (hstep : p.Step env ev p') (hc : c ∈ p.calls) :
    c ∈ p'.calls ∨ (∃ recovered, ev = .restart recovered) ∨
      ∃ i input, ev = .run i input ∧ p.calls[i]? = some c := by
  cases hstep with
  | @restart recovered down => exact .inr (.inl ⟨recovered, rfl⟩)
  | crash => exact .inl hc
  | resume | event => exact .inl (List.mem_append_left _ hc)
  | @run i input c' o up hi free ho =>
    obtain ⟨j, hj, rfl⟩ := List.mem_iff_getElem.mp hc
    by_cases hij : j = i
    · subst hij
      exact .inr (.inr ⟨j, input, rfl, List.getElem?_eq_getElem hj⟩)
    · exact .inl (List.mem_append_left _ (List.mem_eraseIdx_iff_getElem.mpr ⟨j, hj, hij, rfl⟩))

/-- The step does not finish a restoration. -/
def leavesInstalls (p : Process) (ev : Event) : Prop :=
  (∀ recovered, ev ≠ .restart recovered) ∧
    ∀ i input c, ev = .run i input → p.calls[i]? = some c →
      c.installs = false ∧
        ∀ reply t received, c = .follower (.restore reply t received) → input.restored = false

theorem Step.installs_iff (hstep : p.Step env ev p') (hleaves : p.leavesInstalls ev) {c : Call}
    (hc : c.installs = true) : c ∈ p'.calls ↔ c ∈ p.calls := by
  constructor
  · intro hmem
    obtain ⟨reply, t, received, rfl⟩ := Call.eq_install hc
    rcases (hstep.installs hmem).2 with hmem | ⟨i, input, rfl, hrestored, hi⟩
    · exact hmem
    · have hfailed := (hleaves.2 i input _ rfl hi).2 reply t received rfl
      rw [hfailed] at hrestored
      cases hrestored
  · intro hmem
    rcases hstep.keeps_calls hmem with hmem | ⟨recovered, rfl⟩ | ⟨i, input, rfl, hi⟩
    · exact hmem
    · exact absurd rfl (hleaves.1 recovered)
    · rw [(hleaves.2 i input c rfl hi).1] at hc
      cases hc

/-- A step that leaves content and mark alone. -/
theorem ContentInv.keep {h' : List MachineEvent} (hinv : ContentInv sm committed (p, h))
    (hstep : p.Step env ev p') (hleaves : p.leavesInstalls ev)
    (hcontent : sm.content h' = sm.content h)
    (hmark : p'.group.pipeline.mark = p.group.pipeline.mark)
    (hworking : (∃ c ∈ p.calls, c.installs = true) → p.group.app.thread.working = false →
      p'.group.app.thread.working = false) (hline : LineInv p') :
    ContentInv sm committed (p', h') where
  line := hline
  one := hinv.one.step hstep
  settled hnone := by
    rw [hcontent, hmark]
    refine hinv.settled fun c hc => ?_
    by_contra hinstalls
    have hinstalls : c.installs = true := by simpa using hinstalls
    have hfalse := hnone c ((hstep.installs_iff hleaves hinstalls).mpr hc)
    rw [hfalse] at hinstalls
    cases hinstalls
  pending reply t received hmem := by
    have hmem : .follower (.install reply t received) ∈ p.calls :=
      (hstep.installs_iff hleaves rfl).mp hmem
    obtain ⟨hidle, hupto⟩ := hinv.pending reply t received hmem
    exact ⟨hworking ⟨_, hmem, rfl⟩ hidle, hcontent.trans hupto⟩

theorem machineEvents_of_silent {new : List Act}
    (hacts : p'.group.pipeline.acts = p.group.pipeline.acts ++ new)
    (hnew : ∀ a ∈ new, a.machineEvent = none) (hrestart : ∀ recovered, ev ≠ .restart recovered) :
    p.machineEvents (ev, env) p' = [] := by
  unfold machineEvents
  rw [Pipeline.newSeen_of_silent hacts hnew]
  cases ev with
  | restart recovered => exact absurd rfl (hrestart recovered)
  | _ => rfl

theorem machineEvents_of_eq (hacts : p'.group.pipeline.acts = p.group.pipeline.acts)
    (hrestart : ∀ recovered, ev ≠ .restart recovered) : p.machineEvents (ev, env) p' = [] := by
  have hnone : p'.group.pipeline.acts = p.group.pipeline.acts ++ [] := by simpa using hacts
  exact machineEvents_of_silent hnone (by simp) hrestart

variable {ops : List PipeOp} {reply : ReplyTo} {t : Term} {received : ReceivedSnapshot}
  {input : CallInput}

theorem ContentInv.calm (hinv : ContentInv sm committed (p, h)) (hstep : p.Step env ev p')
    (hleaves : p.leavesInstalls ev) (hline : LineInv p') (hcalm : ∀ op ∈ ops, op.isCalm = true)
    (hruns : p.group.Runs ops p'.group) :
    ContentInv sm committed (p', p.machineEvents (ev, env) p' ++ h) := by
  have hc := Pipeline.Calm.of_path hcalm hruns
  obtain ⟨new, hacts, hnew⟩ := hc.acts
  have hthread : p'.group.app.thread = p.group.app.thread := hc.thread
  rw [machineEvents_of_silent hacts (fun a ha => machineEvent_of_applyEvent (hnew a ha)) hleaves.1]
  refine hinv.keep hstep hleaves rfl hc.mark ?_ hline
  rw [hthread]
  exact fun _ hidle => hidle

/-- While the thread works no snapshot waits for its installation. -/
theorem ContentInv.no_call (hinv : ContentInv sm committed (p, h))
    (hworking : p.group.app.thread.working = true) : ∀ c ∈ p.calls, c.installs = false := by
  intro c hc
  by_contra hinstalls
  obtain ⟨reply, t, received, rfl⟩ := Call.eq_install (by simpa using hinstalls)
  have hidle : p.group.app.thread.working = false := (hinv.pending reply t received hc).1
  exact Bool.false_ne_true (hidle.symm.trans hworking)

theorem ContentInv.no_install (hinv : ContentInv sm committed (p, h)) (hstep : p.Step env ev p')
    (hleaves : p.leavesInstalls ev) (hworking : p.group.app.thread.working = true) :
    .follower (.install reply t received) ∉ p'.calls := by
  intro hmem
  cases hinv.no_call hworking _ ((hstep.installs_iff hleaves rfl).mp hmem)

/-- The content after a task of the committed log, when it is the next one. -/
theorem upTo_task {t : ApplyTask} {n : Nat} (hagrees : t.Agrees committed) (ht : t.index = n + 1) :
    sm.upTo committed (n + 1) = if t.isConfigChange then sm.upTo committed n
      else sm.apply (sm.upTo committed n) t.data t.index := by
  obtain ⟨hconfig, hdata⟩ := hagrees
  rw [StateMachine.upTo, ← ht, ← hconfig]
  by_cases hc : t.isConfigChange = true
  · rw [if_pos hc, if_pos hc]
  · rw [if_neg hc, if_neg hc, hdata (by simpa using hc)]

theorem ContentInv.task {result : ApplyResult} {t : ApplyTask}
    (hinv : ContentInv sm committed (p, h)) (hstep : p.Step env (.applyTask result) p')
    (hline : LineInv p') (hok : ∀ t ∈ p.group.app.thread.batch.head?, t.Agrees committed)
    (ht : Pipeline.RunsTask p.group.pipeline result p'.group.pipeline t) :
    ContentInv sm committed (p', p.machineEvents (.applyTask result, env) p' ++ h) := by
  have hagrees : t.Agrees committed := hok t ht.head
  have hworking : p.group.app.thread.working = true := ht.working.1
  have hsettled : sm.content h = sm.upTo committed p.group.pipeline.mark :=
    hinv.settled (hinv.no_call hworking)
  have hcontent : sm.content (p.machineEvents (.applyTask result, env) p' ++ h) =
      sm.upTo committed (p.group.pipeline.mark + 1) := by
    rw [upTo_task hagrees ht.next]
    by_cases hc : t.isConfigChange = true
    · have hacts : p'.group.pipeline.acts = p.group.pipeline.acts := by simpa [hc] using ht.acts
      rw [machineEvents_of_eq hacts (by simp), if_pos hc]
      exact hsettled
    have hacts := ht.acts
    rw [if_neg hc] at hacts
    rw [if_neg hc, ← hsettled]
    unfold machineEvents
    rw [Pipeline.newSeen_of_append hacts]
    cases t.callback <;> rfl
  exact {
    line := hline
    one := hinv.one.step hstep
    settled := fun _ => by rw [hcontent, ht.mark]
    pending := fun reply t received hmem =>
      absurd hmem (hinv.no_install hstep ⟨by simp, by simp⟩ hworking) }

/-- The snapshot is restored: from now on its installation is pending. -/
theorem ContentInv.restore {i : Nat} (hinv : ContentInv sm committed (p, h))
    (hstep : p.Step env (.run i input) p') (hline : LineInv p')
    (hi : p.calls[i]? = some (.follower (.restore reply t received)))
    (hrestored : input.restored = true) (hidle : p.group.app.thread.working = false)
    (hdata : sm.restore received.data = sm.upTo committed received.index)
    (hn : p.group.pipeline.next (.restore received.index received.term received.data) = some p'.group.pipeline) :
    ContentInv sm committed (p', p.machineEvents (.run i input, env) p' ++ h) := by
  have heq := Option.some.inj hn
  have hthread : p'.group.app.thread = p.group.app.thread := (congrArg Pipeline.thread heq).symm
  have hothers := hinv.one.rest_none hi rfl
  have hcontent : sm.content (p.machineEvents (.run i input, env) p' ++ h) =
      sm.upTo committed received.index := by
    unfold machineEvents
    rw [← heq, Pipeline.newSeen_did]
    exact hdata
  have hcalls : p'.calls = p.calls.eraseIdx i ++ [.follower (.install reply t received)] := by
    cases hstep with
    | @run _ _ c o up hc free ho =>
      obtain rfl : .follower (.restore reply t received) = c := Option.some.inj (hi.symm.trans hc)
      rw [RaftGroup.runCall, RaftGroup.runFollowerCall, if_pos hrestored] at ho
      cases ho
      rfl
    | event up free ho => cases ho
  exact {
    line := hline
    one := hinv.one.step hstep
    settled := fun hnone => by
      have hmem : .follower (.install reply t received) ∈ p'.calls := by
        rw [hcalls]
        exact List.mem_append_right _ List.mem_cons_self
      have hfalse := hnone _ hmem
      cases hfalse
    pending := fun reply' t' received' hmem => by
      refine ⟨by rw [hthread]; exact hidle, ?_⟩
      rw [hcalls] at hmem
      rcases List.mem_append.mp hmem with hmem | hmem
      · cases hothers _ hmem
      · cases List.mem_singleton.mp hmem
        exact hcontent }

/-- The snapshot is installed: the line begins behind it. -/
theorem ContentInv.install {i : Nat} (hinv : ContentInv sm committed (p, h))
    (hstep : p.Step env (.run i input) p') (hline : LineInv p')
    (hmark : p'.group.pipeline.mark = received.index)
    (hi : p.calls[i]? = some (.follower (.install reply t received)))
    (hacts : p'.group.pipeline.acts = p.group.pipeline.acts) :
    ContentInv sm committed (p', p.machineEvents (.run i input, env) p' ++ h) := by
  rw [machineEvents_of_eq hacts (by simp)]
  exact {
    line := hline
    one := hinv.one.step hstep
    settled := fun _ => by
      rw [hmark]
      exact (hinv.pending reply t received (List.mem_of_getElem? hi)).2
    pending := fun reply' t' received' hmem => by
      -- It was the only one.
      exfalso
      cases hstep with
      | @run _ _ c o up hc free ho =>
        obtain rfl : .follower (.install reply t received) = c :=
          Option.some.inj (hi.symm.trans hc)
        cases ho
        rcases List.mem_append.mp hmem with hmem | hmem
        · cases hinv.one.rest_none hi rfl _ hmem
        · cases hmem
      | event up free ho => cases ho }

theorem ContentInv.restart {recovered : Recovered} (hinv : ContentInv sm committed (p, h))
    (hstep : p.Step env (.restart recovered) p') (hline : LineInv p')
    (hmark : p'.group.pipeline.mark = (recovered.snapshot.map (·.1)).getD 0)
    (hdata : sm.recover recovered = sm.upTo committed ((recovered.snapshot.map (·.1)).getD 0))
    (hn : p.group.pipeline.next (.boot recovered) = some p'.group.pipeline) :
    ContentInv sm committed (p', p.machineEvents (.restart recovered, env) p' ++ h) := by
  have heq : p.group.pipeline.boot recovered = p'.group.pipeline := Option.some.inj hn
  have hcalls : p'.calls = [] := by
    cases hstep with
    | restart down => rfl
    | event up free ho => cases ho
  have hcontent : sm.content (p.machineEvents (.restart recovered, env) p' ++ h) =
      sm.recover recovered := by
    have hacts : p'.group.pipeline.acts = p.group.pipeline.acts :=
      (congrArg Pipeline.acts heq).symm.trans
        (p.group.pipeline.bootSnapshot_fields recovered.snapshot).1
    unfold machineEvents
    rw [Pipeline.newSeen_of_eq hacts]
    rfl
  exact {
    line := hline
    one := hinv.one.step hstep
    settled := fun _ => by rw [hcontent, hmark, hdata]
    pending := fun reply t received hmem => by
      rw [hcalls] at hmem
      cases hmem }

/-- A step that touches neither the thread nor the state machine finishes no restoration. -/
theorem leavesInstalls_of_calm {calls : List Call} (hok : p.keepsContent sm committed ev)
    (hops : p.stepOps calls ev ops) (hcalm : ∀ op ∈ ops, op.isCalm = true)
    (hmarks : p.applyMarks ev = []) :
    p.leavesInstalls ev := by
  refine ⟨?_, ?_⟩
  · rintro recovered rfl
    cases hmarks
  · rintro i input c rfl hc
    refine ⟨?_, ?_⟩
    · by_contra hinstalls
      obtain ⟨reply, t, received, rfl⟩ := Call.eq_install (by simpa using hinstalls)
      have hnew := (hok _ hc).2
      simp [applyMarks, hc, hnew] at hmarks
    · rintro reply t received rfl
      by_contra hrestored
      obtain ⟨c', hc', hcall⟩ := hops
      obtain rfl := Option.some.inj (hc.symm.trans hc')
      obtain rfl : ops = if input.restored then _ else _ := hcall
      rw [if_pos (by simpa using hrestored)] at hcalm
      cases hcalm _ List.mem_cons_self

theorem ContentInv.keepsLine (hinv : ContentInv sm committed (p, h))
    (hok : p.keepsContent sm committed ev) : p.keepsLine ev := by
  cases ev with
  | restart recovered => exact hok.1
  | run i input =>
    intro reply t received hc _
    exact ⟨(hok _ hc).1, (hinv.pending reply t received (List.mem_of_getElem? hc)).1⟩
  | _ => trivial

theorem Touches.keepsContent {op : PipeOp} (htouch : p.Touches ev op)
    (hinv : ContentInv sm committed (p, h)) (hok : p.keepsContent sm committed ev)
    (hstep : p.Step env ev p') (hn : p.group.pipeline.next op = some p'.group.pipeline) :
    ContentInv sm committed (p', p.machineEvents (ev, env) p' ++ h) := by
  obtain ⟨hline, hmark⟩ := htouch.keepsLine hinv.line (hinv.keepsLine hok) hstep hn
  cases htouch with
  | restart recovered => exact hinv.restart hstep hline hmark hok.2 hn
  | take =>
    obtain ⟨-, -, heq⟩ := Pipeline.take_cases hn
    rw [machineEvents_of_eq (by rw [heq]) (by simp)]
    refine hinv.keep hstep ⟨by simp, by simp⟩ rfl hmark ?_ hline
    rintro ⟨c, hc, hinstalls⟩
    rw [hok c hc] at hinstalls
    cases hinstalls
  | load =>
    obtain ⟨hworking, -, heq⟩ := Pipeline.load_cases hn
    rw [machineEvents_of_eq (by rw [heq]) (by simp)]
    refine hinv.keep hstep ⟨by simp, by simp⟩ rfl hmark (fun _ hidle => ?_) hline
    cases hidle.symm.trans hworking
  | task result =>
    obtain ⟨t, ht, -⟩ := hinv.line.task (hstep.wasUp (by simp) (by simp)) hn
    exact hinv.task hstep hline hok ht
  | publish =>
    obtain ⟨last, hlast, -, heq⟩ := Pipeline.publish_cases hn
    rw [machineEvents_of_eq (by rw [heq]) (by simp)]
    refine hinv.keep hstep ⟨by simp, by simp⟩ rfl hmark (fun _ hidle => ?_) hline
    cases hidle.symm.trans (hinv.line.working hlast).1
  | drain =>
    obtain ⟨-, heq⟩ := Pipeline.drain_cases hn
    rw [machineEvents_of_silent (congrArg Pipeline.acts heq) (by simp [Act.machineEvent]) (by simp)]
    refine hinv.keep hstep ⟨by simp, by simp⟩ rfl hmark (fun _ _ => ?_) hline
    exact congrArg (fun q : Pipeline => q.thread.working) heq
  | @restore i input reply t received hc hrestored =>
    obtain ⟨hidle, hdata⟩ := hok _ hc hrestored
    exact hinv.restore hstep hline hc hrestored hidle hdata hn
  | @install i input reply t received hc hnew =>
    exact hinv.install hstep hline hmark hc (by rw [Pipeline.install_cases hn])

theorem ContentInv.step {s s' : Process × List MachineEvent} {e : Event × Env} {opts : Options}
    (hinv : ContentInv sm committed s) (hok : s.1.keepsContent sm committed e.1)
    (hn : ((system opts).recording machineEvents).next s e = some s') :
    ContentInv sm committed s' := by
  obtain ⟨p, h⟩ := s
  obtain ⟨p', h'⟩ := s'
  obtain ⟨ev, env⟩ := e
  obtain ⟨hnext, hh⟩ := TransitionSystem.recording_next hn
  obtain rfl : h' = p.machineEvents (ev, env) p' ++ h := hh
  have hstep : p.Step env ev p' := step_of_next hnext
  have hline := hinv.line.step (hinv.keepsLine hok) hstep
  obtain ⟨calls, ops, -, hops, hruns, -⟩ := hstep.runs
  rcases stepOps_calm hops with ⟨hcuts, hmarks⟩ | ⟨op, rfl, htouch⟩
  · have hcalm := hcuts.calm
    exact hinv.calm hstep (leavesInstalls_of_calm hok hops hcalm hmarks) hline hcalm hruns
  · exact htouch.keepsContent hinv hok hstep hruns.next

end Process

def contentSystem (opts : Options) : TransitionSystem (Process × List MachineEvent) (Event × Env) :=
  (Process.system opts).recording Process.machineEvents

theorem contentSystem_init (opts : Options) :
    (contentSystem opts).init (Process.initial opts, []) := ⟨rfl, rfl⟩

/-- **The content of a replica.** In every run that meets `keepsContent`, the content is that of the
committed log up to the index the apply thread has got to, or, between the restoration of a snapshot
and its installation, up to the end of the snapshot. So it is that of the committed log up to
`last_applied_` whenever no batch is in hand and no snapshot waits. -/
theorem content_of_committed {σ : Type*} {sm : StateMachine σ} {committed : Index → Bytes}
    {opts : Options} {s : Process × List MachineEvent}
    (h : (contentSystem opts).ReachableWith (fun s e => s.1.keepsContent sm committed e.1) s) :
    ((∀ c ∈ s.1.calls, c.installs = false) →
        sm.content s.2 = sm.upTo committed s.1.group.pipeline.mark ∧
          (s.1.group.app.thread.working = false →
            sm.content s.2 = sm.upTo committed s.1.group.app.lastApplied)) ∧
      ∀ reply t received, .follower (.install reply t received) ∈ s.1.calls →
        sm.content s.2 = sm.upTo committed received.index := by
  have hinv : Process.ContentInv sm committed s := by
    refine h.invariant ?_ ?_
    · rintro ⟨p, h⟩ ⟨rfl, rfl⟩
      exact ⟨Process.lineInv_initial opts,
        ⟨Nat.zero_le _, fun hrestoring => by cases hrestoring⟩, fun _ => rfl, nofun⟩
    · intro s e s' hinv hok hn
      exact hinv.step hok hn
  refine ⟨fun hnone => ⟨hinv.settled hnone, fun hidle => ?_⟩, fun reply t received hmem => ?_⟩
  · rw [hinv.settled hnone, hinv.line.mark_of_idle hidle]
    rfl
  · exact (hinv.pending reply t received hmem).2

/-! ## §3 — An old snapshot arrives. -/

/-- The state machine that keeps its commands; one byte of a snapshot for each. -/
def commandList : StateMachine (List Bytes) where
  init := []
  apply := fun s data _ => s ++ [data]
  restore := fun data => data.map ([·])

/-- The committed log has the byte `10 * i` at index `i`. -/
def tens (i : Index) : Bytes := [UInt8.ofNat (10 * i)]

/-- Node 1 gets the entries up to `n` from its leader, all committed, and applies them. -/
def entriesArrive (n : Nat) : List (Event × Env) :=
  let entries : AppendEntriesRequest :=
    { term := 1, leaderId := 2, prevLogIndex := 0, prevLogTerm := 0
      entries := (List.range' 1 n).map fun i => ⟨i, 1, tens i⟩, leaderCommit := n }
  [ (.restart {}, { now := 0 }),
    (.request ⟨2, .append false 0⟩ (.appendEntries entries), { now := 10 }),
    (.resume, { now := 10 }), (.run 0 {}, { now := 11 }), (.applyTake, { now := 12 }),
    (.applyLoad, { now := 12 }) ] ++
  List.replicate n (.applyTask {}, { now := 13 }) ++ [(.applyPublish, { now := 14 })]

/-- The snapshot of the committed log up to `n` arrives, is restored and goes for installation. -/
def snapshotArrives (n : Nat) : List (Event × Env) :=
  let snapshot : InstallSnapshotRequest :=
    { term := 1, leaderId := 2, lastIncludedIndex := n, lastIncludedTerm := 1, offset := 0
      data := ((List.range' 1 n).map tens).flatten, done := true }
  [ (.request ⟨2, .snapshot 1⟩ (.installSnapshot snapshot), { now := 20 }),
    (.run 0 {}, { now := 21 }), (.run 0 {}, { now := 22 }), (.run 0 {}, { now := 23 }) ]

/-- Nothing is in progress, index 2 is applied, and the content is that of index 1. -/
def endsBehind (s : Process × List MachineEvent) : Prop :=
  s.1.calls = [] ∧ s.1.group.app.thread.working = false ∧
    s.1.group.pipeline.log.entries.map (·.data) = [tens 1, tens 2] ∧
    s.1.group.pipeline.commitIndex = 2 ∧ s.1.group.app.lastApplied = 2 ∧
    commandList.content s.2 = [tens 1]

instance (s : Process × List MachineEvent) : Decidable (endsBehind s) :=
  inferInstanceAs (Decidable (_ ∧ _))

/-- A complete transfer of a snapshot older than what the node has applied takes the content back and
leaves `last_applied_` where it is. -/
theorem old_snapshot_rolls_back :
    ∃ s, (contentSystem nodeOne).Reachable s ∧ endsBehind s ∧
      commandList.content s.2 ≠ commandList.upTo tens s.1.group.app.lastApplied := by
  obtain ⟨s, hreach, hends⟩ := (contentSystem nodeOne).reaches (entriesArrive 2 ++ snapshotArrives 1)
    (contentSystem_init _) (P := endsBehind) (by decide +kernel)
  refine ⟨s, hreach, hends, ?_⟩
  obtain ⟨-, -, -, -, hlast, hcontent⟩ := hends
  rw [hlast, hcontent]
  decide +kernel

/-- With a snapshot newer than what the node has applied the condition is met. -/
theorem newSnapshot_content :
    ∃ s, (contentSystem nodeOne).ReachableWith
        (fun s e => s.1.keepsContent commandList tens e.1) s ∧
      s.1.group.app.lastApplied = 5 ∧ commandList.content s.2 = commandList.upTo tens 5 := by
  obtain ⟨s, hreach, hcalls, hidle, hlast⟩ := (contentSystem nodeOne).reachesWith
    (fun s e => s.1.keepsContent commandList tens e.1) (entriesArrive 2 ++ snapshotArrives 5)
    (contentSystem_init _) (P := fun s => (∀ c ∈ s.1.calls, c.installs = false) ∧
      s.1.group.app.thread.working = false ∧ s.1.group.app.lastApplied = 5) (by decide +kernel)
  refine ⟨s, hreach, hlast, ?_⟩
  have hcontent := ((content_of_committed hreach).1 hcalls).2 hidle
  rw [hcontent, hlast]

end RollingRaft
