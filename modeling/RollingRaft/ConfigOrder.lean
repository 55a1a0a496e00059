/-
# RollingRaft.ConfigOrder — configuration entries are applied in the order of the log, or again.

`last_enqueued_` moves up one entry at a time, so while a node runs it applies configuration entries
in the order of their indices and none of them twice. It moves elsewhere on two occasions: a snapshot
is installed, and the node starts. A start takes the configuration from `SaveState` but begins again
behind the recovered snapshot, so the entries after it are applied once more, over a configuration
that already includes them.

`configSystem` keeps a history of the starts and of the configuration entries that were applied.
-/
import RollingRaft.Roster

namespace RollingRaft

open Lib

/-! ## §1 — What a path does to the queue. -/

namespace Pipeline

/-- The tasks `ts` were queued, for entries beyond `last_enqueued_` and in their order. -/
structure Grows (q q' : Pipeline) (ts : List ApplyTask) : Prop where
  queue : q'.applyQueue = q.applyQueue ++ ts
  sorted : (ts.map (·.index)).Pairwise (· < ·)
  within : ∀ t ∈ ts, q.lastEnqueued < t.index ∧ t.index ≤ q'.lastEnqueued
  mono : q.lastEnqueued ≤ q'.lastEnqueued

variable {q q' q'' : Pipeline}

theorem Grows.none (hqueue : q'.applyQueue = q.applyQueue)
    (hlast : q.lastEnqueued ≤ q'.lastEnqueued) : Grows q q' [] :=
  ⟨by rw [hqueue, List.append_nil], .nil, nofun, hlast⟩

theorem Grows.trans {ts ts' : List ApplyTask} (h : Grows q q' ts) (h' : Grows q' q'' ts') :
    Grows q q'' (ts ++ ts') := by
  refine ⟨by rw [h'.queue, h.queue, List.append_assoc], ?_, ?_, h.mono.trans h'.mono⟩
  · rw [List.map_append, List.pairwise_append]
    refine ⟨h.sorted, h'.sorted, ?_⟩
    intro i hi j hj
    obtain ⟨t, ht, rfl⟩ := List.mem_map.mp hi
    obtain ⟨t', ht', rfl⟩ := List.mem_map.mp hj
    exact (h.within t ht).2.trans_lt (h'.within t' ht').1
  · exact List.forall_mem_append.mpr
      ⟨fun t ht => ⟨(h.within t ht).1, (h.within t ht).2.trans h'.mono⟩,
      fun t ht => ⟨h.mono.trans_lt (h'.within t ht).1, (h'.within t ht).2⟩⟩

theorem Grows.of_next {op : PipeOp} (hop : op.isCalm = true) (hfits : q.Fits)
    (h : q.next op = some q') : ∃ ts, Grows q q' ts := by
  by_cases hstuck : op = .stuck
  · -- `last_enqueued_` moves although there is no entry
    subst hstuck
    simp only [next, Option.ite_none_right_eq_some, Bool.and_eq_true, decide_eq_true_eq] at h
    obtain ⟨⟨hlt, -⟩, ⟨⟩⟩ := h
    have hnext : q.nextIndex = q.lastEnqueued + 1 :=
      add32_of_lt (lt_of_le_of_lt (Nat.succ_le_of_lt hlt) hfits.commit)
    exact ⟨[], .none rfl (by rw [hnext]; exact Nat.le_succ _)⟩
  · rcases next_queue hop hstuck hfits h with ⟨hqueue, hlast⟩ | ⟨t, ht, hqueue, hlast⟩
    · exact ⟨[], .none hqueue hlast.ge⟩
    · refine ⟨[t], hqueue, List.pairwise_singleton _ _, ?_, ?_⟩
      · intro t' ht'
        rw [List.mem_singleton.mp ht', ht, hlast]
        exact ⟨Nat.lt_succ_self _, le_rfl⟩
      · rw [hlast]
        exact Nat.le_succ _

variable {ops : List PipeOp}

theorem Grows.of_path (hops : ∀ op ∈ ops, op.isCalm = true) (hfits : q.Fits)
    (h : machine.Path q ops q') : ∃ ts, Grows q q' ts := by
  induction h with
  | nil => exact ⟨[], .none rfl le_rfl⟩
  | @cons q q₁ q' op ops hn _ ih =>
    have hop := hops op List.mem_cons_self
    obtain ⟨ts, hgrows⟩ := Grows.of_next hop hfits hn
    obtain ⟨ts', hgrows'⟩ := ih (fun op hop => hops op (List.mem_cons_of_mem _ hop))
      (hfits.next (PipeOp.fits_of_calm hop) hn)
    exact ⟨ts ++ ts', hgrows.trans hgrows'⟩

/-- The tasks `ts` are those of the entries right behind `last_enqueued_`. -/
structure Continues (q q' : Pipeline) (ts : List ApplyTask) : Prop where
  queue : q'.applyQueue = q.applyQueue ++ ts
  last : q'.lastEnqueued = q.lastEnqueued + ts.length
  indices : ts.map (·.index) = List.range' (q.lastEnqueued + 1) ts.length

theorem Continues.of_path (hops : ∀ op ∈ ops, op.isCalm = true) (hfound : .stuck ∉ ops)
    (hfits : q.Fits) (h : machine.Path q ops q') :
    ∃ ts, Continues q q' ts := by
  induction h with
  | nil => exact ⟨[], (List.append_nil _).symm, rfl, rfl⟩
  | @cons q q₁ q' op ops hn _ ih =>
    have hop := hops op List.mem_cons_self
    have hne : op ≠ .stuck := fun heq => hfound (heq ▸ List.mem_cons_self)
    obtain ⟨ts, hqueue', hlast', hindices'⟩ := ih (fun op hop => hops op (List.mem_cons_of_mem _ hop))
      (fun hmem => hfound (List.mem_cons_of_mem _ hmem)) (hfits.next (PipeOp.fits_of_calm hop) hn)
    rcases next_queue hop hne hfits hn with ⟨hqueue, hlast⟩ | ⟨t, ht, hqueue, hlast⟩
    · rw [hqueue] at hqueue'
      rw [hlast] at hlast' hindices'
      exact ⟨ts, hqueue', hlast', hindices'⟩
    · refine ⟨t :: ts, ?_, ?_, ?_⟩
      · rw [hqueue', hqueue, List.append_assoc]
        rfl
      · rw [hlast', hlast, List.length_cons, Nat.add_assoc, Nat.add_comm 1]
      · rw [List.map_cons, List.length_cons, List.range'_succ, hindices', hlast, ht]

end Pipeline

/-! ## §2 — What a step does to the queue. -/

namespace Process

/-- A step queues tasks in their order, or takes tasks off the queue, or installs a snapshot. -/
inductive QueueStep (p p' : Process) : Event → Prop
  | grows {ev : Event} (ts : List ApplyTask)
      (h : Pipeline.Grows p.group.pipeline p'.group.pipeline ts)
      (up : p'.group.halt = none → Pipeline.Continues p.group.pipeline p'.group.pipeline ts) :
      QueueStep p p' ev
  | shrinks {ev : Event} (length : p'.group.app.applyQueue.length ≤ p.group.app.applyQueue.length)
      (last : p'.group.app.lastEnqueued = p.group.app.lastEnqueued) : QueueStep p p' ev
  | installs {i : Nat} {input : CallInput} {reply : ReplyTo} {t : Term}
      {received : ReceivedSnapshot}
      (hc : p.calls[i]? = some (.follower (.install reply t received)))
      (hnew : ¬ p.group.skipsInstall received) (queue : p'.group.app.applyQueue = [])
      (last : p'.group.app.lastEnqueued = received.index) : QueueStep p p' (.run i input)

/-- What comes from outside has 32 bits. -/
def keepsFits (p : Process) : Event → Prop
  | .restart recovered => recovered.fits
  | .run i _ => ∀ reply t received, p.calls[i]? = some (.follower (.install reply t received)) →
      ¬ p.group.skipsInstall received → received.index < 2 ^ 32
  | _ => True

variable {p p' : Process} {ev : Event} {env : Env}

theorem Step.queueStep (h : p.Step env ev p') (hfits : p.group.pipeline.Fits)
    (hstart : ∀ recovered, ev ≠ .restart recovered) : QueueStep p p' ev := by
  obtain ⟨calls, ops, -, hops, hruns, hfound⟩ := h.runs
  rcases stepOps_calm hops with ⟨hcuts, -⟩ | ⟨op, rfl, htouch⟩
  · obtain ⟨ts, hgrows⟩ := Pipeline.Grows.of_path hcuts.calm hfits hruns
    refine .grows ts hgrows fun hup => ?_
    obtain ⟨ts', hcontinues⟩ := Pipeline.Continues.of_path hcuts.calm (hfound hup) hfits hruns
    obtain rfl : ts' = ts :=
      List.append_cancel_left (hcontinues.queue.symm.trans hgrows.queue)
    exact hcontinues
  · have hn := hruns.next
    have hkeeps {q : Pipeline} (heq : p'.group.pipeline = q)
        (hqueue : q.applyQueue = p.group.pipeline.applyQueue)
        (hlast : q.lastEnqueued = p.group.pipeline.lastEnqueued) : QueueStep p p' ev := by
      rw [← heq] at hqueue hlast
      exact .shrinks (congrArg List.length hqueue).le hlast
    cases htouch with
    | restart recovered => exact absurd rfl (hstart recovered)
    | take =>
      obtain ⟨-, -, heq⟩ := Pipeline.take_cases hn
      refine .shrinks ?_ (congrArg Pipeline.lastEnqueued heq)
      have hqueue : p'.group.app.applyQueue = p.group.app.applyQueue.drop _ :=
        congrArg Pipeline.applyQueue heq
      rw [hqueue, List.length_drop]
      exact Nat.sub_le _ _
    | load =>
      obtain ⟨-, -, heq⟩ := Pipeline.load_cases hn
      exact hkeeps heq rfl rfl
    | task result =>
      have heq := Pipeline.task_frame hn
      exact hkeeps heq rfl rfl
    | publish =>
      obtain ⟨last, -, -, heq⟩ := Pipeline.publish_cases hn
      exact hkeeps heq rfl rfl
    | drain =>
      obtain ⟨-, heq⟩ := Pipeline.drain_cases hn
      have hqueue : p'.group.app.applyQueue = [] := congrArg Pipeline.applyQueue heq
      refine .shrinks ?_ (congrArg Pipeline.lastEnqueued heq)
      rw [hqueue]
      exact Nat.zero_le _
    | restore hc hrestored =>
      exact hkeeps (Option.some.inj hn).symm rfl rfl
    | install hc hnew =>
      have heq := Pipeline.install_cases hn
      exact .installs hc hnew (congrArg Pipeline.applyQueue heq)
        (congrArg Pipeline.lastEnqueued heq)

theorem Step.fits (h : p.Step env ev p') (hfits : p.group.pipeline.Fits) (hok : p.keepsFits ev) :
    p'.group.pipeline.Fits := by
  obtain ⟨calls, ops, -, hops, hruns, -⟩ := h.runs
  rcases stepOps_calm hops with ⟨hcuts, -⟩ | ⟨op, rfl, htouch⟩
  · exact hfits.path hcuts.calm hruns
  · refine hfits.next ?_ hruns.next
    cases htouch with
    | restart recovered => exact hok
    | install hc hnew => exact hok _ _ _ hc hnew
    | _ => trivial

/-! ## §3 — What a step hands over, in order. -/

theorem entryIn_index (l : RaftLog) (ts : List ApplyTask) :
    ((ts.filterMap (·.entryIn l)).map (·.1)).Sublist (ts.map (·.index)) := by
  induction ts with
  | nil => exact .slnil
  | cons t ts ih =>
    rw [List.filterMap_cons]
    cases ht : t.entryIn l with
    | none => exact ih.cons _
    | some x =>
      obtain ⟨e, -, rfl⟩ := Option.map_eq_some_iff.mp ht
      exact ih.cons_cons _

/-- The entries a step hands over are beyond `last_enqueued_`, and in the order of the log. -/
theorem QueueStep.handed (h : QueueStep p p' ev) :
    ((p.handed p').map (·.1)).Pairwise (· < ·) ∧
      ∀ x ∈ p.handed p', p.group.app.lastEnqueued < x.1 ∧ x.1 ≤ p'.group.app.lastEnqueued := by
  have hnone : p.handed p' = [] → ((p.handed p').map (·.1)).Pairwise (· < ·) ∧
      ∀ x ∈ p.handed p', p.group.app.lastEnqueued < x.1 ∧ x.1 ≤ p'.group.app.lastEnqueued := by
    intro hnil
    rw [hnil]
    exact ⟨.nil, nofun⟩
  cases h with
  | grows ts h up =>
    have hqueue : p'.group.app.applyQueue = p.group.app.applyQueue ++ ts := h.queue
    have hhanded : p.handed p' = ts.filterMap (·.entryIn p'.group.rep.log) := by
      rw [Process.handed, hqueue, List.drop_left]
    rw [hhanded]
    refine ⟨h.sorted.sublist (entryIn_index _ ts), ?_⟩
    intro x hx
    have hindex := (entryIn_index p'.group.rep.log ts).subset (List.mem_map_of_mem hx)
    obtain ⟨t, ht, heq⟩ := List.mem_map.mp hindex
    rw [← heq]
    exact h.within t ht
  | shrinks length last => exact hnone (handed_eq_nil length)
  | installs hc hnew queue last =>
    refine hnone (handed_eq_nil ?_)
    rw [queue]
    exact Nat.zero_le _

end Process

/-! ## §4 — Histories, the latest event first. -/

/-- What the history keeps: a start with the configuration it loads, and a configuration entry that
is applied. -/
inductive ConfigEvent where
  | started (c : ClusterConfig)
  | applied (i : Index) (cmd : Bytes)
  deriving DecidableEq

/-- The indices of the entries that were applied. -/
def appliedIndices (h : List ConfigEvent) : List Index :=
  h.filterMap fun
    | .applied i _ => some i
    | .started _ => none

/-- The configuration in effect: the one loaded, changed by the entries applied since. -/
def configAfter (js : JsonText) : List ConfigEvent → ClusterConfig
  | [] => {}
  | .started c :: _ => c
  | .applied _ cmd :: h => (ConfigChange.readChange js cmd).config (configAfter js h)

/-- The events of entries that are applied one after the other. -/
def appliedEvents (xs : List (Index × Bytes)) : List ConfigEvent :=
  xs.reverse.map fun x => .applied x.1 x.2

variable (js : JsonText) (xs : List (Index × Bytes))

theorem configAfter_applied (h : List ConfigEvent) :
    configAfter js (appliedEvents xs ++ h) =
      xs.foldl (fun c x => (ConfigChange.readChange js x.2).config c) (configAfter js h) := by
  induction xs generalizing h with
  | nil => rfl
  | cons x xs ih =>
    have hcons : appliedEvents (x :: xs) ++ h = appliedEvents xs ++ .applied x.1 x.2 :: h := by
      unfold appliedEvents
      rw [List.reverse_cons, List.map_append, List.append_assoc]
      rfl
    rw [hcons, ih]
    rfl

theorem appliedIndices_append (h h' : List ConfigEvent) :
    appliedIndices (h ++ h') = appliedIndices h ++ appliedIndices h' := List.filterMap_append

theorem appliedIndices_applied : appliedIndices (appliedEvents xs) = (xs.map (·.1)).reverse := by
  unfold appliedIndices appliedEvents
  rw [List.filterMap_map, ← List.map_reverse]
  show xs.reverse.filterMap (some ∘ fun x => x.1) = _
  rw [List.filterMap_eq_map]

theorem applyEntries_config (self : NodeId) (m : MembershipState) (xs : List (Index × Bytes)) :
    (m.applyEntries js self xs).config = (xs.filter (isConfigChange ·.2)).foldl
      (fun c x => (ConfigChange.readChange js x.2).config c) m.config := by
  induction xs generalizing m with
  | nil => rfl
  | cons x xs ih =>
    refine (ih (m.applyEntry js self x)).trans ?_
    unfold MembershipState.applyEntry
    by_cases hconfig : isConfigChange x.2 = true
    · rw [List.filter_cons_of_pos (by exact hconfig), if_pos hconfig]
      rfl
    · rw [List.filter_cons_of_neg (by exact hconfig), if_neg hconfig]

namespace Process

def configEvents (p : Process) (e : Event × Env) (p' : Process) : List ConfigEvent :=
  match e.1 with
  | .restart _ => [.started p'.group.mem.config]
  | _ => appliedEvents ((p.handed p').filter (isConfigChange ·.2))

/-- The recovered snapshot covers every configuration entry that was applied before, no snapshot
behind `last_enqueued_` is installed, and what comes from outside has 32 bits. -/
def keepsConfigOrder (p : Process) (h : List ConfigEvent) : Event → Prop
  | .restart recovered => recovered.fits ∧
      ∀ i ∈ appliedIndices h, i ≤ (recovered.snapshot.map (·.1)).getD 0
  | .run i _ => ∀ reply t received, p.calls[i]? = some (.follower (.install reply t received)) →
      ¬ p.group.skipsInstall received →
        received.index < 2 ^ 32 ∧ p.group.app.lastEnqueued ≤ received.index
  | _ => True

end Process

def configSystem (opts : Options) : TransitionSystem (Process × List ConfigEvent) (Event × Env) :=
  (Process.system opts).recording Process.configEvents

theorem configSystem_init (opts : Options) :
    (configSystem opts).init (Process.initial opts, []) := ⟨rfl, rfl⟩

/-- What runs keep. -/
structure ConfigOrdered (s : Process × List ConfigEvent) : Prop where
  fits : s.1.group.pipeline.Fits
  effect : s.1.group.mem.config = configAfter s.1.group.opts.json s.2
  order : (appliedIndices s.2).Pairwise (· > ·)
  below : ∀ i ∈ appliedIndices s.2, i ≤ s.1.group.app.lastEnqueued

namespace ConfigOrdered

variable {p p' : Process} {h : List ConfigEvent} {ev : Event} {env : Env}

theorem initial (opts : Options) : ConfigOrdered (Process.initial opts, []) :=
  ⟨⟨show 1 < 2 ^ 32 by decide, nofun, show 0 < 2 ^ 32 by decide⟩, rfl, .nil, nofun⟩

/-- A node that starts loads a configuration, and its place in the log is the snapshot's. -/
theorem restart {recovered : Recovered} (hinv : ConfigOrdered (p, h))
    (hok : p.keepsConfigOrder h (.restart recovered)) (hstep : p.Step env (.restart recovered) p') :
    ConfigOrdered (p', .started p'.group.mem.config :: h) := by
  refine ⟨hstep.fits hinv.fits hok.1, rfl, hinv.order, ?_⟩
  have hlast : p'.group.app.lastEnqueued = (recovered.snapshot.map (·.1)).getD 0 := by
    cases hstep with
    | restart down =>
      have hboot := RaftGroup.start_pipeline (p.entered env) recovered
      refine (congrArg Pipeline.lastEnqueued hboot).trans ?_
      show (Pipeline.bootSnapshot _ recovered.snapshot).lastEnqueued = _
      cases recovered.snapshot <;> rfl
    | event up free ho => cases ho
  intro i hi
  show i ≤ p'.group.app.lastEnqueued
  rw [hlast]
  exact hok.2 i hi

theorem hands (hinv : ConfigOrdered (p, h)) (hok : p.keepsConfigOrder h ev)
    (hstep : p.Step env ev p') (hstart : ∀ recovered, ev ≠ .restart recovered) :
    ConfigOrdered (p', appliedEvents ((p.handed p').filter (isConfigChange ·.2)) ++ h) := by
  have hqueue := hstep.queueStep hinv.fits hstart
  obtain ⟨hsorted, hwithin⟩ := hqueue.handed
  obtain ⟨hopts, -, hmem⟩ := hstep.mem hstart
  have hfits : p.keepsFits ev := by
    cases ev with
    | restart recovered => exact absurd rfl (hstart recovered)
    | run i input => exact fun reply t received hc hnew => (hok reply t received hc hnew).1
    | _ => trivial
  have hmono : p.group.app.lastEnqueued ≤ p'.group.app.lastEnqueued := by
    cases hqueue with
    | grows ts hgrows up => exact hgrows.mono
    | shrinks length last => exact last.ge
    | installs hc hnew queue last =>
      rw [last]
      exact (hok _ _ _ hc hnew).2
  -- the entries applied now, as a sublist of those handed over
  have hsub : ((p.handed p').filter (isConfigChange ·.2)).Sublist (p.handed p') :=
    List.filter_sublist
  refine ⟨hstep.fits hinv.fits hfits, ?_, ?_, ?_⟩
  · have heffect : (p.entered env).mem.config = configAfter p.group.opts.json h := hinv.effect
    show p'.group.mem.config = configAfter p'.group.opts.json _
    rw [hmem, hopts, applyEntries_config, configAfter_applied, RaftGroup.afterCall_config, heffect]
  · show (appliedIndices (_ ++ h)).Pairwise (· > ·)
    rw [appliedIndices_append, appliedIndices_applied, List.pairwise_append]
    refine ⟨List.pairwise_reverse.mpr (hsorted.sublist (hsub.map _)), hinv.order, ?_⟩
    intro i hi j hj
    obtain ⟨x, hx, rfl⟩ := List.mem_map.mp (List.mem_reverse.mp hi)
    exact (hinv.below j hj).trans_lt (hwithin x (hsub.subset hx)).1
  · intro i hi
    have hi : i ∈ appliedIndices (_ ++ h) := hi
    rw [appliedIndices_append, appliedIndices_applied, List.mem_append] at hi
    rcases hi with hi | hi
    · obtain ⟨x, hx, rfl⟩ := List.mem_map.mp (List.mem_reverse.mp hi)
      exact (hwithin x (hsub.subset hx)).2
    · exact (hinv.below i hi).trans hmono

theorem step (hinv : ConfigOrdered (p, h)) (hok : p.keepsConfigOrder h ev)
    (hstep : p.Step env ev p') : ConfigOrdered (p', p.configEvents (ev, env) p' ++ h) := by
  by_cases hstart : ∃ recovered, ev = .restart recovered
  · obtain ⟨recovered, rfl⟩ := hstart
    exact hinv.restart hok hstep
  have hstart : ∀ recovered, ev ≠ .restart recovered := fun r heq => hstart ⟨r, heq⟩
  have hevents : p.configEvents (ev, env) p' =
      appliedEvents ((p.handed p').filter (isConfigChange ·.2)) := by
    cases ev with
    | restart recovered => exact absurd rfl (hstart recovered)
    | _ => rfl
  rw [hevents]
  exact hinv.hands hok hstep hstart

end ConfigOrdered

/-! ## §5 — Runs. -/

/-- The configuration in effect is the one that the last start loaded, changed by the entries applied
since; and these are later entries than all that were applied before the start. -/
structure MovesOn (js : JsonText) (c : ClusterConfig) (h : List ConfigEvent) : Prop where
  effect : c = configAfter js h
  later : ∀ after loaded before, h = after ++ .started loaded :: before →
    ∀ i ∈ appliedIndices after, ∀ j ∈ appliedIndices before, j < i

/-- **A restart does not roll the configuration back**, in runs whose restarts recover a snapshot
that covers the configuration entries applied before. -/
theorem restart_moves_on {opts : Options} {s : Process × List ConfigEvent}
    (h : (configSystem opts).ReachableWith (fun s e => s.1.keepsConfigOrder s.2 e.1) s) :
    MovesOn s.1.group.opts.json s.1.group.mem.config s.2 := by
  have hinv : ConfigOrdered s := by
    refine h.invariant ?_ ?_
    · rintro ⟨p, history⟩ ⟨hp, rfl⟩
      obtain rfl : p = Process.initial opts := hp
      exact .initial opts
    · rintro ⟨p, history⟩ ⟨ev, env⟩ ⟨p', history'⟩ hinv hok hn
      obtain ⟨hn, hhistory⟩ := TransitionSystem.recording_next hn
      obtain rfl : history' = p.configEvents (ev, env) p' ++ history := hhistory
      exact hinv.step hok (Process.step_of_next hn)
  refine ⟨hinv.effect, ?_⟩
  intro after loaded before hsplit i hi j hj
  have horder := hinv.order
  rw [hsplit, appliedIndices_append, List.pairwise_append] at horder
  exact horder.2.2 i hi j hj

/-! ## §6 — A configuration that is applied again. -/

/-- Node 1 adds node 4 and both entries of the change are applied. -/
def changeCompletes : List (Event × Env) :=
  nodeJoins ++ [(.response 2 (.append false 0) (.append ⟨1, true, 0, 1⟩), { now := 1004 }),
    (.response 3 (.append false 0) (.append ⟨1, true, 0, 1⟩), { now := 1004 }),
    (.response 3 (.append false 0) (.append ⟨1, true, 0, 1⟩), { now := 1005 }),
    (.persisted 2 true, { now := 1006 })]

/-- The entries of the change, as the disk has them. -/
def changeEntries : List LogEntry :=
  [⟨1, 1, ascii "CONFIG_CHANGE:JOINT:[1,2,3]:[1,2,3,4]"⟩,
    ⟨2, 1, ascii "CONFIG_CHANGE:FINALIZE:[1,2,3,4]"⟩]

/-- It then crashes, starts from its log, and learns from node 2 that the first entry is
committed. -/
def startsOver : List (Event × Env) :=
  changeCompletes ++ [(.crash, { now := 2000 }),
    (.restart { entries := changeEntries }, { now := 3000 }),
    (.request ⟨2, .append false 0⟩ (.appendEntries ⟨2, 2, 2, 1, [], 1⟩), { now := 3001 }),
    (.resume, { now := 3001 }), (.run 0 {}, { now := 3001 })]

/-- The history of such a node: the configuration of the second entry was loaded, and then the first
one was applied again. -/
def rolledBack : List ConfigEvent :=
  [.applied 1 (ascii "CONFIG_CHANGE:JOINT:[1,2,3]:[1,2,3,4]"),
    .started { nodes := [1, 2, 3, 4], version := 3 },
    .applied 2 (ascii "CONFIG_CHANGE:FINALIZE:[1,2,3,4]"),
    .applied 1 (ascii "CONFIG_CHANGE:JOINT:[1,2,3]:[1,2,3,4]"),
    .started { nodes := [1, 2, 3], version := 1 }]

/-- A reachable node had a complete change in effect when it crashed, and is in joint mode again. -/
theorem restart_rolls_back :
    ∃ s, (configSystem readingOne).Reachable s ∧ s.1.group.mem.config.isJoint = true ∧
      ¬ MovesOn s.1.group.opts.json s.1.group.mem.config s.2 := by
  obtain ⟨s, hreach, hjoint, hends⟩ := (configSystem readingOne).reaches startsOver
    (configSystem_init _) (P := fun s => s.1.group.mem.config.isJoint = true ∧ s.2 = rolledBack)
    (by decide +kernel)
  refine ⟨s, hreach, hjoint, fun hmoves => ?_⟩
  rw [hends] at hmoves
  have hlater := hmoves.later [_] _ _ rfl 1 (List.mem_singleton_self 1) 2 List.mem_cons_self
  exact absurd hlater (by decide)

/-- The node restarts from a snapshot of both entries instead. -/
def startsCovered : List (Event × Env) :=
  changeCompletes ++ [(.crash, { now := 2000 }),
    (.restart { snapshot := some (2, 1) }, { now := 3000 })]

/-- The condition for steps that continue no call and recover no log. -/
def coversChanges (s : Process × List ConfigEvent) (e : Event × Env) : Bool :=
  match e.1 with
  | .restart recovered => recovered.entries.isEmpty && recovered.snapshot.all (·.1 < 2 ^ 32) &&
      (appliedIndices s.2).all (· ≤ (recovered.snapshot.map (·.1)).getD 0)
  | .run _ _ => false
  | _ => true

theorem keepsConfigOrder_of_covers {s : Process × List ConfigEvent} {e : Event × Env}
    (h : coversChanges s e = true) : s.1.keepsConfigOrder s.2 e.1 := by
  obtain ⟨ev, env⟩ := e
  cases ev with
  | restart recovered =>
    simp only [coversChanges, Bool.and_eq_true, List.isEmpty_iff, Option.all_eq_true,
      List.all_eq_true, decide_eq_true_eq] at h
    refine ⟨⟨h.1.2, ?_⟩, h.2⟩
    rw [h.1.1]
    exact nofun
  | run i input => cases h
  | _ => trivial

theorem startsCovered_moves_on :
    ∃ s, (configSystem readingOne).Reachable s ∧ appliedIndices s.2 = [2, 1] ∧
      MovesOn s.1.group.opts.json s.1.group.mem.config s.2 := by
  obtain ⟨s, hreach, happlied⟩ := (configSystem readingOne).reachesWith
    (fun s e => coversChanges s e = true) startsCovered (configSystem_init _)
    (P := fun s => appliedIndices s.2 = [2, 1]) (by decide +kernel)
  exact ⟨s, hreach.reachable, happlied,
    restart_moves_on (hreach.mono fun _ _ => keepsConfigOrder_of_covers)⟩

end RollingRaft
