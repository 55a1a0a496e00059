/-
# RollingRaft.Roster — how the membership of a node changes, step by step.

`cluster_config_`, `peer_map_` and the pending flag change in three ways: a node starts, a leader is
called to change the membership, and committed configuration entries are handed to the apply thread.
`Process.handed` are the entries that a step hands over, read off the tasks it queues, and
`Step.mem` says that the membership after a step is the one before it, changed by the call or by
these entries in their order.
-/
import RollingRaft.ApplyLine
import RollingRaft.ConfigChange

namespace RollingRaft

open Lib

/-! ## §1 — Entries that are handed over. -/

/-- The index and the command of a task, as the log has it. -/
def ApplyTask.entryIn (l : RaftLog) (t : ApplyTask) : Option (Index × Bytes) :=
  (l.slot t.index).map fun e => (t.index, e.data)

/-- A committed entry takes effect on the membership when it is handed over. -/
def MembershipState.applyEntry (js : JsonText) (self : NodeId) (m : MembershipState)
    (x : Index × Bytes) : MembershipState :=
  if isConfigChange x.2 then (ConfigChange.readChange js x.2).effect self m else m

/-- The membership after entries, the first one first. -/
def MembershipState.applyEntries (js : JsonText) (self : NodeId) (m : MembershipState)
    (xs : List (Index × Bytes)) : MembershipState :=
  xs.foldl (MembershipState.applyEntry js self) m

theorem entryIn_extends {l l' : RaftLog} (h : l.Extends l') {ts : List ApplyTask}
    (hfound : ∀ t ∈ ts, (l.slot t.index).isSome) :
    ts.filterMap (·.entryIn l') = ts.filterMap (·.entryIn l) := by
  apply List.filterMap_congr
  intro t ht
  obtain ⟨e, he⟩ := Option.isSome_iff_exists.mp (hfound t ht)
  unfold ApplyTask.entryIn
  rw [h.slot he, he]

/-! ## §2 — What operations hand over. -/

namespace Kept

/-- The tasks `ts` were queued, for entries of the log, and the membership changed as these say. The
log may have been changed before. -/
structure Hands (k k' : Kept) (ts : List ApplyTask) : Prop where
  opts : k'.opts = k.opts
  queue : k'.pipeline.applyQueue = k.pipeline.applyQueue ++ ts
  found : ∀ t ∈ ts, (k'.pipeline.log.slot t.index).isSome
  mem : k'.mem = k.mem.applyEntries k.opts.json k.opts.serverId
    (ts.filterMap (·.entryIn k'.pipeline.log))

/-- The same, and the log only grew. -/
structure Queued (k k' : Kept) (ts : List ApplyTask) : Prop extends Hands k k' ts where
  log : k.pipeline.log.Extends k'.pipeline.log

variable {k k' k'' : Kept} {op : PipeOp}

theorem Queued.trans {ts ts' : List ApplyTask} (h : Queued k k' ts) (h' : Queued k' k'' ts') :
    Queued k k'' (ts ++ ts') where
  opts := h'.opts.trans h.opts
  queue := by rw [h'.queue, h.queue, List.append_assoc]
  log := h.log.trans h'.log
  found := by
    refine List.forall_mem_append.mpr ⟨fun t ht => ?_, h'.found⟩
    obtain ⟨e, he⟩ := Option.isSome_iff_exists.mp (h.found t ht)
    rw [h'.log.slot he]
    rfl
  mem := by
    rw [h'.mem, h.mem, List.filterMap_append, entryIn_extends h'.log h.found, h.opts]
    exact (List.foldl_append ..).symm

theorem Queued.single {t : ApplyTask} {e : LogEntry} (opts : k'.opts = k.opts)
    (queue : k'.pipeline.applyQueue = k.pipeline.applyQueue ++ [t])
    (log : k.pipeline.log.Extends k'.pipeline.log)
    (he : k.pipeline.log.getEntry t.index = some e)
    (mem : k'.mem = k.mem.applyEntry k.opts.json k.opts.serverId (t.index, e.data)) :
    Queued k k' [t] := by
  have hslot := log.slot (RaftLog.hasAt_of_getEntry he).2
  have hentry : [t].filterMap (·.entryIn k'.pipeline.log) = [(t.index, e.data)] := by
    simp only [List.filterMap_cons, List.filterMap_nil, ApplyTask.entryIn, hslot, Option.map_some]
  refine ⟨⟨opts, queue, ?_, ?_⟩, log⟩
  · intro t' ht'
    rw [List.mem_singleton.mp ht', hslot]
    rfl
  · rw [hentry]
    exact mem

theorem Step.queued (h : k.Step op k') (hop : op.grows = true) : ∃ ts, Queued k k' ts := by
  have hkeeps : op.keepsLog = true := by cases op <;> first | rfl | cases hop
  have hlog := Pipeline.next_extends h.pipeline hkeeps
  have hn := h.pipeline
  cases op with
  | handOver e =>
    simp only [Pipeline.next, Option.ite_none_right_eq_some, Bool.and_eq_true,
      decide_eq_true_eq, Bool.not_eq_true'] at hn
    obtain ⟨⟨⟨-, he⟩, hplain⟩, heq⟩ := hn
    have hmem : k'.mem = k.mem := h.mem
    refine ⟨_, .single h.opts (congrArg Pipeline.applyQueue (Option.some.inj heq).symm) hlog he ?_⟩
    exact hmem.trans (if_neg (by simp [isConfigChange, hplain])).symm
  | handOverConfig e made =>
    simp only [Pipeline.next, Option.ite_none_right_eq_some, Bool.and_eq_true,
      decide_eq_true_eq, Pipeline.handOverConfig_eq] at hn
    obtain ⟨⟨⟨⟨-, he⟩, hconfig⟩, -⟩, heq⟩ := hn
    -- a configuration entry takes effect here
    refine ⟨_, .single h.opts (congrArg Pipeline.applyQueue (Option.some.inj heq).symm) hlog he ?_⟩
    exact h.mem.1.trans (if_pos hconfig).symm
  | stuck =>
    obtain ⟨-, heq⟩ := Option.ite_none_right_eq_some.mp hn
    have hqueue := congrArg Pipeline.applyQueue (Option.some.inj heq).symm
    exact ⟨[], ⟨h.opts, hqueue.trans (List.append_nil _).symm, by simp, h.mem⟩, hlog⟩
  | truncate | compact | take | install | drain | boot => cases hop
  | _ =>
    have hqueue := ((Pipeline.next_frame hn).queue rfl).1
    exact ⟨[], ⟨h.opts, hqueue.trans (List.append_nil _).symm, by simp, h.mem⟩, hlog⟩

variable {ops cut : List PipeOp}

theorem Does.single (h : k.Does [op] k') : k.Step op k' := by
  cases h with
  | cons hstep hnil =>
    cases hnil
    exact hstep

theorem Does.queued (h : k.Does ops k') (hops : ∀ op ∈ ops, op.grows = true) :
    ∃ ts, Queued k k' ts := by
  induction h with
  | nil k => exact ⟨[], ⟨rfl, (List.append_nil _).symm, nofun, rfl⟩, .refl _⟩
  | cons hstep _ ih =>
    obtain ⟨ts, hfirst⟩ := hstep.queued (hops _ List.mem_cons_self)
    obtain ⟨ts', hrest⟩ := ih fun op hop => hops op (List.mem_cons_of_mem _ hop)
    exact ⟨ts ++ ts', hfirst.trans hrest⟩

/-- A follower may cut its log first. -/
theorem Does.hands (h : k.Does (cut ++ ops) k') (hcut : ∀ op ∈ cut, op.keepsQueue = true)
    (hops : ∀ op ∈ ops, op.grows = true) : ∃ ts, Hands k k' ts := by
  induction cut generalizing k with
  | nil =>
    obtain ⟨ts, hqueued⟩ := h.queued hops
    exact ⟨ts, hqueued.toHands⟩
  | cons op cut ih =>
    cases h with
    | @cons _ k₁ _ _ _ hstep hrest =>
      obtain ⟨ts, hhands⟩ := ih hrest fun op hop => hcut op (List.mem_cons_of_mem _ hop)
      have hkeeps := hcut op List.mem_cons_self
      have hqueue := ((Pipeline.next_frame hstep.pipeline).queue hkeeps).1
      have hmem : k₁.mem = k.mem := by
        have hmem := hstep.mem
        cases op <;> first | exact hmem | cases hkeeps
      refine ⟨ts, hhands.opts.trans hstep.opts, hhands.queue.trans (by rw [hqueue]), hhands.found, ?_⟩
      rw [hhands.mem, hmem, hstep.opts]

end Kept

/-! ## §3 — Calls of users. -/

namespace RaftGroup

variable (g : RaftGroup) (cmd : Bytes) (id : NodeId) (addr : Bytes) {g' : RaftGroup}

section Calls

variable {g g' : RaftGroup} {wrong : Option Bytes} {cmd : Bytes}
  {edit : Map NodeId Bytes → Map NodeId Bytes} {status : Status}

theorem CallsFor.proposes (h : CallsFor g wrong cmd edit g' status) :
    g'.opts = g.opts ∧ g'.app.applyQueue = g.app.applyQueue := by
  have hpropose := proposeConfigChange_kept g cmd
  have hopts := congrArg Kept.opts hpropose
  have hqueue := congrArg (·.pipeline.applyQueue) hpropose
  cases h with
  | refused hcheck => exact ⟨rfl, rfl⟩
  | unwritten hcheck hwritten => exact ⟨hopts, hqueue⟩
  | accepted hcheck hwritten hkept =>
    exact ⟨(congrArg Kept.opts hkept).trans hopts,
      (congrArg (·.pipeline.applyQueue) hkept).trans hqueue⟩

theorem CallsFor.mem (h : CallsFor g wrong cmd edit g' status) :
    g'.mem.config = g.mem.config ∧ (g'.mem.peerMap = g.mem.peerMap ∨
      g.membershipCheck wrong = none ∧ g'.mem.peerMap = edit g.mem.peerMap) := by
  have hconfig := congrArg (·.mem.config) (proposeConfigChange_kept g cmd)
  have hpeers := congrArg (·.mem.peerMap) (proposeConfigChange_kept g cmd)
  cases h with
  | refused hcheck => exact ⟨rfl, .inl rfl⟩
  | unwritten hcheck hwritten => exact ⟨hconfig, .inl hpeers⟩
  | accepted hcheck hwritten hkept =>
    have hconfig' := congrArg (·.mem.config) hkept
    have hpeers' := congrArg (·.mem.peerMap) hkept
    exact ⟨hconfig'.trans hconfig, .inr ⟨hcheck, hpeers'.trans (congrArg edit hpeers)⟩⟩

end Calls

/-- What a call leaves of the configuration, and of the peers but for one. -/
structure CallKeeps (m m' : MembershipState) : Prop where
  config : m'.config = m.config
  peers : m'.peerMap = m.peerMap ∨ ∃ id addr, m'.peerMap = m.peerMap.insert id addr

theorem addNode_mem : CallKeeps g.mem (g.addNode id addr).1.mem := by
  obtain ⟨wrong, hcalls⟩ := addNode_calls g id addr
  obtain ⟨hconfig, hpeers⟩ := hcalls.mem
  exact ⟨hconfig, hpeers.imp_right fun h => ⟨id, addr, h.2⟩⟩

theorem addLearner_mem : CallKeeps g.mem (g.addLearner id addr).1.mem := by
  obtain ⟨wrong, hcalls⟩ := addLearner_calls g id addr
  obtain ⟨hconfig, hpeers⟩ := hcalls.mem
  exact ⟨hconfig, hpeers.imp_right fun h => ⟨id, addr, h.2⟩⟩

theorem promoteLearner_mem : CallKeeps g.mem (g.promoteLearner id).1.mem := by
  obtain ⟨wrong, hcalls⟩ := promoteLearner_calls g id
  obtain ⟨hconfig, hpeers⟩ := hcalls.mem
  exact ⟨hconfig, .inl (hpeers.elim (fun h => h) And.right)⟩

theorem membershipCheck_eq_none {g : RaftGroup} {wrong : Option Bytes}
    (h : g.membershipCheck wrong = none) : g.running = true ∧ g.el.role = .leader ∧ wrong = none ∧
      g.mem.pendingConfigChange = false := by
  unfold membershipCheck at h
  split at h
  · cases h
  rename_i hrunning
  split at h
  · cases h
  rename_i hrole
  split at h
  · cases h
  split at h
  · cases h
  rename_i hpending
  exact ⟨by simpa using hrunning, by simpa using hrole, rfl, by simpa using hpending⟩

theorem removeNode_mem :
    CallKeeps g.mem (g.removeNode id).1.mem ∨
      (g.running = true ∧ g.el.role = .leader ∧ g.mem.config.contains id = true ∧
        g.mem.pendingConfigChange = false) ∧ (g.removeNode id).1.mem.config = g.mem.config ∧
        (g.removeNode id).1.mem.peerMap = g.mem.peerMap.erase id := by
  obtain ⟨hconfig, hsame | ⟨hcheck, herased⟩⟩ := (removeNode_calls g id).mem
  · exact .inl ⟨hconfig, .inl hsame⟩
  · obtain ⟨hrunning, hrole, hwrong, hpending⟩ := membershipCheck_eq_none hcheck
    have hin : g.mem.config.contains id = true := by
      by_contra hout
      rw [if_neg hout] at hwrong
      cases hwrong
    exact .inr ⟨⟨hrunning, hrole, hin, hpending⟩, hconfig, herased⟩

/-- The membership after a call; other events leave it to the entries they hand over. -/
def afterCall : Event → MembershipState
  | .addNode id addr => (g.addNode id addr).1.mem
  | .addLearner id addr => (g.addLearner id addr).1.mem
  | .promoteLearner id => (g.promoteLearner id).1.mem
  | .removeNode id => (g.removeNode id).1.mem
  | _ => g.mem

theorem afterCall_config (ev : Event) : (g.afterCall ev).config = g.mem.config := by
  cases ev with
  | addNode id addr => exact (addNode_mem g id addr).config
  | addLearner id addr => exact (addLearner_mem g id addr).config
  | promoteLearner id => exact (promoteLearner_mem g id).config
  | removeNode id =>
    rcases removeNode_mem g id with hkeeps | ⟨-, hconfig, -⟩
    · exact hkeeps.config
    · exact hconfig
  | _ => rfl

end RaftGroup

/-! ## §4 — The steps of a process. -/

namespace Process

/-- The entries that a step hands over, in order: the index and the command of each task it queued. -/
def handed (p p' : Process) : List (Index × Bytes) :=
  (p'.group.app.applyQueue.drop p.group.app.applyQueue.length).filterMap
    (·.entryIn p'.group.rep.log)

/-- The tasks of a step are for entries of the log, and the membership after it is `m` changed by
these. -/
structure Follows (p p' : Process) (m : MembershipState) : Prop where
  opts : p'.group.opts = p.group.opts
  found : ∀ t ∈ p'.group.app.applyQueue.drop p.group.app.applyQueue.length,
    (p'.group.rep.log.slot t.index).isSome
  mem : p'.group.mem = m.applyEntries p.group.opts.json p.group.serverId (p.handed p')

variable {p p' : Process} {ev : Event} {env : Env}

theorem handed_eq_nil (h : p'.group.app.applyQueue.length ≤ p.group.app.applyQueue.length) :
    p.handed p' = [] := by
  rw [handed, List.drop_eq_nil_of_le h]
  rfl

theorem Follows.of_length {m : MembershipState} (hopts : p'.group.opts = p.group.opts)
    (hlength : p'.group.app.applyQueue.length ≤ p.group.app.applyQueue.length)
    (hmem : p'.group.mem = m) : p.Follows p' m := by
  refine ⟨hopts, ?_, ?_⟩
  · rw [List.drop_eq_nil_of_le hlength]
    simp
  · rw [handed_eq_nil hlength]
    exact hmem

variable {ops : List PipeOp}

theorem afterCall_of_not (g : RaftGroup) (hev : isMembershipCall ev = false) :
    g.afterCall ev = g.mem := by
  cases ev <;> first | rfl | cases hev

/-- **The membership after a step** is what the call or the entries handed over make of the one
before it. Starting is not such a step. -/
theorem Step.mem (h : p.Step env ev p') (hev : ∀ recovered, ev ≠ .restart recovered) :
    p.Follows p' ((p.entered env).afterCall ev) := by
  by_cases hcall : isMembershipCall ev = true
  · cases h with
    | event up free ho =>
      obtain ⟨_, _, _, _, hcalls⟩ := (p.entered env).onEvent_calls hcall ho
      obtain ⟨hopts, hqueue⟩ := hcalls.proposes
      refine .of_length hopts (congrArg List.length hqueue).le ?_
      cases ev with
      | addNode | addLearner | promoteLearner | removeNode =>
        cases ho
        rfl
      | _ => cases hcall
    | restart | crash | resume | run => cases hcall
  rw [afterCall_of_not _ (Bool.eq_false_iff.mpr hcall)]
  obtain ⟨calls, ops, -, hops, hdoes, -⟩ := h.does hev (Bool.eq_false_iff.mpr hcall)
  have hhands : (∃ ts, Kept.Hands p.group.kept p'.group.kept ts) → p.Follows p' p.group.mem := by
    rintro ⟨ts, hhands⟩
    have hqueue : p'.group.app.applyQueue = p.group.app.applyQueue ++ ts := hhands.queue
    refine ⟨hhands.opts, ?_, ?_⟩
    · rw [hqueue, List.drop_left]
      exact hhands.found
    · rw [handed, hqueue, List.drop_left]
      exact hhands.mem
  rcases stepOps_calm hops with ⟨⟨cut, rest, rfl, hcut, hrest⟩, -⟩ | ⟨op, rfl, htouch⟩
  · exact hhands (hdoes.hands (fun op hop => (hcut op hop).2) fun op hop => (hrest op hop).2)
  have hstep := Kept.Does.single hdoes
  have hempty : p'.group.app.applyQueue = [] → p'.group.mem = p.group.mem →
      p.Follows p' p.group.mem := by
    intro hqueue hmem
    exact .of_length hstep.opts (by rw [hqueue]; exact Nat.zero_le _) hmem
  cases htouch with
  | restart recovered => exact absurd rfl (hev recovered)
  | take =>
    obtain ⟨-, -, heq⟩ := Pipeline.take_cases hstep.pipeline
    have hqueue : p'.group.app.applyQueue = p.group.app.applyQueue.drop _ :=
      congrArg Pipeline.applyQueue heq
    refine .of_length hstep.opts ?_ hstep.mem
    rw [hqueue]
    exact (List.drop_sublist _ _).length_le
  | drain =>
    obtain ⟨-, heq⟩ := Pipeline.drain_cases hstep.pipeline
    exact hempty (congrArg Pipeline.applyQueue heq) hstep.mem
  | install hc hnew =>
    have heq := Pipeline.install_cases hstep.pipeline
    exact hempty (congrArg Pipeline.applyQueue heq) hstep.mem
  | _ =>
    obtain ⟨ts, hqueued⟩ := Kept.Does.queued hdoes (by simp [PipeOp.grows])
    exact hhands ⟨ts, hqueued.toHands⟩

theorem Step.handed_call (h : p.Step env ev p') (hev : isMembershipCall ev = true) :
    p.handed p' = [] := by
  cases h with
  | event up free ho =>
    obtain ⟨_, _, _, _, hcalls⟩ := (p.entered env).onEvent_calls hev ho
    exact handed_eq_nil (congrArg List.length hcalls.proposes.2).le
  | restart | crash | resume | run => cases hev

variable (g : RaftGroup) (recovered : Recovered)

theorem start_mem : (g.start recovered).mem = g.fresh.loadState.mem := by
  unfold RaftGroup.start
  rw [(RaftGroup.stepDownRest_talks _ true).quiet.mem, (RaftGroup.stepDownElection_quiet _ _).mem]
  cases recovered.snapshot <;> rfl

theorem start_opts : (g.start recovered).opts = g.opts := by
  have hload : g.fresh.loadState.opts = g.opts := by
    unfold RaftGroup.loadState
    split <;> rfl
  refine (congrArg Core.opts (RaftGroup.stepDownRest_talks _ true).quiet.core).trans ?_
  show (g.fresh.loadState.loadSnapshot recovered.snapshot).opts = _
  cases recovered.snapshot <;> exact hload

theorem Step.opts (h : p.Step env ev p') : p'.group.opts = p.group.opts := by
  by_cases hev : ∃ recovered, ev = .restart recovered
  · obtain ⟨recovered, rfl⟩ := hev
    cases h with
    | restart down => exact start_opts _ recovered
    | event up free ho => cases ho
  · exact (h.mem fun recovered heq => hev ⟨recovered, heq⟩).opts

end Process

/-! ## §5 — A node that joins. -/

def firstElection : List (Event × Env) :=
  [(.restart {}, { now := 0 }), (.electionTick, { now := 1000 }),
    (.response 2 (.vote 1) (.vote ⟨1, true⟩), { now := 1001 }), (.resume, { now := 1001 })]

/-- Node 1 adds node 4, and node 2 acknowledges the JOINT entry. -/
def nodeJoins : List (Event × Env) :=
  firstElection ++ [(.addNode 4 [52], { now := 1002 }),
    (.response 2 (.append false 0) (.append ⟨1, true, 0, 1⟩), { now := 1003 })]

end RollingRaft
