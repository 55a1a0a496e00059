/-
# RollingRaft.Outstanding — configuration entries of a leader that are not applied yet.

A leader refuses a membership call while `pending_config_change_` is set. The flag is set when a call
is accepted and cleared when any configuration entry is applied; nobody sets it for the FINALIZE
entry that a leader appends when it applies JOINT, nor for entries that a leader finds in its log when
it is elected. What does protect a leader is `cluster_config_.is_joint`, which the calls do not look
at.

`Tracked` is what holds of a leader as long as nobody calls it in joint mode: at most one
configuration entry of its log is outstanding; in joint mode that is FINALIZE of the voters in force,
and otherwise the flag is set.
-/
import RollingRaft.ConfigAgreement
import RollingRaft.Removal

namespace RollingRaft

open Lib

/-! ## §1 — Outstanding entries. -/

namespace RaftGroup

variable (g : RaftGroup)

/-- The configuration entries of the log behind `last_enqueued_`, in order. -/
def outstanding : List LogEntry :=
  (g.rep.log.entries.drop (g.app.lastEnqueued + 1 - g.rep.log.startIndex)).filter
    (isConfigChange ·.data)

/-- At most one entry is outstanding: FINALIZE in joint mode, and otherwise one that
`pending_config_change_` stands for. -/
def Tracked : Prop :=
  g.outstanding = [] ∨ ∃ e, g.outstanding = [e] ∧
    if g.mem.config.isJoint then e.data = finalizeCommand g.opts.json g.mem.config.nodes
    else g.mem.pendingConfigChange = true

end RaftGroup

/-- The same of a pipeline. -/
def Pipeline.outstanding (q : Pipeline) : List LogEntry :=
  (q.log.entries.drop (q.lastEnqueued + 1 - q.log.startIndex)).filter (isConfigChange ·.data)

def Kept.Tracked (k : Kept) : Prop :=
  k.pipeline.outstanding = [] ∨ ∃ e, k.pipeline.outstanding = [e] ∧
    if k.mem.config.isJoint then e.data = finalizeCommand k.opts.json k.mem.config.nodes
    else k.mem.pendingConfigChange = true

theorem isConfigChange_finalizeCommand (js : JsonText) (nodes : List NodeId) :
    isConfigChange (finalizeCommand js nodes) = true := by
  have hlead : ascii "CONFIG_CHANGE:" <+: ascii "CONFIG_CHANGE:FINALIZE:" := by decide +kernel
  exact startsWith_iff.mpr (hlead.trans (List.prefix_append _ _))

namespace Pipeline

variable {q r : Pipeline} {e : LogEntry}

theorem outstanding_of_eq (hlog : r.log = q.log) (hlast : r.lastEnqueued = q.lastEnqueued) :
    r.outstanding = q.outstanding := by
  unfold outstanding
  rw [hlog, hlast]

theorem outstanding_of_empty (h : q.log.entries = []) : q.outstanding = [] := by
  unfold outstanding
  rw [h, List.drop_nil]
  rfl

/-- An entry behind the end is outstanding when it carries a configuration. -/
theorem outstanding_append (hlog : r.log = q.log.appendLogEntry e)
    (hlast : r.lastEnqueued = q.lastEnqueued) :
    r.outstanding = q.outstanding ∨
      isConfigChange e.data = true ∧ r.outstanding = q.outstanding ++ [e] := by
  have hout : r.outstanding = q.outstanding ++ ([e].drop (q.lastEnqueued + 1 - q.log.startIndex -
      q.log.entries.length)).filter (isConfigChange ·.data) := by
    unfold outstanding
    rw [hlog, hlast]
    show (List.drop (q.lastEnqueued + 1 - q.log.startIndex) (q.log.entries ++ [e])).filter _ = _
    rw [List.drop_append, List.filter_append]
  rw [hout]
  cases q.lastEnqueued + 1 - q.log.startIndex - q.log.entries.length with
  | zero =>
    rw [List.drop_zero, List.filter_cons]
    split
    · exact .inr ⟨‹_›, rfl⟩
    · exact .inl (List.append_nil _)
  | succ n =>
    rw [List.drop_succ_cons, List.drop_nil]
    exact .inl (List.append_nil _)

theorem outstanding_after (more : List LogEntry)
    (he : q.log.getEntry (q.lastEnqueued + 1) = some e)
    (hlast : r.lastEnqueued = q.lastEnqueued + 1)
    (hlog : r.log = { q.log with entries := q.log.entries ++ more }) :
    ∃ rest, q.outstanding = (if isConfigChange e.data then [e] else []) ++ rest ∧
      r.outstanding = rest ++ more.filter (isConfigChange ·.data) := by
  obtain ⟨hstart, hslot⟩ := RaftLog.hasAt_of_getEntry he
  obtain ⟨hlt, hget⟩ := List.getElem?_eq_some_iff.mp hslot
  have hnext : q.lastEnqueued + 1 + 1 - q.log.startIndex =
      q.lastEnqueued + 1 - q.log.startIndex + 1 := Nat.succ_sub hstart
  refine ⟨(q.log.entries.drop (q.lastEnqueued + 1 - q.log.startIndex + 1)).filter
    (isConfigChange ·.data), ?_, ?_⟩
  · unfold outstanding
    rw [List.drop_eq_getElem_cons hlt, hget, List.filter_cons]
    split <;> rfl
  · unfold outstanding
    rw [hlast, hlog]
    dsimp only
    rw [hnext, List.drop_append_of_le_length hlt, List.filter_append]

end Pipeline

/-! ## §2 — Operations. -/

/-- An operation that a leader does without losing track: the entries it appends carry no
configuration, and it does not follow another leader. -/
def PipeOp.Plain : PipeOp → Prop
  | .create e | .submit e _ _ => isConfigChange e.data = false
  | .install i _ => i < 2 ^ 32
  | .truncate _ | .extend _ | .boot _ => False
  | _ => True

namespace Kept

variable {k k' k'' : Kept} {op : PipeOp}

/-- The outstanding entry is kept track of, and nothing becomes outstanding when nothing was. -/
def KeepsTrack (k k' : Kept) : Prop :=
  (k.Tracked → k'.Tracked) ∧ (k.pipeline.outstanding = [] → k'.pipeline.outstanding = [])

theorem KeepsTrack.of_eq (hout : k'.pipeline.outstanding = k.pipeline.outstanding)
    (hopts : k'.opts = k.opts) (hmem : k'.mem = k.mem) : KeepsTrack k k' := by
  unfold KeepsTrack Tracked
  rw [hout, hopts, hmem]
  exact ⟨id, id⟩

theorem KeepsTrack.of_none (h : k'.pipeline.outstanding = []) : KeepsTrack k k' :=
  ⟨fun _ => .inl h, fun _ => h⟩

theorem Step.keepsTrack (h : k.Step op k') (hfits : k.pipeline.Fits) (hop : op.Plain)
    (hne : op ≠ .stuck) : KeepsTrack k k' := by
  have hn := h.pipeline
  have hnext : k.pipeline.lastEnqueued < k.pipeline.commitIndex →
      k.pipeline.nextIndex = k.pipeline.lastEnqueued + 1 :=
    fun hlt => add32_of_lt (lt_of_le_of_lt (Nat.succ_le_of_lt hlt) hfits.commit)
  cases op with
  | create e | submit e =>
    obtain ⟨-, heq⟩ := Option.ite_none_right_eq_some.mp hn
    have heq := (Option.some.inj heq).symm
    have hlog : k'.pipeline.log = k.pipeline.log.appendLogEntry e := congrArg Pipeline.log heq
    have hlast := ((Pipeline.next_frame hn).queue rfl).2
    rcases Pipeline.outstanding_append hlog hlast with hout | ⟨hconfig, -⟩
    · exact .of_eq hout h.opts h.mem
    · cases hconfig.symm.trans hop
  | compact i t =>
    obtain ⟨-, heq⟩ := Option.ite_none_right_eq_some.mp hn
    exact .of_none (Pipeline.outstanding_of_empty (congrArg (·.log.entries) (Option.some.inj heq).symm))
  | install i t =>
    have heq := Pipeline.install_cases hn
    exact .of_none (Pipeline.outstanding_of_empty (congrArg (·.log.entries) heq))
  | handOver e =>
    simp only [Pipeline.next, Option.ite_none_right_eq_some, Bool.and_eq_true,
      decide_eq_true_eq, Bool.not_eq_true'] at hn
    obtain ⟨⟨⟨hlt, he⟩, hplain⟩, heq⟩ := hn
    have heq := (Option.some.inj heq).symm
    have hplain : isConfigChange e.data = false := hplain
    rw [hnext hlt] at he
    obtain ⟨rest, hrest, hafter⟩ := Pipeline.outstanding_after (r := k'.pipeline) [] he
      ((congrArg Pipeline.lastEnqueued heq).trans (hnext hlt))
      ((congrArg Pipeline.log heq).trans (by rw [List.append_nil]; rfl))
    rw [hplain] at hrest
    exact .of_eq (hafter.trans ((List.append_nil _).trans hrest.symm)) h.opts h.mem
  | handOverConfig e made =>
    simp only [Pipeline.next, Option.ite_none_right_eq_some, Bool.and_eq_true,
      decide_eq_true_eq, Pipeline.handOverConfig_eq] at hn
    obtain ⟨⟨⟨⟨hlt, he⟩, hconfig⟩, -⟩, heq⟩ := hn
    have heq := (Option.some.inj heq).symm
    have hconfig : isConfigChange e.data = true := hconfig
    rw [hnext hlt] at he
    obtain ⟨rest, hrest, hafter⟩ := Pipeline.outstanding_after (r := k'.pipeline) made.toList he
      ((congrArg Pipeline.lastEnqueued heq).trans (hnext hlt))
      ((congrArg Pipeline.log heq).trans (Pipeline.foldl_appendLogEntry _ _))
    rw [if_pos hconfig] at hrest
    refine ⟨fun ht => ?_, fun hnone => by rw [hnone] at hrest; cases hrest⟩
    -- the entry was the outstanding one, and FINALIZE takes its place
    have hempty : rest = [] := by
      rcases ht with hnone | ⟨e', hone, -⟩
      · rw [hnone] at hrest
        cases hrest
      · rw [hone] at hrest
        exact (List.cons.inj hrest).2.symm
    rw [hempty, List.nil_append] at hafter
    cases made with
    | none => exact .inl hafter
    | some e' =>
      obtain ⟨hjoint, hdata⟩ := h.mem.2 e' rfl
      have hmade : isConfigChange e'.data = true := by
        rw [hdata]
        exact isConfigChange_finalizeCommand _ _
      refine .inr ⟨e', hafter.trans (List.filter_cons_of_pos (by exact hmade)), ?_⟩
      rw [if_pos hjoint, h.opts]
      exact hdata
  | stuck => exact absurd rfl hne
  | truncate | extend | boot => exact hop.elim
  | take =>
    obtain ⟨-, -, heq⟩ := Pipeline.take_cases hn
    exact .of_eq (by rw [heq]; rfl) h.opts h.mem
  | drain =>
    obtain ⟨-, heq⟩ := Pipeline.drain_cases hn
    exact .of_eq (by rw [heq]; rfl) h.opts h.mem
  | _ =>
    have hframe := Pipeline.next_frame hn
    exact .of_eq (Pipeline.outstanding_of_eq (hframe.same rfl) (hframe.queue rfl).2) h.opts h.mem

end Kept

namespace RaftGroup

variable (g : RaftGroup) {e : LogEntry} {cmd : Bytes}

/-! ## §3 — Membership calls. -/

/-- What a membership call appends when it is accepted. -/
def callCommand : Event → Option Bytes
  | .addNode id _ => some (g.jointCommand g.mem.config.nodes (g.mem.config.nodes ++ [id]))
  | .promoteLearner id => some (g.jointCommand g.mem.config.nodes (g.mem.config.nodes ++ [id]))
  | .removeNode id => some (g.jointCommand g.mem.config.nodes (g.mem.config.nodes.filter (· ≠ id)))
  | .addLearner id addr =>
    some (ascii "CONFIG_CHANGE:ADD_LEARNER:" ++ ascii (toString id) ++ ascii ":" ++ addr)
  | _ => none

def callStatus : Event → Option Status
  | .addNode id addr => some (g.addNode id addr).2
  | .addLearner id addr => some (g.addLearner id addr).2
  | .promoteLearner id => some (g.promoteLearner id).2
  | .removeNode id => some (g.removeNode id).2.2
  | _ => none

/-- The entry is in the log, and the flag is set. -/
structure Accepts (g g' : RaftGroup) (cmd : Bytes) : Prop where
  free : g.mem.pendingConfigChange = false
  opts : g'.opts = g.opts
  config : g'.mem.config = g.mem.config
  pending : g'.mem.pendingConfigChange = true
  log : g'.rep.log = g.rep.log.appendLogEntry ⟨g.rep.log.newIndex, g.el.currentTerm, cmd⟩
  lastEnqueued : g'.app.lastEnqueued = g.app.lastEnqueued

theorem Accepts.of_kept {g g' g'' : RaftGroup} {peers : Map NodeId Bytes} (h : Accepts g g' cmd)
    (hkept : g''.kept = { g'.kept with mem := { g'.mem with peerMap := peers } }) :
    Accepts g g'' cmd := by
  have hmem := congrArg Kept.mem hkept
  exact ⟨h.free, (congrArg Kept.opts hkept).trans h.opts,
    (congrArg MembershipState.config hmem).trans h.config,
    (congrArg MembershipState.pendingConfigChange hmem).trans h.pending,
    (congrArg (·.pipeline.log) hkept).trans h.log,
    (congrArg (·.pipeline.lastEnqueued) hkept).trans h.lastEnqueued⟩

theorem proposeConfigChange_accepts {g : RaftGroup} (hfree : g.mem.pendingConfigChange = false)
    (hok : (g.proposeConfigChange cmd).2 = true) :
    Accepts g (g.proposeConfigChange cmd).1 cmd := by
  have hkept := proposeConfigChange_kept g cmd
  rw [hok] at hkept
  exact ⟨hfree, congrArg Kept.opts hkept, congrArg (·.mem.config) hkept,
    congrArg (·.mem.pendingConfigChange) hkept, congrArg (·.pipeline.log) hkept,
    congrArg (·.pipeline.lastEnqueued) hkept⟩

/-- The write of the entry is the only thing that can fail after the checks. -/
theorem proposeConfigChange_written (cmd : Bytes) (hwrite : g.env.writes.headD true = true) :
    (g.proposeConfigChange cmd).2 = true := by
  have hflush : ((g.createEntry cmd).1.flushNow (g.createEntry cmd).2).2 = true := by
    unfold flushNow
    split
    · dsimp only
      rw [if_pos (show (g.createEntry cmd).1.write.2 = true from hwrite)]
    · rfl
  unfold proposeConfigChange
  rw [if_pos hflush]

theorem CallsFor.cases {g g' : RaftGroup} {wrong : Option Bytes}
    {edit : Map NodeId Bytes → Map NodeId Bytes} {status : Status}
    (h : CallsFor g wrong cmd edit g' status) (hwrite : g.env.writes.headD true = true) :
    g' = g ∧ some status ≠ some .ok ∨ Accepts g g' cmd ∧ some status = some .ok := by
  have hwritten := proposeConfigChange_written g cmd hwrite
  cases h with
  | refused hcheck => exact .inl ⟨rfl, fun heq => membershipCheck_ne_ok hcheck (Option.some.inj heq)⟩
  | unwritten hcheck hfailed => exact absurd hwritten hfailed
  | accepted hcheck _ hkept =>
    have haccepts := proposeConfigChange_accepts (membershipCheck_eq_none hcheck).2.2.2 hwritten
    exact .inr ⟨haccepts.of_kept hkept, rfl⟩

/-- **A membership call** changes nothing, or appends its entry and sets the flag, or fails to write
the entry. -/
theorem call_cases {call : Nat} {ev : Event} {o : SectionEnd} (hcmd : g.callCommand ev = some cmd)
    (ho : g.onEvent call ev = some o) (hwrite : g.env.writes.headD true = true) :
    o.group = g ∧ g.callStatus ev ≠ some .ok ∨
      Accepts g o.group cmd ∧ g.callStatus ev = some .ok := by
  cases ev with
  | addNode id addr =>
    cases hcmd
    cases ho
    obtain ⟨_, hcalls⟩ := addNode_calls g id addr
    exact hcalls.cases hwrite
  | addLearner id addr =>
    cases hcmd
    cases ho
    obtain ⟨_, hcalls⟩ := addLearner_calls g id addr
    exact hcalls.cases hwrite
  | promoteLearner id =>
    cases hcmd
    cases ho
    obtain ⟨_, hcalls⟩ := promoteLearner_calls g id
    exact hcalls.cases hwrite
  | removeNode id => cases hcmd; cases ho; exact (removeNode_calls g id).cases hwrite
  | _ => cases hcmd

/-- An accepted call leaves at most its entry outstanding. -/
theorem Accepts.tracked {g g' : RaftGroup} (h : Accepts g g' cmd) (hnone : g.outstanding = [])
    (hjoint : g.mem.config.isJoint = false) : g'.Tracked := by
  have hnone : g.pipeline.outstanding = [] := hnone
  rcases Pipeline.outstanding_append (q := g.pipeline) (r := g'.pipeline) h.log h.lastEnqueued with
    hout | ⟨-, hout⟩
  · exact .inl (hout.trans hnone)
  · rw [hnone] at hout
    refine .inr ⟨_, hout, ?_⟩
    rw [h.config, hjoint]
    exact h.pending

end RaftGroup

end RollingRaft
