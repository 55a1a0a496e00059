/-
# RollingRaft.Removal — what becomes of a node that `RemoveNode` was asked to remove.

`RemoveNode` encodes the removal as two voter lists, the present one and the one without the node.
The JOINT entry and the FINALIZE entry that follows it put the second list in force and take its
members out of the learners. Nothing takes a removed learner out of the learners, and nothing keeps
the second list from being empty.
-/
import RollingRaft.ConfigChange
import RollingRaft.PipelineSteps

namespace RollingRaft

open Lib

/-- The node is in no list of the configuration, and somebody votes. -/
def ClusterConfig.Without (c : ClusterConfig) (id : NodeId) : Prop :=
  c.contains id = false ∧ c.nodes ≠ []

namespace RaftGroup

variable {g : RaftGroup}

theorem membershipCheck_ne_ok {wrong : Option Bytes} {status : Status}
    (h : g.membershipCheck wrong = some status) : status ≠ .ok := by
  rintro rfl
  unfold membershipCheck at h
  split at h
  · cases h
  split at h
  · cases h
  cases wrong with
  | some message => cases h
  | none =>
    dsimp only at h
    split at h <;> cases h

theorem proposeConfigChange_log (cmd : Bytes) :
    (g.proposeConfigChange cmd).1.rep.log.entries =
      g.rep.log.entries ++ [⟨g.rep.log.newIndex, g.el.currentTerm, cmd⟩] := by
  have hlog : ((g.createEntry cmd).1.flushNow (g.createEntry cmd).2).1.rep.log.entries =
      g.rep.log.entries ++ [⟨g.rep.log.newIndex, g.el.currentTerm, cmd⟩] := by
    rw [(flushNow_talks _ _).quiet.log]
    rfl
  unfold proposeConfigChange
  dsimp only
  split
  · exact hlog
  · exact hlog

/-- A call that returns OK has appended the JOINT entry from the voters to the voters but one. -/
theorem removeNode_log {id : NodeId} (hok : (g.removeNode id).2.2 = .ok) :
    (g.removeNode id).1.rep.log.entries = g.rep.log.entries ++ [⟨g.rep.log.newIndex,
      g.el.currentTerm, g.jointCommand g.mem.config.nodes (g.mem.config.nodes.filter (· ≠ id))⟩] := by
  have hcalls := removeNode_calls g id
  rw [hok] at hcalls
  generalize (g.removeNode id).1 = g' at hcalls ⊢
  cases hcalls with
  | refused hcheck => exact absurd rfl (membershipCheck_ne_ok hcheck)
  | accepted hcheck hwritten hkept =>
    rw [← proposeConfigChange_log]
    exact congrArg (fun k : Kept => k.pipeline.log.entries) hkept

end RaftGroup

theorem contains_after_change (c : ClusterConfig) {old nodes : List NodeId} {id : NodeId}
    (hid : id ∉ nodes) :
    ((ConfigChange.finalize nodes).config ((ConfigChange.joint old nodes).config c)).contains id =
      decide (id ∈ c.learners) := by
  simp [ConfigChange.config, ClusterConfig.contains, hid]

/-- **What becomes of a removed node.** The JOINT entry that `RemoveNode` appended and the FINALIZE
entry that follows it, applied with no other change in between, leave the node out and somebody to
vote exactly when the node was not a learner and was not the only voter. -/
theorem removed_iff_other_voter {g h h' : RaftGroup} {id : NodeId} {e : LogEntry}
    (hok : (g.removeNode id).2.2 = .ok)
    (he : (g.removeNode id).1.rep.log.entries = g.rep.log.entries ++ [e])
    (hjs : g.opts.json.PrintsLists) (hids : Int32Ids g.mem.config.nodes)
    (hjson : h.opts.json = g.opts.json) (hconfig : h.mem.config = g.mem.config)
    (hjson' : h'.opts.json = g.opts.json)
    (hconfig' : h'.mem.config = (h.applyConfigChange e.data).mem.config) :
    (h'.applyConfigChange
        (finalizeCommand h'.opts.json h'.mem.config.nodes)).mem.config.Without id ↔
      id ∉ g.mem.config.learners ∧ ∃ n ∈ g.mem.config.nodes, n ≠ id := by
  have hdata : e.data = g.jointCommand g.mem.config.nodes (g.mem.config.nodes.filter (· ≠ id)) := by
    rw [RaftGroup.removeNode_log hok] at he
    exact congrArg LogEntry.data (List.head_eq_of_cons_eq (List.append_inj' he rfl).2).symm
  have hkept : Int32Ids (g.mem.config.nodes.filter (· ≠ id)) := fun n hn =>
    hids n (List.mem_of_mem_filter hn)
  -- the JOINT entry puts both lists in force
  have hjoint : h'.mem.config = (ConfigChange.joint g.mem.config.nodes
      (g.mem.config.nodes.filter (· ≠ id))).config g.mem.config := by
    rw [hconfig', RaftGroup.applyConfigChange_mem, hdata, hjson]
    show (ConfigChange.readChange _ _).config h.mem.config = _
    rw [RaftGroup.jointCommand, readChange_joint hjs hids hkept, hconfig]
  have hnodes : h'.mem.config.nodes = g.mem.config.nodes.filter (· ≠ id) := by rw [hjoint]; rfl
  -- and the FINALIZE entry the second one
  have hfinal : (h'.applyConfigChange
      (finalizeCommand h'.opts.json h'.mem.config.nodes)).mem.config =
        (ConfigChange.finalize (g.mem.config.nodes.filter (· ≠ id))).config h'.mem.config := by
    rw [RaftGroup.applyConfigChange_mem, hnodes, hjson']
    show (ConfigChange.readChange _ _).config h'.mem.config = _
    rw [readChange_finalize hjs hkept]
  have hid : id ∉ g.mem.config.nodes.filter (· ≠ id) := by simp
  rw [hfinal, hjoint, ClusterConfig.Without, contains_after_change _ hid, decide_eq_false_iff_not]
  apply and_congr_right
  intro _
  show g.mem.config.nodes.filter (· ≠ id) ≠ [] ↔ _
  rw [ne_eq, List.filter_eq_nil_iff]
  simp

/-! ## A learner that stays. -/

/-- Node 1 is elected and adds node 4 as a learner; node 2 acknowledges. -/
def learnerJoins : List (Event × Env) :=
  [(.restart {}, { now := 0 }), (.electionTick, { now := 1000 }),
    (.response 2 (.vote 1) (.vote ⟨1, true⟩), { now := 1001 }), (.resume, { now := 1001 }),
    (.addLearner 4 [], { now := 1002 }),
    (.response 2 (.append false 0) (.append ⟨1, true, 0, 1⟩), { now := 1003 })]

/-- It then removes node 4; both entries of the removal are acknowledged and flushed. -/
def learnerLeaves : List (Event × Env) :=
  [(.removeNode 4, { now := 1004 }),
    (.response 2 (.append false 0) (.append ⟨1, true, 0, 1⟩), { now := 1005 }),
    (.response 2 (.append false 0) (.append ⟨1, true, 0, 1⟩), { now := 1006 }),
    (.persisted 3 true, { now := 1007 })]

/-- A reachable leader accepts the removal of learner 4. Once both entries are applied, node 4 is
still in the configuration. -/
theorem removed_learner_stays :
    ∃ p p', (Process.system readingOne).Reachable p ∧ p.group.el.role = .leader ∧
      (p.group.removeNode 4).2.2 = .ok ∧
      (Process.system readingOne).replay (fun _ _ => true) p learnerLeaves = some p' ∧
      p'.group.rep.log.getLastLogInfo.1 = p'.group.app.lastEnqueued ∧
      p'.group.mem.config.isJoint = false ∧ ¬ p'.group.mem.config.Without 4 := by
  obtain ⟨p, hreach, hrole, hok, p', hp', happlied, hjoint, hcontains⟩ :=
    (Process.system readingOne).reaches learnerJoins rfl (P := fun p => p.group.el.role = .leader ∧
      (p.group.removeNode 4).2.2 = .ok ∧
      ∃ p' ∈ (Process.system readingOne).replay (fun _ _ => true) p learnerLeaves,
        p'.group.rep.log.getLastLogInfo.1 = p'.group.app.lastEnqueued ∧
        p'.group.mem.config.isJoint = false ∧ p'.group.mem.config.contains 4 = true) (by decide +kernel)
  refine ⟨p, p', hreach, hrole, hok, hp', happlied, hjoint, fun h => ?_⟩
  rw [h.1] at hcontains
  cases hcontains

def leaderOfThree : RaftGroup :=
  { opts := readingOne, el := { role := .leader, currentTerm := 1 }
    mem := { config := { nodes := [1, 2, 3], version := 1 } } }

theorem leaderOfThree_removes_three :
    ∃ joint : Bytes, (leaderOfThree.removeNode 3).2.2 = .ok ∧
      ((leaderOfThree.applyConfigChange joint).applyConfigChange
        (finalizeCommand (leaderOfThree.applyConfigChange joint).opts.json
          (leaderOfThree.applyConfigChange joint).mem.config.nodes)).mem.config.Without 3 := by
  have hok : (leaderOfThree.removeNode 3).2.2 = .ok := by decide +kernel
  have hjson (cmd : Bytes) :
      (leaderOfThree.applyConfigChange cmd).opts.json = leaderOfThree.opts.json := by
    rw [(RaftGroup.applyConfigChange_guarded leaderOfThree cmd).opts]
  refine ⟨_, hok, (removed_iff_other_voter hok (RaftGroup.removeNode_log hok) listJson_printsLists
    ?_ rfl rfl (hjson _) rfl).mpr ⟨by decide, 1, by decide, by decide⟩⟩
  intro n hn
  have hsmall : ∀ m ∈ ([1, 2, 3] : List NodeId), -2 ^ 31 ≤ m ∧ m < 2 ^ 31 := by decide
  exact hsmall n hn

end RollingRaft
