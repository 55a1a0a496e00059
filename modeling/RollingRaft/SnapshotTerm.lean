/-
# RollingRaft.SnapshotTerm — the term at the boundary of a node's own snapshot.

When a leader compacts its log, `last_snapshot_index_` and `last_snapshot_term_` take over from the
entries that are dropped: `GetLogTermLocked` answers from them at the boundary. Both come from the
snapshot's meta data, which the state machine makes up. A state machine is told the data and the
index of an entry and never its term, so what it reports depends on nothing that would tell two
terms apart.
-/
import RollingRaft.Content
import RollingRaft.PrevLog

namespace RollingRaft

open Lib

namespace RaftGroup

variable {g : RaftGroup} {i : Index} {t : Term} {e : LogEntry}

/-- The term at the boundary is that of the entry that was there, and every check of a request's
previous entry at the boundary comes out as before. -/
def KeepsBoundary (g g' : RaftGroup) (i : Index) (e : LogEntry) : Prop :=
  g'.snap.lastSnapshotTerm = e.term ∧
    ∀ req : AppendEntriesRequest, req.prevLogIndex = i →
      (g'.prevLogConflict req = none ↔ g.prevLogConflict req = none)

theorem applySnapshot_eq (hold : g.snap.lastSnapshotIndex ≠ i)
    (hnew : (g.applySnapshot i t).snap.lastSnapshotIndex = i) :
    g.snap.lastSnapshotIndex < i ∧ g.applySnapshot i t = { g with
      rep := { g.rep with log := g.rep.log.setStartIndex (add32 i 1) }
      snap := { g.snap with lastSnapshotIndex := i, lastSnapshotTerm := t } } := by
  unfold applySnapshot at hnew ⊢
  split at hnew
  · exact absurd hnew hold
  rename_i hrole
  split at hnew
  · exact absurd hnew hold
  rename_i hlt
  split at hnew
  · exact absurd hnew hold
  rename_i hlast
  rw [if_neg hrole, if_neg hlt, if_neg hlast]
  exact ⟨Nat.lt_of_not_le hlt, rfl⟩

variable {req : AppendEntriesRequest}

/-- Before: an entry of the log answers for itself. -/
theorem prevLogConflict_of_entry (hold : g.snap.lastSnapshotIndex < i)
    (he : g.rep.log.getEntry i = some e) (hreq : req.prevLogIndex = i) :
    g.prevLogConflict req = none ↔ req.prevLogTerm = e.term := by
  have hpos : 0 < i := Nat.zero_lt_of_lt hold
  have hrange : g.rep.log.isInRange i = true := by
    by_contra hout
    simp [RaftLog.getEntry, hout] at he
  simp only [RaftLog.isInRange, Bool.and_eq_true, decide_eq_true_eq] at hrange
  have hsmall : i + 1 < 2 ^ 32 := by
    have hend : add32 g.rep.log.startIndex g.rep.log.entries.length < 2 ^ 32 :=
      Nat.mod_lt _ (by decide)
    exact Nat.lt_of_le_of_lt hrange.2 hend
  have hwindow : g.rep.log.startIndex ≤ add32 i 1 := by
    rw [add32_of_lt hsmall]
    exact Nat.le_succ_of_le hrange.1
  have hterm : g.getLogTerm i = e.term := by
    unfold getLogTerm RaftLog.getLogTerm
    rw [if_neg (Nat.ne_of_gt hpos), if_neg (Nat.ne_of_gt hold), if_neg (Nat.ne_of_gt hpos), he]
  rw [prevLogConflict_eq_none (hreq ▸ hpos), hreq, hterm]
  exact ⟨fun h => h.2.symm, fun h => ⟨hwindow, h.symm⟩⟩

/-- After: the boundary answers with the reported term. -/
theorem prevLogConflict_at_boundary {g' : RaftGroup} (hpos : 0 < i)
    (hstart : g'.rep.log.startIndex = add32 i 1) (hindex : g'.snap.lastSnapshotIndex = i)
     (hreq : req.prevLogIndex = i) :
    g'.prevLogConflict req = none ↔ req.prevLogTerm = g'.snap.lastSnapshotTerm := by
  have hterm : g'.getLogTerm i = g'.snap.lastSnapshotTerm := by
    unfold getLogTerm
    rw [if_neg (Nat.ne_of_gt hpos), if_pos hindex.symm]
  rw [prevLogConflict_eq_none (hreq ▸ hpos), hreq, hterm, hstart]
  exact ⟨fun h => h.2.symm, fun h => ⟨Nat.le_refl _, h.symm⟩⟩

/-- A compaction keeps the boundary when the snapshot came with the term of its last entry, and only
then. -/
theorem keepsBoundary_iff (hold : g.snap.lastSnapshotIndex ≠ i)
    (hnew : (g.applySnapshot i t).snap.lastSnapshotIndex = i) (he : g.rep.log.getEntry i = some e) :
    g.KeepsBoundary (g.applySnapshot i t) i e ↔ t = e.term := by
  obtain ⟨hlt, heq⟩ := applySnapshot_eq hold hnew
  have hterm : (g.applySnapshot i t).snap.lastSnapshotTerm = t := by rw [heq]
  have hstart : (g.applySnapshot i t).rep.log.startIndex = add32 i 1 := by rw [heq]; rfl
  rw [KeepsBoundary, hterm]
  constructor
  · exact fun h => h.1
  · intro h
    refine ⟨h, fun req hreq => ?_⟩
    rw [prevLogConflict_at_boundary (Nat.zero_lt_of_lt hlt) hstart hnew hreq,
      prevLogConflict_of_entry hlt he hreq, hterm, h]

end RaftGroup

variable {s : Process × List MachineEvent}

theorem compact_keepsBoundary_iff {opts : Options} {s' : Process × List MachineEvent} {i : Index}
    {t : Term} {env : Env} {e : LogEntry}
    (hn : (contentSystem opts).next s (.compact i t, env) = some s')
    (hold : s.1.group.snap.lastSnapshotIndex ≠ i) (hnew : s'.1.group.snap.lastSnapshotIndex = i)
    (he : s.1.group.rep.log.getEntry i = some e) :
    s.1.group.KeepsBoundary s'.1.group i e ↔ t = e.term := by
  obtain ⟨p, past⟩ := s
  obtain ⟨p', past'⟩ := s'
  have hnext : p.next (.compact i t, env) = some p' := (TransitionSystem.recording_next hn).1
  cases Process.step_of_next hnext with
  | event up free ho =>
    obtain rfl := Option.some.inj ho
    exact RaftGroup.keepsBoundary_iff (g := p.entered env) hold hnew he

/-- A state machine that also makes snapshots: the term in the meta data of one that it makes. -/
structure SnapshotMachine (σ : Type*) extends StateMachine σ where
  snapshotTerm : σ → Term

/-- **The boundary of an own snapshot.** Whatever the state machine, when a snapshot that it made after
the calls in `made` takes effect, the boundary answers as the log did exactly when the term it
reported is that of the log's entry. -/
theorem compaction_keeps_boundary_iff {σ : Type*} (sm : SnapshotMachine σ) (opts : Options)
    (made : List MachineEvent) {s s' : Process × List MachineEvent} {i : Index} {env : Env}
    {e : LogEntry}
    (hn : (contentSystem opts).next s (.compact i (sm.snapshotTerm (sm.content made)), env) = some s')
    (hold : s.1.group.snap.lastSnapshotIndex ≠ i) (hnew : s'.1.group.snap.lastSnapshotIndex = i)
    (he : s.1.group.rep.log.getEntry i = some e) :
    s.1.group.KeepsBoundary s'.1.group i e ↔ sm.snapshotTerm (sm.content made) = e.term :=
  compact_keepsBoundary_iff hn hold hnew he

/-! ## No state machine can know. -/

/-- A leader commits and applies the command `[7]` at index 1. -/
def commandApplies : List (Event × Env) :=
  [(.propose [7] 0 0, { now := 5000 }), (.persisted 1 true, { now := 5001 }),
    (.response 2 (.append false 0) (.append ⟨1, true, 0, 1⟩), { now := 5002 }),
    (.applyTake, { now := 5003 }), (.applyLoad, { now := 5003 }), (.applyTask {}, { now := 5003 }),
    (.applyPublish, { now := 5003 })]

/-- Node 1 is elected at its first attempt. -/
def firstAttempt : List (Event × Env) :=
  [(.restart {}, { now := 0 }), (.electionTick, { now := 1000 }),
    (.response 2 (.vote 1) (.vote ⟨1, true⟩), { now := 1001 }), (.resume, { now := 1001 })]

/-- Node 1 is elected at its second attempt. -/
def secondAttempt : List (Event × Env) :=
  [(.restart {}, { now := 0 }), (.electionTick, { now := 1000 }), (.electionTick, { now := 3000 }),
    (.response 2 (.vote 2) (.vote ⟨2, true⟩), { now := 3001 }), (.resume, { now := 3001 })]

/-- The leader of term `t` has one entry, which is applied, and nothing else. -/
def hasApplied (t : Term) (s : Process × List MachineEvent) : Bool :=
  s.1.group.running && s.1.group.el.role = .leader && s.1.group.halt.isNone &&
    s.1.canTake .er && s.1.group.snap.lastSnapshotIndex = 0 &&
    s.1.group.rep.log = ⟨[⟨1, t, [7]⟩], 1⟩ && s.2 = [.applied 1 [7], .started {}]

/-- A leader of term 1 and one of term 2 whose state machines have seen the same calls. -/
theorem reachable_hasApplied {t : Term} (ht : t = 1 ∨ t = 2) :
    ∃ s, (contentSystem votingOne).Reachable s ∧ hasApplied t s = true := by
  rcases ht with rfl | rfl
  · exact (contentSystem votingOne).reaches (firstAttempt ++ commandApplies) (contentSystem_init _)
      (by decide +kernel)
  · exact (contentSystem votingOne).reaches (secondAttempt ++ commandApplies) (contentSystem_init _)
      (by decide +kernel)

/-- A snapshot of index 1 takes effect there, with whatever term it comes. -/
theorem compact_hasApplied {t r : Term} (h : hasApplied t s = true) :
    ∃ s', (contentSystem votingOne).next s (.compact 1 r, {}) = some s' ∧
      s.1.group.snap.lastSnapshotIndex ≠ 1 ∧ s'.1.group.snap.lastSnapshotIndex = 1 ∧
      s.1.group.rep.log.getEntry 1 = some ⟨1, t, [7]⟩ := by
  simp only [hasApplied, Bool.and_eq_true, decide_eq_true_eq] at h
  obtain ⟨⟨⟨⟨⟨⟨hrunning, hrole⟩, hup⟩, hfree⟩, hsnap⟩, hlog⟩, -⟩ := h
  have hnext : s.1.next (.compact 1 r, {}) =
      some (s.1.absorb { group := (s.1.entered {}).applySnapshot 1 r }) := by
    show (if s.1.group.halt.isNone && s.1.canTake .er then _ else none) = _
    rw [hup, hfree]
    rfl
  have heffect : ((s.1.entered {}).applySnapshot 1 r).snap.lastSnapshotIndex = 1 := by
    have hrun : ¬ ((!(s.1.entered {}).running || (s.1.entered {}).el.role ≠ .leader) = true) := by
      show ¬ ((!s.1.group.running || s.1.group.el.role ≠ .leader) = true)
      simp [hrunning, hrole]
    have hbehind : ¬ 1 ≤ (s.1.entered {}).snap.lastSnapshotIndex := by
      show ¬ 1 ≤ s.1.group.snap.lastSnapshotIndex
      simp [hsnap]
    have hlast : ¬ 1 < (s.1.entered {}).rep.log.getLastLogInfo.1 := by
      show ¬ 1 < s.1.group.rep.log.getLastLogInfo.1
      rw [hlog]
      exact Nat.lt_irrefl 1
    unfold RaftGroup.applySnapshot
    rw [if_neg hrun, if_neg hbehind, if_neg hlast]
  refine ⟨_, Option.map_eq_some_iff.mpr ⟨_, hnext, rfl⟩, ?_, heffect, ?_⟩
  · rw [hsnap]
    decide
  · rw [hlog]
    rfl

/-- Whatever the state machine reports: there is a reachable leader whose compaction at index 1 does
not keep the boundary. -/
theorem no_machine_keeps_boundary :
    ∀ (σ : Type) (sm : SnapshotMachine σ), ∃ s s' e,
      (contentSystem votingOne).Reachable s ∧
      (contentSystem votingOne).next s (.compact 1 (sm.snapshotTerm (sm.content s.2)), {}) = some s' ∧
      s'.1.group.snap.lastSnapshotIndex = 1 ∧ s.1.group.rep.log.getEntry 1 = some e ∧
      ¬ s.1.group.KeepsBoundary s'.1.group 1 e := by
  intro σ sm
  -- the state machines of both leaders report the same term, and one of the leaders has another
  obtain ⟨t, ht, hne⟩ : ∃ t, (t = 1 ∨ t = 2) ∧
      sm.snapshotTerm (sm.content [.applied 1 [7], .started {}]) ≠ t := by
    by_cases hone : sm.snapshotTerm (sm.content [.applied 1 [7], .started {}]) = 1
    · exact ⟨2, .inr rfl, by rw [hone]; decide⟩
    · exact ⟨1, .inl rfl, hone⟩
  obtain ⟨s, hreach, hs⟩ := reachable_hasApplied ht
  have hpast : s.2 = [.applied 1 [7], .started {}] := by
    simp only [hasApplied, Bool.and_eq_true, decide_eq_true_eq] at hs
    exact hs.2
  obtain ⟨s', hnext, hold, hnew, hentry⟩ := compact_hasApplied hs
  refine ⟨s, s', _, hreach, hnext, hnew, hentry, fun h => hne ?_⟩
  rw [← hpast]
  exact (compact_keepsBoundary_iff hnext hold hnew hentry).mp h

/-- A state machine that counts its commands and happens to report term 1. -/
def countingMachine : SnapshotMachine Nat where
  init := 0
  apply n _ _ := n + 1
  restore _ := 0
  snapshotTerm _ := 1

/-- The same machine, when it leaves the term of its snapshots at 0. -/
def termlessMachine : SnapshotMachine Nat := { countingMachine with snapshotTerm := fun _ => 0 }

theorem termlessMachine_changes_boundary : ∃ s s' e,
    (contentSystem votingOne).Reachable s ∧
    (contentSystem votingOne).next s
      (.compact 1 (termlessMachine.snapshotTerm (termlessMachine.content s.2)), {}) = some s' ∧
    s'.1.group.snap.lastSnapshotIndex = 1 ∧ s.1.group.rep.log.getEntry 1 = some e ∧
    ¬ s.1.group.KeepsBoundary s'.1.group 1 e :=
  no_machine_keeps_boundary Nat termlessMachine

theorem countingMachine_keeps_boundary :
    ∃ s s' : Process × List MachineEvent, (contentSystem votingOne).Reachable s ∧
      s.1.group.KeepsBoundary s'.1.group 1 ⟨1, 1, [7]⟩ := by
  obtain ⟨s, hreach, hs⟩ := reachable_hasApplied (t := 1) (.inl rfl)
  obtain ⟨s', hnext, hold, hnew, hentry⟩ := compact_hasApplied (r := 1) hs
  exact ⟨s, s', hreach,
    (compaction_keeps_boundary_iff countingMachine votingOne s.2 hnext hold hnew hentry).mpr rfl⟩

end RollingRaft
