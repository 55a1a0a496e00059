/-
# RollingRaft.PrevLog — what an accepted `prev_log_index` says about the follower's log.

`HandleAppendEntries` compares the term of the request's previous entry with what `GetLogTermLocked`
answers. That function answers 0 for every index it does not know, so a request that gives 0 as the
previous term passes the comparison at an index the follower has nothing at. Only a request whose
previous index lies below the window of the log is stopped before.

Whether the rest of such a request is accepted is decided by its entries (`Fits`): a request without
entries always is.
-/
import RollingRaft.Process

namespace RollingRaft

open Lib

namespace RaftGroup

/-- The follower has `index` with `term`, as the boundary of its snapshot or as a log entry. -/
def HoldsAt (g : RaftGroup) (index : Index) (term : Term) : Prop :=
  (index = g.snap.lastSnapshotIndex ∧ g.snap.lastSnapshotTerm = term) ∨
    ∃ e, g.rep.log.getEntry index = some e ∧ e.term = term

/-- A request that `HandleAppendEntries` reports success for has a previous entry that is held. -/
def AcceptsOnlyHeld (g : RaftGroup) (respTerm : Term) (req : AppendEntriesRequest) : Prop :=
  (g.replicate respTerm req).2.success = true →
    req.prevLogIndex = 0 ∨ g.HoldsAt req.prevLogIndex req.prevLogTerm

/-- The log already has this entry, or has compacted it away. -/
def Has (g : RaftGroup) (e : LogEntry) : Prop :=
  e.index < g.rep.log.startIndex ∨ (g.getLogTerm e.index ≠ 0 ∧ g.getLogTerm e.index = e.term)

/-- Every entry is one the log has, or the next one after those before it. -/
inductive Fits : RaftGroup → List LogEntry → Prop
  | nil (g : RaftGroup) : Fits g []
  | has {g : RaftGroup} {e : LogEntry} {es : List LogEntry} : g.Has e → Fits g es → Fits g (e :: es)
  | next {g : RaftGroup} {e : LogEntry} {es : List LogEntry} : ¬ g.Has e →
      e.index = g.rep.log.newIndex → Fits (g.setLog (g.rep.log.append e.term e.data).1) es →
      Fits g (e :: es)

/-- The previous entry of the request is not held and given with term 0, at an index from the
window of the log on, and the entries fit the log once it is cut at the first conflict. -/
structure AcceptsMissing (g : RaftGroup) (req : AppendEntriesRequest) : Prop where
  pos : 0 < req.prevLogIndex
  noEntry : g.rep.log.getEntry req.prevLogIndex = none
  notBoundary : req.prevLogIndex ≠ g.snap.lastSnapshotIndex
  termZero : req.prevLogTerm = 0
  fromWindow : g.rep.log.startIndex ≤ add32 req.prevLogIndex 1
  fits : Fits (g.truncateConflict req.entries) req.entries

theorem appendNew_iff_fits (g : RaftGroup) (es : List LogEntry) :
    (g.appendNew es).2 = none ↔ Fits g es := by
  induction es generalizing g with
  | nil => exact ⟨fun _ => .nil g, fun _ => rfl⟩
  | cons e es ih =>
    have hhas (h : g.Has e) : g.appendNew (e :: es) = g.appendNew es := by
      rw [appendNew]
      rcases h with hlow | hterm
      · rw [if_pos hlow]
      · have hcond : (g.getLogTerm e.index ≠ 0 && g.getLogTerm e.index = e.term) = true := by
          simpa using hterm
        rw [if_pos hcond, ite_self]
    have hnext (h : ¬ g.Has e) (hi : e.index = g.rep.log.newIndex) : g.appendNew (e :: es) =
        (g.setLog (g.rep.log.append e.term e.data).1).appendNew es := by
      rw [Has, not_or] at h
      rw [appendNew, if_neg h.1, if_neg (by simpa using h.2), if_neg (not_not.mpr hi)]
    have hgap (h : ¬ g.Has e) (hi : e.index ≠ g.rep.log.newIndex) :
        (g.appendNew (e :: es)).2 = some g.rep.log.newIndex := by
      rw [Has, not_or] at h
      rw [appendNew, if_neg h.1, if_neg (by simpa using h.2), if_pos hi]
    constructor
    · intro h
      by_cases he : g.Has e
      · exact .has he ((ih g).mp (hhas he ▸ h))
      by_cases hi : e.index = g.rep.log.newIndex
      · exact .next he hi ((ih _).mp (hnext he hi ▸ h))
      rw [hgap he hi] at h
      cases h
    · intro h
      cases h with
      | has he hfits =>
        rw [hhas he]
        exact (ih g).mpr hfits
      | next he hi hfits =>
        rw [hnext he hi]
        exact (ih _).mpr hfits

/-- A request is accepted when its previous entry passes the checks and its entries fit. -/
theorem replicate_success_iff (g : RaftGroup) (respTerm : Term) (req : AppendEntriesRequest) :
    (g.replicate respTerm req).2.success = true ↔
      g.prevLogConflict req = none ∧ Fits (g.truncateConflict req.entries) req.entries := by
  rw [← appendNew_iff_fits]
  show _ ↔ _ ∧ (g.storeEntries req.entries).2 = none
  unfold replicate
  cases hconf : g.prevLogConflict req with
  | some i => simp
  | none =>
    cases hstore : (g.storeEntries req.entries).2 with
    | some | none => simp [hstore]

variable {g : RaftGroup}

theorem prevLogConflict_eq_none {req : AppendEntriesRequest}
    (hpos : 0 < req.prevLogIndex) :
    g.prevLogConflict req = none ↔ g.rep.log.startIndex ≤ add32 req.prevLogIndex 1 ∧
      g.getLogTerm req.prevLogIndex = req.prevLogTerm := by
  unfold prevLogConflict
  simp only [hpos, decide_true, Bool.true_and, decide_eq_true_eq]
  constructor
  · intro h
    split at h
    · cases h
    split at h
    · cases h
    · exact ⟨Nat.le_of_not_lt ‹_›, not_not.mp ‹_›⟩
  · rintro ⟨hwindow, hterm⟩
    rw [if_neg (Nat.not_lt.mpr hwindow), if_neg (not_not.mpr hterm)]

theorem getLogTerm_eq_iff {i : Index} {t : Term} (hpos : 0 < i)
    (hheld : ¬ g.HoldsAt i t) :
    g.getLogTerm i = t ↔
      g.rep.log.getEntry i = none ∧ i ≠ g.snap.lastSnapshotIndex ∧ t = 0 := by
  rw [HoldsAt, not_or] at hheld
  unfold getLogTerm RaftLog.getLogTerm
  rw [if_neg (Nat.ne_of_gt hpos), if_neg (Nat.ne_of_gt hpos)]
  by_cases hi : i = g.snap.lastSnapshotIndex
  · rw [if_pos hi]
    constructor
    · intro h
      exact absurd ⟨hi, h⟩ hheld.1
    · rintro ⟨-, hne, -⟩
      exact absurd hi hne
  · rw [if_neg hi]
    cases hentry : g.rep.log.getEntry i with
    | none => simp [hi, eq_comm]
    | some e =>
      have hne : e.term ≠ t := fun h => hheld.2 ⟨e, hentry, h⟩
      simp [hne]

/-- **What success says about the previous entry.** Success means that it is held exactly when the
request is not one that names a missing entry with term 0 and fits otherwise. -/
theorem acceptsOnlyHeld_iff (g : RaftGroup) (respTerm : Term) (req : AppendEntriesRequest) :
    g.AcceptsOnlyHeld respTerm req ↔ ¬ g.AcceptsMissing req := by
  constructor
  · intro h hm
    have hconf : g.prevLogConflict req = none := by
      have hterm : g.getLogTerm req.prevLogIndex = req.prevLogTerm := by
        unfold getLogTerm RaftLog.getLogTerm
        rw [if_neg (Nat.ne_of_gt hm.pos), if_neg hm.notBoundary, if_neg (Nat.ne_of_gt hm.pos),
          hm.noEntry, hm.termZero]
      exact (prevLogConflict_eq_none hm.pos).mpr ⟨hm.fromWindow, hterm⟩
    rcases h ((replicate_success_iff g respTerm req).mpr ⟨hconf, hm.fits⟩) with hzero | hheld
    · exact absurd hzero (Nat.ne_of_gt hm.pos)
    · rcases hheld with ⟨hi, -⟩ | ⟨e, he, -⟩
      · exact hm.notBoundary hi
      · rw [hm.noEntry] at he
        cases he
  · intro h hsuccess
    obtain ⟨hconf, hfits⟩ := (replicate_success_iff g respTerm req).mp hsuccess
    by_contra hnot
    rw [not_or] at hnot
    have hpos : 0 < req.prevLogIndex := Nat.pos_of_ne_zero hnot.1
    obtain ⟨hwindow, hterm⟩ := (prevLogConflict_eq_none hpos).mp hconf
    obtain ⟨hentry, hboundary, hzero⟩ := (getLogTerm_eq_iff hpos hnot.2).mp hterm
    exact h ⟨hpos, hentry, hboundary, hzero, hwindow, hfits⟩

end RaftGroup

/-- A node with an empty log gets a heartbeat that names entry 5 with term 0. -/
def missingPrevious : AppendEntriesRequest := ⟨1, 2, 5, 0, [], 0⟩

def heartbeatArrives : List (Event × Env) :=
  [(.restart {}, { now := 0 }),
    (.request ⟨2, .append true 0⟩ (.appendEntries missingPrevious), { now := 1 }),
    (.resume, { now := 1 })]

/-- A reachable follower with an empty log and no snapshot accepts a request whose previous entry has
index 5. -/
theorem empty_log_accepts_five :
    ∃ p, (Process.system nodeOne).Reachable p ∧
      .follower (.append ⟨2, .append true 0⟩ 1 missingPrevious) ∈ p.calls ∧
      p.group.rep.log.entries = [] ∧ ¬ p.group.AcceptsOnlyHeld 1 missingPrevious := by
  obtain ⟨p, hreach, hcall, hempty, hsnap, hsuccess⟩ := (Process.system nodeOne).reaches
    heartbeatArrives rfl (P := fun p =>
      .follower (.append ⟨2, .append true 0⟩ 1 missingPrevious) ∈ p.calls ∧
      p.group.rep.log.entries = [] ∧ p.group.snap.lastSnapshotIndex = 0 ∧
      (p.group.replicate 1 missingPrevious).2.success = true) (by decide +kernel)
  refine ⟨p, hreach, hcall, hempty, fun h => ?_⟩
  rcases h hsuccess with hzero | ⟨hi, -⟩ | ⟨e, he, -⟩
  · exact absurd hzero (by decide)
  · rw [hsnap] at hi
    exact absurd hi (by decide)
  · unfold RaftLog.getEntry at he
    simp [hempty] at he

end RollingRaft
