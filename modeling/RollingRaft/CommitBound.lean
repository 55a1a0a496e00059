/-
# RollingRaft.CommitBound — how far AppendEntries moves the commit index of a follower.

A request shows a follower the leader's log up to `prev_log_index` plus the number of entries it
carries. `HandleAppendEntries` moves `commit_index_` to the smaller of the leader's commit index and
the end of its own log. A request that brings nothing new, a heartbeat for instance, leaves whatever
an earlier leader has left behind the entries it shows, and this is committed with the rest.
-/
import RollingRaft.PipelineSteps

namespace RollingRaft

open Lib

/-! ## §1 — The end of a contiguous log. -/

namespace RaftLog

variable {l : RaftLog}

theorem Contiguous.lastIndex_truncateSuffix_lt (h : l.Contiguous) {i : Index} (hi : 0 < i) :
    (l.truncateSuffix i).getLastLogInfo.1 < i := by
  have hend := (h.truncateSuffix i).lastIndex_lt
  unfold RaftLog.truncateSuffix at hend ⊢
  split
  · rename_i hlt
    rw [if_pos hlt] at hend
    exact hend.trans hlt
  rename_i hle
  rw [if_neg hle] at hend
  split
  · exact hi
  rename_i hstart
  rw [if_neg hstart] at hend
  refine lt_of_lt_of_le hend ?_
  show l.startIndex + (l.entries.take (i - l.startIndex)).length ≤ i
  grind

end RaftLog

/-! ## §2 — What the two loops leave. -/

/-- The request carries the entries that follow `prev_log_index`. -/
def AppendEntriesRequest.Consecutive (req : AppendEntriesRequest) : Prop :=
  ∀ k e, req.entries[k]? = some e → e.index = req.prevLogIndex + 1 + k

/-- The last index of the leader's log that the request shows. -/
def AppendEntriesRequest.lastShown (req : AppendEntriesRequest) : Index :=
  req.prevLogIndex + req.entries.length

theorem AppendEntriesRequest.Consecutive.le_lastShown {req : AppendEntriesRequest}
    (h : req.Consecutive) {e : LogEntry} (he : e ∈ req.entries) : e.index ≤ req.lastShown := by
  obtain ⟨k, hk⟩ := List.mem_iff_getElem?.mp he
  rw [h k e hk, AppendEntriesRequest.lastShown]
  grind

namespace RaftGroup

variable {g : RaftGroup} {es : List LogEntry} {bound : Index}

/-- The tests of the second loop: the entry is compacted away, or there already. -/
def hasEntry (g : RaftGroup) (e : LogEntry) : Bool :=
  e.index < g.rep.log.startIndex || (g.getLogTerm e.index ≠ 0 && g.getLogTerm e.index = e.term)

/-- Nothing of the entries is new. -/
def HasAll (g : RaftGroup) (es : List LogEntry) : Prop :=
  ∀ e ∈ es, g.hasEntry e = true ∧ g.conflictsWith e = false

/-- When the second loop gets through, it either had nothing to do or the log ends with an entry of
the request. -/
theorem appendNew_cases (hok : (g.appendNew es).2 = none) :
    (g.appendNew es).1 = g ∧ (∀ e ∈ es, g.hasEntry e = true) ∨
      ∃ e ∈ es, ∃ last, (g.appendNew es).1.rep.log.entries.getLast? = some last ∧
        last.index = e.index := by
  induction es generalizing g with
  | nil => exact .inl ⟨rfl, by simp⟩
  | cons e es ih =>
    have hlater : ∀ {l : RaftLog}, (∃ e ∈ es, ∃ last, l.entries.getLast? = some last ∧
        last.index = e.index) → ∃ e' ∈ e :: es, ∃ last, l.entries.getLast? = some last ∧
        last.index = e'.index :=
      fun ⟨e', he', hlast⟩ => ⟨e', List.mem_cons_of_mem _ he', hlast⟩
    rw [appendNew] at hok ⊢
    split
    · rename_i hold
      rw [if_pos hold] at hok
      have hhas : g.hasEntry e = true := by simp [hasEntry, hold]
      exact (ih hok).imp (fun h => ⟨h.1, List.forall_mem_cons.mpr ⟨hhas, h.2⟩⟩) hlater
    rename_i hold
    rw [if_neg hold] at hok
    split
    · rename_i hthere
      rw [if_pos hthere] at hok
      have hhas : g.hasEntry e = true := by rw [hasEntry, hthere, Bool.or_true]
      exact (ih hok).imp (fun h => ⟨h.1, List.forall_mem_cons.mpr ⟨hhas, h.2⟩⟩) hlater
    rename_i hthere
    rw [if_neg hthere] at hok
    split
    · rename_i hgap
      rw [if_pos hgap] at hok
      cases hok
    rename_i hnext
    rw [if_neg hnext] at hok
    -- from here on the log ends with an entry of the request
    right
    rcases ih hok with ⟨hsame, -⟩ | hlast
    · rw [hsame]
      exact ⟨e, List.mem_cons_self, _, List.getLast?_concat, (not_not.mp hnext).symm⟩
    · exact hlater hlast

theorem appendNew_of_hasEntry (h : ∀ e ∈ es, g.hasEntry e = true) : g.appendNew es = (g, none) := by
  induction es with
  | nil => rfl
  | cons e es ih =>
    obtain ⟨hhas, htail⟩ := List.forall_mem_cons.mp h
    rw [appendNew]
    split
    · exact ih htail
    rename_i hnew
    rw [hasEntry, decide_eq_false hnew, Bool.false_or] at hhas
    rw [if_pos hhas]
    exact ih htail

theorem storeEntries_of_hasAll (h : g.HasAll es) : g.storeEntries es = (g, none) := by
  have hcut : g.truncateConflict es = g := by
    rcases truncateConflict_cases g es with ⟨hsame, -⟩ | ⟨e, he, hc, -⟩
    · exact hsame
    · rw [(h e he).2] at hc
      cases hc
  rw [storeEntries, hcut]
  exact appendNew_of_hasEntry fun e he => (h e he).1

/-- **The log after both loops** is as it was, or ends with what the request shows. -/
theorem storeEntries_cases (hlog : g.rep.log.Contiguous) (hbound : ∀ e ∈ es, e.index ≤ bound)
    (hok : (g.storeEntries es).2 = none) :
    g.HasAll es ∨ (g.storeEntries es).1.rep.log.getLastLogInfo.1 ≤ bound := by
  have hends : ∀ {l : RaftLog}, (∃ e ∈ es, ∃ last, l.entries.getLast? = some last ∧
      last.index = e.index) → l.getLastLogInfo.1 ≤ bound := by
    rintro l ⟨e, he, last, hlast, hindex⟩
    unfold RaftLog.getLastLogInfo
    rw [hlast]
    exact hindex.le.trans (hbound e he)
  unfold storeEntries at hok ⊢
  rcases truncateConflict_cases g es with ⟨hsame, hno⟩ | ⟨e, he, hc, hcut⟩
  · rw [hsame] at hok ⊢
    exact (appendNew_cases hok).imp (fun h e he => ⟨h.2 e he, hno e he⟩) hends
  · right
    have hpos : 0 < e.index := by
      refine Nat.pos_of_ne_zero fun hzero => ?_
      rw [conflictsWith, getLogTerm, if_pos hzero] at hc
      cases hc
    rcases appendNew_cases hok with ⟨hsame, -⟩ | hlast
    · rw [hsame, hcut]
      exact (hlog.lastIndex_truncateSuffix_lt hpos).le.trans (hbound e he)
    · exact hends hlast

/-! ## §3 — The commit index after a request. -/

theorem truncateConflict_commitIndex (g : RaftGroup) (es : List LogEntry) :
    (g.truncateConflict es).rep.commitIndex = g.rep.commitIndex := by
  rcases truncateConflict_cases g es with ⟨hsame, -⟩ | ⟨e, -, -, hcut⟩
  · rw [hsame]
  · rw [hcut]
    rfl

theorem appendNew_commitIndex (g : RaftGroup) (es : List LogEntry) :
    (g.appendNew es).1.rep.commitIndex = g.rep.commitIndex := by
  induction es generalizing g with
  | nil => rfl
  | cons e es ih =>
    rw [appendNew]
    split
    · exact ih g
    split
    · exact ih g
    split
    · rfl
    · exact ih _

theorem storeEntries_commitIndex (g : RaftGroup) (es : List LogEntry) :
    (g.storeEntries es).1.rep.commitIndex = g.rep.commitIndex :=
  (appendNew_commitIndex _ es).trans (truncateConflict_commitIndex g es)

theorem followCommit_commitIndex (g : RaftGroup) (leaderCommit : Index) :
    (g.followCommit leaderCommit).rep.commitIndex =
      if g.rep.commitIndex < leaderCommit then min leaderCommit g.rep.log.getLastLogInfo.1
      else g.rep.commitIndex := by
  unfold followCommit
  split
  · exact (applyCommitted_handsOver _).commitIndex
  · rfl

variable {req : AppendEntriesRequest}

/-- A request that moves the commit index was accepted, and moves it to the end of the log that the
loops leave or to the leader's commit index. -/
theorem replicate_commitIndex {respTerm : Term}
    (h : g.rep.commitIndex < (g.replicate respTerm req).1.rep.commitIndex) :
    g.prevLogConflict req = none ∧ (g.storeEntries req.entries).2 = none ∧
      (g.replicate respTerm req).1.rep.commitIndex =
        min req.leaderCommit (g.storeEntries req.entries).1.rep.log.getLastLogInfo.1 := by
  have hstore := storeEntries_commitIndex g req.entries
  unfold replicate at h ⊢
  split at h
  · exact absurd h (lt_irrefl _)
  rename_i hprev
  rw [hprev]
  dsimp only at h ⊢
  split at h
  · exact absurd h (by rw [hstore]; exact lt_irrefl _)
  rename_i hok
  rw [hok]
  refine ⟨rfl, rfl, ?_⟩
  rw [followCommit_commitIndex] at h ⊢
  split at h
  · rw [if_pos ‹_›]
  · exact absurd h (by rw [hstore]; exact lt_irrefl _)

/-- The request passes the check on `prev_log` and brings nothing new, while the leader's commit
index and the end of the log are both beyond what it shows and what is committed. -/
def CommitsUnshown (g : RaftGroup) (req : AppendEntriesRequest) : Prop :=
  g.prevLogConflict req = none ∧ g.HasAll req.entries ∧
    max g.rep.commitIndex req.lastShown < min req.leaderCommit g.rep.log.getLastLogInfo.1

/-- **Phase 2 of AppendEntries** commits no more than the request shows, unless it brings nothing
new and the log goes on. -/
theorem replicate_commits_shown_iff (hlog : g.rep.log.Contiguous)
    (hreq : req.Consecutive) (respTerm : Term) :
    (g.rep.commitIndex < (g.replicate respTerm req).1.rep.commitIndex →
      (g.replicate respTerm req).1.rep.commitIndex ≤ req.lastShown) ↔ ¬g.CommitsUnshown req := by
  constructor
  · rintro hshown ⟨hprev, hall, hlt⟩
    obtain ⟨hcommit, hend⟩ := max_lt_iff.mp hlt
    have hstore := storeEntries_of_hasAll hall
    have hmoved : (g.replicate respTerm req).1.rep.commitIndex =
        min req.leaderCommit g.rep.log.getLastLogInfo.1 := by
      unfold replicate
      rw [hprev, hstore]
      show (g.followCommit req.leaderCommit).rep.commitIndex = _
      rw [followCommit_commitIndex, if_pos (lt_of_lt_of_le hcommit (min_le_left _ _))]
    rw [hmoved] at hshown
    exact absurd (hshown hcommit) (not_le.mpr hend)
  · intro hnot hlt
    obtain ⟨hprev, hok, hmoved⟩ := replicate_commitIndex hlt
    rw [hmoved] at hlt ⊢
    rcases storeEntries_cases hlog (fun e he => hreq.le_lastShown he) hok with hall | hle
    · rw [storeEntries_of_hasAll hall] at hlt ⊢
      by_contra hbeyond
      exact hnot ⟨hprev, hall, max_lt hlt (not_le.mp hbeyond)⟩
    · exact (min_le_right _ _).trans hle

end RaftGroup

/-- **The commit index of a follower.** When the second phase of `HandleAppendEntries` raises it, it
stays within what the request shows, exactly when the request is not one that brings nothing new to
a log that goes on beyond it. -/
theorem commit_within_shown_iff {p p' : Process} {i : Nat} {reply : ReplyTo} {respTerm : Term}
    {req : AppendEntriesRequest} {input : CallInput} {env : Env}
    (hcall : p.calls[i]? = some (.follower (.append reply respTerm req)))
    (hnext : p.next (.run i input, env) = some p') (hlog : p.group.rep.log.Contiguous)
    (hreq : req.Consecutive) :
    (p.group.rep.commitIndex < p'.group.rep.commitIndex →
      p'.group.rep.commitIndex ≤ req.prevLogIndex + req.entries.length) ↔
      ¬p.group.CommitsUnshown req := by
  have hgroup : p'.group.rep.commitIndex =
      ((p.entered env).replicate respTerm req).1.rep.commitIndex := by
    unfold Process.next at hnext
    dsimp only at hnext
    rw [hcall] at hnext
    dsimp only at hnext
    split at hnext
    · cases hnext
      show (RaftGroup.replyUnlessHalted _ _ _).rep.commitIndex = _
      unfold RaftGroup.replyUnlessHalted
      split <;> rfl
    · cases hnext
  rw [hgroup]
  exact RaftGroup.replicate_commits_shown_iff (g := p.entered env) hlog hreq respTerm

/-- Leader 2 of term 1 has given node 1 three entries. Leader 3 of term 2, which shares the first
one only and has committed three of its own, sends a heartbeat for a ReadIndex. -/
def heartbeatOverSuffix : List (Event × Env) :=
  [ (.restart {}, { now := 0 }),
    (.request ⟨2, .append false 0⟩ (.appendEntries threeEntries), { now := 10 }),
    (.resume, { now := 10 }), (.run 0 {}, { now := 10 }),
    (.request ⟨3, .readHeartbeat 1 0⟩ (.appendEntries readHeartbeat), { now := 500 }),
    (.resume, { now := 500 }) ]
where
  /-- The entries of leader 2. -/
  threeEntries : AppendEntriesRequest :=
    { term := 1, leaderId := 2, prevLogIndex := 0, prevLogTerm := 0,
      entries := [⟨1, 1, [1]⟩, ⟨2, 1, [2]⟩, ⟨3, 1, [3]⟩], leaderCommit := 0 }
  /-- The heartbeat of leader 3. -/
  readHeartbeat : AppendEntriesRequest :=
    { term := 2, leaderId := 3, prevLogIndex := 1, prevLogTerm := 1, entries := [],
      leaderCommit := 3 }

theorem heartbeatOverSuffix_commits :
    ∃ p, (Process.system nodeOne).Reachable p ∧ p.group.rep.commitIndex = 0 ∧
      p.group.rep.log = ⟨heartbeatOverSuffix.threeEntries.entries, 1⟩ ∧ p.calls[0]? =
        some (.follower (.append ⟨3, .readHeartbeat 1 0⟩ 2 heartbeatOverSuffix.readHeartbeat)) ∧
      ∃ p' ∈ p.next (.run 0 {}, { now := 500 }), p'.group.rep.commitIndex = 3 :=
  (Process.system nodeOne).reaches heartbeatOverSuffix rfl (by decide +kernel)

/-- A heartbeat that shows index 1 commits the indices 2 and 3, left by another leader. -/
theorem heartbeat_commits_unshown :
    ∃ p env p' reply respTerm req, (Process.system nodeOne).Reachable p ∧
      p.calls[0]? = some (.follower (.append reply respTerm req)) ∧
      p.next (.run 0 {}, env) = some p' ∧ p.group.rep.commitIndex < p'.group.rep.commitIndex ∧
      req.prevLogIndex + req.entries.length < p'.group.rep.commitIndex := by
  obtain ⟨p, hreach, hzero, -, hcall, p', hnext, hthree⟩ := heartbeatOverSuffix_commits
  refine ⟨p, _, p', _, _, _, hreach, hcall, hnext, ?_, ?_⟩
  · rw [hzero, hthree]
    decide
  · rw [hthree]
    decide

theorem commit_within_shown_iff_heartbeat :
    ∃ p env p' req, (Process.system nodeOne).Reachable p ∧ p.next (.run 0 {}, env) = some p' ∧
      p.group.rep.log.Contiguous ∧ req.Consecutive ∧
      ((p.group.rep.commitIndex < p'.group.rep.commitIndex →
        p'.group.rep.commitIndex ≤ req.prevLogIndex + req.entries.length) ↔
        ¬p.group.CommitsUnshown req) := by
  obtain ⟨p, hreach, -, hlog, hcall, p', hnext, -⟩ := heartbeatOverSuffix_commits
  have hcontiguous : p.group.rep.log.Contiguous := by
    rw [hlog]
    refine ⟨by decide, by decide, fun k e hk => ?_⟩
    rcases k with _ | _ | _ | k <;> cases hk <;> rfl
  have hconsecutive : heartbeatOverSuffix.readHeartbeat.Consecutive := fun k e hk => by cases hk
  exact ⟨p, _, p', _, hreach, hnext, hcontiguous, hconsecutive, commit_within_shown_iff hcall hnext hcontiguous hconsecutive⟩

end RollingRaft
