/-
# RollingRaft.SnapshotInstall — what installing a received snapshot does to the log.

A snapshot that ends at `(i, t)` describes a prefix of the leader's log. A follower whose log holds
an entry `(i, t)` agrees with the leader up to there, and what it holds beyond `i` may well have been
acknowledged. Phase 2c of `HandleInstallSnapshot` does not look: `SetStartIndex` empties the log.
So entries survive an installation only if it is skipped, or if there was nothing to lose.
-/
import RollingRaft.Process

namespace RollingRaft

open Lib

namespace RaftLog

/-- The log holds an entry at index `i` with term `t`. -/
def Holds (l : RaftLog) (i : Index) (t : Term) : Prop := ∃ e ∈ l.entries, e.index = i ∧ e.term = t

/-- All entries of `l` beyond index `i` are in `l'`. -/
def KeepsBeyond (l l' : RaftLog) (i : Index) : Prop :=
  ∀ e ∈ l.entries, i < e.index → e ∈ l'.entries

end RaftLog

namespace RaftGroup

/-- Phase 2c finds a newer snapshot or a newer commit and leaves everything as it is. -/
def skipsInstall (g : RaftGroup) (received : ReceivedSnapshot) : Prop :=
  received.index ≤ g.snap.lastSnapshotIndex ∨ received.index < g.rep.commitIndex

instance (g : RaftGroup) (received : ReceivedSnapshot) : Decidable (g.skipsInstall received) :=
  inferInstanceAs (Decidable (_ ∨ _))

variable {g : RaftGroup} {received : ReceivedSnapshot}

theorem installReceived_of_skips (h : g.skipsInstall received) :
    g.installReceived received = g := by
  unfold installReceived
  rw [if_pos (by simpa [skipsInstall] using h)]

theorem installReceived_entries_of_not_skips (h : ¬ g.skipsInstall received) :
    (g.installReceived received).rep.log.entries = [] := by
  unfold installReceived
  rw [if_neg (by simpa [skipsInstall] using h)]
  rfl

/-- **Installing keeps the suffix that agrees with the snapshot** exactly when there is no such
suffix or the installation does not take place. -/
theorem install_keepsBeyond_iff (g : RaftGroup) (restored : Bool) (reply : ReplyTo)
    (respTerm : Term) (received : ReceivedSnapshot) :
    (g.rep.log.Holds received.index received.term →
        g.rep.log.KeepsBeyond
          (g.runFollowerCall restored (.install reply respTerm received)).1.rep.log
          received.index) ↔
      (g.skipsInstall received ∨ ¬ g.rep.log.Holds received.index received.term ∨
        ∀ e ∈ g.rep.log.entries, e.index ≤ received.index) := by
  -- The section ends with `endRestore` and a reply, which do not touch the log.
  show (_ → g.rep.log.KeepsBeyond (g.installReceived received).rep.log received.index) ↔ _
  by_cases hskip : g.skipsInstall received
  · rw [installReceived_of_skips hskip]
    exact iff_of_true (fun _ e he _ => he) (.inl hskip)
  have hempty := installReceived_entries_of_not_skips hskip
  constructor
  · intro hkeeps
    refine .inr (or_iff_not_imp_left.mpr ?_)
    intro hholds e he
    by_contra hbeyond
    have hkept := hkeeps (not_not.mp hholds) e he (not_le.mp hbeyond)
    rw [hempty] at hkept
    cases hkept
  · rintro (h | h | h) hholds e he hbeyond
    · exact absurd h hskip
    · exact absurd hholds h
    · exact absurd (h e he) (not_le.mpr hbeyond)

end RaftGroup

/-- Node 1 stores entries 1 and 2 of leader 2 and says so. The leader then sends it a snapshot that
ends at entry 1, as it does when it has compacted its log and takes the node to be behind. -/
def snapshotBehindLog : List (Event × Env) :=
  let entries : AppendEntriesRequest :=
    { term := 1, leaderId := 2, prevLogIndex := 0, prevLogTerm := 0
      entries := [⟨1, 1, [10]⟩, ⟨2, 1, [20]⟩], leaderCommit := 0 }
  let snapshot : InstallSnapshotRequest :=
    { term := 1, leaderId := 2, lastIncludedIndex := 1, lastIncludedTerm := 1, offset := 0
      data := [7], done := true }
  [ (.restart {}, { now := 0 }),
    (.request ⟨2, .append false 0⟩ (.appendEntries entries), { now := 10 }),
    (.resume, { now := 10 }), (.run 0 {}, { now := 11 }),
    (.request ⟨2, .snapshot 1⟩ (.installSnapshot snapshot), { now := 20 }),
    (.run 0 {}, { now := 21 }), (.run 0 {}, { now := 22 }) ]
where
  /-- What the node has in hand before phase 2c. -/
  received : ReceivedSnapshot := ⟨1, 1, [7]⟩

/-- A reachable follower holds the entry its snapshot ends at and loses the one after it, which it
has acknowledged to the leader. -/
theorem install_drops_acknowledged :
    ∃ p env p' reply respTerm received, (Process.system nodeOne).Reachable p ∧
      p.calls[0]? = some (.follower (.install reply respTerm received)) ∧
      p.next (.run 0 {}, env) = some p' ∧
      p.group.rep.log.Holds received.index received.term ∧
      (∃ o ∈ p.group.out, o.act =
        .replied ⟨2, .append false 0⟩ (.append { term := 1, success := true, entriesCount := 2 })) ∧
      ¬ p.group.rep.log.KeepsBeyond p'.group.rep.log received.index := by
  obtain ⟨p, hreach, hcall, hacked, hlog, p', hnext, hlost⟩ := (Process.system nodeOne).reaches
    snapshotBehindLog rfl (P := fun p =>
      p.calls[0]? = some (.follower (.install ⟨2, .snapshot 1⟩ 1 snapshotBehindLog.received)) ∧
      (∃ o ∈ p.group.out, o.act =
        .replied ⟨2, .append false 0⟩ (.append { term := 1, success := true, entriesCount := 2 })) ∧
      p.group.rep.log.entries = [⟨1, 1, [10]⟩, ⟨2, 1, [20]⟩] ∧
      ∃ p' ∈ p.next (.run 0 {}, { now := 23 }), p'.group.rep.log.entries = []) (by decide +kernel)
  refine ⟨p, _, p', _, _, _, hreach, hcall, hnext, ⟨⟨1, 1, [10]⟩, by rw [hlog]; decide, rfl, rfl⟩, hacked, ?_⟩
  intro hkeeps
  have hkept := hkeeps ⟨2, 1, [20]⟩ (by rw [hlog]; decide) (by decide)
  rw [hlost] at hkept
  cases hkept

end RollingRaft
