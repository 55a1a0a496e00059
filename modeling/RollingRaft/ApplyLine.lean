/-
# RollingRaft.ApplyLine — the tasks of the apply thread stand in a line.

`ApplyCommittedLocked` hands over one index after the other, and the apply thread runs its tasks in
that order. So the indices of the tasks, those of the batch in hand first, are the indices that
follow what the thread takes to be applied, up to `last_enqueued_`. An installed snapshot empties the
queue but not the batch; when it comes while a batch is in hand the line is broken.
-/
import RollingRaft.ApplyOrder

namespace RollingRaft

open Lib

def isConfigChange (data : Bytes) : Bool := startsWith data (ascii "CONFIG_CHANGE:")

/-! ## §1 — Indices have 32 bits. -/

variable {l : RaftLog} {op : PipeOp}

theorem RaftLog.newIndex_lt (h : l.startIndex < 2 ^ 32) : l.newIndex < 2 ^ 32 := by
  unfold newIndex add32
  split
  · exact h
  · exact Nat.mod_lt _ (by decide)

theorem RaftLog.lastIndex_lt (h : ∀ e ∈ l.entries, e.index < 2 ^ 32) :
    l.getLastLogInfo.1 < 2 ^ 32 := by
  unfold getLastLogInfo
  split
  · show 0 < 2 ^ 32
    decide
  rename_i e he
  exact h e (List.mem_of_getLast? he)

namespace Pipeline

/-- The indices of the log and `commit_index_` are below `2 ^ 32`. -/
structure Fits (q : Pipeline) : Prop where
  start : q.log.startIndex < 2 ^ 32
  entries : ∀ e ∈ q.log.entries, e.index < 2 ^ 32
  commit : q.commitIndex < 2 ^ 32

namespace Fits

variable {q q' : Pipeline}

theorem of_eq (h : q.Fits) (hlog : q'.log = q.log) (hcommit : q'.commitIndex = q.commitIndex) :
    q'.Fits :=
  ⟨by rw [hlog]; exact h.start, by rw [hlog]; exact h.entries, by rw [hcommit]; exact h.commit⟩

theorem append (h : q.Fits) {e : LogEntry} (he : e.index = q.log.newIndex)
    (hlog : q'.log = q.log.appendLogEntry e) (hcommit : q'.commitIndex = q.commitIndex) :
    q'.Fits := by
  refine ⟨by rw [hlog]; exact h.start, ?_, by rw [hcommit]; exact h.commit⟩
  intro e' he'
  rw [hlog] at he'
  rcases List.mem_append.mp he' with he' | he'
  · exact h.entries e' he'
  · rw [List.mem_singleton.mp he', he]
    exact RaftLog.newIndex_lt h.start

theorem reset (i : Index) (hlog : q'.log = q.log.setStartIndex (add32 i 1))
    (hcommit : q'.commitIndex < 2 ^ 32) : q'.Fits := by
  refine ⟨?_, ?_, hcommit⟩
  · rw [hlog]
    exact Nat.mod_lt _ (by decide)
  · rw [hlog]
    simp [RaftLog.setStartIndex]

end Fits

end Pipeline

/-- What comes from outside has 32 bits. -/
def Recovered.fits (r : Recovered) : Prop :=
  (∀ s ∈ r.snapshot, s.1 < 2 ^ 32) ∧ ∀ e ∈ r.entries, e.index < 2 ^ 32

instance (r : Recovered) : Decidable r.fits := inferInstanceAs (Decidable (_ ∧ _))

def PipeOp.fits : PipeOp → Prop
  | .install i _ => i < 2 ^ 32
  | .boot recovered => recovered.fits
  | _ => True

theorem PipeOp.fits_of_calm (h : op.isCalm = true) : op.fits := by
  cases op <;> trivial

theorem Pipeline.Fits.boot {q : Pipeline} {recovered : Recovered} (h : recovered.fits) :
    (q.boot recovered).Fits := by
  obtain ⟨hsnapshot, hentries⟩ := h
  obtain ⟨-, -, -, -, hempty, -⟩ := q.bootSnapshot_fields recovered.snapshot
  have hstart : (q.bootSnapshot recovered.snapshot).log.startIndex < 2 ^ 32 ∧
      (q.bootSnapshot recovered.snapshot).commitIndex < 2 ^ 32 := by
    cases hs : recovered.snapshot with
    | none => exact ⟨show 1 < 2 ^ 32 by decide, show 0 < 2 ^ 32 by decide⟩
    | some s => exact ⟨Nat.mod_lt _ (by decide), hsnapshot s hs⟩
  have hlog : (q.boot recovered).log = _ := Pipeline.recoverLog_eq hempty recovered.entries
  refine ⟨?_, ?_, hstart.2⟩
  · rw [hlog]
    cases hes : recovered.entries with
    | nil => exact hstart.1
    | cons e es => exact hentries e (by rw [hes]; exact List.mem_cons_self)
  · rw [hlog]
    exact hentries

theorem Pipeline.Fits.next {q q' : Pipeline} (h : q.Fits) (hop : op.fits)
    (hn : q.next op = some q') : q'.Fits := by
  cases op with
  | truncate i =>
    cases hn
    refine ⟨?_, ?_, h.commit⟩
    · show (RaftLog.truncateSuffix _ i).startIndex < 2 ^ 32
      unfold RaftLog.truncateSuffix
      split
      · exact h.start
      · split <;> exact h.start
    · intro e he
      have he : e ∈ (RaftLog.truncateSuffix q.log i).entries := he
      unfold RaftLog.truncateSuffix at he
      split at he
      · exact h.entries e he
      split at he
      · cases he
      · exact h.entries e (List.mem_of_mem_take he)
  | compact i t =>
    obtain ⟨-, ⟨⟩⟩ := Option.ite_none_right_eq_some.mp hn
    exact .reset (q := q) i rfl h.commit
  | install i t =>
    simp only [Pipeline.next, Option.ite_none_left_eq_some] at hn
    obtain ⟨-, ⟨⟩⟩ := hn
    exact .reset (q := q) i rfl hop
  | commit i =>
    simp only [Pipeline.next, Option.ite_none_right_eq_some, Bool.and_eq_true,
      decide_eq_true_eq] at hn
    obtain ⟨⟨-, hi⟩, ⟨⟩⟩ := hn
    exact ⟨h.start, h.entries, hi.trans_lt (RaftLog.lastIndex_lt h.entries)⟩
  | follow leaderCommit =>
    obtain ⟨-, ⟨⟩⟩ := Option.ite_none_right_eq_some.mp hn
    exact ⟨h.start, h.entries, (min_le_right _ _).trans_lt (RaftLog.lastIndex_lt h.entries)⟩
  | boot recovered => cases hn; exact .boot hop
  | _ =>
    have hframe := Pipeline.next_frame hn
    have hcommit := hframe.commit rfl
    rcases hframe.log rfl with hlog | ⟨e, he, hlog⟩
    · exact h.of_eq hlog hcommit
    · exact h.append he hlog hcommit

/-! ## §2 — The line of tasks. -/

namespace Pipeline

variable {q q' : Pipeline}

/-- The tasks in hand and in the queue are those of the indices that follow the mark, up to
`last_enqueued_`, in order. -/
structure Line (q : Pipeline) : Prop where
  le : q.mark ≤ q.lastEnqueued
  indices : (q.thread.batch ++ q.applyQueue).map (·.index) =
    List.range' (q.mark + 1) (q.lastEnqueued - q.mark)

variable {op : PipeOp} {ops : List PipeOp}

/-- What a calm operation does to the queue: nothing, or it appends the next task. -/
theorem next_queue (hop : op.isCalm = true) (hne : op ≠ .stuck) (hfits : q.Fits)
    (h : q.next op = some q') :
    (q'.applyQueue = q.applyQueue ∧ q'.lastEnqueued = q.lastEnqueued) ∨
      ∃ t : ApplyTask, t.index = q.lastEnqueued + 1 ∧ q'.applyQueue = q.applyQueue ++ [t] ∧
        q'.lastEnqueued = q.lastEnqueued + 1 := by
  have hnext : q.lastEnqueued < q.commitIndex → q.nextIndex = q.lastEnqueued + 1 := by
    intro hlt
    exact add32_of_lt (lt_of_le_of_lt (Nat.succ_le_of_lt hlt) hfits.commit)
  cases op with
  | handOver e =>
    simp only [next, Option.ite_none_right_eq_some, Bool.and_eq_true, decide_eq_true_eq] at h
    obtain ⟨⟨⟨hlt, -⟩, -⟩, ⟨⟩⟩ := h
    exact .inr ⟨q.taskFor e, hnext hlt, rfl, hnext hlt⟩
  | handOverConfig e made =>
    simp only [next, Option.ite_none_right_eq_some, Bool.and_eq_true, decide_eq_true_eq,
      handOverConfig_eq] at h
    obtain ⟨⟨⟨⟨hlt, -⟩, -⟩, -⟩, ⟨⟩⟩ := h
    exact .inr ⟨_, hnext hlt, rfl, hnext hlt⟩
  | stuck => exact absurd rfl hne
  | take | load | task | publish | restore | install | drain | boot => cases hop
  | _ => exact .inl ((next_frame h).queue rfl)

theorem Calm.mark (h : Calm q q') : q'.mark = q.mark := by
  unfold Pipeline.mark
  rw [h.thread, h.lastApplied]

theorem Line.next (hq : Line q) (hop : op.isCalm = true) (hne : op ≠ .stuck) (hfits : q.Fits)
    (h : q.next op = some q') : Line q' := by
  have hcalm := Calm.of_next hop h
  have hle := hq.le
  rcases next_queue hop hne hfits h with ⟨hqueue, hlast⟩ | ⟨t, ht, hqueue, hlast⟩
  · refine ⟨?_, ?_⟩
    · rw [hcalm.mark, hlast]
      exact hle
    · rw [hcalm.mark, hlast, hqueue, hcalm.thread]
      exact hq.indices
  · refine ⟨?_, ?_⟩
    · rw [hcalm.mark, hlast]
      exact hle.trans (Nat.le_succ _)
    · have hlen : q.lastEnqueued + 1 - q.mark = (q.lastEnqueued - q.mark) + 1 :=
        Nat.succ_sub hle
      have hend : q.mark + 1 + (q.lastEnqueued - q.mark) = t.index := by
        rw [ht, Nat.add_right_comm, Nat.add_sub_cancel' hle]
      rw [hcalm.mark, hlast, hqueue, hcalm.thread, ← List.append_assoc, List.map_append,
        hq.indices, hlen, List.range'_1_concat, hend]
      rfl

/-- Calm operations that find every entry keep the line. -/
theorem Line.path (hq : Line q) (hfits : q.Fits) (hops : ∀ op ∈ ops, op.isCalm = true)
    (hfound : .stuck ∉ ops) (h : machine.Path q ops q') :
    Line q' := by
  induction h with
  | nil => exact hq
  | @cons q q₁ q' op ops hn _ ih =>
    have hop := hops op List.mem_cons_self
    have hne : op ≠ .stuck := fun heq => hfound (heq ▸ List.mem_cons_self)
    exact ih (hq.next hop hne hfits hn) (hfits.next (PipeOp.fits_of_calm hop) hn)
      (fun op hop => hops op (List.mem_cons_of_mem _ hop))
      (fun hmem => hfound (List.mem_cons_of_mem _ hmem))

theorem Fits.path (hfits : q.Fits) (hops : ∀ op ∈ ops, op.isCalm = true)
    (h : machine.Path q ops q') : q'.Fits := by
  refine h.invariant ?_ hfits
  intro s s' op hop hs hn
  exact hs.next (PipeOp.fits_of_calm (hops op hop)) hn

end Pipeline

/-! ## §3 — Operations that touch the line. -/

/-- Where an operation moves the mark. -/
def PipeOp.marks : PipeOp → Index → Index
  | .task _, m => m + 1
  | .install i _, _ => i
  | .boot recovered, _ => (recovered.snapshot.map (·.1)).getD 0
  | _, m => m

namespace Pipeline

/-- The line stands as long as the process is up and the thread is not stopped. -/
structure Lined (up : Prop) (q : Pipeline) : Prop where
  fits : q.Fits
  idle : q.thread.working = false → q.thread.batch = [] ∧ q.thread.newLastApplied = none
  stopped : q.thread.stopped = true → q.thread.working = false
  line : up → q.thread.stopped = false → q.Line

/-- What running a task of the line does: it is the one after the mark, so it is not skipped. -/
structure RunsTask (q : Pipeline) (result : ApplyResult) (q' : Pipeline) (t : ApplyTask) : Prop where
  head : q.thread.batch.head? = some t
  marked : q.thread.newLastApplied = some q.mark
  next : t.index = q.mark + 1
  mark : q'.mark = q.mark + 1
  batch : q.thread.batch = t :: q'.thread.batch
  queue : q'.applyQueue = q.applyQueue
  sessions : q'.sessions = if t.isConfigChange || t.sessionId = 0 then q.sessions
    else recordResult q.sessions t.sessionId t.seqNum result
  acts : q'.acts = q.acts ++ if t.isConfigChange then []
    else .applied t.index t.data result :: t.callback.toList.map fun cb => .completed cb result
  working : q.thread.working = true ∧ q'.thread.working = true

namespace Lined

variable {q q' : Pipeline} {op : PipeOp} {up up' : Prop} {last : Index}

theorem working (h : q.Lined up) (hlast : q.thread.newLastApplied = some last) :
    q.thread.working = true ∧ q.thread.stopped = false := by
  have hworking : q.thread.working = true := by
    by_contra hidle
    rw [(h.idle (by simpa using hidle)).2] at hlast
    cases hlast
  refine ⟨hworking, ?_⟩
  by_contra hstopped
  rw [h.stopped (by simpa using hstopped)] at hworking
  cases hworking

theorem mark_of_idle (h : q.Lined up) (hidle : q.thread.working = false) :
    q.mark = q.lastApplied := mark_of_none (h.idle hidle).2

/-- The head of the line is the task for the index after the mark. -/
theorem head (h : q.Lined up) (hup : up) {t : ApplyTask} {rest : List ApplyTask}
    (hmarked : q.thread.newLastApplied = some last) (hbatch : q.thread.batch = t :: rest) :
    t.index = last + 1 ∧ last + 1 ≤ q.lastEnqueued ∧ (rest ++ q.applyQueue).map (·.index) =
      List.range' (last + 1 + 1) (q.lastEnqueued - (last + 1)) := by
  have hindices := (h.line hup (h.working hmarked).2).indices
  rw [mark_of_some hmarked, hbatch] at hindices
  obtain ⟨n, hlen⟩ : ∃ n, q.lastEnqueued - last = n + 1 := by
    refine Nat.exists_eq_succ_of_ne_zero fun hzero => ?_
    rw [hzero] at hindices
    cases hindices
  rw [hlen, List.range'_succ, List.cons_append, List.map_cons, List.cons.injEq] at hindices
  obtain ⟨ht, hrest⟩ := hindices
  refine ⟨ht, Nat.succ_le_of_lt (Nat.lt_of_sub_pos (by rw [hlen]; exact Nat.succ_pos n)), ?_⟩
  rw [Nat.sub_add_eq, hlen]
  exact hrest

/-- The thread takes the head off the line; nothing before it, nothing behind it moves. -/
theorem task {result : ApplyResult} (h : q.Lined up) (hup : up)
    (hn : q.next (.task result) = some q') : ∃ t, RunsTask q result q' t ∧ q'.thread =
      { q.thread with batch := q'.thread.batch, newLastApplied := some t.index } := by
  have hframe := task_frame hn
  have hqueue : q'.applyQueue = q.applyQueue := by rw [hframe]
  simp only [Pipeline.next] at hn
  split at hn
  case h_2 => cases hn
  rename_i last t rest hmarked hbatch
  have heq := Option.some.inj hn
  obtain ⟨ht, -, -⟩ := h.head hup hmarked hbatch
  have hnew : last < t.index := by rw [ht]; exact Nat.lt_succ_self last
  have hmark := mark_of_some hmarked
  have hthread : q'.thread = { q.thread with batch := rest, newLastApplied := some t.index } := by
    by_cases hc : t.isConfigChange = true
    · rw [← heq, q.runTask_config rest result hnew hc]
    · rw [← heq, q.runTask_apply rest result hnew (by simpa using hc)]
  refine ⟨t, ⟨by rw [hbatch]; rfl, by rw [hmark]; exact hmarked, by rw [hmark, ht], ?_, ?_, hqueue, ?_,
    ?_, (h.working hmarked).1, ?_⟩, by rw [hthread]⟩
  · rw [hmark, ← ht]
    exact mark_of_some (by rw [hthread])
  · rw [hbatch, hthread]
  iterate 2
    · by_cases hc : t.isConfigChange = true
      · rw [← heq, q.runTask_config rest result hnew hc]
        simp [hc]
      · have hc : t.isConfigChange = false := by simpa using hc
        rw [← heq, q.runTask_apply rest result hnew hc]
        simp [hc]
  · rw [hthread]
    exact (h.working hmarked).1

theorem of_line (up : Prop) (m : Index) (hfits : q.Fits) (hmark : q.mark = m)
    (hidle : q.thread.working = false → q.thread.batch = [] ∧ q.thread.newLastApplied = none)
    (hstopped : q.thread.stopped = true → q.thread.working = false)
    (hline : q.thread.stopped = false → m ≤ q.lastEnqueued ∧
      (q.thread.batch ++ q.applyQueue).map (·.index) = List.range' (m + 1) (q.lastEnqueued - m)) :
    q.Lined up ∧ q.mark = m := by
  subst hmark
  refine ⟨⟨hfits, hidle, hstopped, fun _ hrunning => ?_⟩, rfl⟩
  exact ⟨(hline hrunning).1, (hline hrunning).2⟩

/-- **One operation** on the thread or the state machine keeps the line; a snapshot is installed
while the thread is idle. -/
theorem touch (h : q.Lined up) (hop : op.isCalm = false) (hfits : op.fits)
    (hidle : ∀ i t, op = .install i t → q.thread.working = false)
    (hup : (∀ recovered, op ≠ .boot recovered) → up) (hn : q.next op = some q') :
    q'.Lined up' ∧ q'.mark = op.marks q.mark := by
  have hfits' := h.fits.next hfits hn
  have hrest := of_line up' (op.marks q.mark) hfits'
  cases op with
  | take =>
    obtain ⟨hidle, hrunning, rfl⟩ := take_cases hn
    obtain ⟨hbatch, hnone⟩ := h.idle hidle
    have hline := h.line (hup (by simp)) hrunning
    have hindices := hline.indices
    rw [hbatch, List.nil_append] at hindices
    refine hrest (mark_of_none hnone).symm (by simp) (by simp) fun _ => ⟨hline.le, ?_⟩
    rw [List.take_append_drop]
    exact hindices
  | load =>
    obtain ⟨hworking, hnone, rfl⟩ := load_cases hn
    refine hrest (mark_of_none hnone).symm (by simp [hworking]) h.stopped fun hrunning => ?_
    have hline := h.line (hup (by simp)) hrunning
    exact ⟨hline.le, hline.indices⟩
  | task result =>
    obtain ⟨t, ht, hthread⟩ := h.task (hup (by simp)) hn
    have hlast : q'.lastEnqueued = q.lastEnqueued := by rw [task_frame hn]
    obtain ⟨-, hle, hindices⟩ := h.head (hup (by simp)) ht.marked ht.batch
    refine hrest ht.mark ?_ ?_ fun _ => ?_
    · intro hidle
      cases hidle.symm.trans ht.working.2
    · rw [hthread]
      exact h.stopped
    · rw [hlast, ht.queue]
      exact ⟨hle, hindices⟩
  | publish =>
    obtain ⟨last, hlast, hbatch, rfl⟩ := publish_cases hn
    have hline := h.line (hup (by simp)) (h.working hlast).2
    have hindices := hline.indices
    rw [hbatch] at hindices
    exact hrest (mark_of_some hlast).symm (by simp) (by simp) fun _ => ⟨hline.le, hindices⟩
  | drain =>
    obtain ⟨hidle, rfl⟩ := drain_cases hn
    exact hrest (h.mark_of_idle hidle).symm (by simp) (by simp) (by simp)
  | restore i t data =>
    cases hn
    refine hrest rfl h.idle h.stopped fun hrunning => ?_
    have hline := h.line (hup (by simp)) hrunning
    exact ⟨hline.le, hline.indices⟩
  | install i t =>
    -- the line begins behind the snapshot
    obtain ⟨hbatch, hnone⟩ := h.idle (hidle i t rfl)
    obtain rfl := install_cases hn
    refine hrest (mark_of_none hnone) h.idle h.stopped fun _ => ⟨le_rfl, ?_⟩
    rw [hbatch]
    simp [PipeOp.marks]
  | boot recovered =>
    cases hn
    obtain ⟨-, hthread, hqueue, -, -, hlast⟩ := q.bootSnapshot_fields recovered.snapshot
    have hthread : (q.boot recovered).thread = {} := hthread
    have hqueue : (q.boot recovered).applyQueue = [] := hqueue
    have hmark : (q.boot recovered).mark = (recovered.snapshot.map (·.1)).getD 0 := by
      show (bootSnapshot _ _).mark = _
      cases recovered.snapshot <;> rfl
    have hlast : (q.boot recovered).lastEnqueued = (recovered.snapshot.map (·.1)).getD 0 := by
      rw [← hmark, mark_of_none (by rw [hthread])]
      exact hlast
    refine hrest hmark ?_ ?_ fun _ => ?_
    · simp [hthread]
    · simp [hthread]
    · rw [hlast, hthread, hqueue]
      exact ⟨le_rfl, by simp [PipeOp.marks]⟩
  | _ => cases hop

end Lined

end Pipeline

/-! ## §4 — Runs. -/

namespace Process

/-- What comes from outside has 32 bits, and a snapshot that is installed finds the thread idle. -/
def keepsLine (p : Process) : Event → Prop
  | .restart recovered => recovered.fits
  | .run i _ => ∀ reply t received, p.calls[i]? = some (.follower (.install reply t received)) →
      ¬ p.group.skipsInstall received → received.index < 2 ^ 32 ∧ p.group.app.thread.working = false
  | _ => True

abbrev LineInv (p : Process) : Prop := p.group.pipeline.Lined (p.group.halt = none)

variable {p p' : Process} {ev : Event} {env : Env}

/-- Every event but a restart and a crash finds the process up. -/
theorem Step.wasUp (hstep : p.Step env ev p') (hrestart : ∀ recovered, ev ≠ .restart recovered)
    (hcrash : ev ≠ .crash) : p.group.halt = none := by
  cases hstep with
  | restart down => exact absurd rfl (hrestart _)
  | crash => exact absurd rfl hcrash
  | resume up | run up | event up => exact up

theorem Step.up (hstep : p.Step env ev p') (hrestart : ∀ recovered, ev ≠ .restart recovered)
    (hup : p'.group.halt = none) : p.group.halt = none := by
  cases hstep with
  | restart down => exact absurd rfl (hrestart _)
  | crash => cases hup
  | resume up | run up | event up => exact up

theorem LineInv.calm {ops : List PipeOp} (hinv : LineInv p)
    (hup : p'.group.halt = none → p.group.halt = none)
    (hcalm : ∀ op ∈ ops, op.isCalm = true) (hruns : p.group.Runs ops p'.group)
    (hfound : p'.group.halt = none → .stuck ∉ ops) : LineInv p' := by
  have hthread := (Pipeline.Calm.of_path hcalm hruns).thread
  refine ⟨hinv.fits.path hcalm hruns, ?_, ?_, ?_⟩
  · rw [hthread]
    exact hinv.idle
  · rw [hthread]
    exact hinv.stopped
  · intro hup' hrunning
    rw [hthread] at hrunning
    exact (hinv.line (hup hup') hrunning).path hinv.fits hcalm (hfound hup') hruns

theorem Touches.keepsLine {op : PipeOp} (htouch : p.Touches ev op) (hinv : LineInv p)
    (hok : p.keepsLine ev) (hstep : p.Step env ev p')
    (hn : p.group.pipeline.next op = some p'.group.pipeline) :
    LineInv p' ∧ p'.group.pipeline.mark = op.marks p.group.pipeline.mark := by
  cases htouch with
  | restart recovered => exact hinv.touch rfl hok (by simp) (fun hne => absurd rfl (hne _)) hn
  | install hc hnew =>
    obtain ⟨hi, hidle⟩ := hok _ _ _ hc hnew
    exact hinv.touch rfl hi (fun _ _ _ => hidle) (fun _ => hstep.wasUp (by simp) (by simp)) hn
  | _ => exact hinv.touch rfl trivial (by simp) (fun _ => hstep.wasUp (by simp) (by simp)) hn

theorem LineInv.step (hinv : LineInv p) (hok : p.keepsLine ev) (hstep : p.Step env ev p') :
    LineInv p' := by
  obtain ⟨calls, ops, -, hops, hruns, hfound⟩ := hstep.runs
  rcases stepOps_calm hops with ⟨hcuts, hmarks⟩ | ⟨op, rfl, htouch⟩
  · refine hinv.calm (hstep.up ?_) hcuts.calm hruns hfound
    rintro recovered rfl
    cases hmarks
  · exact (htouch.keepsLine hinv hok hstep hruns.next).1

theorem lineInv_initial (opts : Options) : LineInv (initial opts) :=
  ⟨⟨show 1 < 2 ^ 32 by decide, nofun, show 0 < 2 ^ 32 by decide⟩, fun _ => ⟨rfl, rfl⟩,
    fun _ => rfl, fun _ _ => ⟨le_rfl, rfl⟩⟩

end Process

end RollingRaft
