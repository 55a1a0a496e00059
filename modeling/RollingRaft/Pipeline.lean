/-
# RollingRaft.Pipeline — the way of a command, as a machine of its own.

A command is appended, committed, handed to the apply thread, applied and answered; a snapshot may
overtake it. `Pipeline` is the state this way goes through and `PipeOp` the operations on it:
appending, cutting and compacting the log, committing, handing over, the four steps of the apply
thread, restoring and installing a snapshot, completing callbacks, keeping sessions. `machine` says
when an operation is possible and what it does.

The second half shows that the sections of a node run this machine: each section is a list of
operations. Results about the way of a command are then proved operation by operation.
-/
import RollingRaft.Process

namespace RollingRaft

open Lib

/-! ## §1 — The state. -/

/-- An act on the way of a command. -/
def Act.isPipe : Act → Bool
  | .created _ | .completed _ _ | .applied _ _ _ | .restored _ _ _ | .responded _ _ => true
  | _ => false

/-- A snapshot that is being received: the temporary file and what is expected next; `restoring`
while one that is complete is restored. -/
structure Receiving where
  file : Option Bytes := none
  index : Index := 0
  term : Term := 0
  expectedOffset : Nat := 0
  restoring : Bool := false
  deriving DecidableEq

def RaftGroup.receiving (g : RaftGroup) : Receiving where
  file := g.snap.recvFile
  index := g.snap.recvIndex
  term := g.snap.recvTerm
  expectedOffset := g.snap.recvExpectedOffset
  restoring := g.snap.restoreInProgress

structure Pipeline where
  log : RaftLog := {}
  commitIndex : Index := 0
  pendingProposals : Map Index ProposalCallback := ∅
  proposalSessions : Map Index (Nat × Nat) := ∅
  clientSessions : Map Nat ClientSession := ∅
  lastApplied : Index := 0
  lastEnqueued : Index := 0
  applyQueue : List ApplyTask := []
  thread : ApplyThread := {}
  sessions : List SessionEntry := []
  snapshotIndex : Index := 0
  snapshotTerm : Term := 0
  receiving : Receiving := {}
  acts : List Act := []

def RaftGroup.pipeline (g : RaftGroup) : Pipeline where
  log := g.rep.log
  commitIndex := g.rep.commitIndex
  pendingProposals := g.rep.pendingProposals
  proposalSessions := g.rep.proposalSessions
  clientSessions := g.rep.clientSessions
  lastApplied := g.app.lastApplied
  lastEnqueued := g.app.lastEnqueued
  applyQueue := g.app.applyQueue
  thread := g.app.thread
  sessions := g.app.sessions
  snapshotIndex := g.snap.lastSnapshotIndex
  snapshotTerm := g.snap.lastSnapshotTerm
  receiving := g.receiving
  acts := (g.out.map Output.act).filter Act.isPipe

/-! ## §2 — The operations. -/

inductive PipeOp where
  /-- A leader appends an entry nobody waits for. -/
  | create (e : LogEntry)
  /-- A leader appends a command; `callback` waits for it, `session` is `(0, _)` when it has none. -/
  | submit (e : LogEntry) (callback : ProposalCallback) (session : Nat × Nat)
  /-- A follower cuts its log. -/
  | truncate (i : Index)
  /-- A follower appends what its leader sent. -/
  | extend (e : LogEntry)
  /-- The log is replaced by a snapshot of this node's own. -/
  | compact (i : Index) (t : Term)
  /-- A leader commits. -/
  | commit (i : Index)
  /-- A follower learns of a commit. -/
  | follow (leaderCommit : Index)
  /-- The next committed entry goes to the apply thread. -/
  | handOver (e : LogEntry)
  /-- The next committed entry is a configuration change; `made` is the entry that follows it up. -/
  | handOverConfig (e : LogEntry) (made : Option LogEntry)
  /-- The next committed entry is not in the log. -/
  | stuck
  | take
  | load
  | task (result : ApplyResult)
  | publish
  /-- A chunk of a snapshot arrives. -/
  | receive (r : Receiving)
  | restore (i : Index) (t : Term) (data : Bytes)
  | install (i : Index) (t : Term)
  /-- A received snapshot is not installed. -/
  | endRestore
  /-- A callback is invoked at once. -/
  | complete (callback : ProposalCallback) (result : ApplyResult)
  /-- Whoever waits for index `i` is told it failed. -/
  | fail (i : Index) (result : ApplyResult)
  /-- Nobody waits for index `i` any more. -/
  | forget (i : Index)
  | drain
  | setSession (client : Nat) (session : ClientSession)
  | clearSessions
  | touch (sessions : List SessionEntry)
  | respond (request : ClientRequest) (response : ClientResponse)
  | boot (recovered : Recovered)

/-- The operations that leave the log as it is or put one entry behind its end. -/
def PipeOp.keepsLog : PipeOp → Bool
  | .truncate _ | .compact _ _ | .install _ _ | .boot _ => false
  | _ => true

def PipeOp.sameLog : PipeOp → Bool
  | .create _ | .submit _ _ _ | .extend _ | .handOverConfig _ _ => false
  | op => op.keepsLog

def PipeOp.keepsCommit : PipeOp → Bool
  | .commit _ | .follow _ | .install _ _ | .boot _ => false
  | _ => true

def PipeOp.keepsWaiting : PipeOp → Bool
  | .submit _ _ _ | .handOver _ | .handOverConfig _ _ | .fail _ _ | .forget _ | .drain
  | .boot _ => false
  | _ => true

def PipeOp.keepsTags : PipeOp → Bool
  | .submit _ _ _ | .handOver _ | .boot _ => false
  | _ => true

def PipeOp.keepsQueue : PipeOp → Bool
  | .handOver _ | .handOverConfig _ _ | .stuck | .take | .install _ _ | .drain | .boot _ => false
  | _ => true

/-- An operation on the snapshot that is being received. -/
def PipeOp.receives : PipeOp → Bool
  | .receive _ | .install _ _ | .endRestore | .boot _ => true
  | _ => false

namespace Pipeline

variable {q q' : Pipeline}

def did (q : Pipeline) (a : Act) : Pipeline := { q with acts := q.acts ++ [a] }

def addEntry (q : Pipeline) (e : LogEntry) : Pipeline :=
  ({ q with log := q.log.appendLogEntry e }).did (.created e)

/-- Somebody waits for index `i`. -/
def await (q : Pipeline) (i : Index) (callback : ProposalCallback) (session : Nat × Nat) :
    Pipeline :=
  { q with
    pendingProposals := q.pendingProposals.insert i callback
    proposalSessions :=
      if session.1 = 0 then q.proposalSessions else q.proposalSessions.insert i session }

def addAll (q : Pipeline) (t : Term) : List Bytes → Pipeline
  | [] => q
  | data :: rest => (q.addEntry ⟨q.log.newIndex, t, data⟩).addAll t rest

/-- The indices that `addAll` gives to the commands. -/
def indicesOf (q : Pipeline) (t : Term) : List Bytes → List Index
  | [] => []
  | data :: rest =>
    q.log.newIndex :: (q.addEntry ⟨q.log.newIndex, t, data⟩).indicesOf t rest

/-- The slots of a batch wait for their indices. -/
def awaitAll (q : Pipeline) (call : Nat) : Nat → List Index → Pipeline
  | _, [] => q
  | slot, i :: rest => (q.await i (.batch call slot) (0, 0)).awaitAll call (slot + 1) rest

/-- The operations of a batch, one command after the other. -/
def batchOps (q : Pipeline) (t : Term) (call : Nat) : Nat → List Bytes → List PipeOp
  | _, [] => []
  | slot, data :: rest =>
    .submit ⟨q.log.newIndex, t, data⟩ (.batch call slot) (0, 0) ::
      (q.addEntry ⟨q.log.newIndex, t, data⟩).batchOps t call (slot + 1) rest

/-- The callback of a task, when it has one. -/
def callBack (q : Pipeline) (callback : Option ProposalCallback) (result : ApplyResult) : Pipeline :=
  match callback with
  | none => q
  | some cb => q.did (.completed cb result)

/-- The index of the entry that is handed over next. -/
def nextIndex (q : Pipeline) : Index := add32 q.lastEnqueued 1

/-- The task made of a command. -/
def taskFor (q : Pipeline) (e : LogEntry) : ApplyTask where
  index := q.nextIndex
  data := e.data
  callback := q.pendingProposals.lookup q.nextIndex
  sessionId := ((q.proposalSessions.lookup q.nextIndex).getD (0, 0)).1
  seqNum := ((q.proposalSessions.lookup q.nextIndex).getD (0, 0)).2

def enqueue (q : Pipeline) (t : ApplyTask) : Pipeline :=
  { q with applyQueue := q.applyQueue ++ [t] }

def handOver (q : Pipeline) (e : LogEntry) : Pipeline :=
  ({ q with
    lastEnqueued := q.nextIndex
    pendingProposals := q.pendingProposals.erase q.nextIndex
    proposalSessions := q.proposalSessions.erase q.nextIndex }).enqueue (q.taskFor e)

/-- The entry that a configuration change makes, when it makes one. -/
def addMade (q : Pipeline) : Option LogEntry → Pipeline
  | none => q
  | some e => q.addEntry e

/-- Whoever waits for index `i` is told of its success. -/
def succeed (q : Pipeline) (i : Index) : Pipeline :=
  match q.pendingProposals.lookup i with
  | none => q
  | some cb =>
    ({ q with pendingProposals := q.pendingProposals.erase i }).did
      (.completed cb { success := true, appliedIndex := i })

def handOverConfig (q : Pipeline) (made : Option LogEntry) : Pipeline :=
  (({ q.addMade made with lastEnqueued := q.nextIndex }).succeed q.nextIndex).enqueue
    { index := q.nextIndex, isConfigChange := true }

/-- The apply thread runs task `t`; `last` is what it takes for the last applied index. -/
def runTask (q : Pipeline) (last : Index) (t : ApplyTask) (rest : List ApplyTask)
    (result : ApplyResult) : Pipeline :=
  let next := fun last =>
    { q with thread := { q.thread with batch := rest, newLastApplied := some last } }
  if t.index ≤ last then
    (next last).callBack t.callback { success := true, appliedIndex := t.index }
  else if t.isConfigChange then next t.index
  else
    let q := (next t.index).did (.applied t.index t.data result)
    let q := if t.sessionId = 0 then q else
      { q with sessions := recordResult q.sessions t.sessionId t.seqNum result }
    q.callBack t.callback result

/-- A node that starts with this snapshot; what has been done before stays. -/
def bootSnapshot (q : Pipeline) : Option (Index × Term) → Pipeline
  | none => { acts := q.acts }
  | some (i, t) =>
    { acts := q.acts, log := { startIndex := add32 i 1 }, commitIndex := i, lastApplied := i
      lastEnqueued := i, snapshotIndex := i, snapshotTerm := t }

/-- The log with the entries from the disk. -/
def recoverLog (l : RaftLog) (entries : List LogEntry) : RaftLog :=
  entries.foldl RaftLog.appendLogEntry (match entries with
    | [] => l
    | e :: _ => if e.index = l.startIndex then l else l.setStartIndex e.index)

def boot (q : Pipeline) (recovered : Recovered) : Pipeline :=
  { q.bootSnapshot recovered.snapshot with
    log := recoverLog (q.bootSnapshot recovered.snapshot).log recovered.entries }

/-- The callbacks that wait when a node is stopped. -/
def waiters (q : Pipeline) : List ProposalCallback :=
  q.applyQueue.filterMap (·.callback) ++ q.pendingProposals.entries.map (·.2)

/-- The state after an operation, when it is possible. -/
def next (q : Pipeline) : PipeOp → Option Pipeline
  | .create e => if e.index = q.log.newIndex then some (q.addEntry e) else none
  | .submit e callback session =>
    if e.index = q.log.newIndex then some ((q.addEntry e).await e.index callback session) else none
  | .truncate i => some { q with log := q.log.truncateSuffix i }
  | .extend e =>
    if e.index = q.log.newIndex then some { q with log := q.log.appendLogEntry e } else none
  | .compact i t =>
    if q.snapshotIndex < i && q.log.getLastLogInfo.1 ≤ i then
      some { q with log := q.log.setStartIndex (add32 i 1), snapshotIndex := i, snapshotTerm := t }
    else none
  | .commit i =>
    if q.commitIndex < i && i ≤ q.log.getLastLogInfo.1 then some { q with commitIndex := i }
    else none
  | .follow leaderCommit =>
    if q.commitIndex < leaderCommit then
      some { q with commitIndex := min leaderCommit q.log.getLastLogInfo.1 }
    else none
  | .handOver e =>
    if q.lastEnqueued < q.commitIndex && q.log.getEntry q.nextIndex = some e &&
        !startsWith e.data (ascii "CONFIG_CHANGE:") then some (q.handOver e)
    else none
  | .handOverConfig e made =>
    if q.lastEnqueued < q.commitIndex && q.log.getEntry q.nextIndex = some e &&
        startsWith e.data (ascii "CONFIG_CHANGE:") && made.all (·.index = q.log.newIndex) then
      some (q.handOverConfig made)
    else none
  | .stuck =>
    if q.lastEnqueued < q.commitIndex && q.log.getEntry q.nextIndex = none then
      some { q with lastEnqueued := q.nextIndex }
    else none
  | .take =>
    if q.thread.working || q.thread.stopped || q.applyQueue.isEmpty then none
    else
      some { q with
        applyQueue := q.applyQueue.drop RaftGroup.kBatchSize
        thread := { working := true, batch := q.applyQueue.take RaftGroup.kBatchSize } }
  | .load =>
    if q.thread.working && q.thread.newLastApplied.isNone then
      some { q with thread := { q.thread with newLastApplied := some q.lastApplied } }
    else none
  | .task result =>
    match q.thread.newLastApplied, q.thread.batch with
    | some last, t :: rest => some (q.runTask last t rest result)
    | _, _ => none
  | .publish =>
    match q.thread.newLastApplied, q.thread.batch with
    | some last, [] => some { q with lastApplied := last, thread := {} }
    | _, _ => none
  | .receive r => some { q with receiving := r }
  | .restore i t data => some (q.did (.restored i t data))
  | .install i t =>
    if i ≤ q.snapshotIndex || i < q.commitIndex then none
    else
      some { q with
        log := q.log.setStartIndex (add32 i 1), commitIndex := i, snapshotIndex := i
        snapshotTerm := t, lastApplied := i, applyQueue := [], lastEnqueued := i
        receiving := { q.receiving with restoring := false } }
  | .endRestore => some { q with receiving := { q.receiving with restoring := false } }
  | .complete callback result => some (q.did (.completed callback result))
  | .fail i result =>
    match q.pendingProposals.lookup i with
    | none => none
    | some cb =>
      some (({ q with pendingProposals := q.pendingProposals.erase i }).did (.completed cb result))
  | .forget i => some { q with pendingProposals := q.pendingProposals.erase i }
  | .drain =>
    if q.thread.working then none
    else
      some (q.waiters.foldl
        (fun q cb => q.did (.completed cb { errorMessage := ascii "Node stopped" }))
        { q with applyQueue := [], pendingProposals := ∅, thread := { stopped := true } })
  | .setSession client session =>
    some { q with clientSessions := q.clientSessions.insert client session }
  | .clearSessions => some { q with clientSessions := ∅ }
  | .touch sessions => some { q with sessions := sessions }
  | .respond request response => some (q.did (.responded request response))
  | .boot recovered => some (q.boot recovered)

/-! ## §3 — The machine. -/

def machine : TransitionSystem Pipeline PipeOp where
  init q := q = {}
  next := next

theorem addMade_eq (q : Pipeline) (made : Option LogEntry) :
    q.addMade made = { q with
      log := made.toList.foldl RaftLog.appendLogEntry q.log
      acts := q.acts ++ made.toList.map .created } := by
  cases made with
  | none => simp [addMade]
  | some e => rfl

theorem succeed_eq (q : Pipeline) (i : Index) :
    q.succeed i = { q with
      pendingProposals :=
        if (q.pendingProposals.lookup i).isSome then q.pendingProposals.erase i
        else q.pendingProposals
      acts := q.acts ++ (q.pendingProposals.lookup i).toList.map fun cb =>
        .completed cb { success := true, appliedIndex := i } } := by
  unfold succeed
  cases q.pendingProposals.lookup i with
  | none => simp
  | some cb => rfl

theorem handOverConfig_eq (q : Pipeline) (made : Option LogEntry) :
    q.handOverConfig made = { q with
      log := made.toList.foldl RaftLog.appendLogEntry q.log
      lastEnqueued := q.nextIndex
      pendingProposals :=
        if (q.pendingProposals.lookup q.nextIndex).isSome then q.pendingProposals.erase q.nextIndex
        else q.pendingProposals
      applyQueue := q.applyQueue ++ [{ index := q.nextIndex, isConfigChange := true }]
      acts := q.acts ++ made.toList.map .created ++
        (q.pendingProposals.lookup q.nextIndex).toList.map fun cb =>
          .completed cb { success := true, appliedIndex := q.nextIndex } } := by
  unfold handOverConfig
  rw [addMade_eq, succeed_eq]
  rfl

theorem foldl_did {α : Type*} (f : α → Act) (as : List α) (q : Pipeline) :
    as.foldl (fun q a => q.did (f a)) q = { q with acts := q.acts ++ as.map f } := by
  induction as generalizing q with
  | nil => simp
  | cons a as ih =>
    rw [List.foldl_cons, ih]
    simp [did]

theorem drain_cases (h : q.next .drain = some q') :
    q.thread.working = false ∧
      q' = { q with
        applyQueue := [], pendingProposals := ∅, thread := { stopped := true }
        acts := q.acts ++ q.waiters.map fun cb =>
          .completed cb { errorMessage := ascii "Node stopped" } } := by
  simp only [next, foldl_did] at h
  split at h
  · cases h
  rename_i hidle
  exact ⟨by simpa using hidle, (Option.some.inj h).symm⟩

theorem take_cases (h : q.next .take = some q') :
    q.thread.working = false ∧ q.thread.stopped = false ∧
      q' = { q with
        applyQueue := q.applyQueue.drop RaftGroup.kBatchSize
        thread := { working := true, batch := q.applyQueue.take RaftGroup.kBatchSize } } := by
  simp only [next, Option.ite_none_left_eq_some, Bool.or_eq_true, not_or] at h
  obtain ⟨⟨⟨hidle, hrunning⟩, -⟩, heq⟩ := h
  exact ⟨Bool.eq_false_of_not_eq_true hidle, Bool.eq_false_of_not_eq_true hrunning,
    (Option.some.inj heq).symm⟩

theorem load_cases (h : q.next .load = some q') :
    q.thread.working = true ∧ q.thread.newLastApplied = none ∧
      q' = { q with thread := { q.thread with newLastApplied := some q.lastApplied } } := by
  simp only [next, Option.ite_none_right_eq_some, Bool.and_eq_true, Option.isNone_iff_eq_none] at h
  obtain ⟨⟨hworking, hnone⟩, heq⟩ := h
  exact ⟨hworking, hnone, (Option.some.inj heq).symm⟩

theorem publish_cases (h : q.next .publish = some q') :
    ∃ last, q.thread.newLastApplied = some last ∧ q.thread.batch = [] ∧
      q' = { q with lastApplied := last, thread := {} } := by
  simp only [next] at h
  split at h
  · rename_i last hlast hbatch
    exact ⟨last, hlast, hbatch, (Option.some.inj h).symm⟩
  · cases h

theorem install_cases {i : Index} {t : Term} (h : q.next (.install i t) = some q') :
    q' = { q with
      log := q.log.setStartIndex (add32 i 1), commitIndex := i, snapshotIndex := i
      snapshotTerm := t, lastApplied := i, applyQueue := [], lastEnqueued := i
      receiving := { q.receiving with restoring := false } } := by
  simp only [next, Option.ite_none_left_eq_some] at h
  exact (Option.some.inj h.2).symm

theorem callBack_eq (q : Pipeline) (callback : Option ProposalCallback) (result : ApplyResult) :
    q.callBack callback result = { q with
      acts := q.acts ++ callback.toList.map fun cb => .completed cb result } := by
  cases callback with
  | none => simp [callBack]
  | some cb => rfl

section Task

variable (q : Pipeline) {last : Index} {t : ApplyTask} (rest : List ApplyTask) (result : ApplyResult)

theorem runTask_skip (h : t.index ≤ last) :
    q.runTask last t rest result = { q with
      thread := { q.thread with batch := rest, newLastApplied := some last }
      acts := q.acts ++ t.callback.toList.map fun cb =>
        .completed cb { success := true, appliedIndex := t.index } } := by
  unfold runTask
  rw [if_pos h, callBack_eq]

theorem runTask_config (h : last < t.index) (hconfig : t.isConfigChange = true) :
    q.runTask last t rest result = { q with
      thread := { q.thread with batch := rest, newLastApplied := some t.index } } := by
  unfold runTask
  rw [if_neg (not_le.mpr h), if_pos hconfig]

theorem runTask_apply (h : last < t.index) (hconfig : t.isConfigChange = false) :
    q.runTask last t rest result = { q with
      thread := { q.thread with batch := rest, newLastApplied := some t.index }
      sessions :=
        if t.sessionId = 0 then q.sessions else recordResult q.sessions t.sessionId t.seqNum result
      acts := q.acts ++ .applied t.index t.data result ::
        t.callback.toList.map fun cb => .completed cb result } := by
  unfold runTask
  rw [if_neg (not_le.mpr h), if_neg (by simp [hconfig])]
  rw [callBack_eq]
  split <;> simp [did]

/-- A task touches only the thread, the sessions and the history. -/
theorem task_frame {q q' : Pipeline} {result : ApplyResult} (h : q.next (.task result) = some q') :
    q' = { q with thread := q'.thread, sessions := q'.sessions, acts := q'.acts } := by
  simp only [next] at h
  split at h
  · rename_i last t rest _ _
    have hrun := Option.some.inj h
    rcases le_or_gt t.index last with hdone | hnew
    · rw [← hrun, q.runTask_skip rest result hdone]
    · by_cases hconfig : t.isConfigChange = true
      · rw [← hrun, q.runTask_config rest result hnew hconfig]
      · rw [← hrun, q.runTask_apply rest result hnew (by simpa using hconfig)]
  · cases h

end Task

/-- What an operation leaves alone. -/
structure NextFrame (op : PipeOp) (q q' : Pipeline) : Prop where
  log : op.keepsLog = true → q'.log = q.log ∨
    ∃ e, e.index = q.log.newIndex ∧ q'.log = q.log.appendLogEntry e
  same : op.sameLog = true → q'.log = q.log
  snapshot : op.keepsLog = true → q'.snapshotIndex = q.snapshotIndex
  commit : op.keepsCommit = true → q'.commitIndex = q.commitIndex
  waiting : op.keepsWaiting = true → q'.pendingProposals = q.pendingProposals
  tags : op.keepsTags = true → q'.proposalSessions = q.proposalSessions
  queue : op.keepsQueue = true → q'.applyQueue = q.applyQueue ∧ q'.lastEnqueued = q.lastEnqueued
  receiving : op.receives = false → q'.receiving = q.receiving

theorem next_frame {q q' : Pipeline} {op : PipeOp} (h : q.next op = some q') : NextFrame op q q' := by
  cases op with
  | create e | submit e | extend e =>
    obtain ⟨he, ⟨⟩⟩ := Option.ite_none_right_eq_some.mp h
    constructor <;> intro hop <;>
      first | rfl | exact ⟨rfl, rfl⟩ | exact .inr ⟨e, he, rfl⟩ | cases hop
  | handOverConfig e made =>
    simp only [next, Option.ite_none_right_eq_some, handOverConfig_eq, Bool.and_eq_true] at h
    obtain ⟨⟨-, hmade⟩, ⟨⟩⟩ := h
    cases made with
    | none => constructor <;> intro hop <;> first | rfl | exact .inl rfl | cases hop
    | some e' =>
      have he' : e'.index = q.log.newIndex := of_decide_eq_true hmade
      constructor <;> intro hop <;> first | rfl | exact .inr ⟨e', he', rfl⟩ | cases hop
  | compact | commit | follow | handOver | stuck | load =>
    obtain ⟨-, ⟨⟩⟩ := Option.ite_none_right_eq_some.mp h
    constructor <;> intro hop <;> first | rfl | exact ⟨rfl, rfl⟩ | exact .inl rfl | cases hop
  | take | install =>
    simp only [next, Option.ite_none_left_eq_some] at h
    obtain ⟨-, ⟨⟩⟩ := h
    constructor <;> intro hop <;> first | rfl | exact ⟨rfl, rfl⟩ | exact .inl rfl | cases hop
  | task =>
    rw [task_frame h]
    constructor <;> intro hop <;> first | rfl | exact ⟨rfl, rfl⟩ | exact .inl rfl
  | publish =>
    obtain ⟨-, -, -, rfl⟩ := publish_cases h
    constructor <;> intro hop <;> first | rfl | exact ⟨rfl, rfl⟩ | exact .inl rfl
  | drain =>
    obtain ⟨-, rfl⟩ := drain_cases h
    constructor <;> intro hop <;> first | rfl | exact .inl rfl | cases hop
  | fail i result =>
    simp only [next] at h
    split at h
    · cases h
    cases h
    constructor <;> intro hop <;> first | rfl | exact ⟨rfl, rfl⟩ | exact .inl rfl | cases hop
  | _ =>
    cases h
    constructor <;> intro hop <;> first | rfl | exact ⟨rfl, rfl⟩ | exact .inl rfl | cases hop

theorem next_extends {op : PipeOp} (h : q.next op = some q') (hop : op.keepsLog = true) :
    q.log.Extends q'.log := by
  rcases (next_frame h).log hop with heq | ⟨e, -, heq⟩
  · rw [heq]
    exact .refl _
  · rw [heq]
    exact ⟨rfl, [e], rfl⟩

theorem bootSnapshot_fields (q : Pipeline) (snapshot : Option (Index × Term)) :
    (q.bootSnapshot snapshot).acts = q.acts ∧ (q.bootSnapshot snapshot).thread = {} ∧
      (q.bootSnapshot snapshot).applyQueue = [] ∧ (q.bootSnapshot snapshot).receiving = {} ∧
      (q.bootSnapshot snapshot).log.entries = [] ∧
      (q.bootSnapshot snapshot).lastEnqueued = (q.bootSnapshot snapshot).lastApplied := by
  cases snapshot <;> exact ⟨rfl, rfl, rfl, rfl, rfl, rfl⟩

theorem foldl_appendLogEntry (es : List LogEntry) (l : RaftLog) :
    es.foldl RaftLog.appendLogEntry l = { l with entries := l.entries ++ es } := by
  induction es generalizing l with
  | nil => simp
  | cons e es ih =>
    rw [List.foldl_cons, ih]
    simp [RaftLog.appendLogEntry]

/-- The log from the disk begins where the snapshot ends, or at its first entry. -/
theorem recoverLog_eq {l : RaftLog} (hempty : l.entries = []) (es : List LogEntry) :
    recoverLog l es = { entries := es, startIndex := (es.head?.map (·.index)).getD l.startIndex } := by
  unfold recoverLog
  rw [foldl_appendLogEntry]
  cases es with
  | nil => simp [hempty]
  | cons e es =>
    dsimp only
    split
    · rename_i heq
      simp [hempty, heq]
    · simp [RaftLog.setStartIndex]

/-- What `see` makes of the acts done between `q` and `q'`, the latest first. -/
def newSeen {α : Type*} (q : Pipeline) (see : Act → Option α) (q' : Pipeline) : List α :=
  ((q'.acts.drop q.acts.length).filterMap see).reverse

section NewSeen

variable {α : Type*} {see : Act → Option α} {q q' : Pipeline} {new : List Act}

theorem newSeen_of_append (h : q'.acts = q.acts ++ new) :
    q.newSeen see q' = (new.filterMap see).reverse := by
  unfold newSeen
  rw [h, List.drop_left]

theorem newSeen_of_silent (h : q'.acts = q.acts ++ new) (hnew : ∀ a ∈ new, see a = none) :
    q.newSeen see q' = [] := by
  rw [newSeen_of_append h, List.filterMap_eq_nil_iff.mpr hnew]
  rfl

theorem newSeen_did (a : Act) : q.newSeen see (q.did a) = (see a).toList := by
  rw [newSeen_of_append (show (q.did a).acts = q.acts ++ [a] from rfl)]
  cases h : see a <;> simp [h]

theorem newSeen_of_eq (h : q'.acts = q.acts) : q.newSeen see q' = [] := by
  have hnone : q'.acts = q.acts ++ [] := by simpa using h
  exact newSeen_of_silent hnone (by simp)

end NewSeen

theorem addAll_await (q : Pipeline) (t : Term) (commands : List Bytes) (i : Index)
    (callback : ProposalCallback) (session : Nat × Nat) :
    (q.await i callback session).addAll t commands = (q.addAll t commands).await i callback session ∧
      (q.await i callback session).indicesOf t commands = q.indicesOf t commands ∧
      ∀ call slot, (q.await i callback session).batchOps t call slot commands =
        q.batchOps t call slot commands := by
  induction commands generalizing q with
  | nil => exact ⟨rfl, rfl, fun _ _ => rfl⟩
  | cons data rest ih =>
    obtain ⟨hadd, hindices, hops⟩ := ih (q.addEntry ⟨q.log.newIndex, t, data⟩)
    refine ⟨hadd, congrArg (q.log.newIndex :: ·) hindices, ?_⟩
    intro call slot
    exact congrArg (_ :: ·) (hops call (slot + 1))

/-- Appending all commands of a batch and then waiting for each is the same as submitting them one
by one. -/
theorem path_batch (q : Pipeline) (t : Term) (call slot : Nat) (commands : List Bytes) :
    machine.Path q (q.batchOps t call slot commands)
      ((q.addAll t commands).awaitAll call slot (q.indicesOf t commands)) := by
  induction commands generalizing q slot with
  | nil => exact .nil q
  | cons data rest ih =>
    refine .cons (if_pos rfl) ?_
    obtain ⟨hadd, hindices, hops⟩ := addAll_await (q.addEntry ⟨q.log.newIndex, t, data⟩) t rest
      q.log.newIndex (.batch call slot) (0, 0)
    have hrest := ih ((q.addEntry ⟨q.log.newIndex, t, data⟩).await q.log.newIndex
      (.batch call slot) (0, 0)) (slot + 1)
    rw [hadd, hindices, hops] at hrest
    exact hrest

end Pipeline

end RollingRaft
