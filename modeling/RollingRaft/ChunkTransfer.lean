/-
# RollingRaft.ChunkTransfer — a received snapshot is the one that was sent.

The chunks of a snapshot arrive as they like: lost, repeated, out of order, mixed with those of
other transfers. `HandleInstallSnapshot` keeps one temporary file, the position and term of the
transfer it belongs to and the offset that has to come next. As long as every chunk is the slice of
its snapshot that starts at its offset, and only a final slice says so, the file is always the
beginning of the snapshot it is for, and a file that is handed over is the whole of it.
-/
import RollingRaft.ApplyOrder
import RollingRaft.ReceivedSnapshots

namespace RollingRaft

open Lib

/-! ## §1 — Slices. -/

/-- The chunk is the slice of its snapshot `S index term` that starts at its offset, and a last
chunk ends it. -/
def InstallSnapshotRequest.SliceOf (S : Index → Term → Bytes) (req : InstallSnapshotRequest) : Prop :=
  ∃ before after, S req.lastIncludedIndex req.lastIncludedTerm = before ++ req.data ++ after ∧
    before.length = req.offset ∧ (req.done = true → after = [])

/-- The file that is open is the beginning of the snapshot it is for, up to the next offset. -/
def Receiving.Begins (S : Index → Term → Bytes) (r : Receiving) : Prop :=
  ∀ data, r.file = some data → data.length = r.expectedOffset ∧ data <+: S r.index r.term

theorem Receiving.Begins.of_eq {S : Index → Term → Bytes} {r r' : Receiving} (h : r.Begins S)
    (heq : r' = r) : r'.Begins S := by
  rw [heq]
  exact h

/-- The received snapshot is the whole of it. -/
def ReceivedSnapshot.Whole (S : Index → Term → Bytes) (received : ReceivedSnapshot) : Prop :=
  received.data = S received.index received.term

variable {S : Index → Term → Bytes} {req : InstallSnapshotRequest}

theorem InstallSnapshotRequest.SliceOf.extend (h : req.SliceOf S) {data : Bytes}
    (hbegins : data <+: S req.lastIncludedIndex req.lastIncludedTerm)
    (hlen : data.length = req.offset) :
    data ++ req.data <+: S req.lastIncludedIndex req.lastIncludedTerm ∧
      (req.done = true → data ++ req.data = S req.lastIncludedIndex req.lastIncludedTerm) := by
  obtain ⟨before, after, hS, hbefore, hdone⟩ := h
  have hfront : before <+: S req.lastIncludedIndex req.lastIncludedTerm :=
    ⟨req.data ++ after, by rw [hS, List.append_assoc]⟩
  have heq : data = before := by
    apply (List.prefix_of_prefix_length_le hbegins hfront ?_).eq_of_length
    · rw [hlen, hbefore]
    · rw [hlen, hbefore]
  rw [heq]
  refine ⟨⟨after, hS.symm⟩, fun hlast => ?_⟩
  rw [hS, hdone hlast, List.append_nil]

namespace RaftGroup

variable {req : InstallSnapshotRequest}

/-! ## §2 — One chunk. -/

def WritesSucceed (g : RaftGroup) : Prop := ∀ ok ∈ g.env.writes, ok = true

variable {g : RaftGroup}

theorem WritesSucceed.write (h : g.WritesSucceed) : g.write.2 = true ∧ g.write.1.WritesSucceed := by
  refine ⟨?_, fun ok hok => h ok (List.mem_of_mem_tail hok)⟩
  show g.env.writes.headD true = true
  cases hw : g.env.writes with
  | nil => rfl
  | cons ok rest => exact h ok (by rw [hw]; exact List.mem_cons_self)

theorem openReceive_begins (h : g.receiving.Begins S) (hopen : (g.openReceive req).2 = true) :
    ∃ data, (g.openReceive req).1.snap.recvFile = some data ∧
      (g.openReceive req).1.snap.recvIndex = req.lastIncludedIndex ∧
      (g.openReceive req).1.snap.recvTerm = req.lastIncludedTerm ∧
      (g.openReceive req).1.snap.recvExpectedOffset = req.offset ∧ data.length = req.offset ∧
      data <+: S req.lastIncludedIndex req.lastIncludedTerm := by
  unfold openReceive at hopen ⊢
  split at hopen
  · rename_i hzero
    rw [if_pos hzero, hzero]
    exact ⟨[], rfl, rfl, rfl, rfl, rfl, List.nil_prefix⟩
  rename_i hzero
  rw [if_neg hzero]
  unfold continueReceive at hopen ⊢
  split at hopen
  · cases hopen
  rename_i hcontinues
  rw [if_neg hcontinues]
  simp only [Bool.or_eq_true, decide_eq_true_eq, not_or, not_not, Option.isNone_iff_eq_none]
    at hcontinues
  obtain ⟨⟨⟨hfile, hindex⟩, hterm⟩, hoffset⟩ := hcontinues
  obtain ⟨data, hdata⟩ := Option.ne_none_iff_exists'.mp hfile
  obtain ⟨hlen, hbegins⟩ := h data hdata
  have hlen : data.length = g.snap.recvExpectedOffset := hlen
  have hbegins : data <+: S g.snap.recvIndex g.snap.recvTerm := hbegins
  rw [← hindex, ← hterm] at hbegins
  exact ⟨data, hdata, hindex.symm, hterm.symm, hoffset.symm, hlen.trans hoffset.symm, hbegins⟩

theorem openReceive_dropped (hw : g.WritesSucceed) (hopen : (g.openReceive req).2 = false) :
    (g.openReceive req).1.receiving.file = none := by
  unfold openReceive at hopen ⊢
  split at hopen
  · rename_i hzero
    have hwrite := (WritesSucceed.write (g := { g with snap := { g.snap with
      recvFile := some [], recvIndex := req.lastIncludedIndex, recvTerm := req.lastIncludedTerm
      recvExpectedOffset := 0 } }) hw).1
    unfold startReceive at hopen
    rw [hwrite] at hopen
    cases hopen
  · rename_i hzero
    rw [if_neg hzero]
    unfold continueReceive at hopen ⊢
    split at hopen
    · rename_i hstale
      rw [if_pos hstale]
      rfl
    · cases hopen

/-- A chunk that is added to the beginning of its snapshot makes a longer one, or the whole. -/
theorem storeChunk_begins {data : Bytes} (hslice : req.SliceOf S)
    (hfile : g.snap.recvFile = some data) (hindex : g.snap.recvIndex = req.lastIncludedIndex)
    (hterm : g.snap.recvTerm = req.lastIncludedTerm)
    (hoffset : g.snap.recvExpectedOffset = req.offset) (hlen : data.length = req.offset)
    (hbegins : data <+: S req.lastIncludedIndex req.lastIncludedTerm) :
    (g.storeChunk req).1.receiving.Begins S ∧
      ∀ received, (g.storeChunk req).2 = some received → received.Whole S := by
  obtain ⟨hlonger, hwhole⟩ := hslice.extend hbegins hlen
  have hdata : g.snap.recvFile.getD [] = data := by rw [hfile]; rfl
  unfold storeChunk
  rw [hdata]
  split
  · rename_i hdone
    refine ⟨nofun, ?_⟩
    rintro received hreceived
    cases hreceived
    exact hwhole hdone
  refine ⟨?_, nofun⟩
  intro file hsome
  obtain rfl : data ++ req.data = file := Option.some.inj hsome
  refine ⟨?_, ?_⟩
  · show (data ++ req.data).length = g.snap.recvExpectedOffset + req.data.length
    rw [List.length_append, hlen, hoffset]
  · show data ++ req.data <+: S g.snap.recvIndex g.snap.recvTerm
    rw [hindex, hterm]
    exact hlonger

/-- **One chunk.** Whatever chunk arrives, the open file stays the beginning of its snapshot, and a
snapshot that is handed over is complete. -/
theorem receiveChunk_begins (h : g.receiving.Begins S) (hw : g.WritesSucceed)
    (hslice : req.SliceOf S) :
    (g.receiveChunk req).1.receiving.Begins S ∧
      ∀ received, (g.receiveChunk req).2 = some received → received.Whole S := by
  unfold receiveChunk
  split
  · exact ⟨h, nofun⟩
  dsimp only
  split
  · rename_i hdropped
    have hnone := openReceive_dropped hw (by simpa using hdropped)
    refine ⟨fun data hdata => ?_, nofun⟩
    rw [hnone] at hdata
    cases hdata
  rename_i hopen
  obtain ⟨data, hfile, hindex, hterm, hoffset, hlen, hbegins⟩ :=
    openReceive_begins h (by simpa using hopen)
  split
  · exact storeChunk_begins hslice hfile hindex hterm hoffset hlen hbegins
  refine ⟨fun file hfile' => ?_, nofun⟩
  have hfile' : (g.openReceive req).1.snap.recvFile = some file := hfile'
  obtain rfl : data = file := Option.some.inj (hfile.symm.trans hfile')
  refine ⟨?_, ?_⟩
  · show data.length = (g.openReceive req).1.snap.recvExpectedOffset
    rw [hlen, hoffset]
  · show data <+: S (g.openReceive req).1.snap.recvIndex (g.openReceive req).1.snap.recvTerm
    rw [hindex, hterm]
    exact hbegins

end RaftGroup

/-! ## §3 — Runs. -/

/-- What a call carries of a snapshot is right: its chunk is a slice, its received snapshot whole. -/
def Call.Carries (S : Index → Term → Bytes) : Call → Prop
  | .follower (.chunk _ _ req) => req.SliceOf S
  | .follower (.restore _ _ received) | .follower (.install _ _ received) => received.Whole S
  | _ => True

namespace Process

/-- The chunks that arrive are slices, and files can be written. -/
def TransfersSlices (S : Index → Term → Bytes) (_p : Process) (step : Event × Env) : Prop :=
  (∀ ok ∈ step.2.writes, ok = true) ∧
    ∀ reply req, step.1 = .request reply (.installSnapshot req) → req.SliceOf S

/-- Of what arrives, the chunks are slices. -/
def sliceMessages (S : Index → Term → Bytes) : Vouched :=
  { anyMessages with asked := fun _ r => ∀ req, r = .installSnapshot req → req.SliceOf S }

structure TransferSound (S : Index → Term → Bytes) (p : Process) : Prop where
  file : p.group.receiving.Begins S
  calls : ∀ c ∈ p.calls, c.Carries S
  /-- A section that waits for `replication_mtx_` has a slice in hand, if it has a chunk. -/
  waiting : p.WaitingSound (sliceMessages S)

variable {p p' : Process} {ev : Event} {env : Env}

theorem TransfersSlices.vouchedBy (h : TransfersSlices S p (ev, env)) :
    ev.VouchedBy (sliceMessages S) := by
  refine vouchedBy_of ?_ (fun _ _ _ _ _ => trivial) fun _ => trivial
  rintro reply _ heq req rfl
  exact h.2 reply req heq

theorem begins_start : ({} : Receiving).Begins S := nofun

variable {input : CallInput} {i : Index} {t : Term} {data : Bytes}

theorem carries_of_continues {g : RaftGroup} {c d : Call} (hg : g.receiving.Begins S)
    (hw : g.WritesSucceed) (hc : c.Carries S) (h : RaftGroup.Continues g input c d) :
    d.Carries S := by
  cases h with
  | restore reply t req received hreceived =>
    exact (RaftGroup.receiveChunk_begins hg hw hc).2 received hreceived
  | install reply t received hrestored => exact hc
  | _ => trivial

/-- Any section of a call keeps the open file the beginning of its snapshot. -/
theorem begins_of_runCall {g : RaftGroup} {c : Call} {o : SectionEnd} (hg : g.receiving.Begins S)
    (hw : g.WritesSucceed) (hc : c.Carries S) (ho : g.runCall input c = some o) :
    o.group.receiving.Begins S := by
  by_cases hreceiver : c.isReceiver = true
  · cases c with
    | follower c =>
      cases c with
      | append reply t req => cases hreceiver
      | chunk reply t req =>
        cases ho
        show (g.runFollowerCall input.restored (.chunk reply t req)).1.receiving.Begins S
        rw [(g.runChunk input.restored reply t req).1]
        exact (RaftGroup.receiveChunk_begins hg hw hc).1
      | restore reply t received =>
        simp only [RaftGroup.runCall, RaftGroup.runFollowerCall] at ho
        split at ho <;> cases ho <;> exact hg
      | install reply t received =>
        cases ho
        show ((g.installReceived received).endRestore.emit _).receiving.Begins S
        unfold RaftGroup.installReceived
        split <;> exact hg
    | _ => cases hreceiver
  · obtain ⟨ops, hops, hdoes, -⟩ := g.runCall_does ho
    exact hg.of_eq (Pipeline.path_receiving
      (RaftGroup.callOps_receives (by simpa using hreceiver) hops) hdoes.runs)

theorem TransferSound.step (h : TransferSound S p) (hok : TransfersSlices S p (ev, env))
    (hstep : p.Step env ev p') : TransferSound S p' := by
  have hwaiting := h.waiting.step runCall_framed hok.vouchedBy hstep
  have hwrites : (p.entered env).WritesSucceed := hok.1
  have hfile : (p.entered env).receiving.Begins S := h.file
  cases hstep with
  | @restart recovered down =>
    refine ⟨?_, List.forall_mem_nil _, hwaiting⟩
    show ((p.entered env).start recovered).receiving.Begins S
    rw [(p.entered env).start_receiving recovered]
    exact begins_start
  | crash => exact ⟨h.file, h.calls, hwaiting⟩
  | @resume w up hw free =>
    obtain ⟨ops, hops, hdoes, -⟩ := (p.entered env).runWaiting_does w
    have hsame := Pipeline.path_receiving (fun op hop => not_receives_of_isWork (hops op hop))
      hdoes.runs
    refine ⟨hfile.of_eq hsame, List.forall_mem_append.mpr ⟨h.calls, fun c hc => ?_⟩, hwaiting⟩
    -- the call that the waiting section leaves carries the chunk it waited with
    obtain ⟨persistState, rest, rfl, hleaves⟩ := RaftGroup.runWaiting_leaves hc
    cases rest with
    | installSnapshot reply req =>
      obtain ⟨t, rfl⟩ := hleaves
      exact (h.waiting _ hw).2.2 req rfl
    | appendEntries reply req => obtain ⟨t, rfl⟩ := hleaves; trivial
    | failProposal index => obtain rfl := hleaves; trivial
    | nothing | requestVote => cases hleaves
  | @run i input c o up hc free ho =>
    have hcarries := h.calls c (List.mem_of_getElem? hc)
    refine ⟨begins_of_runCall hfile hwrites hcarries ho, ?_, hwaiting⟩
    exact List.forall_mem_append.mpr ⟨fun d hd => h.calls d (List.mem_of_mem_eraseIdx hd),
      fun d hd => carries_of_continues hfile hwrites hcarries (RaftGroup.runCall_continues ho hd)⟩
  | @event ev o up free ho =>
    obtain ⟨ops, hops, hruns, -⟩ := (p.entered env).onEvent_runs ho
    have hsame := Pipeline.path_receiving (RaftGroup.eventOps_receives hops) hruns
    refine ⟨hfile.of_eq hsame, List.forall_mem_append.mpr ⟨h.calls, fun c hc => ?_⟩, hwaiting⟩
    cases RaftGroup.onEvent_starts ho hc with
    | chunk reply t req => exact hok.2 reply req rfl
    | _ => trivial

theorem task_restored {q q' : Pipeline} {result : ApplyResult}
    (hn : q.next (.task result) = some q') (h : .restored i t data ∈ q'.acts) :
    .restored i t data ∈ q.acts := by
  simp only [Pipeline.next] at hn
  split at hn
  · rename_i last task rest _ _
    cases hn
    rcases le_or_gt task.index last with hdone | hnew
    · rw [q.runTask_skip rest result hdone] at h
      simpa using h
    · by_cases hconfig : task.isConfigChange = true
      · rw [q.runTask_config rest result hnew hconfig] at h
        exact h
      · rw [q.runTask_apply rest result hnew (by simpa using hconfig)] at h
        simpa using h
  · cases hn

/-- A snapshot that the state machine is replaced by has been handed over by a call. -/
theorem Step.restored (hstep : p.Step env ev p') (h : .restored i t data ∈ p'.group.pipeline.acts) :
    .restored i t data ∈ p.group.pipeline.acts ∨
      ∃ reply respTerm, .follower (.restore reply respTerm ⟨i, t, data⟩) ∈ p.calls := by
  obtain ⟨calls, ops, -, hops, hruns, -⟩ := hstep.runs
  rcases stepOps_calm hops with ⟨hcuts, -⟩ | ⟨op, rfl, htouch⟩
  · obtain ⟨new, hacts, hnew⟩ := (Pipeline.Calm.of_path hcuts.calm hruns).acts
    rw [hacts] at h
    rcases List.mem_append.mp h with h | h
    · exact .inl h
    · exact absurd (hnew _ h) (by simp [Act.applyEvent])
  · cases hruns with
    | cons hn hrest =>
      rw [hrest.eq_of_nil] at h
      have hn : p.group.pipeline.next op = some _ := hn
      cases htouch with
      | restart recovered =>
        cases hn
        have hacts := (p.group.pipeline.bootSnapshot_fields recovered.snapshot).1
        have h : _ ∈ (p.group.pipeline.bootSnapshot recovered.snapshot).acts := h
        rw [hacts] at h
        exact .inl h
      | take => rw [(Pipeline.take_cases hn).2.2] at h; exact .inl h
      | load => rw [(Pipeline.load_cases hn).2.2] at h; exact .inl h
      | task result => exact .inl (task_restored hn h)
      | publish =>
        obtain ⟨last, -, -, heq⟩ := Pipeline.publish_cases hn
        rw [heq] at h
        exact .inl h
      | drain =>
        rw [(Pipeline.drain_cases hn).2] at h
        exact .inl (by simpa using h)
      | install hc hnew => rw [Pipeline.install_cases hn] at h; exact .inl h
      | @restore k input reply respTerm received hc hrestored =>
        cases hn
        rcases List.mem_append.mp h with h | h
        · exact .inl h
        · cases List.mem_singleton.mp h
          exact .inr ⟨reply, respTerm, List.mem_of_getElem? hc⟩

/-- The transfers are sound, and what has been restored so far was whole. -/
structure ReceivesWhole (S : Index → Term → Bytes) (p : Process) : Prop where
  sound : TransferSound S p
  restored : ∀ i t data, .restored i t data ∈ p.group.pipeline.acts → data = S i t

theorem mem_acts_of_restored {o : Output} (ho : o ∈ p.group.out)
    (hact : o.act = .restored i t data) :
    .restored i t data ∈ p.group.pipeline.acts := by
  show _ ∈ (p.group.out.map Output.act).filter Act.isPipe
  exact List.mem_filter.mpr ⟨List.mem_map.mpr ⟨o, ho, hact⟩, rfl⟩

/-- **Every snapshot that is restored is the one that was sent.** In every run in which the chunks
that arrive are slices and files can be written, what a call hands to the state machine, and what
the state machine has been replaced by, is the whole snapshot of its index and term. -/
theorem restored_is_sent {opts : Options} (h : (system opts).ReachableWith (TransfersSlices S) p) :
    (∀ reply respTerm received, .follower (.restore reply respTerm received) ∈ p.calls →
      received.data = S received.index received.term) ∧
    ∀ o ∈ p.group.out, ∀ i t data, o.act = .restored i t data → data = S i t := by
  have hinv : ReceivesWhole S p := by
    refine h.invariant ?_ ?_
    · rintro p rfl
      refine ⟨⟨begins_start, List.forall_mem_nil _, ?_⟩, fun i t data hmem => by cases hmem⟩
      intro w hw
      cases hw
    · rintro p ⟨ev, env⟩ p' ⟨hsound, hwhole⟩ hok hn
      have hstep := step_of_next hn
      refine ⟨hsound.step hok hstep, fun i t data hmem => ?_⟩
      rcases hstep.restored hmem with hmem | ⟨reply, respTerm, hcall⟩
      · exact hwhole i t data hmem
      · exact hsound.calls _ hcall
  refine ⟨fun reply respTerm received hc => hinv.sound.calls _ hc, ?_⟩
  intro o ho i t data hact
  exact hinv.restored i t data (mem_acts_of_restored ho hact)

end Process

/-! ## §4 — A transfer in two chunks. -/

/-- The snapshot of index 5 and term 1; nothing is sent for the others. -/
def twoChunkSnapshot (i : Index) (t : Term) : Bytes := if i = 5 ∧ t = 1 then [10, 20, 30] else []

def chunkRequest (offset : Nat) (data : Bytes) (done : Bool) : Event :=
  .request ⟨2, .snapshot 0⟩ (.installSnapshot
    { term := 1, leaderId := 2, lastIncludedIndex := 5, lastIncludedTerm := 1
      offset := offset, data := data, done := done })

/-- The first chunk arrives twice, then the second one. -/
def chunksArrive : List (Event × Env) :=
  [(.restart {}, { now := 0 }), (chunkRequest 0 [10, 20] false, { now := 1 }),
    (.resume, { now := 1 }), (.run 0 {}, { now := 2 }),
    (chunkRequest 0 [10, 20] false, { now := 3 }), (.run 0 {}, { now := 4 }),
    (chunkRequest 2 [30] true, { now := 5 }), (.run 0 {}, { now := 6 }), (.run 0 {}, { now := 7 })]

/-- The chunk is read off its snapshot. -/
def InstallSnapshotRequest.isSliceOf (S : Index → Term → Bytes) (req : InstallSnapshotRequest) :
    Bool :=
  let whole := S req.lastIncludedIndex req.lastIncludedTerm
  req.offset ≤ whole.length && (whole.drop req.offset).take req.data.length = req.data &&
    (!req.done || whole.drop (req.offset + req.data.length) = [])

theorem InstallSnapshotRequest.sliceOf_of_isSliceOf (h : req.isSliceOf S = true) :
    req.SliceOf S := by
  simp only [isSliceOf, Bool.and_eq_true, decide_eq_true_eq, Bool.or_eq_true,
    Bool.not_eq_true'] at h
  obtain ⟨⟨hle, hdata⟩, hdone⟩ := h
  refine ⟨(S req.lastIncludedIndex req.lastIncludedTerm).take req.offset,
    (S req.lastIncludedIndex req.lastIncludedTerm).drop (req.offset + req.data.length), ?_, ?_, ?_⟩
  · have hrest : req.data ++ (S req.lastIncludedIndex req.lastIncludedTerm).drop
        (req.offset + req.data.length) = (S req.lastIncludedIndex req.lastIncludedTerm).drop
          req.offset := by
      have hsplit := List.take_append_drop req.data.length
        ((S req.lastIncludedIndex req.lastIncludedTerm).drop req.offset)
      rw [hdata, List.drop_drop] at hsplit
      exact hsplit
    rw [List.append_assoc, hrest, List.take_append_drop]
  · exact List.length_take_of_le hle
  · intro hlast
    rcases hdone with hnot | hnil
    · rw [hlast] at hnot
      cases hnot
    · exact hnil

/-- Files can be written, and a chunk that arrives is read off its snapshot. -/
def slicesOnly (step : Event × Env) : Bool :=
  step.2.writes.all id && match step.1 with
    | .request _ (.installSnapshot req) => req.isSliceOf twoChunkSnapshot
    | _ => true

theorem transfersSlices_of_slicesOnly {p : Process} {step : Event × Env}
    (h : slicesOnly step = true) : p.TransfersSlices twoChunkSnapshot step := by
  obtain ⟨hwrites, hslice⟩ := Bool.and_eq_true_iff.mp h
  refine ⟨fun ok hok => List.all_eq_true.mp hwrites ok hok, ?_⟩
  intro reply req heq
  rw [heq] at hslice
  exact InstallSnapshotRequest.sliceOf_of_isSliceOf hslice

theorem chunksArrive_restored_whole :
    ∃ p data, (Process.system nodeOne).ReachableWith (Process.TransfersSlices twoChunkSnapshot) p ∧
      (∃ o ∈ p.group.out, o.act = .restored 5 1 data) ∧ data = twoChunkSnapshot 5 1 := by
  obtain ⟨p, hp, o, ho, hact⟩ := (Process.system nodeOne).reachesWith (fun _ e => slicesOnly e = true)
    chunksArrive rfl (P := fun p => ∃ o ∈ p.group.out, o.act = .restored 5 1 [10, 20, 30])
    (by decide +kernel)
  have hreach := hp.mono fun p e hok => transfersSlices_of_slicesOnly (p := p) hok
  exact ⟨p, _, hreach, ⟨o, ho, hact⟩, (Process.restored_is_sent hreach).2 o ho 5 1 _ hact⟩

end RollingRaft
