/-
# RollingRaft.Replication — sending AppendEntries and snapshots (`log_replicator.cpp`,
`snapshot_manager.cpp`).

These functions do not look at the role: they stamp what they send with `current_term_` and trust
their callers. `ElectionFrame` is proved for each, so whatever they send carries the term the node
has at that moment.
-/
import RollingRaft.Frame

namespace RollingRaft

open Lib

def kSnapshotChunkSize : Nat := 64 * 1024

namespace RaftGroup

/-! ## §1 — Snapshots. -/

def setSend (g : RaftGroup) (peer : NodeId) (st : SnapshotSendState) : RaftGroup :=
  { g with snap := { g.snap with sends := g.snap.sends.insert peer st } }

/-- The request `SendNextSnapshotChunkLocked` builds from its send state. -/
def snapshotRequest (g : RaftGroup) (st : SnapshotSendState) (chunk : Bytes) :
    InstallSnapshotRequest where
  term := g.el.currentTerm
  leaderId := g.serverId
  lastIncludedIndex := st.lastIncludedIndex
  lastIncludedTerm := st.lastIncludedTerm
  offset := st.offset % 2 ^ 32
  data := chunk
  done := chunk.length < kSnapshotChunkSize

/-- `SendNextSnapshotChunkLocked`. -/
def sendNextSnapshotChunk (g : RaftGroup) (peer : NodeId) : RaftGroup :=
  match g.snap.sends.lookup peer with
  | none => g
  | some st =>
    match st.snapshot with
    | none => g
    | some data =>
      if !st.inProgress then g
      else
        let chunk := (data.drop st.offset).take kSnapshotChunkSize
        let st := { st with lastChunkSize := chunk.length }
        let req := Request.installSnapshot (g.snapshotRequest st chunk)
        if req.serializes g.opts.json && (g.mem.peerMap.lookup peer).isSome then
          (g.setSend peer st).emit (.sent peer req (.snapshot g.out.length))
        else g.setSend peer { st with inProgress := false }

/-- `SendInstallSnapshotToPeerLocked`. When no snapshot is at hand, `PrepareSnapshotForPeer` is
scheduled. -/
def sendInstallSnapshotToPeer (g : RaftGroup) (peer : NodeId) : RaftGroup :=
  let st := (g.snap.sends.lookup peer).getD {}
  let g := g.setSend peer st
  if st.inProgress then g
  else if st.snapshot.isSome then
    (g.setSend peer { st with inProgress := true }).sendNextSnapshotChunk peer
  else if g.snap.creating then g
  else
    let g := g.setSend peer { st with inProgress := true }
    { g with snap := { g.snap with creating := true } }

variable (g : RaftGroup) (peer : NodeId)

theorem sendNextSnapshotChunk_talks : Talks ElectionFrame g (g.sendNextSnapshotChunk peer) := by
  unfold sendNextSnapshotChunk
  split
  · exact .refl g
  split
  · exact .refl g
  split
  · exact .refl g
  dsimp only
  split
  · exact (Talks.emit _ (by exact ⟨rfl, rfl⟩) rfl).after rfl rfl
  · exact .of_eq rfl rfl

theorem sendInstallSnapshotToPeer_talks :
    Talks ElectionFrame g (g.sendInstallSnapshotToPeer peer) := by
  unfold sendInstallSnapshotToPeer
  dsimp only
  split
  · exact .of_eq rfl rfl
  split
  · exact (sendNextSnapshotChunk_talks _ peer).after rfl rfl
  split
  · exact .of_eq rfl rfl
  · exact .of_eq rfl rfl

/-! ## §2 — AppendEntries. -/

/-- The request `SendAppendEntriesToPeerLocked` builds for a peer whose next index is `nextIdx`. -/
def appendRequest (g : RaftGroup) (nextIdx : Index) : AppendEntriesRequest where
  term := g.el.currentTerm
  leaderId := g.serverId
  prevLogIndex := sub32 nextIdx 1
  prevLogTerm := g.getLogTerm (sub32 nextIdx 1)
  leaderCommit := g.rep.commitIndex
  entries :=
    let last := g.rep.log.getLastLogInfo.1
    if nextIdx ≤ last then
      g.rep.log.getEntries nextIdx (min (add32 nextIdx g.rt.maxEntriesPerAppend) (add32 last 1))
    else []

def inflightCount (g : RaftGroup) (peer : NodeId) : Nat :=
  (((g.rep.inflight.lookup peer).getD []).map (·.count)).sum

/-- The bookkeeping of `SendAppendEntriesToPeerLocked` before the request goes out. -/
def trackSend (g : RaftGroup) (peer : NodeId) (nextIdx : Index) (req : AppendEntriesRequest) :
    RaftGroup :=
  if req.entries.isEmpty then
    { g with rep := { g.rep with
        lastHeartbeatSent := g.rep.lastHeartbeatSent.insert peer g.env.now } }
  else
    { g with rep := { g.rep with
        inflight := g.rep.inflight.insert peer
          ((g.rep.inflight.lookup peer).getD [] ++ [⟨nextIdx, req.entries.length⟩])
        nextIndex := g.rep.nextIndex.insert peer (add32 nextIdx req.entries.length) } }

/-- `SendAppendEntriesToPeerLocked`. A heartbeat is not held back by the pipeline window. -/
def sendAppendEntriesToPeer (g : RaftGroup) (peer : NodeId) : RaftGroup :=
  match g.rep.nextIndex.lookup peer with
  | none => g
  | some nextIdx =>
    if nextIdx < g.rep.log.startIndex then g.sendInstallSnapshotToPeer peer
    else
      let req := g.appendRequest nextIdx
      if !req.entries.isEmpty && g.rt.maxPipelineWindow ≤ g.inflightCount peer then g
      else if (Request.appendEntries req).serializes g.opts.json
          && (g.mem.peerMap.lookup peer).isSome then
        (g.trackSend peer nextIdx req).emit
          (.sent peer (.appendEntries req) (.append req.entries.isEmpty g.out.length))
      else g

/-- `next_index_[peer]`: the subscript creates a missing entry with value `0`. -/
def touchNextIndex (g : RaftGroup) (peer : NodeId) : RaftGroup :=
  { g with rep := { g.rep with
      nextIndex := g.rep.nextIndex.insert peer ((g.rep.nextIndex.lookup peer).getD 0) } }

/-- The inner loop of `BroadcastAppendEntriesLocked`: send while `next_index_` advances. Every round
that advances it sends at least one entry of the log, so the length of the log bounds the rounds. -/
def fillPipeline (g : RaftGroup) (peer : NodeId) : Nat → RaftGroup
  | 0 => g
  | rounds + 1 =>
    let g₁ := (g.touchNextIndex peer).sendAppendEntriesToPeer peer
    if g₁.rep.nextIndex.lookup peer = (g.touchNextIndex peer).rep.nextIndex.lookup peer then g₁
    else g₁.fillPipeline peer rounds

/-- `BroadcastAppendEntriesLocked`. -/
def broadcastAppendEntries (g : RaftGroup) : RaftGroup :=
  g.mem.peerMap.keys.foldl (fun g peer => g.fillPipeline peer (g.rep.log.entries.length + 1)) g

theorem touchNextIndex_talks : Talks GuardedFrame g (g.touchNextIndex peer) :=
  .of_eq_guarded rfl rfl rfl

theorem trackSend_talks (nextIdx : Index) (req : AppendEntriesRequest) :
    Talks ElectionFrame g (g.trackSend peer nextIdx req) := by
  unfold trackSend
  split <;> exact .of_eq rfl rfl

theorem sendAppendEntriesToPeer_talks : Talks ElectionFrame g (g.sendAppendEntriesToPeer peer) := by
  unfold sendAppendEntriesToPeer
  split
  · exact .refl g
  rename_i nextIdx _
  split
  · exact sendInstallSnapshotToPeer_talks g peer
  dsimp only
  split
  · exact .refl g
  split
  · have htrack := trackSend_talks g peer nextIdx (g.appendRequest nextIdx)
    refine htrack.trans (.emit _ ⟨rfl, ?_⟩ rfl)
    exact htrack.frame.currentTerm.symm
  · exact .refl g

theorem fillPipeline_talks (rounds : Nat) : Talks ElectionFrame g (g.fillPipeline peer rounds) := by
  induction rounds generalizing g with
  | zero => exact .refl g
  | succ rounds ih =>
    have hsend : Talks ElectionFrame g ((g.touchNextIndex peer).sendAppendEntriesToPeer peer) :=
      (sendAppendEntriesToPeer_talks _ peer).after rfl rfl
    rw [fillPipeline]
    split
    · exact hsend
    · exact hsend.trans (ih _)

theorem broadcastAppendEntries_talks : Talks ElectionFrame g g.broadcastAppendEntries :=
  foldl_frame (fun g peer => fillPipeline_talks g peer _) _ g

end RaftGroup

end RollingRaft
