/-
# RollingRaft.Membership — applying committed configuration changes (`membership_manager.cpp`).

A configuration change is a log entry whose text starts with `CONFIG_CHANGE:`. It takes effect when
it is applied, under `replication_mtx_` and without `election_mtx_`. A malformed command is ignored
from the point where it stops making sense: a JOINT command whose second list does not parse has
already replaced `old_nodes`.
-/
import RollingRaft.Replication

namespace RollingRaft

open Lib

/-- `NodesToJson`. Printing a list of integers does not fail. -/
def nodesToJson (js : JsonText) (nodes : List NodeId) : Bytes :=
  match js.dump (.array (nodes.map fun i => if 0 ≤ i then .unsigned i.toNat else .integer i)) with
  | .ok text => text
  | .error _ => []

def jsonToNodes (js : JsonText) (text : Bytes) : Except Bytes (List NodeId) := do
  let j ← js.parse text
  j.items.mapM (Json.asInt32 js)

/-- The part of a command after `lead`, when it starts with it. -/
def restAfter (lead cmd : Bytes) : Option Bytes :=
  if startsWith cmd lead then some (cmd.drop lead.length) else none

/-- `std::stoll`, stored into a `NodeId`. -/
def parseNodeId (text : Bytes) : Option NodeId := (stoll text).map Json.toInt32

/-- The two parts of a text around its first colon. -/
def splitColon (text : Bytes) : Option (Bytes × Bytes) :=
  (findByte 58 text).map fun k => (text.take k, text.drop (k + 1))

namespace RaftGroup

/-! ## §1 — New entries of the local log. -/

/-- `log_.Append(current_term_, data)`. -/
def createEntry (g : RaftGroup) (data : Bytes) : RaftGroup × Index :=
  let r := g.rep.log.append g.el.currentTerm data
  (({ g with rep := { g.rep with log := r.1 } }).emit (.created ⟨r.2, g.el.currentTerm, data⟩), r.2)

/-- `log_persister_->Append(*entry, callback)`, when the entry is found. -/
def flushLater (g : RaftGroup) (index : Index) : RaftGroup :=
  if (g.rep.log.getEntry index).isSome then
    { g with rep := { g.rep with awaitingFlush := g.rep.awaitingFlush ++ [index] } }
  else g

/-- Propose the end of the joint phase. -/
def appendFinalize (g : RaftGroup) (nodes : List NodeId) : RaftGroup :=
  let r := g.createEntry (ascii "CONFIG_CHANGE:FINALIZE:" ++ nodesToJson g.opts.json nodes)
  r.1.flushLater r.2

variable (g : RaftGroup) (rest cmd : Bytes)

theorem createEntry_frame (data : Bytes) : ElectionFrame g (g.createEntry data).1 :=
  (ElectionFrame.emit _ (by exact rfl)).after rfl

theorem flushLater_talks (index : Index) : Talks ElectionFrame g (g.flushLater index) := by
  unfold flushLater
  split
  · exact .of_eq rfl rfl
  · exact .refl g

theorem appendFinalize_frame (nodes : List NodeId) : ElectionFrame g (g.appendFinalize nodes) :=
  (createEntry_frame g _).trans (flushLater_talks _ _).frame

/-! ## §2 — The commands. -/

def setConfig (g : RaftGroup) (c : ClusterConfig) : RaftGroup :=
  { g with mem := { g.mem with config := c } }

/-- `CONFIG_CHANGE:JOINT:old:new`. A leader goes on to propose FINALIZE. -/
def applyJoint (g : RaftGroup) (rest : Bytes) : RaftGroup :=
  match splitColon rest with
  | none => g
  | some (oldText, newText) =>
    match jsonToNodes g.opts.json oldText with
    | .error _ => g
    | .ok old =>
      let g := g.setConfig { g.mem.config with oldNodes := old }
      match jsonToNodes g.opts.json newText with
      | .error _ => g
      | .ok nodes =>
        let c := g.mem.config
        let g := (g.setConfig { c with
          nodes := nodes, isJoint := true, version := c.version + 1
          learners := c.learners.filter (· ∉ nodes) }).saveState.1
        if g.el.role = .leader then (g.appendFinalize nodes).broadcastAppendEntries else g

/-- `CONFIG_CHANGE:FINALIZE:new`. -/
def applyFinalize (g : RaftGroup) (rest : Bytes) : RaftGroup :=
  match jsonToNodes g.opts.json rest with
  | .error _ => g
  | .ok nodes =>
    let c := g.mem.config
    (g.setConfig { nodes := nodes, oldNodes := [], isJoint := false, version := c.version + 1
                   learners := c.learners.filter (· ∉ nodes) }).saveState.1

/-- A node that joins is given an address, and on a leader its replication progress. -/
def addPeer (g : RaftGroup) (id : NodeId) (addr : Bytes) : RaftGroup :=
  if id ≠ g.serverId && (g.mem.peerMap.lookup id).isNone then
    let g := { g with mem := { g.mem with peerMap := g.mem.peerMap.insert id addr } }
    if g.el.role = .leader then
      { g with rep := { g.rep with
          nextIndex := g.rep.nextIndex.insert id (add32 g.rep.log.getLastLogInfo.1 1)
          matchIndex := g.rep.matchIndex.insert id 0 } }
    else g
  else g

/-- `CONFIG_CHANGE:ADD_LEARNER:id:addr`. -/
def applyAddLearner (g : RaftGroup) (rest : Bytes) : RaftGroup :=
  match splitColon rest with
  | none => g
  | some (idText, addr) =>
    match parseNodeId idText with
    | none => g
    | some id =>
      let c := g.mem.config
      if c.contains id then g
      else
        ((g.setConfig { c with learners := c.learners ++ [id], version := c.version + 1 }).addPeer
          id addr).saveState.1

/-- `CONFIG_CHANGE:PROMOTE:id`. -/
def applyPromote (g : RaftGroup) (rest : Bytes) : RaftGroup :=
  match parseNodeId rest with
  | none => g
  | some id =>
    let c := { g.mem.config with learners := g.mem.config.learners.filter (· ≠ id) }
    if c.isVoter id then g.setConfig c
    else (g.setConfig { c with nodes := c.nodes ++ [id], version := c.version + 1 }).saveState.1

/-- `CONFIG_CHANGE:ADD:id:addr`. -/
def applyAdd (g : RaftGroup) (rest : Bytes) : RaftGroup :=
  match splitColon rest with
  | none => g
  | some (idText, addr) =>
    match parseNodeId idText with
    | none => g
    | some id =>
      let c := g.mem.config
      if c.contains id then g
      else
        ((g.setConfig { c with
          nodes := c.nodes ++ [id], version := c.version + 1
          learners := c.learners.filter (· ≠ id) }).addPeer id addr).saveState.1

/-- Forget a peer's address and replication progress. -/
def erasePeer (g : RaftGroup) (id : NodeId) : RaftGroup :=
  { g with
    mem := { g.mem with peerMap := g.mem.peerMap.erase id }
    rep := { g.rep with
      nextIndex := g.rep.nextIndex.erase id, matchIndex := g.rep.matchIndex.erase id } }

/-- `CONFIG_CHANGE:REMOVE:id`. A node that removes itself then schedules its `Stop`. -/
def applyRemove (g : RaftGroup) (rest : Bytes) : RaftGroup :=
  match parseNodeId rest with
  | none => g
  | some id =>
    let c := g.mem.config
    ((g.setConfig { c with
      nodes := c.nodes.filter (· ≠ id), learners := c.learners.filter (· ≠ id)
      version := c.version + 1 }).erasePeer id).saveState.1

/-- The body of `ApplyConfigChangeLocked`: the first command the text starts with. -/
def runConfigCommand (g : RaftGroup) (cmd : Bytes) : RaftGroup :=
  match restAfter (ascii "CONFIG_CHANGE:JOINT:") cmd with
  | some rest => g.applyJoint rest
  | none =>
  match restAfter (ascii "CONFIG_CHANGE:FINALIZE:") cmd with
  | some rest => g.applyFinalize rest
  | none =>
  match restAfter (ascii "CONFIG_CHANGE:ADD_LEARNER:") cmd with
  | some rest => g.applyAddLearner rest
  | none =>
  match restAfter (ascii "CONFIG_CHANGE:PROMOTE:") cmd with
  | some rest => g.applyPromote rest
  | none =>
  match restAfter (ascii "CONFIG_CHANGE:ADD:") cmd with
  | some rest => g.applyAdd rest
  | none =>
  match restAfter (ascii "CONFIG_CHANGE:REMOVE:") cmd with
  | some rest => g.applyRemove rest
  | none => g

/-- `ApplyConfigChangeLocked`: every way out clears `pending_config_change_`. -/
def applyConfigChange (g : RaftGroup) (cmd : Bytes) : RaftGroup :=
  let g := g.runConfigCommand cmd
  { g with mem := { g.mem with pendingConfigChange := false } }

/-! ## §3 — What a command can do. -/

/-- The membership changes, and with it whose progress is known. -/
def reconfigured (g : RaftGroup) (mem : MembershipState) (nextIndex matchIndex : Map NodeId Index) :
    RaftGroup :=
  { g with mem := mem, rep := { g.rep with nextIndex := nextIndex, matchIndex := matchIndex } }

/-- A command changes the membership and saves it, and a leader goes on from JOINT to FINALIZE. -/
inductive Configures (g : RaftGroup) : RaftGroup → Prop
  | changed (mem : MembershipState) (nextIndex matchIndex : Map NodeId Index) :
      Configures g (g.reconfigured mem nextIndex matchIndex)
  | saved (mem : MembershipState) (nextIndex matchIndex : Map NodeId Index) :
      Configures g (g.reconfigured mem nextIndex matchIndex).saveState.1
  | finalizes {mem : MembershipState} {g₁ : RaftGroup} {nodes : List NodeId}
      (hg₁ : g₁ = (g.reconfigured mem g.rep.nextIndex g.rep.matchIndex).saveState.1)
      (hjoint : mem.config.isJoint = true) (hnodes : mem.config.nodes = nodes)
      (hrole : g₁.el.role = .leader) :
      Configures g (g₁.appendFinalize nodes).broadcastAppendEntries

theorem Configures.refl : Configures g g :=
  .changed g.mem g.rep.nextIndex g.rep.matchIndex

theorem applyJoint_configures : Configures g (g.applyJoint rest) := by
  unfold applyJoint
  split
  · exact .refl g
  split
  · exact .refl g
  dsimp only
  split
  · exact .changed _ _ _
  -- the configuration is replaced and saved; only a leader goes on
  split
  · rename_i hrole
    exact .finalizes rfl rfl rfl hrole
  · exact .saved _ _ _

theorem applyFinalize_configures : Configures g (g.applyFinalize rest) := by
  unfold applyFinalize
  split
  · exact .refl g
  · exact .saved _ _ _

theorem addPeer_saved {g : RaftGroup} (c : ClusterConfig) (id : NodeId) (addr : Bytes) :
    Configures g ((g.setConfig c).addPeer id addr).saveState.1 := by
  unfold addPeer
  split
  · dsimp only
    split <;> exact .saved _ _ _
  · exact .saved _ _ _

theorem applyAddLearner_configures : Configures g (g.applyAddLearner rest) := by
  unfold applyAddLearner
  split
  · exact .refl g
  split
  · exact .refl g
  dsimp only
  split
  · exact .refl g
  · exact addPeer_saved _ _ _

theorem applyPromote_configures : Configures g (g.applyPromote rest) := by
  unfold applyPromote
  split
  · exact .refl g
  dsimp only
  split
  · exact .changed _ _ _
  · exact .saved _ _ _

theorem applyAdd_configures : Configures g (g.applyAdd rest) := by
  unfold applyAdd
  split
  · exact .refl g
  split
  · exact .refl g
  dsimp only
  split
  · exact .refl g
  · exact addPeer_saved _ _ _

theorem applyRemove_configures : Configures g (g.applyRemove rest) := by
  unfold applyRemove
  split
  · exact .refl g
  · exact .saved _ _ _

theorem runConfigCommand_configures : Configures g (g.runConfigCommand cmd) := by
  unfold runConfigCommand
  split
  · exact applyJoint_configures g _
  split
  · exact applyFinalize_configures g _
  split
  · exact applyAddLearner_configures g _
  split
  · exact applyPromote_configures g _
  split
  · exact applyAdd_configures g _
  split
  · exact applyRemove_configures g _
  · exact .refl g

theorem Configures.guarded {g g' : RaftGroup} (h : Configures g g') : GuardedFrame g g' := by
  have hchanged (mem : MembershipState) (nextIndex matchIndex : Map NodeId Index) :
      GuardedFrame g (g.reconfigured mem nextIndex matchIndex) := .of_eq rfl rfl
  cases h with
  | changed mem nextIndex matchIndex => exact hchanged mem nextIndex matchIndex
  | saved mem nextIndex matchIndex => exact (hchanged mem nextIndex matchIndex).trans (.saveState _)
  | finalizes hg₁ hjoint hnodes hrole =>
    subst hg₁
    exact ((hchanged _ _ _).trans (.saveState _)).trans (.of_leader
      ((appendFinalize_frame _ _).trans (broadcastAppendEntries_talks _).frame) hrole)

theorem applyConfigChange_guarded : GuardedFrame g (g.applyConfigChange cmd) :=
  (runConfigCommand_configures g cmd).guarded.trans (.of_eq rfl rfl)

end RaftGroup

end RollingRaft
