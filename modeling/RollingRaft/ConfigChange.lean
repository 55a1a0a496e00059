/-
# RollingRaft.ConfigChange — what a configuration entry says and what it does to the membership.

`ApplyConfigChangeLocked` reads the text of an entry and edits `cluster_config_` and `peer_map_` as it
goes. Here the two are apart: `readChange` is what the text says, `ConfigChange.effect` what applying
it does to the membership state. `applyConfigChange_mem` connects them with the code. What else an
entry does (replication progress of a peer, FINALIZE on a leader, saving) leaves the membership
alone.

With a library that reads back the lists it printed, the text of a JOINT or FINALIZE entry says what
it was made from.
-/
import RollingRaft.Process
import RollingRaft.NodeLists

namespace RollingRaft

open Lib

/-! ## §1 — What a text says. -/

/-- The changes that `ApplyConfigChangeLocked` knows. -/
inductive ConfigChange where
  /-- A text that changes nothing. -/
  | nothing
  /-- JOINT, whose second list does not parse: the first has taken effect. -/
  | oldOnly (old : List NodeId)
  | joint (old nodes : List NodeId)
  | finalize (nodes : List NodeId)
  | addLearner (id : NodeId) (addr : Bytes)
  | promote (id : NodeId)
  | add (id : NodeId) (addr : Bytes)
  | remove (id : NodeId)
  deriving DecidableEq

namespace ConfigChange

/-- `old:new`. -/
def ofJoint (js : JsonText) (rest : Bytes) : ConfigChange :=
  match splitColon rest with
  | none => .nothing
  | some (oldText, newText) =>
    match jsonToNodes js oldText with
    | .error _ => .nothing
    | .ok old =>
      match jsonToNodes js newText with
      | .error _ => .oldOnly old
      | .ok nodes => .joint old nodes

def ofFinalize (js : JsonText) (rest : Bytes) : ConfigChange :=
  match jsonToNodes js rest with
  | .error _ => .nothing
  | .ok nodes => .finalize nodes

/-- `id:addr`, for a command that takes both. -/
def ofAddress (make : NodeId → Bytes → ConfigChange) (rest : Bytes) : ConfigChange :=
  match splitColon rest with
  | none => .nothing
  | some (idText, addr) =>
    match parseNodeId idText with
    | none => .nothing
    | some id => make id addr

/-- `id`. -/
def ofId (make : NodeId → ConfigChange) (rest : Bytes) : ConfigChange :=
  match parseNodeId rest with
  | none => .nothing
  | some id => make id

def readChange (js : JsonText) (cmd : Bytes) : ConfigChange :=
  match restAfter (ascii "CONFIG_CHANGE:JOINT:") cmd with
  | some rest => ofJoint js rest
  | none =>
  match restAfter (ascii "CONFIG_CHANGE:FINALIZE:") cmd with
  | some rest => ofFinalize js rest
  | none =>
  match restAfter (ascii "CONFIG_CHANGE:ADD_LEARNER:") cmd with
  | some rest => ofAddress .addLearner rest
  | none =>
  match restAfter (ascii "CONFIG_CHANGE:PROMOTE:") cmd with
  | some rest => ofId .promote rest
  | none =>
  match restAfter (ascii "CONFIG_CHANGE:ADD:") cmd with
  | some rest => ofAddress .add rest
  | none =>
  match restAfter (ascii "CONFIG_CHANGE:REMOVE:") cmd with
  | some rest => ofId .remove rest
  | none => .nothing

/-! ## §2 — What a change does. -/

def config (c : ClusterConfig) : ConfigChange → ClusterConfig
  | .nothing => c
  | .oldOnly old => { c with oldNodes := old }
  | .joint old nodes =>
    { nodes := nodes, oldNodes := old, isJoint := true, version := c.version + 1
      learners := c.learners.filter (· ∉ nodes) }
  | .finalize nodes =>
    { nodes := nodes, oldNodes := [], isJoint := false, version := c.version + 1
      learners := c.learners.filter (· ∉ nodes) }
  | .addLearner id _ =>
    if c.contains id then c else { c with learners := c.learners ++ [id], version := c.version + 1 }
  | .promote id =>
    let c := { c with learners := c.learners.filter (· ≠ id) }
    if c.isVoter id then c else { c with nodes := c.nodes ++ [id], version := c.version + 1 }
  | .add id _ =>
    if c.contains id then c
    else
      { c with
        nodes := c.nodes ++ [id], version := c.version + 1
        learners := c.learners.filter (· ≠ id) }
  | .remove id =>
    { c with
      nodes := c.nodes.filter (· ≠ id), learners := c.learners.filter (· ≠ id)
      version := c.version + 1 }

/-- A node that joins gets an address, unless it has one. -/
def withAddress (self : NodeId) (peers : Map NodeId Bytes) (id : NodeId) (addr : Bytes) :
    Map NodeId Bytes :=
  if id ≠ self && (peers.lookup id).isNone then peers.insert id addr else peers

def peers (self : NodeId) (m : MembershipState) : ConfigChange → Map NodeId Bytes
  | .addLearner id addr | .add id addr =>
    if m.config.contains id then m.peerMap else withAddress self m.peerMap id addr
  | .remove id => m.peerMap.erase id
  | _ => m.peerMap

def effect (self : NodeId) (m : MembershipState) (ch : ConfigChange) : MembershipState :=
  { config := ch.config m.config, peerMap := ch.peers self m, pendingConfigChange := false }

end ConfigChange

namespace RaftGroup

variable (g : RaftGroup)

/-! ## §3 — The code does what the text says. -/

/-- The configuration and the peers are those after the change. -/
def Effects (g g' : RaftGroup) (ch : ConfigChange) : Prop :=
  g'.mem.config = ch.config g.mem.config ∧ g'.mem.peerMap = ch.peers g.serverId g.mem

theorem saveState_mem : g.saveState.1.mem = g.mem := (Quiet.saveState g).mem

theorem appendFinalize_mem (nodes : List NodeId) : (g.appendFinalize nodes).mem = g.mem :=
  (flushLater_talks _ _).quiet.mem

variable (rest : Bytes)

theorem applyJoint_effects : Effects g (g.applyJoint rest) (.ofJoint g.opts.json rest) := by
  unfold applyJoint ConfigChange.ofJoint
  cases splitColon rest with
  | none => exact ⟨rfl, rfl⟩
  | some texts =>
    dsimp only
    cases jsonToNodes g.opts.json texts.1 with
    | error _ => exact ⟨rfl, rfl⟩
    | ok old =>
      dsimp only
      have hjson : (g.setConfig { g.mem.config with oldNodes := old }).opts.json = g.opts.json := rfl
      rw [hjson]
      cases jsonToNodes g.opts.json texts.2 with
      | error _ => exact ⟨rfl, rfl⟩
      | ok nodes =>
        dsimp only
        split
        · rw [Effects, (broadcastAppendEntries_talks _).quiet.mem, appendFinalize_mem, saveState_mem]
          exact ⟨rfl, rfl⟩
        rw [Effects, saveState_mem]
        exact ⟨rfl, rfl⟩

theorem applyFinalize_effects :
    Effects g (g.applyFinalize rest) (.ofFinalize g.opts.json rest) := by
  unfold applyFinalize ConfigChange.ofFinalize
  cases jsonToNodes g.opts.json rest with
  | error _ => exact ⟨rfl, rfl⟩
  | ok nodes =>
    rw [Effects, saveState_mem]
    exact ⟨rfl, rfl⟩

theorem addPeer_mem (id : NodeId) (addr : Bytes) : (g.addPeer id addr).mem =
    { g.mem with peerMap := ConfigChange.withAddress g.serverId g.mem.peerMap id addr } := by
  unfold addPeer ConfigChange.withAddress
  split
  · dsimp only
    split <;> rfl
  · rfl

theorem applyAddress_effects : Effects g (g.applyAddLearner rest) (.ofAddress .addLearner rest) ∧
    Effects g (g.applyAdd rest) (.ofAddress .add rest) := by
  unfold applyAddLearner applyAdd ConfigChange.ofAddress
  cases splitColon rest with
  | none => exact ⟨⟨rfl, rfl⟩, rfl, rfl⟩
  | some texts =>
    dsimp only
    cases parseNodeId texts.1 with
    | none => exact ⟨⟨rfl, rfl⟩, rfl, rfl⟩
    | some id =>
      by_cases hin : g.mem.config.contains id = true
      · simp only [if_pos hin]
        exact ⟨⟨(if_pos hin).symm, (if_pos hin).symm⟩, (if_pos hin).symm, (if_pos hin).symm⟩
      simp only [if_neg hin, Effects, saveState_mem, addPeer_mem]
      exact ⟨⟨(if_neg hin).symm, (if_neg hin).symm⟩, (if_neg hin).symm, (if_neg hin).symm⟩

theorem applyPromote_effects : Effects g (g.applyPromote rest) (.ofId .promote rest) := by
  unfold applyPromote ConfigChange.ofId
  cases parseNodeId rest with
  | none => exact ⟨rfl, rfl⟩
  | some id =>
    unfold Effects ConfigChange.config
    dsimp only
    split
    · exact ⟨rfl, rfl⟩
    rw [saveState_mem]
    exact ⟨rfl, rfl⟩

theorem applyRemove_effects : Effects g (g.applyRemove rest) (.ofId .remove rest) := by
  unfold applyRemove ConfigChange.ofId
  cases parseNodeId rest with
  | none => exact ⟨rfl, rfl⟩
  | some id =>
    rw [Effects, saveState_mem]
    exact ⟨rfl, rfl⟩

/-- **Applying an entry** does to the membership what the text of the entry says. -/
theorem applyConfigChange_mem (cmd : Bytes) : (g.applyConfigChange cmd).mem =
    (ConfigChange.readChange g.opts.json cmd).effect g.serverId g.mem := by
  have hrun : Effects g (g.runConfigCommand cmd) (.readChange g.opts.json cmd) := by
    unfold runConfigCommand ConfigChange.readChange
    cases restAfter (ascii "CONFIG_CHANGE:JOINT:") cmd with
    | some rest => exact applyJoint_effects g rest
    | none =>
    cases restAfter (ascii "CONFIG_CHANGE:FINALIZE:") cmd with
    | some rest => exact applyFinalize_effects g rest
    | none =>
    cases restAfter (ascii "CONFIG_CHANGE:ADD_LEARNER:") cmd with
    | some rest => exact (applyAddress_effects g rest).1
    | none =>
    cases restAfter (ascii "CONFIG_CHANGE:PROMOTE:") cmd with
    | some rest => exact applyPromote_effects g rest
    | none =>
    cases restAfter (ascii "CONFIG_CHANGE:ADD:") cmd with
    | some rest => exact (applyAddress_effects g rest).2
    | none =>
    cases restAfter (ascii "CONFIG_CHANGE:REMOVE:") cmd with
    | some rest => exact applyRemove_effects g rest
    | none => exact ⟨rfl, rfl⟩
  obtain ⟨hconfig, hpeers⟩ := hrun
  unfold applyConfigChange ConfigChange.effect
  dsimp only
  rw [hconfig, hpeers]

end RaftGroup

/-! ## §4 — The texts the code writes. -/

/-- `CONFIG_CHANGE:FINALIZE:nodes`. -/
def finalizeCommand (js : JsonText) (nodes : List NodeId) : Bytes :=
  ascii "CONFIG_CHANGE:FINALIZE:" ++ nodesToJson js nodes

theorem restAfter_append (lead rest : Bytes) : restAfter lead (lead ++ rest) = some rest := by
  unfold restAfter
  rw [if_pos (startsWith_iff.mpr (List.prefix_append lead rest)), List.drop_left]

/-- Whether a text starts with `lead` is decided by its first part, when that is long enough. -/
theorem restAfter_eq_none {lead first : Bytes} (rest : Bytes) (hlen : lead.length ≤ first.length)
    (hne : startsWith first lead = false) : restAfter lead (first ++ rest) = none := by
  unfold restAfter
  rw [if_neg]
  intro h
  have hbegins := startsWith_iff.mp h
  have hfirst : lead <+: first :=
    List.prefix_of_prefix_length_le hbegins (List.prefix_append first rest) hlen
  rw [startsWith_iff.mpr hfirst] at hne
  cases hne

variable {js : JsonText} {nodes : List NodeId}

theorem readChange_joint (hjs : js.PrintsLists) {old : List NodeId} (hold : Int32Ids old)
    (hnodes : Int32Ids nodes) :
    ConfigChange.readChange js (ascii "CONFIG_CHANGE:JOINT:" ++ nodesToJson js old ++ ascii ":"
      ++ nodesToJson js nodes) = .joint old nodes := by
  have htext : ascii "CONFIG_CHANGE:JOINT:" ++ nodesToJson js old ++ ascii ":"
      ++ nodesToJson js nodes = ascii "CONFIG_CHANGE:JOINT:" ++
        (nodesToJson js old ++ 58 :: nodesToJson js nodes) := by
    have hcolon : ascii ":" = [58] := by decide +kernel
    simp [hcolon]
  rw [htext, ConfigChange.readChange, restAfter_append]
  dsimp only
  rw [ConfigChange.ofJoint, splitColon_append _ (colon_notMem_nodesToJson hjs hold)]
  dsimp only
  rw [jsonToNodes_nodesToJson hjs hold, jsonToNodes_nodesToJson hjs hnodes]

theorem readChange_finalize (hjs : js.PrintsLists) (hnodes : Int32Ids nodes) :
    ConfigChange.readChange js (finalizeCommand js nodes) = .finalize nodes := by
  rw [finalizeCommand, ConfigChange.readChange,
    restAfter_eq_none _ (by decide +kernel) (by decide +kernel), restAfter_append]
  dsimp only
  rw [ConfigChange.ofFinalize, jsonToNodes_nodesToJson hjs hnodes]

end RollingRaft
