/-
# RollingRaft.CommandText — what the texts of configuration entries are read as.

The texts are put together in `raft_node_core.cpp` and taken apart in `membership_manager.cpp`, by
their colons. A list of node ids holds no colon and neither does a printed id, so what follows the
first one is the second list, or the address with all its colons: every text that a node builds is
read as what it was built from.

Of a text that nobody built, the parts are used one after the other. `ApplyConfigChangeLocked`
catches what the parsers throw, but a JOINT text whose second list does not parse has replaced
`old_nodes` by then.
-/
import RollingRaft.Outstanding

namespace RollingRaft

open Lib

/-! ## §1 — Printed ids. -/

theorem decimal_eq {rounds n : Nat} (h : n < rounds) :
    decimal rounds n = (Nat.toDigits 10 n).map fun c => UInt8.ofNat c.toNat := by
  induction rounds generalizing n with
  | zero => omega
  | succ rounds ih =>
    have hdigit : ∀ d < 10, UInt8.ofNat (48 + d) = UInt8.ofNat (Nat.digitChar d).toNat := by decide
    rw [decimal]
    split
    · rename_i hn
      rw [Nat.toDigits_of_lt_base hn, hdigit n hn]
      rfl
    have hlast : n % 10 < 10 := Nat.mod_lt n (by omega)
    have hsplit := Nat.toDigits_append_toDigits (b := 10) (n := n / 10) (d := n % 10) (by decide)
      (by omega) hlast
    rw [Nat.div_add_mod] at hsplit
    rw [ih (by omega), ← hsplit, List.map_append, Nat.toDigits_of_lt_base hlast, hdigit _ hlast]
    rfl

theorem ascii_toString (i : Int) : ascii (toString i) = numberText i := by
  have hnat (n : Nat) : ascii (toString n) = decimal (n + 1) n := by
    unfold ascii
    rw [Nat.toString_eq_ofList_toDigits, String.toList_ofList, decimal_eq (Nat.lt_succ_self n)]
  cases i with
  | ofNat n =>
    have htext : toString (Int.ofNat n) = toString n := String.toByteArray_inj.mp rfl
    rw [htext, hnat, numberText, if_neg (by simp)]
    rfl
  | negSucc n =>
    have htext : toString (Int.negSucc n) = "-" ++ toString (n + 1) := String.toByteArray_inj.mp rfl
    have hascii : ascii ("-" ++ toString (n + 1)) = 45 :: ascii (toString (n + 1)) := by
      unfold ascii
      rw [String.toList_append]
      rfl
    rw [htext, hascii, hnat, numberText, if_pos (Int.negSucc_lt_zero n)]
    rfl

theorem parseNodeId_numberText {id : Int} (hid : Int32Ids [id]) :
    parseNodeId (numberText id) = some id := by
  obtain ⟨hlow, hhigh⟩ : (-2 ^ 31 : Int) ≤ id ∧ id < (2 ^ 31 : Int) :=
    hid id (List.mem_singleton_self id)
  have hsigned : signedDigits (numberText id) = some (decide (id < 0), id.natAbs) := by
    unfold numberText
    split
    · rename_i hneg
      have hdigits := (digits_decimal id.natAbs (r := []) (by simp)).1
      rw [List.append_nil] at hdigits
      rw [signedDigits, List.dropWhile_cons_of_neg (by decide), decide_eq_true hneg]
      exact congrArg (Option.map (true, ·)) hdigits
    · rename_i hpos
      have hunsigned := signedDigits_decimal id.natAbs (r := []) (by simp)
      rw [List.append_nil] at hunsigned
      rw [hunsigned, decide_eq_false hpos]
  have hvalue : (if decide (id < 0) = true then -(id.natAbs : Int) else id.natAbs) = id := by
    split
    · rename_i hneg
      have := of_decide_eq_true hneg
      omega
    · rename_i hpos
      have : ¬ id < 0 := by simpa using hpos
      omega
  rw [parseNodeId, stoll, hsigned]
  dsimp only
  rw [hvalue, if_pos (by omega), Option.map_some, toInt32_of_range hlow hhigh]

/-! ## §2 — Texts that a node builds. -/

/-- What a membership call asks for. -/
def RaftGroup.callChange (g : RaftGroup) : Event → ConfigChange
  | .addNode id _ => .joint g.mem.config.nodes (g.mem.config.nodes ++ [id])
  | .promoteLearner id => .joint g.mem.config.nodes (g.mem.config.nodes ++ [id])
  | .removeNode id => .joint g.mem.config.nodes (g.mem.config.nodes.filter (· ≠ id))
  | .addLearner id addr => .addLearner id addr
  | _ => .nothing

/-- The node that a membership call is about. -/
def Event.callIds : Event → List NodeId
  | .addNode id _ | .addLearner id _ | .promoteLearner id | .removeNode id => [id]
  | _ => []

theorem readChange_learner (js : JsonText) {id : NodeId} (hid : Int32Ids [id]) (addr : Bytes) :
    ConfigChange.readChange js
      (ascii "CONFIG_CHANGE:ADD_LEARNER:" ++ ascii (toString id) ++ ascii ":" ++ addr) =
        .addLearner id addr := by
  have htext : ascii "CONFIG_CHANGE:ADD_LEARNER:" ++ ascii (toString id) ++ ascii ":" ++ addr =
      ascii "CONFIG_CHANGE:ADD_LEARNER:" ++ (numberText id ++ 58 :: addr) := by
    have hcolon : ascii ":" = [58] := by decide +kernel
    rw [ascii_toString, hcolon]
    simp
  rw [htext, ConfigChange.readChange, restAfter_eq_none _ (by decide +kernel) (by decide +kernel)]
  rw [restAfter_eq_none _ (by decide +kernel) (by decide +kernel), restAfter_append]
  dsimp only
  rw [ConfigChange.ofAddress, splitColon_append _ (colon_notMem_numberText id)]
  dsimp only
  rw [parseNodeId_numberText hid]

theorem readChange_callCommand {g : RaftGroup} (hjs : g.opts.json.PrintsLists)
    (hnodes : Int32Ids g.mem.config.nodes) {ev : Event} {cmd : Bytes} (hid : Int32Ids ev.callIds)
    (hcmd : g.callCommand ev = some cmd) :
    ConfigChange.readChange g.opts.json cmd = g.callChange ev := by
  have hadded {id : NodeId} (hid : Int32Ids [id]) : Int32Ids (g.mem.config.nodes ++ [id]) := by
    intro i hi
    exact (List.mem_append.mp hi).elim (hnodes i) (hid i)
  cases ev with
  | addNode id addr => cases hcmd; exact readChange_joint hjs hnodes (hadded hid)
  | promoteLearner id => cases hcmd; exact readChange_joint hjs hnodes (hadded hid)
  | removeNode id =>
    cases hcmd
    exact readChange_joint hjs hnodes fun i hi => hnodes i (List.mem_of_mem_filter hi)
  | addLearner id addr => cases hcmd; exact readChange_learner _ hid addr
  | _ => cases hcmd

/-- **Texts are read back.** On every node with the same library, the text that a membership call or
the automatic FINALIZE builds says what it was built from; JOINT puts both lists in force, FINALIZE
the second one, and of the learners those go who vote now; ADD_LEARNER adds its node and gives it
its address. -/
theorem commands_read_back {g h : RaftGroup} (hjs : g.opts.json.PrintsLists)
    (hjson : h.opts.json = g.opts.json) (hnodes : Int32Ids g.mem.config.nodes) :
    (∀ ev cmd, Int32Ids ev.callIds → g.callCommand ev = some cmd →
      ConfigChange.readChange h.opts.json cmd = g.callChange ev) ∧
    (∀ cmd old nodes, ConfigChange.readChange h.opts.json cmd = .joint old nodes →
      (h.applyConfigChange cmd).mem.config =
        { nodes := nodes, oldNodes := old, isJoint := true, version := h.mem.config.version + 1
          learners := h.mem.config.learners.filter (· ∉ nodes) }) ∧
    (h.applyConfigChange (finalizeCommand g.opts.json g.mem.config.nodes)).mem.config =
      { nodes := g.mem.config.nodes, oldNodes := [], isJoint := false
        version := h.mem.config.version + 1
        learners := h.mem.config.learners.filter (· ∉ g.mem.config.nodes) } ∧
    ∀ cmd id addr, ConfigChange.readChange h.opts.json cmd = .addLearner id addr →
      h.mem.config.contains id = false →
      (h.applyConfigChange cmd).mem.config =
        { h.mem.config with
          learners := h.mem.config.learners ++ [id], version := h.mem.config.version + 1 } ∧
      (h.applyConfigChange cmd).mem.peerMap =
        if id ≠ h.serverId && (h.mem.peerMap.lookup id).isNone then h.mem.peerMap.insert id addr
        else h.mem.peerMap := by
  refine ⟨?_, ?_, ?_, ?_⟩
  · intro ev cmd hid hcmd
    rw [hjson]
    exact readChange_callCommand hjs hnodes hid hcmd
  · intro cmd old nodes hread
    rw [RaftGroup.applyConfigChange_mem, hread]
    rfl
  · rw [RaftGroup.applyConfigChange_mem, hjson, readChange_finalize hjs hnodes]
    rfl
  · intro cmd id addr hread hnew
    rw [RaftGroup.applyConfigChange_mem, hread]
    simp [ConfigChange.effect, ConfigChange.config, ConfigChange.peers, ConfigChange.withAddress,
      hnew]

/-- A leader of three that knows a learner. -/
def leaderWithLearner : RaftGroup :=
  { opts := readingOne, el := { role := .leader }
    mem := { config := { nodes := [1, 2, 3], learners := [4], version := 1 } } }

theorem commands_read_back_promote :
    ConfigChange.readChange listJson
      (leaderWithLearner.jointCommand [1, 2, 3] [1, 2, 3, 4]) = .joint [1, 2, 3] [1, 2, 3, 4] := by
  have hids : Int32Ids leaderWithLearner.mem.config.nodes := by
    show ∀ i ∈ [1, 2, 3], (-2 ^ 31 : Int) ≤ i ∧ i < 2 ^ 31
    decide
  have hid : Int32Ids (Event.promoteLearner 4).callIds := by
    show ∀ i ∈ [4], (-2 ^ 31 : Int) ≤ i ∧ i < 2 ^ 31
    decide
  exact (commands_read_back (g := leaderWithLearner) (h := leaderWithLearner) listJson_printsLists rfl
    hids).1 (.promoteLearner 4) _ hid rfl

/-! ## §3 — Any text. -/

/-- A change that is none when the configuration is `c`. -/
def ConfigChange.IdleIn (c : ClusterConfig) : ConfigChange → Prop
  | .nothing => True
  | .oldOnly old => old = c.oldNodes
  | .addLearner id _ | .add id _ => c.contains id = true
  | .promote id => c.isVoter id = true ∧ id ∉ c.learners
  | .joint _ _ | .finalize _ | .remove _ => False

theorem ConfigChange.config_eq_iff (c : ClusterConfig) (ch : ConfigChange) :
    ch.config c = c ↔ ch.IdleIn c := by
  -- whatever takes effect counts up the version
  have hversion {d : ClusterConfig} (hd : d.version = c.version + 1) : d ≠ c := by
    rintro rfl
    omega
  cases ch with
  | nothing => exact iff_of_true rfl trivial
  | oldOnly old =>
    refine ⟨fun h => congrArg ClusterConfig.oldNodes h, ?_⟩
    rintro rfl
    rfl
  | joint | finalize | remove => exact iff_of_false (hversion rfl) id
  | addLearner id addr | add id addr =>
    unfold config IdleIn
    dsimp only
    split
    · exact iff_of_true rfl ‹_›
    · exact iff_of_false (hversion rfl) ‹_›
  | promote id =>
    unfold config IdleIn
    dsimp only
    split
    · rename_i hvoter
      have hvoter : c.isVoter id = true := hvoter
      refine ⟨fun h => ⟨hvoter, ?_⟩, ?_⟩
      · have hlearners : c.learners.filter (· ≠ id) = c.learners :=
          congrArg ClusterConfig.learners h
        intro hmem
        have := List.filter_eq_self.mp hlearners id hmem
        simp at this
      · rintro ⟨-, hmem⟩
        have hlearners : c.learners.filter (· ≠ id) = c.learners := by
          refine List.filter_eq_self.mpr fun v hv => ?_
          simp only [decide_eq_true_eq]
          rintro rfl
          exact hmem hv
        rw [hlearners]
    · rename_i hvoter
      exact iff_of_false (hversion rfl) fun h => hvoter h.1

namespace RaftGroup

variable {g : RaftGroup}

/-- The configuration, the peers and their progress are as they were, and the node goes on. -/
def Untouched (g g' : RaftGroup) : Prop :=
  g'.mem.config = g.mem.config ∧ g'.mem.peerMap = g.mem.peerMap ∧
    g'.rep.nextIndex = g.rep.nextIndex ∧ g'.rep.matchIndex = g.rep.matchIndex ∧ g'.halt = g.halt

/-- A text that changes nothing, or only `old_nodes`, does nothing else. -/
theorem runConfigCommand_of_idle {cmd : Bytes} :
    (ConfigChange.readChange g.opts.json cmd).IdleIn g.mem.config →
      ∃ c, g.runConfigCommand cmd = g.setConfig c := by
  unfold ConfigChange.readChange runConfigCommand
  cases restAfter (ascii "CONFIG_CHANGE:JOINT:") cmd with
  | some rest =>
    dsimp only [ConfigChange.ofJoint, applyJoint]
    cases splitColon rest with
    | none => exact fun _ => ⟨_, rfl⟩
    | some texts =>
      dsimp only
      cases jsonToNodes g.opts.json texts.1 with
      | error _ => exact fun _ => ⟨_, rfl⟩
      | ok old =>
        dsimp only
        rw [show (g.setConfig { g.mem.config with oldNodes := old }).opts.json = g.opts.json from rfl]
        cases jsonToNodes g.opts.json texts.2 with
        | error _ => exact fun _ => ⟨_, rfl⟩
        | ok nodes => exact False.elim
  | none =>
  cases restAfter (ascii "CONFIG_CHANGE:FINALIZE:") cmd with
  | some rest =>
    dsimp only [ConfigChange.ofFinalize, applyFinalize]
    cases jsonToNodes g.opts.json rest with
    | error _ => exact fun _ => ⟨_, rfl⟩
    | ok nodes => exact False.elim
  | none =>
  cases restAfter (ascii "CONFIG_CHANGE:ADD_LEARNER:") cmd with
  | some rest =>
    dsimp only [ConfigChange.ofAddress, applyAddLearner]
    cases splitColon rest with
    | none => exact fun _ => ⟨_, rfl⟩
    | some texts =>
      dsimp only
      cases parseNodeId texts.1 with
      | none => exact fun _ => ⟨_, rfl⟩
      | some id => exact fun h => ⟨_, if_pos h⟩
  | none =>
  cases restAfter (ascii "CONFIG_CHANGE:PROMOTE:") cmd with
  | some rest =>
    dsimp only [ConfigChange.ofId, applyPromote]
    cases parseNodeId rest with
    | none => exact fun _ => ⟨_, rfl⟩
    | some id => exact fun h => ⟨_, if_pos h.1⟩
  | none =>
  cases restAfter (ascii "CONFIG_CHANGE:ADD:") cmd with
  | some rest =>
    dsimp only [ConfigChange.ofAddress, applyAdd]
    cases splitColon rest with
    | none => exact fun _ => ⟨_, rfl⟩
    | some texts =>
      dsimp only
      cases parseNodeId texts.1 with
      | none => exact fun _ => ⟨_, rfl⟩
      | some id => exact fun h => ⟨_, if_pos h⟩
  | none =>
  cases restAfter (ascii "CONFIG_CHANGE:REMOVE:") cmd with
  | some rest =>
    dsimp only [ConfigChange.ofId, applyRemove]
    cases parseNodeId rest with
    | none => exact fun _ => ⟨_, rfl⟩
    | some id => exact False.elim
  | none => exact fun _ => ⟨_, rfl⟩

/-- **When a text leaves everything alone.** Exactly when what can be read of it is no change: no
command, an unreadable first part, or one whose node is where the command wants it; and for JOINT
with an unreadable second list, when the first is the present `old_nodes`. -/
theorem applyConfigChange_untouched_iff (g : RaftGroup) (cmd : Bytes) :
    g.Untouched (g.applyConfigChange cmd) ↔
      (ConfigChange.readChange g.opts.json cmd).IdleIn g.mem.config := by
  have hmem := applyConfigChange_mem g cmd
  have hconfig : (g.applyConfigChange cmd).mem.config =
      (ConfigChange.readChange g.opts.json cmd).config g.mem.config :=
    congrArg MembershipState.config hmem
  rw [← ConfigChange.config_eq_iff, ← hconfig]
  refine ⟨fun h => h.1, fun h => ?_⟩
  obtain ⟨c, hc⟩ := runConfigCommand_of_idle
    ((ConfigChange.config_eq_iff _ _).mp (hconfig.symm.trans h))
  refine ⟨h, ?_⟩
  unfold applyConfigChange
  rw [hc]
  exact ⟨rfl, rfl, rfl, rfl⟩

/-- The second list of this text is none, and the first takes effect. -/
theorem broken_joint_replaces_old :
    (jsonToNodes listJson (ascii "[1,2,3")).isOk = false ∧
    ¬ leaderWithLearner.Untouched
      (leaderWithLearner.applyConfigChange (ascii "CONFIG_CHANGE:JOINT:[1,2]:[1,2,3")) := by
  refine ⟨by decide +kernel, fun h => ?_⟩
  have hold : (leaderWithLearner.applyConfigChange
      (ascii "CONFIG_CHANGE:JOINT:[1,2]:[1,2,3")).mem.config.oldNodes = [1, 2] := by decide +kernel
  rw [h.1] at hold
  cases hold

end RaftGroup

end RollingRaft
