/-
# RollingRaft.VoterChanges — the voters are what the accepted changes make of the initial ones.

The committed log is given, and every configuration entry in it has an origin: an accepted call of a
leader, or the FINALIZE entry that a leader proposes in joint mode. Such a leader follows the log, it
makes steady steps, and what it has not applied yet stands in its log as it was committed. Then each
accepted change of the voters shows in the configuration that the log gives from its entry on, and
nothing else does.
-/
import RollingRaft.ChangeTracking

namespace RollingRaft

open Lib

/-! ## §1 — Changes of a set of voters. -/

/-- What a call wants of the set of voters. -/
inductive VoterChange where
  | add (id : NodeId)
  | remove (id : NodeId)
  deriving DecidableEq

namespace VoterChange

def apply (voters : Finset NodeId) : VoterChange → Finset NodeId
  | add id => insert id voters
  | remove id => voters.erase id

/-- The change that a call asks for; a learner is no voter. -/
def ofCall : Event → Option VoterChange
  | .addNode id _ => some (.add id)
  | .promoteLearner id => some (.add id)
  | .removeNode id => some (.remove id)
  | _ => none

end VoterChange

/-- A change, or none. -/
def changed (voters : Finset NodeId) (change : Option VoterChange) : Finset NodeId :=
  match change with
  | none => voters
  | some c => c.apply voters

/-- The voters after the changes of the first `n` entries, in the order of the log. -/
def votersAfter (changes : Index → Option VoterChange) (voters : Finset NodeId) :
    Nat → Finset NodeId
  | 0 => voters
  | n + 1 => changed (votersAfter changes voters n) (changes (n + 1))

/-! ## §2 — What an entry does to the voters. -/

section Entries

variable {js : JsonText} {log : Index → Bytes} {c₀ : ClusterConfig} {n : Nat}

theorem configAt_of_plain (h : isConfigChange (log (n + 1)) = false) :
    configAt js log c₀ (n + 1) = configAt js log c₀ n := by
  rw [configAt, h]
  rfl

theorem configAt_of_config (h : isConfigChange (log (n + 1)) = true) :
    configAt js log c₀ (n + 1) =
      (ConfigChange.readChange js (log (n + 1))).config (configAt js log c₀ n) := by
  rw [configAt, if_pos h]

theorem configAt_of_gap {m : Nat} (hmn : m ≤ n)
    (hgap : ∀ j, m < j → j ≤ n → isConfigChange (log j) = false) :
    configAt js log c₀ n = configAt js log c₀ m := by
  induction n, hmn using Nat.le_induction with
  | base => rfl
  | succ n hmn ih =>
    have hlast := hgap (n + 1) (Nat.lt_succ_of_le hmn) le_rfl
    rw [configAt_of_plain hlast]
    apply ih
    intro j hj hjn
    exact hgap j hj (Nat.le_succ_of_le hjn)

theorem isConfigChange_of_prefix {lead rest : Bytes} (h : ascii "CONFIG_CHANGE:" <+: lead) :
    isConfigChange (lead ++ rest) = true :=
  startsWith_iff.mpr (h.trans (List.prefix_append _ _))

theorem readChange_addLearner (rest : Bytes) (c : ClusterConfig) :
    ((ConfigChange.readChange js (ascii "CONFIG_CHANGE:ADD_LEARNER:" ++ rest)).config c).nodes =
      c.nodes := by
  rw [ConfigChange.readChange, restAfter_eq_none _ (by decide +kernel) (by decide +kernel)]
  rw [restAfter_eq_none _ (by decide +kernel) (by decide +kernel), restAfter_append]
  dsimp only
  unfold ConfigChange.ofAddress
  split
  · rfl
  split
  · rfl
  unfold ConfigChange.config
  dsimp only
  split <;> rfl

end Entries

/-! ## §3 — Where the entries of the log come from. -/

namespace Process

/-- What the node has not applied yet, up to entry `i`, is in its log as it was committed. -/
structure Agrees (log : Index → Bytes) (p : Process) (i : Index) : Prop where
  start : p.group.rep.log.startIndex ≤ p.group.app.lastEnqueued + 1
  behind : p.group.app.lastEnqueued < i
  held : i < p.group.rep.log.startIndex + p.group.rep.log.entries.length
  same : ∀ j e, p.group.app.lastEnqueued < j → j ≤ i → p.group.rep.log.slot j = some e →
    e.data = log j

/-- The steps of a leader that follows the log and does not lose track of its changes. -/
def SteadyFollows (log : Index → Bytes) (c₀ : ClusterConfig) (p : Process) (e : Event × Env) :
    Prop :=
  p.Steady e ∧ p.FollowsConfigs log c₀ e

variable {log : Index → Bytes} {p : Process} {i : Index}

theorem slot_of_agrees (h : Agrees log p i) {j : Index} (hlast : p.group.app.lastEnqueued < j)
    (hj : j ≤ i) : ∃ e, p.group.rep.log.slot j = some e ∧ e.data = log j := by
  have hlt : j - p.group.rep.log.startIndex < p.group.rep.log.entries.length := by
    have hstart : p.group.rep.log.startIndex ≤ j := h.start.trans hlast
    have hheld : j < p.group.rep.log.startIndex + p.group.rep.log.entries.length :=
      hj.trans_lt h.held
    exact Nat.sub_lt_left_of_lt_add hstart hheld
  obtain ⟨e, he⟩ : ∃ e, p.group.rep.log.slot j = some e :=
    ⟨_, List.getElem?_eq_getElem hlt⟩
  exact ⟨e, he, h.same j e hlast hj he⟩

end Process

/-- A leader has accepted the call `ev`, and its entry is the entry `i` of the committed log. -/
structure CommittedCall (js : JsonText) (log : Index → Bytes) (c₀ : ClusterConfig) (ev : Event)
    (i : Index) : Prop where
  exists_leader : ∃ opts p env p', opts.json = js ∧
    (Process.system opts).ReachableWith (Process.SteadyFollows log c₀) p ∧
    p.Steady (ev, env) ∧ p.next (ev, env) = some p' ∧
    (p.entered env).callStatus ev = some .ok ∧
    i = p.group.rep.log.startIndex + p.group.rep.log.entries.length ∧ p'.Agrees log i
  int32 : ∀ id, VoterChange.ofCall ev = some (.add id) → -2 ^ 31 ≤ id ∧ id < 2 ^ 31

/-- Where entry `i` of the committed log comes from, with its change of the voters. -/
inductive Origin (js : JsonText) (log : Index → Bytes) (c₀ : ClusterConfig) (i : Index) :
    Option VoterChange → Prop
  | call {ev : Event} (h : CommittedCall js log c₀ ev i) : Origin js log c₀ i (VoterChange.ofCall ev)
  /-- A leader in joint mode has put it there. -/
  | finalize {opts : Options} {p : Process} (json : opts.json = js)
      (reach : (Process.system opts).ReachableWith (Process.SteadyFollows log c₀) p)
      (up : p.group.halt = none) (leads : p.group.el.role = .leader)
      (joint : p.group.mem.config.isJoint = true) (agrees : p.Agrees log i) :
      Origin js log c₀ i none

/-! ## §4 — The place of an outstanding entry. -/

theorem filter_singleton_at {α : Type*} {keep : α → Bool} {l : List α} {b : Nat} {x y : α}
    (hb : l[b]? = some x) (hx : keep x = true) (h : l.filter keep = [y]) :
    x = y ∧ ∀ a z, a < b → l[a]? = some z → keep z = false := by
  obtain ⟨hlt, hget⟩ := List.getElem?_eq_some_iff.mp hb
  have hsplit : l = l.take b ++ x :: l.drop (b + 1) := by
    rw [← hget, ← List.drop_eq_getElem_cons hlt, List.take_append_drop]
  rw [hsplit, List.filter_append, List.filter_cons_of_pos hx] at h
  -- the filter keeps `x`, so it keeps nothing of what stands before it
  have hbefore : (l.take b).filter keep = [] := by
    have hlen := congrArg List.length h
    rw [List.length_append, List.length_cons, List.length_singleton] at hlen
    apply List.eq_nil_of_length_eq_zero
    omega
  rw [hbefore, List.nil_append] at h
  refine ⟨(List.cons.inj h).1, ?_⟩
  intro a z ha hz
  have hmem : z ∈ l.take b := by
    apply List.mem_of_getElem? (i := a)
    rw [List.getElem?_take_of_lt ha]
    exact hz
  exact Bool.eq_false_iff.mpr (List.filter_eq_nil_iff.mp hbefore z hmem)

namespace RaftGroup

variable {g : RaftGroup} {j : Index} {e : LogEntry}

theorem slot_behind (hstart : g.rep.log.startIndex ≤ g.app.lastEnqueued + 1)
    (hj : g.app.lastEnqueued < j) :
    g.rep.log.slot j = (g.rep.log.entries.drop (g.app.lastEnqueued + 1 -
      g.rep.log.startIndex))[j - (g.app.lastEnqueued + 1)]? := by
  have hplace : g.app.lastEnqueued + 1 - g.rep.log.startIndex +
      (j - (g.app.lastEnqueued + 1)) = j - g.rep.log.startIndex := by
    have hj : g.app.lastEnqueued + 1 ≤ j := hj
    rw [← Nat.sub_add_comm hstart, Nat.add_sub_cancel' hj]
  rw [List.getElem?_drop, hplace]
  rfl

theorem plain_of_none (hnone : g.outstanding = [])
    (hstart : g.rep.log.startIndex ≤ g.app.lastEnqueued + 1) (hj : g.app.lastEnqueued < j)
    (he : g.rep.log.slot j = some e) : isConfigChange e.data = false := by
  rw [slot_behind hstart hj] at he
  exact Bool.eq_false_iff.mpr (List.filter_eq_nil_iff.mp hnone e (List.mem_of_getElem? he))

/-- A configuration entry behind `last_enqueued_` is the one that is outstanding, and no other stands
before it. -/
theorem Tracked.place (ht : g.Tracked)
    (hstart : g.rep.log.startIndex ≤ g.app.lastEnqueued + 1) (hj : g.app.lastEnqueued < j)
    (he : g.rep.log.slot j = some e) (hconfig : isConfigChange e.data = true) :
    (g.mem.config.isJoint = true → e.data = finalizeCommand g.opts.json g.mem.config.nodes) ∧
      ∀ k e', g.app.lastEnqueued < k → k < j → g.rep.log.slot k = some e' →
        isConfigChange e'.data = false := by
  rcases ht with hnone | ⟨y, hone, hdata⟩
  · rw [plain_of_none hnone hstart hj he] at hconfig
    cases hconfig
  · rw [slot_behind hstart hj] at he
    obtain ⟨rfl, hbefore⟩ := filter_singleton_at he hconfig hone
    refine ⟨fun hjoint => ?_, ?_⟩
    · rw [if_pos hjoint] at hdata
      exact hdata
    · intro k e' hk hkj he'
      rw [slot_behind hstart hk] at he'
      exact hbefore _ e' (Nat.sub_lt_sub_right hk hkj) he'

end RaftGroup

/-! ## §5 — What an entry of each origin does. -/

section Origins

variable {js : JsonText} {log : Index → Bytes} {c₀ : ClusterConfig} {n : Nat}

/-- The voters after `n` entries are these, and their ids have 32 bits. -/
structure HasVoters (js : JsonText) (log : Index → Bytes) (c₀ : ClusterConfig) (n : Nat)
    (voters : Finset NodeId) : Prop where
  voters : (configAt js log c₀ n).nodes.toFinset = voters
  int32 : Int32Ids (configAt js log c₀ n).nodes

theorem int32Ids_of_same {c d : ClusterConfig} (h : c.Same d) (hc : Int32Ids c.nodes) :
    Int32Ids d.nodes := fun id hid => hc id ((h.nodes id).mpr hid)

theorem toFinset_of_same {c d : ClusterConfig} (h : c.Same d) :
    d.nodes.toFinset = c.nodes.toFinset := by
  ext id
  rw [List.mem_toFinset, List.mem_toFinset]
  exact (h.nodes id).symm

theorem hasVoters_joint (hjs : js.PrintsLists) {old nodes : List NodeId} (hold : Int32Ids old)
    (hnodes : Int32Ids nodes) (hentry : log (n + 1) = ascii "CONFIG_CHANGE:JOINT:" ++
      nodesToJson js old ++ ascii ":" ++ nodesToJson js nodes) :
    HasVoters js log c₀ (n + 1) nodes.toFinset := by
  have hconfig : isConfigChange (log (n + 1)) = true := by
    rw [hentry, List.append_assoc, List.append_assoc]
    exact isConfigChange_of_prefix (by decide +kernel)
  have hnext : (configAt js log c₀ (n + 1)).nodes = nodes := by
    rw [configAt_of_config hconfig, hentry, readChange_joint hjs hold hnodes]
    rfl
  refine ⟨by rw [hnext], ?_⟩
  rw [hnext]
  exact hnodes

variable {ev : Event} {voters : Finset NodeId}

theorem hasVoters_call (hjs : js.PrintsLists) {g : RaftGroup} (hjson : g.opts.json = js)
    (hprev : HasVoters js log c₀ n voters) (hsame : (configAt js log c₀ n).Same g.mem.config)
    (hid : ∀ id, VoterChange.ofCall ev = some (.add id) → -2 ^ 31 ≤ id ∧ id < 2 ^ 31)
    (hcmd : g.callCommand ev = some (log (n + 1))) :
    HasVoters js log c₀ (n + 1) (changed voters (VoterChange.ofCall ev)) := by
  have hold : Int32Ids g.mem.config.nodes := int32Ids_of_same hsame hprev.int32
  have hvoters : g.mem.config.nodes.toFinset = voters :=
    (toFinset_of_same hsame).trans hprev.voters
  have hadd : ∀ id, -2 ^ 31 ≤ id ∧ id < 2 ^ 31 →
      g.jointCommand g.mem.config.nodes (g.mem.config.nodes ++ [id]) = log (n + 1) →
      HasVoters js log c₀ (n + 1) (insert id voters) := by
    intro id hrange hentry
    have hnew : Int32Ids (g.mem.config.nodes ++ [id]) := by
      exact List.forall_mem_append.mpr ⟨hold, List.forall_mem_singleton.mpr hrange⟩
    have hafter : HasVoters js log c₀ (n + 1) (g.mem.config.nodes ++ [id]).toFinset :=
      hasVoters_joint hjs hold hnew (by rw [← hentry, RaftGroup.jointCommand, hjson])
    have hset : (g.mem.config.nodes ++ [id]).toFinset = insert id voters := by
      rw [List.toFinset_append, hvoters]
      ext i
      simp
    rw [hset] at hafter
    exact hafter
  cases ev with
  | addNode id | promoteLearner id => exact hadd id (hid id rfl) (Option.some.inj hcmd)
  | removeNode id =>
    have hentry := Option.some.inj hcmd
    have hnew : Int32Ids (g.mem.config.nodes.filter (· ≠ id)) :=
      fun i hi => hold i (List.mem_of_mem_filter hi)
    have hafter : HasVoters js log c₀ (n + 1) (g.mem.config.nodes.filter (· ≠ id)).toFinset :=
      hasVoters_joint hjs hold hnew (by rw [← hentry, RaftGroup.jointCommand, hjson])
    have hset : (g.mem.config.nodes.filter (· ≠ id)).toFinset = voters.erase id := by
      rw [← hvoters]
      ext i
      simp [and_comm]
    rw [hset] at hafter
    exact hafter
  | addLearner id addr =>
    have hentry := Option.some.inj hcmd
    rw [List.append_assoc, List.append_assoc] at hentry
    have hconfig : isConfigChange (log (n + 1)) = true := by
      rw [← hentry]
      exact isConfigChange_of_prefix (by decide +kernel)
    have hnext : (configAt js log c₀ (n + 1)).nodes = (configAt js log c₀ n).nodes := by
      rw [configAt_of_config hconfig, ← hentry]
      exact readChange_addLearner _ _
    refine ⟨by rw [hnext]; exact hprev.voters, ?_⟩
    rw [hnext]
    exact hprev.int32
  | _ => cases hcmd

theorem CommittedCall.hasVoters (hjs : js.PrintsLists) (h : CommittedCall js log c₀ ev (n + 1))
    (hprev : HasVoters js log c₀ n voters) :
    HasVoters js log c₀ (n + 1) (changed voters (VoterChange.ofCall ev)) := by
  obtain ⟨⟨opts, p, env, p', hjson, hreach, hok, hn, haccepted, hplace, hagrees⟩, hid⟩ := h
  have hat := Process.atConfig_of_reachable (hreach.mono fun _ _ h => h.2)
  have htrack := Process.onTrack_of_reachable (hreach.mono fun _ _ h => h.1)
  obtain ⟨hcall, hrole, -⟩ := Process.leader_of_accepted haccepted
  obtain ⟨cmd, hcmd⟩ := Process.callCommand_eq_some (g := p.entered env) hcall
  obtain ⟨hup, o, ho, rfl⟩ : p.group.halt = none ∧ ∃ o,
      (p.entered env).onEvent p.nextCall ev = some o ∧ p' = p.absorb o := by
    cases Process.step_of_next hn with
    | event up free ho => exact ⟨up, _, ho, rfl⟩
    | restart | crash | resume | run => cases hcall
  obtain ⟨hnone, -⟩ := htrack.accepted hok hup haccepted
  obtain ⟨-, hwrite⟩ := hok.calls hcall hrole
  have haccepts : RaftGroup.Accepts (p.entered env) o.group cmd := by
    rcases RaftGroup.call_cases _ hcmd ho hwrite with ⟨-, hrefused⟩ | ⟨haccepts, -⟩
    · exact absurd haccepted hrefused
    · exact haccepts
  have hlast : (p.absorb o).group.app.lastEnqueued = p.group.app.lastEnqueued :=
    haccepts.lastEnqueued
  have hlog : (p.absorb o).group.rep.log = p.group.rep.log.appendLogEntry
      ⟨p.group.rep.log.newIndex, p.group.el.currentTerm, cmd⟩ := haccepts.log
  have hstart : p.group.rep.log.startIndex ≤ p.group.app.lastEnqueued + 1 := by
    have h := hagrees.start
    rw [hlast, hlog] at h
    exact h
  -- the new entry stands in the slot behind the old ones
  have hentry : cmd = log (n + 1) := by
    refine hagrees.same (n + 1) ⟨p.group.rep.log.newIndex, p.group.el.currentTerm, cmd⟩
      hagrees.behind le_rfl ?_
    rw [hlog, hplace]
    exact RaftLog.slot_appendLogEntry_end _ _
  have hgap : ∀ j, p.group.app.lastEnqueued < j → j ≤ n → isConfigChange (log j) = false := by
    intro j hj hjn
    obtain ⟨e, he, hdata⟩ := Process.slot_of_agrees hagrees (hlast.symm ▸ hj) (Nat.le_succ_of_le hjn)
    have hbound : j < p.group.rep.log.startIndex + p.group.rep.log.entries.length :=
      hplace ▸ Nat.lt_succ_of_le hjn
    rw [hlog, RaftLog.slot_appendLogEntry_of_lt _ (hstart.trans hj) hbound] at he
    rw [← hdata]
    exact RaftGroup.plain_of_none hnone hstart hj he
  have hbehind : p.group.app.lastEnqueued ≤ n := by
    have h := hagrees.behind
    rw [hlast] at h
    exact Nat.le_of_lt_succ h
  have hsame : (configAt js log c₀ n).Same p.group.mem.config := by
    rw [configAt_of_gap hbehind hgap, ← hjson]
    exact hat.config hup
  have hjson' : (p.entered env).opts.json = js :=
    (congrArg Options.json hat.sameOpts).trans hjson
  exact hasVoters_call hjs hjson' hprev hsame hid (hcmd.trans (congrArg some hentry))

theorem hasVoters_finalize (hjs : js.PrintsLists) {opts : Options} {p : Process}
    (hjson : opts.json = js)
    (hreach : (Process.system opts).ReachableWith (Process.SteadyFollows log c₀) p)
    (hup : p.group.halt = none) (hleads : p.group.el.role = .leader)
    (hjoint : p.group.mem.config.isJoint = true) (hagrees : p.Agrees log (n + 1))
    (hconfig : isConfigChange (log (n + 1)) = true) (hprev : HasVoters js log c₀ n voters) :
    HasVoters js log c₀ (n + 1) voters := by
  have hat := Process.atConfig_of_reachable (hreach.mono fun _ _ h => h.2)
  have htrack := Process.onTrack_of_reachable (hreach.mono fun _ _ h => h.1)
  obtain ⟨e, he, hdata⟩ := Process.slot_of_agrees hagrees hagrees.behind le_rfl
  rw [← hdata] at hconfig
  obtain ⟨hfinal, hbefore⟩ :=
    (htrack.tracked hup hleads).place hagrees.start hagrees.behind he hconfig
  have hgap : ∀ j, p.group.app.lastEnqueued < j → j ≤ n → isConfigChange (log j) = false := by
    intro j hj hjn
    obtain ⟨e', he', hdata'⟩ := Process.slot_of_agrees hagrees hj (Nat.le_succ_of_le hjn)
    rw [← hdata']
    exact hbefore j e' hj (Nat.lt_succ_of_le hjn) he'
  have hsame : (configAt js log c₀ n).Same p.group.mem.config := by
    rw [configAt_of_gap (Nat.le_of_lt_succ hagrees.behind) hgap, ← hjson]
    exact hat.config hup
  have hids : Int32Ids p.group.mem.config.nodes := int32Ids_of_same hsame hprev.int32
  have hentry : log (n + 1) = finalizeCommand js p.group.mem.config.nodes := by
    rw [← hdata, hfinal hjoint, hat.sameOpts, hjson]
  have hnext : (configAt js log c₀ (n + 1)).nodes = p.group.mem.config.nodes := by
    rw [hdata] at hconfig
    rw [configAt_of_config hconfig, hentry, readChange_finalize hjs hids]
    rfl
  refine ⟨?_, ?_⟩
  · rw [hnext, toFinset_of_same hsame]
    exact hprev.voters
  · rw [hnext]
    exact hids

theorem hasVoters_after (hjs : js.PrintsLists) (hids : Int32Ids c₀.nodes)
    {changes : Index → Option VoterChange} {last : Index}
    (horigin : ∀ i, 0 < i → i ≤ last → isConfigChange (log i) = true →
      Origin js log c₀ i (changes i))
    (hplain : ∀ i, 0 < i → i ≤ last → isConfigChange (log i) = false → changes i = none)
    (hn : n ≤ last) : HasVoters js log c₀ n (votersAfter changes c₀.nodes.toFinset n) := by
  induction n with
  | zero => exact ⟨rfl, hids⟩
  | succ n ih =>
    have hprev := ih (Nat.le_of_succ_le hn)
    rw [votersAfter]
    by_cases hconfig : isConfigChange (log (n + 1)) = true
    · have hsource := horigin (n + 1) n.succ_pos hn hconfig
      generalize changes (n + 1) = change at hsource ⊢
      cases hsource with
      | call h => exact h.hasVoters hjs hprev
      | finalize json reach up leads joint agrees =>
        exact hasVoters_finalize hjs json reach up leads joint agrees hconfig hprev
    · have hconfig := Bool.eq_false_iff.mpr hconfig
      have hstays : configAt js log c₀ (n + 1) = configAt js log c₀ n := configAt_of_plain hconfig
      rw [hplain (n + 1) n.succ_pos hn hconfig]
      refine ⟨?_, ?_⟩
      · rw [hstays]
        exact hprev.voters
      · rw [hstays]
        exact hprev.int32

end Origins

/-- **Changes are made one at a time and none is lost.** In runs of steady steps a call is accepted
only with no configuration entry outstanding and outside joint mode. When every configuration entry
of the committed log, up to an index, comes from an accepted call or from a leader's FINALIZE, a node
that has applied the log up to there has the initial voters with the accepted changes made in the
order of the log, and every accepted call whose entry is committed is one of these changes. -/
theorem voters_follow_changes {js : JsonText} {log : Index → Bytes} {c₀ : ClusterConfig}
    {changes : Index → Option VoterChange} {last : Index} (hjs : js.PrintsLists)
    (hids : Int32Ids c₀.nodes)
    (horigin : ∀ i, 0 < i → i ≤ last → isConfigChange (log i) = true →
      Origin js log c₀ i (changes i))
    (hplain : ∀ i, 0 < i → i ≤ last → isConfigChange (log i) = false → changes i = none) :
    (∀ opts p ev env, (Process.system opts).ReachableWith Process.Steady p →
      p.Steady (ev, env) → p.group.halt = none → (p.entered env).callStatus ev = some .ok →
      p.group.outstanding = [] ∧ p.group.mem.config.isJoint = false) ∧
    (∀ opts p, opts.json = js →
      (Process.system opts).ReachableWith (Process.FollowsConfigs log c₀) p →
      p.group.halt = none → p.group.app.lastEnqueued = last →
      p.group.mem.config.nodes.toFinset = votersAfter changes c₀.nodes.toFinset last) ∧
    (∀ ev n, n + 1 ≤ last → CommittedCall js log c₀ ev (n + 1) →
      votersAfter changes c₀.nodes.toFinset (n + 1) =
        changed (votersAfter changes c₀.nodes.toFinset n) (VoterChange.ofCall ev)) := by
  refine ⟨?_, ?_, ?_⟩
  · intro opts p ev env hreach hok hup haccepted
    exact (Process.onTrack_of_reachable hreach).accepted hok hup haccepted
  · rintro opts p rfl hreach hup rfl
    have hvoters := hasVoters_after hjs hids horigin hplain le_rfl
    rw [toFinset_of_same ((Process.atConfig_of_reachable hreach).config hup)]
    exact hvoters.voters
  · intro ev n hn hcall
    -- both sides are the voters of the log at the entry of the call
    have hprev := hasVoters_after hjs hids horigin hplain (Nat.le_of_succ_le hn)
    have hnext := hasVoters_after hjs hids horigin hplain hn
    exact hnext.voters.symm.trans (hcall.hasVoters hjs hprev).voters

/-! ## §6 — A call in joint mode, and a change that completes. -/

/-- A leader in joint mode accepts a second change while FINALIZE of the first one is in its log and
not applied: the flag was cleared when JOINT was applied. -/
theorem call_accepted_in_joint_mode :
    ∃ p, (Process.system readingOne).Reachable p ∧ p.group.halt = none ∧
      (p.entered { now := 1004 }).callStatus (.addNode 5 [53]) = some .ok ∧
      p.group.outstanding ≠ [] ∧ p.group.mem.config.isJoint = true :=
  (Process.system readingOne).reaches nodeJoins rfl (by decide +kernel)

/-- The condition for steps that append nothing of clients and run no calls. -/
def steadyChange (p : Process) (e : Event × Env) : Bool :=
  followsChange p e && (!p.group.electsLeader e.1 || p.group.outstanding.isEmpty) &&
  match e.1 with
  | .propose _ _ _ | .proposeBatch _ | .run _ _ => false
  | .addNode _ _ | .addLearner _ _ | .promoteLearner _ | .removeNode _ =>
    !p.group.mem.config.isJoint && e.2.writes.headD true
  | _ => true

variable {p : Process}

theorem steadyFollows_of_change {e : Event × Env} (h : steadyChange p e = true) :
    p.SteadyFollows changeLog seedOfThree e := by
  obtain ⟨ev, env⟩ := e
  rw [steadyChange, Bool.and_eq_true, Bool.and_eq_true] at h
  obtain ⟨⟨hfollows, helected⟩, hrest⟩ := h
  have hfollows := followsConfigs_of_change hfollows
  refine ⟨⟨hfollows.keepsFits, ?_, ?_, ?_, ?_, ?_⟩, hfollows⟩
  · intro hwon
    rw [hwon] at helected
    exact List.isEmpty_iff.mp helected
  · cases ev with
    | propose | proposeBatch => cases hrest
    | _ => trivial
  · intro hcall _
    cases ev with
    | addNode | addLearner | promoteLearner | removeNode =>
      obtain ⟨hjoint, hwrite⟩ := Bool.and_eq_true_iff.mp hrest
      exact ⟨(Bool.not_eq_true' _).mp hjoint, hwrite⟩
    | _ => cases hcall
  · rintro i input call req rfl
    cases hrest
  · rintro i input reply t req rfl
    cases hrest

/-- `Agrees`, decided. -/
def agreesWith (log : Index → Bytes) (p : Process) (i : Index) : Bool :=
  p.group.rep.log.startIndex ≤ p.group.app.lastEnqueued + 1 && p.group.app.lastEnqueued < i &&
    i < p.group.rep.log.startIndex + p.group.rep.log.entries.length &&
    (List.range (i + 1)).all fun j => (p.group.rep.log.slot j).all fun e =>
      p.group.app.lastEnqueued < j → e.data = log j

theorem agrees_of_agreesWith {log : Index → Bytes} {i : Index} (h : agreesWith log p i = true) :
    p.Agrees log i := by
  simp only [agreesWith, Bool.and_eq_true, decide_eq_true_eq, List.all_eq_true] at h
  obtain ⟨⟨⟨hstart, hbehind⟩, hheld⟩, hsame⟩ := h
  refine ⟨hstart, hbehind, hheld, ?_⟩
  intro j e hj hji he
  have hall := hsame j (List.mem_range.mpr (Nat.lt_succ_of_le hji))
  rw [he, Option.all_some, decide_eq_true_eq] at hall
  exact hall hj

def addsFour : Event × Env := (.addNode 4 [52], { now := 1002 })

/-- Entry 1 adds node 4, entry 2 ends the change. -/
def changesOfFour (i : Index) : Option VoterChange := if i = 1 then some (.add 4) else none

theorem committedCall_four : CommittedCall listJson changeLog seedOfThree addsFour.1 1 := by
  obtain ⟨p, hreach, hsteady, haccepted, hplace, p', hn, hagrees⟩ :=
    (Process.system readingOne).reachesWith (fun p e => steadyChange p e = true) firstElection rfl
      (P := fun p => steadyChange p addsFour = true ∧
        (p.entered addsFour.2).callStatus addsFour.1 = some .ok ∧
        p.group.rep.log.startIndex + p.group.rep.log.entries.length = 1 ∧
        ∃ p' ∈ p.next addsFour, agreesWith changeLog p' 1 = true) (by decide +kernel)
  refine ⟨⟨readingOne, p, addsFour.2, p', rfl, hreach.mono fun _ _ => steadyFollows_of_change,
    (steadyFollows_of_change hsteady).1, hn, haccepted, hplace.symm,
    agrees_of_agreesWith hagrees⟩, ?_⟩
  rintro id ⟨⟩
  decide

theorem origin_finalize_four : Origin listJson changeLog seedOfThree 2 none := by
  obtain ⟨p, hreach, hup, hleads, hjoint, hagrees⟩ := (Process.system readingOne).reachesWith
    (fun p e => steadyChange p e = true) nodeJoins rfl
    (P := fun p => p.group.halt = none ∧ p.group.el.role = .leader ∧
      p.group.mem.config.isJoint = true ∧ agreesWith changeLog p 2 = true) (by decide +kernel)
  have hjson : readingOne.json = listJson := rfl
  exact .finalize hjson (hreach.mono fun _ _ => steadyFollows_of_change) hup hleads hjoint
    (agrees_of_agreesWith hagrees)

/-- Node 1 has completed the change: the voters are the three and node 4. -/
theorem changeApplied_voters :
    ∃ p, (Process.system readingOne).Reachable p ∧ p.group.app.lastEnqueued = 2 ∧
      p.group.mem.config.nodes.toFinset =
        votersAfter changesOfFour seedOfThree.nodes.toFinset 2 := by
  obtain ⟨p, hreach, hup, hlast⟩ := changeApplied_follows
  have hids : Int32Ids seedOfThree.nodes := by
    unfold Int32Ids
    decide
  have htwo : ∀ i : Nat, 0 < i → i ≤ 2 → i = 1 ∨ i = 2 := by
    intro i hpos hle
    omega
  have horigin : ∀ i, 0 < i → i ≤ 2 → isConfigChange (changeLog i) = true →
      Origin listJson changeLog seedOfThree i (changesOfFour i) := by
    intro i hpos hle _
    obtain rfl | rfl := htwo i hpos hle
    · exact .call committedCall_four
    · exact origin_finalize_four
  have hplain : ∀ i, 0 < i → i ≤ 2 → isConfigChange (changeLog i) = false →
      changesOfFour i = none := by
    intro i hpos hle hconfig
    obtain rfl | rfl := htwo i hpos hle
    · have htrue : isConfigChange (changeLog 1) = true := by decide +kernel
      rw [htrue] at hconfig
      cases hconfig
    · rfl
  refine ⟨p, hreach.reachable, hlast, ?_⟩
  exact (voters_follow_changes listJson_printsLists hids horigin hplain).2.1 readingOne p rfl hreach
    hup hlast

end RollingRaft
