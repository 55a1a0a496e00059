/-
# RollingRaft.PeerAddresses — who has an entry in `peer_map_`.

A leader or candidate can only talk to nodes that have an entry in `peer_map_`. The static peers get
one at construction, a node that joins gets one on the leader that was called, and on every node
that applies ADD_LEARNER or ADD. The voters, however, come from JOINT and FINALIZE entries and from
the persisted configuration, which carry no addresses; and `RemoveNode` erases the entry of a node
that stays a voter until the change is applied.

`AddressesStep` says of a step that nothing of this kind happens in it. In runs of such steps every
voter and learner has an entry.
-/
import RollingRaft.Roster

namespace RollingRaft

open Lib

/-! ## §1 — Nodes with an address. -/

namespace MembershipState

/-- The node itself needs no entry in `peer_map_`; the others do. -/
def knows (self : NodeId) (m : MembershipState) (id : NodeId) : Bool :=
  id = self || (m.peerMap.lookup id).isSome

/-- Every voter and learner has an entry in `peer_map_`, but for the node itself. -/
def Reaches (self : NodeId) (m : MembershipState) : Prop :=
  ∀ id, m.config.contains id = true → m.knows self id = true

variable {self id : NodeId} {m m' : MembershipState}

theorem knows_insert (new : NodeId) (addr : Bytes)
    (hpeers : m'.peerMap = m.peerMap.insert new addr) (h : m.knows self id = true) :
    m'.knows self id = true := by
  unfold knows at h ⊢
  rw [hpeers]
  by_cases heq : id = new
  · rw [heq, AList.lookup_insert, Option.isSome_some, Bool.or_true]
  rw [AList.lookup_insert_ne heq]
  exact h

theorem knows_of_peerMap (hpeers : m'.peerMap = m.peerMap) :
    m'.knows self id = m.knows self id := by
  unfold knows
  rw [hpeers]

theorem knows_erase {gone : NodeId} (hpeers : m'.peerMap = m.peerMap.erase gone)
    (hne : id ≠ gone ∨ id = self) (h : m.knows self id = true) : m'.knows self id = true := by
  unfold knows at h ⊢
  rcases hne with hne | hself
  · rw [hpeers, AList.lookup_erase_ne hne]
    exact h
  · rw [decide_eq_true hself, Bool.true_or]

end MembershipState

/-! ## §2 — Changes that keep the addresses. -/

variable (g : RaftGroup) {id : NodeId}

theorem ClusterConfig.contains_iff {c : ClusterConfig} :
    c.contains id = true ↔ id ∈ c.nodes ∨ c.isJoint = true ∧ id ∈ c.oldNodes ∨ id ∈ c.learners := by
  simp only [contains, Bool.or_eq_true, Bool.and_eq_true, decide_eq_true_eq, or_assoc]

namespace ConfigChange

open MembershipState

/-- The nodes that a change names without giving an address. -/
def lists : ConfigChange → List NodeId
  | .oldOnly old => old
  | .joint old nodes => old ++ nodes
  | .finalize nodes => nodes
  | .promote id => [id]
  | _ => []

/-- The nodes a change lists have entries, and a node that is removed is not an old voter. -/
def addressed (self : NodeId) (m : MembershipState) : ConfigChange → Bool
  | .remove id => !m.config.isJoint || id ∉ m.config.oldNodes || id = self
  | ch => ch.lists.all (m.knows self)

variable {ch : ConfigChange}

theorem contains_config {c : ClusterConfig} {id : NodeId} (h : (ch.config c).contains id = true) :
    c.contains id = true ∨ id ∈ ch.lists ∨
      c.contains id = false ∧ ∃ addr, ch = .addLearner id addr ∨ ch = .add id addr := by
  cases ch with
  | nothing => exact .inl h
  | oldOnly old =>
    rw [ClusterConfig.contains_iff] at h ⊢
    tauto
  | joint old nodes =>
    rw [ClusterConfig.contains_iff] at h ⊢
    simp only [config, lists, List.mem_append, List.mem_filter] at h ⊢
    tauto
  | finalize nodes =>
    rw [ClusterConfig.contains_iff] at h ⊢
    simp only [config, lists, List.mem_filter, Bool.false_eq_true, false_and, false_or] at h ⊢
    tauto
  | remove gone =>
    rw [ClusterConfig.contains_iff] at h ⊢
    simp only [config, List.mem_filter] at h ⊢
    tauto
  | promote new =>
    rw [ClusterConfig.contains_iff] at h ⊢
    simp only [config, lists, List.mem_singleton] at h ⊢
    split at h
    · simp only [List.mem_filter] at h
      tauto
    simp only [List.mem_append, List.mem_singleton, List.mem_filter] at h
    tauto
  | addLearner new addr | add new addr =>
    simp only [config] at h
    split at h
    · exact .inl h
    rename_i hout
    by_cases hid : id = new
    · subst hid
      exact .inr (.inr ⟨Bool.not_eq_true _ ▸ hout, addr, by simp⟩)
    rw [ClusterConfig.contains_iff] at h ⊢
    simp only [List.mem_append, List.mem_singleton, List.mem_filter] at h
    tauto
variable {self : NodeId} {m : MembershipState}

theorem knows_withAddress (id : NodeId) (addr : Bytes) (m' : MembershipState)
    (hpeers : m'.peerMap = withAddress self m.peerMap id addr) :
    m'.knows self id = true ∧ ∀ other, m.knows self other = true → m'.knows self other = true := by
  unfold withAddress at hpeers
  split at hpeers
  · refine ⟨?_, fun other h => knows_insert id addr hpeers h⟩
    unfold MembershipState.knows
    rw [hpeers, AList.lookup_insert, Option.isSome_some, Bool.or_true]
  rename_i hknown
  have hsame : ∀ other, m'.knows self other = m.knows self other :=
    fun other => knows_of_peerMap hpeers
  refine ⟨?_, fun other h => (hsame other).trans h⟩
  -- no entry is added because the node is this one or has an entry
  rw [hsame]
  simp only [ne_eq, Bool.and_eq_true, Option.isNone_iff_eq_none, not_and,
    decide_not, Bool.not_eq_true', decide_eq_false_iff_not] at hknown
  unfold MembershipState.knows
  by_cases hself : id = self
  · rw [decide_eq_true hself, Bool.true_or]
  · rw [Option.isSome_iff_ne_none.mpr (hknown hself), Bool.or_true]

theorem knows_joins {new : NodeId} {addr : Bytes}
    (hpeers : ch.peers self m = if m.config.contains new then m.peerMap else withAddress self m.peerMap new addr) :
    (m.config.contains new = false → (ch.effect self m).knows self new = true) ∧
      ∀ id, m.knows self id = true → (ch.effect self m).knows self id = true := by
  by_cases hin : m.config.contains new = true
  · rw [if_pos hin] at hpeers
    refine ⟨fun hout => absurd (hin.symm.trans hout) (by decide), fun id h => ?_⟩
    exact (knows_of_peerMap hpeers).trans h
  rw [if_neg hin] at hpeers
  obtain ⟨hnew, hothers⟩ := knows_withAddress new addr (ch.effect self m) hpeers
  exact ⟨fun _ => hnew, hothers⟩

/-- **A change whose nodes have entries keeps every voter and learner within reach.** -/
theorem effect_reaches (hm : m.Reaches self) (hch : ch.addressed self m = true) :
    (ch.effect self m).Reaches self := by
  intro id hid
  have hin : (ch.config m.config).contains id = true := hid
  have hfrom := contains_config hin
  -- a change that leaves the peers alone lists only nodes that have entries
  have hlisted (hpeers : ch.peers self m = m.peerMap) (hall : ch.lists.all (m.knows self) = true)
      (hjoins : ∀ addr, ch ≠ .addLearner id addr ∧ ch ≠ .add id addr) :
      (ch.effect self m).knows self id = true := by
    rw [knows_of_peerMap hpeers]
    rcases hfrom with hin | hlists | ⟨-, addr, heq | heq⟩
    · exact hm id hin
    · exact List.all_eq_true.mp hall id hlists
    · exact absurd heq (hjoins addr).1
    · exact absurd heq (hjoins addr).2
  cases ch with
  | remove gone =>
    have hin : m.config.contains id = true := by
      rcases hfrom with hin | hlists | ⟨-, addr, heq | heq⟩
      · exact hin
      · cases hlists
      · cases heq
      · cases heq
    refine knows_erase rfl ?_ (hm id hin)
    by_cases heq : id = gone
    · -- a node that is removed and still contained is an old voter
      subst heq
      right
      have hold := ClusterConfig.contains_iff.mp hid
      simp only [effect, config, List.mem_filter, ne_eq, Bool.false_eq_true, and_false, false_or,
        or_false, decide_not, Bool.not_true, decide_true] at hold
      simpa [addressed, hold.1, hold.2] using hch
    · exact .inl heq
  | addLearner new addr | add new addr =>
    rcases hfrom with hin | hlists | ⟨hout, addr', heq | heq⟩
    · exact (knows_joins rfl).2 id (hm id hin)
    · cases hlists
    · cases heq <;> exact (knows_joins rfl).1 hout
    · cases heq <;> exact (knows_joins rfl).1 hout
  | _ => exact hlisted rfl hch (by simp)

end ConfigChange

/-! ## §3 — Entries and calls. -/

namespace MembershipState

/-- Each configuration entry lists nodes that have entries when it is applied. -/
def addressesAll (js : JsonText) (self : NodeId) : MembershipState → List (Index × Bytes) → Bool
  | _, [] => true
  | m, x :: xs =>
    (!isConfigChange x.2 || (ConfigChange.readChange js x.2).addressed self m) &&
      addressesAll js self (m.applyEntry js self x) xs

theorem applyEntries_reaches {js : JsonText} {self : NodeId} {m : MembershipState}
    {xs : List (Index × Bytes)} (hm : m.Reaches self) (hxs : addressesAll js self m xs = true) :
    (m.applyEntries js self xs).Reaches self := by
  induction xs generalizing m with
  | nil => exact hm
  | cons x xs ih =>
    simp only [addressesAll, Bool.and_eq_true, Bool.or_eq_true, Bool.not_eq_true'] at hxs
    refine ih ?_ hxs.2
    unfold applyEntry
    split
    · rename_i hconfig
      refine ConfigChange.effect_reaches hm (hxs.1.resolve_left ?_)
      rw [hconfig]
      decide
    · exact hm

end MembershipState

namespace RaftGroup

theorem CallKeeps.reaches {self : NodeId} {m m' : MembershipState} (h : CallKeeps m m')
    (hm : m.Reaches self) : m'.Reaches self := by
  intro id hid
  rw [h.config] at hid
  rcases h.peers with hsame | ⟨new, addr, hinsert⟩
  · rw [MembershipState.knows_of_peerMap hsame]
    exact hm id hid
  · exact MembershipState.knows_insert new addr hinsert (hm id hid)

end RaftGroup

/-! ## §4 — Runs. -/

theorem lookup_foldl_insert (l : List (NodeId × Bytes)) (m : Map NodeId Bytes) (id : NodeId)
    (h : id ∈ l.map (·.1) ∨ (m.lookup id).isSome) :
    ((l.foldl (fun m p => m.insert p.1 p.2) m).lookup id).isSome := by
  induction l generalizing m with
  | nil => exact h.resolve_left (by simp)
  | cons x l ih =>
    apply ih
    by_cases heq : id = x.1
    · right
      rw [heq, AList.lookup_insert]
      rfl
    rw [AList.lookup_insert_ne heq]
    rcases h with h | h
    · exact .inl ((List.mem_cons.mp h).resolve_left heq)
    · exact .inr h

/-- This node or a static peer. -/
def Options.seeds (o : Options) (id : NodeId) : Bool := id = o.serverId || id ∈ o.peers.map (·.1)

theorem fresh_knows (h : g.opts.seeds id = true) : g.fresh.mem.knows g.opts.serverId id = true := by
  simp only [Options.seeds, Bool.or_eq_true, decide_eq_true_eq] at h
  simp only [MembershipState.knows, Bool.or_eq_true, decide_eq_true_eq]
  rcases h with h | h
  · exact .inl h
  · exact .inr (lookup_foldl_insert g.opts.peers ∅ id (.inl h))

theorem loadState_reaches
    (hdisk : ∀ s, g.disk = some s → 0 < s.config.version → ∀ id, s.config.contains id = true → g.opts.seeds id = true) :
    g.fresh.loadState.mem.Reaches g.opts.serverId := by
  have hseed : g.fresh.mem.Reaches g.opts.serverId := by
    intro id hid
    apply fresh_knows
    have hnodes : id ∈ g.opts.serverId :: g.opts.peers.map (·.1) := by
      rcases ClusterConfig.contains_iff.mp hid with h | ⟨h, -⟩ | h
      · exact h
      · cases h
      · cases h
    simpa [Options.seeds] using hnodes
  unfold RaftGroup.loadState
  split
  · exact hseed
  rename_i s hs
  by_cases hversion : 0 < s.config.version
  · intro id hid
    have hid : (if 0 < s.config.version then s.config else g.fresh.mem.config).contains id =
      true := hid
    rw [if_pos hversion] at hid
    exact fresh_knows g (hdisk s hs hversion id hid)
  intro id hid
  have hid : (if 0 < s.config.version then s.config else g.fresh.mem.config).contains id =
    true := hid
  rw [if_neg hversion] at hid
  exact hseed id hid

namespace Process

/-- A step that leaves every voter and learner an address. A node starts with a configuration of
static peers; no other node is removed by a call that passes its checks; and what the entries that
are handed over list has an entry in `peer_map_`. -/
def addressesStep (p : Process) (e : Event × Env) : Bool :=
  match e.1 with
  | .restart _ => p.group.disk.all fun s => s.config.version = 0 ||
      (s.config.nodes ++ s.config.oldNodes ++ s.config.learners).all p.group.opts.seeds
  | .removeNode id => id = p.group.serverId || !(p.group.running && p.group.el.role = .leader &&
      p.group.mem.config.contains id && !p.group.mem.pendingConfigChange)
  | _ => (p.next e).all fun p' =>
      p.group.mem.addressesAll p.group.opts.json p.group.serverId (p.handed p')

variable {p p' : Process} {ev : Event} {env : Env}

theorem restart_reaches {recovered : Recovered} (hok : p.addressesStep (.restart recovered, env) = true) :
    ((p.entered env).start recovered).mem.Reaches p.group.serverId := by
  rw [start_mem]
  apply loadState_reaches
  intro s hs hversion id hid
  have hs : p.group.disk = some s := hs
  simp only [addressesStep, hs, Option.all_some, Bool.or_eq_true, decide_eq_true_eq,
    List.all_eq_true, List.mem_append] at hok
  refine hok.resolve_left hversion.ne' id ?_
  rcases ClusterConfig.contains_iff.mp hid with h | h | h
  · exact .inl (.inl h)
  · exact .inl (.inr h.2)
  · exact .inr h

theorem removeNode_reaches {id : NodeId} (hp : p.group.mem.Reaches p.group.serverId)
    (hok : p.addressesStep (.removeNode id, env) = true) :
    ((p.entered env).removeNode id).1.mem.Reaches p.group.serverId := by
  rcases RaftGroup.removeNode_mem (p.entered env) id with hkeeps | ⟨⟨h₁, h₂, h₃, h₄⟩, hconfig, hpeers⟩
  · exact hkeeps.reaches hp
  · have hself : id = p.group.serverId := by
      simp only [addressesStep, show p.group.running = true from h₁,
        show p.group.el.role = .leader from h₂, show p.group.mem.config.contains id = true from h₃,
        show p.group.mem.pendingConfigChange = false from h₄] at hok
      simpa using hok
    intro other hother
    rw [hconfig] at hother
    refine MembershipState.knows_erase hpeers ?_ (hp other hother)
    rw [hself]
    exact (ne_or_eq other _)

theorem addressesAll_of_step (hn : p.next (ev, env) = some p')
    (hok : p.addressesStep (ev, env) = true) (hstart : ∀ recovered, ev ≠ .restart recovered)
    (hcall : isMembershipCall ev = false) :
    p.group.mem.addressesAll p.group.opts.json p.group.serverId (p.handed p') = true := by
  cases ev with
  | restart recovered => exact absurd rfl (hstart recovered)
  | removeNode id => cases hcall
  | _ => simpa [addressesStep, hn] using hok

/-- One step keeps everyone within reach. -/
theorem Step.reaches (hp : p.group.mem.Reaches p.group.serverId) (h : p.Step env ev p')
    (hn : p.next (ev, env) = some p') (hok : p.addressesStep (ev, env) = true) :
    p'.group.mem.Reaches p'.group.serverId := by
  have hself : p'.group.serverId = p.group.serverId := congrArg Options.serverId h.opts
  rw [hself]
  by_cases hstart : ∃ recovered, ev = .restart recovered
  · obtain ⟨recovered, rfl⟩ := hstart
    cases h with
    | restart down => exact restart_reaches hok
    | event up free ho => cases ho
  have hstart : ∀ recovered, ev ≠ .restart recovered := fun r heq => hstart ⟨r, heq⟩
  rw [(h.mem hstart).mem]
  by_cases hcall : isMembershipCall ev = true
  · rw [h.handed_call hcall]
    show ((p.entered env).afterCall ev).Reaches p.group.serverId
    cases ev with
    | addNode id addr => exact (RaftGroup.addNode_mem _ id addr).reaches hp
    | addLearner id addr => exact (RaftGroup.addLearner_mem _ id addr).reaches hp
    | promoteLearner id => exact (RaftGroup.promoteLearner_mem _ id).reaches hp
    | removeNode id => exact removeNode_reaches hp hok
    | _ => cases hcall
  · have hcall : isMembershipCall ev = false := Bool.not_eq_true _ ▸ hcall
    rw [afterCall_of_not _ hcall]
    exact MembershipState.applyEntries_reaches hp (addressesAll_of_step hn hok hstart hcall)

/-- A node that reaches every voter and learner. -/
def Reached (p : Process) : Prop := p.group.mem.Reaches p.group.serverId

/-- **Everyone within reach.** In runs of such steps a node of any role, so every leader and candidate,
has an entry in `peer_map_` for every voter and learner of its configuration other than itself. -/
theorem voters_have_addresses {opts : Options}
    (h : (system opts).ReachableWith (fun p e => p.addressesStep e = true) p) (id : NodeId)
    (hid : p.group.mem.config.contains id = true) (hother : id ≠ p.group.serverId) :
    (p.group.mem.peerMap.lookup id).isSome := by
  have hreached : p.Reached := by
    refine h.invariant ?_ ?_
    · rintro p rfl id hid
      cases hid
    · rintro p ⟨ev, env⟩ p' hp hok hn
      exact (step_of_next hn).reaches hp hn hok
  have hknows := hreached id hid
  simpa [MembershipState.knows, hother] using hknows

end Process

/-! ## §5 — A node that joins and a node that leaves. -/

/-- The leader has applied the JOINT entry and can send to node 4. -/
theorem nodeJoins_has_address :
    ∃ p, (Process.system readingOne).Reachable p ∧ p.group.mem.config.contains 4 = true ∧
      p.group.el.role = .leader ∧ (p.group.mem.peerMap.lookup 4).isSome := by
  obtain ⟨p, hreach, hrole, hin, hself⟩ := (Process.system readingOne).reachesWith
    (fun p e => p.addressesStep e = true) nodeJoins rfl (P := fun p => p.group.el.role = .leader ∧
      p.group.mem.config.contains 4 = true ∧ p.group.serverId = 1) (by decide +kernel)
  refine ⟨p, hreach.reachable, hin, hrole, Process.voters_have_addresses hreach 4 hin ?_⟩
  rw [hself]
  decide

/-- Node 1 is elected and called to remove node 3. -/
def nodeLeaves : List (Event × Env) := firstElection ++ [(.removeNode 3, { now := 1002 })]

/-- A reachable leader has node 3 as a voter and no entry for it. -/
theorem removed_voter_has_no_address :
    ∃ p, (Process.system votingOne).Reachable p ∧ p.group.el.role = .leader ∧
      p.group.mem.config.isVoter 3 = true ∧ 3 ≠ p.group.serverId ∧
      p.group.mem.peerMap.lookup 3 = none := by
  exact (Process.system votingOne).reaches nodeLeaves rfl (by decide +kernel)

end RollingRaft
