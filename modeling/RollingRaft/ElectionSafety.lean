/-
# RollingRaft.ElectionSafety — at most one leader in a term.

With a fixed configuration, whoever leads a term holds a certificate (`Lib.Elected`): a quorum is
pledged to it in that term, on disk. Pledges survive crashes, failed saves and step-downs, so the
certificate does, and two certificates of one term belong to one node.
-/
import RollingRaft.Cluster

namespace RollingRaft

open Lib

/-! ## §1 — Counted votes and winning. -/

section Counting

variable {m : Vouched} {i : NodeId} {g g' : RaftGroup}

/-- A candidate counts its own vote and votes that were granted to it. -/
def Counts (m : Vouched) (i : NodeId) (g : RaftGroup) : Prop :=
  g.el.role = .candidate → ∀ v ∈ g.el.votesReceived, v = i ∨ m.granted v g.el.currentTerm

/-- A quorum of the configuration with these members. -/
def Quorum (members : List NodeId) (q : Finset NodeId) : Prop :=
  ∃ config : ClusterConfig, config.nodes.Perm members ∧ config.isJoint = false ∧
    config.quorumSatisfied q = true

/-- A quorum granted node `i` the votes of the current term. -/
def WonBy (m : Vouched) (members : List NodeId) (i : NodeId) (g : RaftGroup) : Prop :=
  ∃ q, Quorum members q ∧ ∀ v ∈ q, v = i ∨ m.granted v g.el.currentTerm

/-- What a step does to the role and the votes of a node that stays up. -/
inductive RoleStep (m : Vouched) (i : NodeId) (g g' : RaftGroup) : Prop
  | follower (h : g'.el.role = .follower)
  | kept (hrole : g'.el.role = g.el.role) (hterm : g'.el.currentTerm = g.el.currentTerm)
      (hreceived : g'.el.votesReceived = g.el.votesReceived)
  | stood (h : g'.el.role = .candidate) (hreceived : g'.el.votesReceived = {i})
  | counted {peer : NodeId} (hrole : g.el.role = .candidate) (h : g'.el.role = .candidate)
      (hterm : g'.el.currentTerm = g.el.currentTerm) (granted : m.granted peer g.el.currentTerm)
      (hreceived : g'.el.votesReceived = insert peer g.el.votesReceived)
  | wonAlone (h : g'.el.role = .leader) (hquorum : g.mem.config.quorumSatisfied {i} = true)
  | won {peer : NodeId} (hrole : g.el.role = .candidate) (h : g'.el.role = .leader)
      (hterm : g'.el.currentTerm = g.el.currentTerm) (granted : m.granted peer g.el.currentTerm)
      (hquorum : g.mem.config.quorumSatisfied (insert peer g.el.votesReceived) = true)

theorem ElectionMove.roleStep {w : Option Waiting} (h : ElectionMove m g g' w)
    (hself : g.serverId = i) : RoleStep m i g g' := by
  subst hself
  cases h.roleMove with
  | kept hrole hterm hreceived => exact .kept hrole hterm hreceived
  | down h hterm => exact .follower h
  | stood hm hrole h hterm hreceived => exact .stood h hreceived
  | wonAlone hm hrole h hterm hquorum => exact .wonAlone h hquorum
  | counted granted hrole h hterm hreceived => exact .counted hrole h hterm granted hreceived
  | won granted hrole h hterm hquorum => exact .won hrole h hterm granted hquorum

theorem RoleStep.of_env {env : Env} (h : RoleStep m i { g with env := env } g') :
    RoleStep m i g g' := by
  cases h with
  | follower h => exact .follower h
  | kept hrole hterm hreceived => exact .kept hrole hterm hreceived
  | stood h hreceived => exact .stood h hreceived
  | counted hrole h hterm granted hreceived => exact .counted hrole h hterm granted hreceived
  | wonAlone h hquorum => exact .wonAlone h hquorum
  | won hrole h hterm granted hquorum => exact .won hrole h hterm granted hquorum

/-- A node that is up after a step was up before, or has just restarted as a follower. -/
theorem GroupStep.roleStep (h : GroupStep m g g') (hself : g.serverId = i)
    (hup : g'.halt = none) : g.halt = none ∧ RoleStep m i g g' ∨ g'.el.role = .follower := by
  cases h with
  | crash => cases hup
  | restart down => exact .inr (RaftGroup.stepDownRest_talks _ true).frame.role
  | call up h => exact .inl ⟨up, .kept h.role h.currentTerm h.votesReceived⟩
  | move up h => exact .inl ⟨up, (h.roleStep hself).of_env⟩

theorem RoleStep.counts (h : RoleStep m i g g') (hc : Counts m i g) : Counts m i g' := by
  intro hcand v hv
  cases h with
  | follower h | wonAlone h | won _ h => rw [h] at hcand; cases hcand
  | kept hrole hterm hreceived =>
    rw [hterm]
    exact hc (hrole.symm.trans hcand) v (hreceived ▸ hv)
  | stood h hreceived =>
    rw [hreceived] at hv
    exact .inl (Finset.mem_singleton.mp hv)
  | counted hrole h hterm granted hreceived =>
    rw [hreceived] at hv
    rw [hterm]
    rcases Finset.mem_insert.mp hv with rfl | hv
    · exact .inr granted
    · exact hc hrole v hv

/-- Who leads after the step led before it or has just won. -/
theorem RoleStep.leads {members : List NodeId} (h : RoleStep m i g g') (hc : Counts m i g)
    (hconfig : g.mem.config.nodes.Perm members ∧ g.mem.config.isJoint = false)
    (hlead : g'.el.role = .leader) :
    g.el.role = .leader ∧ g'.el.currentTerm = g.el.currentTerm ∨ WonBy m members i g' := by
  cases h with
  | follower h | stood h | counted _ h => rw [h] at hlead; cases hlead
  | kept hrole hterm hreceived => exact .inl ⟨hrole.symm.trans hlead, hterm⟩
  | wonAlone h hquorum =>
    refine .inr ⟨{i}, ⟨_, hconfig.1, hconfig.2, hquorum⟩, fun v hv => ?_⟩
    exact .inl (Finset.mem_singleton.mp hv)
  | won hrole h hterm granted hquorum =>
    refine .inr ⟨_, ⟨_, hconfig.1, hconfig.2, hquorum⟩, fun v hv => ?_⟩
    rw [hterm]
    rcases Finset.mem_insert.mp hv with rfl | hv
    · exact .inr granted
    · exact hc hrole v hv

end Counting

/-! ## §2 — The invariant of the cluster. -/

namespace Cluster

/-- `x` holds the certificate of term `t`. -/
def Elected (members : List NodeId) (c : Cluster) (t : Term) (x : NodeId) : Prop :=
  Lib.Elected (Quorum members) (fun v => (c v).group.durable) (fun v => (c v).group.Cast) t x

end Cluster

/-- The configuration is the same on all nodes and not joint, and terms are below the last one. -/
def Deployment.FixedConfig (D : Deployment) (members : List NodeId) (c : Cluster)
    (_ : NodeId × Event × Env) : Prop :=
  ∀ i ∈ D.nodes, (c i).group.halt = none →
    (c i).group.mem.config.nodes.Perm members ∧ (c i).group.mem.config.isJoint = false ∧
      (c i).group.el.currentTerm < 2 ^ 32 - 1

instance (D : Deployment) (members : List NodeId) (c : Cluster) (e : NodeId × Event × Env) :
    Decidable (D.FixedConfig members c e) :=
  inferInstanceAs (Decidable (∀ i ∈ D.nodes, _ → _))

structure ElectionInv (D : Deployment) (members : List NodeId) (c : Cluster) : Prop where
  idle : ∀ i, i ∉ D.nodes → (c i).group.out = []
  recorded : ∀ i, VotesRecorded i (c i).group
  up : ∀ i, (c i).group.halt = none → VoteInv i (c i).group
  waiting : ∀ i, (c i).WaitingSound (c.vouched i)
  counted : ∀ i, (c i).group.halt = none → Counts (c.vouched i) i (c i).group
  leads : ∀ i, (c i).group.halt = none → (c i).group.el.role = .leader →
    c.Elected members (c i).group.el.currentTerm i

namespace ElectionInv

variable {D : Deployment} {members : List NodeId} {c c' : Cluster} {i : NodeId}

theorem initial (D : Deployment) (members : List NodeId) : ElectionInv D members D.initial where
  idle _ _ := rfl
  recorded i := by
    refine ⟨D.serverId_eq i, fun o ho => ?_, ⟨?_, ?_⟩⟩
    · cases ho
    · rintro t x ⟨o, ho, -⟩
      cases ho
    · rintro t x y ⟨o, ho, -⟩
      cases ho
  up i h := by cases h
  waiting i w h := by cases h
  counted i h := by cases h
  leads i h := by cases h

/-- The network can be trusted: who asks for votes is a node and the candidate. -/
theorem trusted (h : ElectionInv D members c) (i : NodeId) : (c.vouched i).Trusted where
  vote := by
    rintro reply req ⟨o, ho, hact⟩
    have hhonest := (h.recorded reply.peer).honest o ho
    rw [hact] at hhonest
    obtain ⟨hcand, hcallback⟩ := hhonest
    refine ⟨by rw [hcand, ← hcallback], ?_⟩
    rw [hcand]
    intro hnone
    have hidle := h.idle reply.peer (by rw [hnone]; exact D.ids)
    rw [hidle] at ho
    cases ho
  preVote := by
    rintro reply req ⟨o, ho, hact⟩
    have hhonest := (h.recorded reply.peer).honest o ho
    rw [hact] at hhonest
    exact hhonest

/-- A step of one node is a step of every node's ballot. -/
theorem voteSteps (h : ElectionInv D members c) {p : Process}
    (hvote : VoteStep i (c i).group p.group) (v : NodeId) :
    VoteStep v (c v).group (Function.update c i p v).group := by
  by_cases hvi : v = i
  · subst hvi
    rw [Function.update_self]
    exact hvote
  rw [Function.update_of_ne hvi]
  exact (h.recorded v).stepRefl (h.up v)

theorem elected_step (hsteps : ∀ v, VoteStep v (c v).group (c' v).group) {t : Term} {x : NodeId}
    (he : c.Elected members t x) : c'.Elected members t x := by
  refine he.step (fun v => (hsteps v).voter) fun v hc => ?_
  obtain ⟨o, ho, hact⟩ := hc
  exact ⟨o, (hsteps v).keeps o ho, hact⟩

/-- Who has won holds the certificate. -/
theorem elected_of_wonBy (hrecorded : ∀ v, VotesRecorded v (c' v).group)
    (hup : VoteInv i (c' i).group) (hlead : (c' i).group.el.role = .leader)
    (hw : WonBy (c'.vouched i) members i (c' i).group) :
    c'.Elected members (c' i).group.el.currentTerm i := by
  obtain ⟨q, hq, hall⟩ := hw
  refine ⟨q, hq, fun v hv => ?_⟩
  rcases hall v hv with rfl | hgranted
  · exact ⟨hup.ok.pledged_of_eq (hup.standing (by rw [hlead]; decide)), .inl rfl⟩
  · exact ⟨(hrecorded v).ok.pledged hgranted, .inr hgranted⟩

theorem update {run : RaftGroup → CallInput → Call → Option SectionEnd} {ev : Event} {env : Env}
    {p : Process} (hrun : Process.Framed run) (h : ElectionInv D members c)
    (hfixed : D.FixedConfig members c (i, ev, env)) (hi : i ∈ D.nodes)
    (hm : ev.VouchedBy (c.vouched i)) (hstep : (c i).StepBy run env ev p) :
    ElectionInv D members (Function.update c i p) ∧
      ∀ v, VoteStep v (c v).group (Function.update c i p v).group := by
  have hgroup := hstep.groupStep hrun (h.waiting i) hm
  have hid : i ≠ -1 := fun he => D.ids (he ▸ hi)
  have hvote := (h.recorded i).step (h.up i) (h.trusted i) hid (fun hup => (hfixed i hi hup).2.2) hgroup
  have hsteps := h.voteSteps hvote
  have hcont : c.Continues (Function.update c i p) := fun v => (hsteps v).keeps
  have hcounts : ∀ {j g}, Counts (c.vouched j) j g →
      Counts ((Cluster.vouched (Function.update c i p)) j) j g := by
    intro j g hc hcand v hv
    exact (hc hcand v hv).imp id hcont.cast
  have hself : (Function.update c i p) i = p := Function.update_self i p c
  refine ⟨⟨?_, fun v => (hsteps v).recorded, fun v => (hsteps v).up, ?_, ?_, ?_⟩, hsteps⟩
  · intro j hj
    have hji : j ≠ i := by
      rintro rfl
      exact hj hi
    rw [Function.update_of_ne hji]
    exact h.idle j hj
  · intro j
    refine hcont.waitingSound ?_
    by_cases hji : j = i
    · subst hji
      rw [hself]
      exact (h.waiting j).step hrun hm hstep
    rw [Function.update_of_ne hji]
    exact h.waiting j
  · intro j hup
    refine hcounts ?_
    by_cases hji : j = i
    · subst hji
      rw [hself] at hup ⊢
      rcases hgroup.roleStep (h.recorded j).self hup with ⟨hwas, hrole⟩ | hfollower
      · exact hrole.counts (h.counted j hwas)
      · intro hcand
        rw [hfollower] at hcand
        cases hcand
    · rw [Function.update_of_ne hji] at hup ⊢
      exact h.counted j hup
  · intro j hup hlead
    by_cases hji : j = i
    · subst hji
      have hup' := hup
      rw [hself] at hup' hlead
      rcases hgroup.roleStep (h.recorded j).self hup' with ⟨hwas, hrole⟩ | hfollower
      · obtain ⟨hperm, hjoint, -⟩ := hfixed j hi hwas
        rcases hrole.leads (h.counted j hwas) ⟨hperm, hjoint⟩ hlead with ⟨hled, hterm⟩ | hwon
        · rw [hself, hterm]
          exact elected_step hsteps (h.leads j hwas hled)
        · obtain ⟨q, hq, hall⟩ := hwon
          refine elected_of_wonBy (fun v => (hsteps v).recorded) ((hsteps j).up hup)
            (by rw [hself]; exact hlead) ⟨q, hq, fun v hv => (hall v hv).imp id fun hg => ?_⟩
          rw [hself]
          exact hcont.cast hg
      · rw [hfollower] at hlead
        cases hlead
    · rw [Function.update_of_ne hji] at hup hlead ⊢
      exact elected_step hsteps (h.leads j hup hlead)

theorem step {ev : Event} {env : Env} (h : ElectionInv D members c)
    (hfixed : D.FixedConfig members c (i, ev, env)) (hn : D.next c (i, ev, env) = some c') :
    ElectionInv D members c' ∧ ∀ v, VoteStep v (c v).group (c' v).group := by
  obtain ⟨hi, hm, p, hstep, rfl⟩ := Deployment.next_eq hn
  exact h.update Process.runCall_framed hfixed hi hm hstep

end ElectionInv

/-! ## §3 — Election safety. -/

def Process.Leads (p : Process) (t : Term) : Prop :=
  p.group.halt = none ∧ p.group.el.role = .leader ∧ p.group.el.currentTerm = t

instance (p : Process) (t : Term) : Decidable (p.Leads t) :=
  inferInstanceAs (Decidable (_ ∧ _ ∧ _))

theorem Quorum.meet {members : List NodeId} (q q' : Finset NodeId) (h : Quorum members q)
    (h' : Quorum members q') : ∃ v ∈ q, v ∈ q' := by
  obtain ⟨c, hperm, hjoint, hq⟩ := h
  obtain ⟨c', hperm', hjoint', hq'⟩ := h'
  obtain ⟨v, -, hv, hv'⟩ := ClusterConfig.exists_common_voter hperm hperm' hjoint hjoint' hq hq'
  exact ⟨v, hv, hv'⟩

section Safety

variable {D : Deployment} {members : List NodeId} {c c' : Cluster}

theorem electionInv_of_reachable (h : D.system.ReachableWith (D.FixedConfig members) c) :
    ElectionInv D members c := by
  refine h.invariant ?_ ?_
  · rintro c rfl
    exact .initial D members
  · rintro c ⟨i, ev, env⟩ c' hinv hfixed hn
    exact (hinv.step hfixed hn).1

theorem elected_of_later {t : Term} {x : NodeId}
    (h : D.system.ReachableWith (D.FixedConfig members) c)
    (hl : D.system.Later (D.FixedConfig members) c c') (he : c.Elected members t x) :
    c'.Elected members t x := by
  have hstable := hl.stable (P := fun c => ElectionInv D members c ∧ c.Elected members t x) ?_
    ⟨electionInv_of_reachable h, he⟩
  · exact hstable.2
  · rintro c ⟨i, ev, env⟩ c' ⟨hinv, he⟩ hfixed hn
    obtain ⟨hinv', hsteps⟩ := hinv.step hfixed hn
    exact ⟨hinv', ElectionInv.elected_step hsteps he⟩

/-- **Election safety.** In every run with a fixed, non-joint configuration and terms below the last
one, two nodes that lead the same term, whenever they do, are the same node. -/
theorem leader_unique {i j : NodeId} {t : Term}
    (h : D.system.ReachableWith (D.FixedConfig members) c)
    (hl : D.system.Later (D.FixedConfig members) c c') (hi : (c i).Leads t)
    (hj : (c' j).Leads t) : i = j := by
  obtain ⟨hup, hlead, rfl⟩ := hi
  obtain ⟨hup', hlead', hterm⟩ := hj
  have helected := elected_of_later h hl ((electionInv_of_reachable h).leads i hup hlead)
  have helected' := (electionInv_of_reachable (hl.reachable h)).leads j hup' hlead'
  rw [hterm] at helected'
  exact Lib.Elected.unique Quorum.meet helected helected'

/-- **A leader's votes stay on disk.** In every such run, whoever leads a term has from then on a
quorum of nodes, up or down, whose disks hold their vote for it or a later ballot, and which have told
nobody else that they vote for it in that term. -/
theorem leader_votes_on_disk {i : NodeId} {t : Term}
    (h : D.system.ReachableWith (D.FixedConfig members) c)
    (hl : D.system.Later (D.FixedConfig members) c c') (hi : (c i).Leads t) :
    ∃ q, Quorum members q ∧ ∀ v ∈ q, (⟨t, some i⟩ : Ballot NodeId) ≤ (c' v).group.durable ∧
      ∀ x, (c' v).group.Cast t x → x = i := by
  obtain ⟨hup, hlead, rfl⟩ := hi
  obtain ⟨q, hq, hvotes⟩ := elected_of_later h hl ((electionInv_of_reachable h).leads i hup hlead)
  refine ⟨q, hq, fun v hv => ?_⟩
  obtain ⟨hpledged, -⟩ := hvotes v hv
  exact ⟨hpledged.durable, fun x => hpledged.only⟩

end Safety

/-- Three nodes that know each other and hold no pre-votes. -/
def trio : Deployment where
  nodes := [1, 2, 3]
  options i :=
    { serverId := i, peers := ([1, 2, 3].filter (· ≠ i)).map fun j => (j, [])
      preVoteEnabled := false, json := unusedJson }
  serverId_eq _ := rfl
  ids := by decide

/-- Node 1 times out and is elected by node 2. -/
def trioElection : List (NodeId × Event × Env) :=
  let vote : RequestVoteRequest := { term := 1, candidateId := 1, lastLogIndex := 0, lastLogTerm := 0 }
  [ (1, .restart {}, { now := 0 }), (2, .restart {}, { now := 0 }),
    (1, .electionTick, { now := 1000 }),
    (2, .request ⟨1, .vote 1⟩ (.requestVote vote), { now := 1000 }), (2, .resume, { now := 1000 }),
    (1, .response 2 (.vote 1) (.vote ⟨1, true⟩), { now := 1000 }), (1, .resume, { now := 1000 }) ]

theorem leader_unique_trio :
    ∃ c, trio.system.ReachableWith (trio.FixedConfig [1, 2, 3]) c ∧ (c 1).Leads 1 ∧
      ∀ j, (c j).Leads 1 → 1 = j := by
  obtain ⟨c, hreach, hone⟩ := trio.system.reachesWith (trio.FixedConfig [1, 2, 3]) trioElection rfl
    (P := fun c => (c 1).Leads 1) (by decide +kernel)
  exact ⟨c, hreach, hone, fun j hj => leader_unique hreach (.refl c) hone hj⟩

theorem leader_votes_on_disk_trio :
    ∃ c, trio.system.ReachableWith (trio.FixedConfig [1, 2, 3]) c ∧ (c 1).Leads 1 ∧
      ∃ q, Quorum [1, 2, 3] q ∧ ∀ v ∈ q, (⟨1, some 1⟩ : Ballot NodeId) ≤ (c v).group.durable ∧
        ∀ x, (c v).group.Cast 1 x → x = 1 := by
  obtain ⟨c, hreach, hone⟩ := trio.system.reachesWith (trio.FixedConfig [1, 2, 3]) trioElection rfl
    (P := fun c => (c 1).Leads 1) (by decide +kernel)
  exact ⟨c, hreach, hone, leader_votes_on_disk hreach (.refl c) hone⟩

end RollingRaft
