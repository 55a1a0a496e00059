/-
# RollingRaft.ConfigAgreement — nodes that have applied the same log have the same configuration.

A configuration is never sent: each node computes it from the entries it applies. `configAt` is what
the committed log makes of an initial configuration, and a node follows it as long as it applies the
entries one after the other. A snapshot that is installed skips entries without bringing their
configuration, and a start puts the persisted configuration beside the place in the log of the
recovered snapshot. `FollowsConfigs` says that at these two places the configuration fits.
-/
import RollingRaft.ConfigOrder

namespace RollingRaft

open Lib

/-! ## §1 — The same configuration. -/

namespace ClusterConfig

/-- The same voters, old voters and learners, and the same mode. The order of the lists and the
version are not compared. -/
structure Same (c d : ClusterConfig) : Prop where
  nodes : ∀ id, id ∈ c.nodes ↔ id ∈ d.nodes
  oldNodes : ∀ id, id ∈ c.oldNodes ↔ id ∈ d.oldNodes
  learners : ∀ id, id ∈ c.learners ↔ id ∈ d.learners
  isJoint : c.isJoint = d.isJoint

namespace Same

variable {c d e : ClusterConfig}

theorem symm (h : Same c d) : Same d c :=
  ⟨fun id => (h.nodes id).symm, fun id => (h.oldNodes id).symm, fun id => (h.learners id).symm,
    h.isJoint.symm⟩

theorem trans (h : Same c d) (h' : Same d e) : Same c e :=
  ⟨fun id => (h.nodes id).trans (h'.nodes id), fun id => (h.oldNodes id).trans (h'.oldNodes id),
    fun id => (h.learners id).trans (h'.learners id), h.isJoint.trans h'.isJoint⟩

theorem contains (h : Same c d) (id : NodeId) : c.contains id = d.contains id := by
  unfold ClusterConfig.contains
  rw [h.isJoint]
  simp only [h.nodes id, h.oldNodes id, h.learners id]

theorem isVoter (h : Same c d) (id : NodeId) : c.isVoter id = d.isVoter id := by
  unfold ClusterConfig.isVoter
  rw [h.isJoint]
  simp only [h.nodes id, h.oldNodes id]

theorem filter_learners (h : Same c d) (keep : NodeId → Bool) (id : NodeId) :
    id ∈ c.learners.filter keep ↔ id ∈ d.learners.filter keep := by
  rw [List.mem_filter, List.mem_filter, h.learners id]

theorem append_nodes (h : Same c d) (new id : NodeId) :
    id ∈ c.nodes ++ [new] ↔ id ∈ d.nodes ++ [new] := by
  rw [List.mem_append, List.mem_append, h.nodes id]

/-- **A change makes the same of the same configuration.** -/
theorem change (h : Same c d) (ch : ConfigChange) : Same (ch.config c) (ch.config d) := by
  cases ch with
  | nothing => exact h
  | oldOnly old => exact ⟨h.nodes, fun _ => .rfl, h.learners, h.isJoint⟩
  | joint | finalize => exact ⟨fun _ => .rfl, fun _ => .rfl, h.filter_learners _, rfl⟩
  | addLearner id addr =>
    unfold ConfigChange.config
    dsimp only
    rw [h.contains id]
    split
    · exact h
    refine ⟨h.nodes, h.oldNodes, fun other => ?_, h.isJoint⟩
    rw [List.mem_append, List.mem_append, h.learners other]
  | promote id =>
    have hrest : Same { c with learners := c.learners.filter (· ≠ id) }
        { d with learners := d.learners.filter (· ≠ id) } :=
      ⟨h.nodes, h.oldNodes, h.filter_learners _, h.isJoint⟩
    unfold ConfigChange.config
    dsimp only
    rw [hrest.isVoter id]
    split
    · exact hrest
    · exact ⟨h.append_nodes id, h.oldNodes, hrest.learners, h.isJoint⟩
  | add id addr =>
    unfold ConfigChange.config
    dsimp only
    rw [h.contains id]
    split
    · exact h
    · exact ⟨h.append_nodes id, h.oldNodes, h.filter_learners _, h.isJoint⟩
  | remove id =>
    refine ⟨fun other => ?_, h.oldNodes, h.filter_learners _, h.isJoint⟩
    show other ∈ c.nodes.filter _ ↔ other ∈ d.nodes.filter _
    rw [List.mem_filter, List.mem_filter, h.nodes other]

end Same

end ClusterConfig

/-! ## §2 — The configuration of a log. -/

/-- What the first `n` entries of the committed log make of an initial configuration. -/
def configAt (js : JsonText) (log : Index → Bytes) (c₀ : ClusterConfig) : Nat → ClusterConfig
  | 0 => c₀
  | n + 1 =>
    if isConfigChange (log (n + 1)) then
      (ConfigChange.readChange js (log (n + 1))).config (configAt js log c₀ n)
    else configAt js log c₀ n

/-- A node that stands at an index and applies the next entries of the log stands at a later one. -/
theorem applyEntries_configAt {js : JsonText} {log : Index → Bytes} {c₀ : ClusterConfig}
    {self : NodeId} {xs : List (Index × Bytes)} {m : MembershipState} {i : Index}
    (hxs : ∀ x ∈ xs, x.2 = log x.1) (hindices : xs.map (·.1) = List.range' (i + 1) xs.length)
    (hm : (configAt js log c₀ i).Same m.config) :
    (configAt js log c₀ (i + xs.length)).Same (m.applyEntries js self xs).config := by
  induction xs generalizing m i with
  | nil => exact hm
  | cons x xs ih =>
    rw [List.map_cons, List.length_cons, List.range'_succ, List.cons.injEq] at hindices
    obtain ⟨hx, hrest⟩ := hindices
    have hdata : x.2 = log (i + 1) := by rw [hxs x List.mem_cons_self, hx]
    have hnext : (configAt js log c₀ (i + 1)).Same (m.applyEntry js self x).config := by
      unfold MembershipState.applyEntry configAt
      rw [hdata]
      split
      · exact hm.change _
      · exact hm
    have hend := ih (fun x hx => hxs x (List.mem_cons_of_mem _ hx)) hrest hnext
    rw [List.length_cons, Nat.add_comm xs.length, ← Nat.add_assoc]
    exact hend

/-! ## §3 — Runs of a node. -/

theorem entryIn_indices {l : RaftLog} {ts : List ApplyTask}
    (hfound : ∀ t ∈ ts, (l.slot t.index).isSome) :
    (ts.filterMap (·.entryIn l)).map (·.1) = ts.map (·.index) := by
  induction ts with
  | nil => rfl
  | cons t ts ih =>
    obtain ⟨e, he⟩ := Option.isSome_iff_exists.mp (hfound t List.mem_cons_self)
    have hentry : t.entryIn l = some (t.index, e.data) := by
      unfold ApplyTask.entryIn
      rw [he]
      rfl
    rw [List.filterMap_cons_some hentry, List.map_cons, List.map_cons,
      ih fun t ht => hfound t (List.mem_cons_of_mem _ ht)]

namespace Process

variable {p p' : Process} {ev : Event} {env : Env}

/-- A step that leaves the node up hands over the entries right behind `last_enqueued_`, unless it
installs a snapshot. -/
theorem Step.handed_line (h : p.Step env ev p') (hfits : p.group.pipeline.Fits)
    (hstart : ∀ recovered, ev ≠ .restart recovered) (hup : p'.group.halt = none) :
    ((p.handed p').map (·.1) = List.range' (p.group.app.lastEnqueued + 1) (p.handed p').length ∧
        p'.group.app.lastEnqueued = p.group.app.lastEnqueued + (p.handed p').length) ∨
      p.handed p' = [] ∧ ∃ i input reply t received, ev = .run i input ∧
        p.calls[i]? = some (.follower (.install reply t received)) ∧
        ¬ p.group.skipsInstall received ∧ p'.group.app.lastEnqueued = received.index := by
  cases h.queueStep hfits hstart with
  | grows ts hgrows up =>
    left
    have hcontinues := up hup
    have hqueue : p'.group.app.applyQueue = p.group.app.applyQueue ++ ts := hcontinues.queue
    have hfound := (h.mem hstart).found
    rw [hqueue, List.drop_left] at hfound
    have hhanded : p.handed p' = ts.filterMap (·.entryIn p'.group.rep.log) := by
      rw [handed, hqueue, List.drop_left]
    have hindices : (p.handed p').map (·.1) = ts.map (·.index) := by
      rw [hhanded]
      exact entryIn_indices hfound
    have hlength : (p.handed p').length = ts.length := by
      have hlen := congrArg List.length hindices
      rwa [List.length_map, List.length_map] at hlen
    rw [hindices, hlength]
    exact ⟨hcontinues.indices, hcontinues.last⟩
  | shrinks length last =>
    left
    rw [handed_eq_nil length]
    exact ⟨rfl, last⟩
  | @installs i input reply t received hc hnew queue last =>
    right
    refine ⟨handed_eq_nil ?_, i, input, reply, t, received, rfl, hc, hnew, last⟩
    rw [queue]
    exact Nat.zero_le _

/-- The node applies the entries of the committed log, and where it goes elsewhere in the log it has
the configuration of that place: on a start it loads that of the recovered snapshot, and when it
installs a snapshot it has the one of the snapshot already. -/
def FollowsConfigs (log : Index → Bytes) (c₀ : ClusterConfig) (p : Process) (e : Event × Env) :
    Prop :=
  (∀ p', p.next e = some p' → ∀ x ∈ p.handed p', x.2 = log x.1) ∧
  match e.1 with
  | .restart recovered => recovered.fits ∧
      (configAt p.group.opts.json log c₀ ((recovered.snapshot.map (·.1)).getD 0)).Same
        p.group.fresh.loadState.mem.config
  | .run i _ => ∀ reply t received, p.calls[i]? = some (.follower (.install reply t received)) →
      ¬ p.group.skipsInstall received → received.index < 2 ^ 32 ∧
        (configAt p.group.opts.json log c₀ received.index).Same p.group.mem.config
  | _ => True

/-- A node that is up has the configuration of its place in the log. -/
structure AtConfig (opts : Options) (log : Index → Bytes) (c₀ : ClusterConfig) (p : Process) :
    Prop where
  sameOpts : p.group.opts = opts
  fits : p.group.pipeline.Fits
  config : p.group.halt = none →
    (configAt opts.json log c₀ p.group.app.lastEnqueued).Same p.group.mem.config

variable {opts : Options} {log : Index → Bytes} {c₀ : ClusterConfig}

theorem FollowsConfigs.keepsFits (h : FollowsConfigs log c₀ p (ev, env)) : p.keepsFits ev := by
  obtain ⟨-, h⟩ := h
  cases ev with
  | restart recovered => exact h.1
  | run i input => exact fun reply t received hc hnew => (h reply t received hc hnew).1
  | _ => trivial

theorem loadState_entered (p : Process) (env : Env) :
    (p.entered env).fresh.loadState.mem = p.group.fresh.loadState.mem := by
  have hdisk : (p.entered env).fresh.disk = p.group.fresh.disk := rfl
  unfold RaftGroup.loadState
  rw [hdisk]
  cases p.group.fresh.disk <;> rfl

theorem AtConfig.restart {recovered : Recovered} (hinv : AtConfig opts log c₀ p)
    (hok : FollowsConfigs log c₀ p (.restart recovered, env))
    (hstep : p.Step env (.restart recovered) p') : AtConfig opts log c₀ p' := by
  refine ⟨hstep.opts.trans hinv.sameOpts, hstep.fits hinv.fits hok.keepsFits, fun _ => ?_⟩
  obtain ⟨-, -, hsame⟩ := hok
  cases hstep with
  | restart down =>
    have hboot := RaftGroup.start_pipeline (p.entered env) recovered
    have hlast : ((p.entered env).start recovered).app.lastEnqueued =
        (recovered.snapshot.map (·.1)).getD 0 := by
      refine (congrArg Pipeline.lastEnqueued hboot).trans ?_
      show (Pipeline.bootSnapshot _ recovered.snapshot).lastEnqueued = _
      cases recovered.snapshot <;> rfl
    show (configAt _ log c₀ ((p.entered env).start recovered).app.lastEnqueued).Same
      ((p.entered env).start recovered).mem.config
    rw [hlast, start_mem, loadState_entered, ← hinv.sameOpts]
    exact hsame
  | event up free ho => cases ho

theorem AtConfig.step (hinv : AtConfig opts log c₀ p) (hok : FollowsConfigs log c₀ p (ev, env))
    (hn : p.next (ev, env) = some p') : AtConfig opts log c₀ p' := by
  have hstep := step_of_next hn
  by_cases hstart : ∃ recovered, ev = .restart recovered
  · obtain ⟨recovered, rfl⟩ := hstart
    exact hinv.restart hok hstep
  have hstart : ∀ recovered, ev ≠ .restart recovered := fun r heq => hstart ⟨r, heq⟩
  refine ⟨hstep.opts.trans hinv.sameOpts, hstep.fits hinv.fits hok.keepsFits, fun hup => ?_⟩
  have hsame := hinv.config (hstep.up hstart hup)
  obtain ⟨-, -, hmem⟩ := hstep.mem hstart
  have hconfig : ((p.entered env).afterCall ev).config = p.group.mem.config :=
    RaftGroup.afterCall_config _ ev
  rw [hmem]
  rcases hstep.handed_line hinv.fits hstart hup with ⟨hindices, hlast⟩ |
    ⟨hnone, i, input, reply, t, received, rfl, hc, hnew, hlast⟩
  · rw [hlast, hinv.sameOpts]
    refine applyEntries_configAt (hok.1 p' hn) hindices ?_
    rw [hconfig]
    exact hsame
  · -- the snapshot does not bring a configuration; the node has the right one already
    rw [hnone, hlast, ← hinv.sameOpts]
    exact (hok.2 reply t received hc hnew).2

theorem atConfig_of_reachable
    (h : (system opts).ReachableWith (FollowsConfigs log c₀) p) : AtConfig opts log c₀ p := by
  refine h.invariant ?_ ?_
  · rintro p rfl
    exact ⟨rfl, ⟨show 1 < 2 ^ 32 by decide, nofun, show 0 < 2 ^ 32 by decide⟩, nofun⟩
  · rintro p ⟨ev, env⟩ p' hinv hok hn
    exact hinv.step hok hn

/-- **The same log gives the same configuration.** Two nodes that follow the committed log from one
initial configuration and stand at the same index have the same configuration. -/
theorem configs_agree {o₁ o₂ : Options} {p₁ p₂ : Process} (hjson : o₁.json = o₂.json)
    (h₁ : (system o₁).ReachableWith (FollowsConfigs log c₀) p₁)
    (h₂ : (system o₂).ReachableWith (FollowsConfigs log c₀) p₂)
    (up₁ : p₁.group.halt = none) (up₂ : p₂.group.halt = none)
    (hindex : p₁.group.app.lastEnqueued = p₂.group.app.lastEnqueued) :
    p₁.group.mem.config.Same p₂.group.mem.config := by
  have hsame₁ := (atConfig_of_reachable h₁).config up₁
  have hsame₂ := (atConfig_of_reachable h₂).config up₂
  rw [hjson, hindex] at hsame₁
  exact hsame₁.symm.trans hsame₂

end Process

/-! ## §4 — A node that catches up by a snapshot, and one that does not. -/

/-- Node 2 of the same three. -/
def readingTwo : Options := { readingOne with serverId := 2, peers := [(1, []), (3, [])] }

/-- Node 1 completes the change and its apply thread has seen both entries. -/
def changeApplied : List (Event × Env) :=
  changeCompletes ++ [(.applyTake, { now := 1007 }), (.applyLoad, { now := 1007 }),
    (.applyTask {}, { now := 1007 }), (.applyTask {}, { now := 1007 }),
    (.applyPublish, { now := 1007 })]

/-- Node 2 gets a snapshot of both entries. -/
def snapshotCovers : List (Event × Env) :=
  [(.restart {}, { now := 0 }), (.request ⟨1, .snapshot 0⟩ (.installSnapshot
      { term := 1, leaderId := 1, lastIncludedIndex := 2, lastIncludedTerm := 1
        offset := 0, data := [], done := true }), { now := 2000 }),
    (.resume, { now := 2000 }), (.run 0 {}, { now := 2001 }), (.run 0 {}, { now := 2002 }),
    (.run 0 {}, { now := 2003 })]

/-- The node is up and has applied two entries. -/
def appliedTwo (p : Process) : Bool :=
  p.group.halt = none && p.group.app.lastEnqueued = 2 && p.group.app.lastApplied = 2

/-- The configuration both nodes are constructed with. -/
def seedOfThree : ClusterConfig := { nodes := [1, 2, 3], version := 1 }

theorem seed_same_two : seedOfThree.Same (Process.initial readingTwo).group.fresh.mem.config := by
  refine ⟨fun id => ?_, fun _ => .rfl, fun _ => .rfl, rfl⟩
  show id ∈ [1, 2, 3] ↔ id ∈ [2, 1, 3]
  simp only [List.mem_cons, List.not_mem_nil, or_false]
  tauto

/-- Two nodes start from the same configuration and have both applied two entries, one of them by a
snapshot. Node 4 is a voter for the first and not for the second. -/
theorem snapshot_skips_configuration :
    ∃ p₁ p₂, (Process.system readingOne).Reachable p₁ ∧ (Process.system readingTwo).Reachable p₂ ∧
      (Process.initial readingOne).group.fresh.mem.config.Same
        (Process.initial readingTwo).group.fresh.mem.config ∧
      appliedTwo p₁ = true ∧ appliedTwo p₂ = true ∧
      ¬ p₁.group.mem.config.Same p₂.group.mem.config := by
  obtain ⟨p₁, hreach₁, happlied₁, hfour⟩ := (Process.system readingOne).reaches changeApplied rfl
    (P := fun p => appliedTwo p = true ∧ 4 ∈ p.group.mem.config.nodes) (by decide +kernel)
  obtain ⟨p₂, hreach₂, happlied₂, hnot⟩ := (Process.system readingTwo).reaches snapshotCovers rfl
    (P := fun p => appliedTwo p = true ∧ 4 ∉ p.group.mem.config.nodes) (by decide +kernel)
  refine ⟨p₁, p₂, hreach₁, hreach₂, seed_same_two, happlied₁, happlied₂, fun hsame => ?_⟩
  exact hnot ((hsame.nodes 4).mp hfour)

/-- The committed log of the change. -/
def changeLog (i : Index) : Bytes := ((changeEntries.find? (·.index = i)).map (·.data)).getD []

/-- Node 2 gets both entries from node 1. -/
def changeArrives : List (Event × Env) :=
  [(.restart {}, { now := 0 }),
    (.request ⟨1, .append false 0⟩ (.appendEntries ⟨1, 1, 0, 0, changeEntries, 2⟩), { now := 2000 }),
    (.resume, { now := 2000 }), (.run 0 {}, { now := 2001 })]

/-- The condition for steps that install nothing and a start that finds nothing. -/
def followsChange (p : Process) (e : Event × Env) : Bool :=
  ((p.next e).all fun p' => (p.handed p').all fun x => x.2 = changeLog x.1) &&
  match e.1 with
  | .restart recovered => recovered.entries.isEmpty && recovered.snapshot.isNone &&
      p.group.disk.isNone && (p.group.opts.serverId :: p.group.opts.peers.map (·.1)).isPerm [1, 2, 3]
  | .run i _ =>
    match p.calls[i]? with
    | some (.follower (.install _ _ _)) => false
    | _ => true
  | _ => true

theorem followsConfigs_of_change {p : Process} {e : Event × Env} (h : followsChange p e = true) :
    p.FollowsConfigs changeLog seedOfThree e := by
  obtain ⟨ev, env⟩ := e
  rw [followsChange, Bool.and_eq_true] at h
  obtain ⟨hhanded, h⟩ := h
  refine ⟨?_, ?_⟩
  · intro p' hn x hx
    rw [hn, Option.all_some, List.all_eq_true] at hhanded
    simpa using hhanded x hx
  · cases ev with
    | restart recovered =>
      simp only [Bool.and_eq_true, List.isEmpty_iff, Option.isNone_iff_eq_none] at h
      obtain ⟨⟨⟨hentries, hsnapshot⟩, hdisk⟩, hperm⟩ := h
      have hload : p.group.fresh.loadState = p.group.fresh := by
        unfold RaftGroup.loadState
        rw [show p.group.fresh.disk = none from hdisk]
      dsimp only
      rw [hload, hsnapshot]
      refine ⟨⟨by rw [hsnapshot]; exact nofun, by rw [hentries]; exact nofun⟩, fun id => ?_,
        fun _ => .rfl, fun _ => .rfl, rfl⟩
      exact (List.isPerm_iff.mp hperm).mem_iff.symm
    | run i input =>
      intro reply t received hc
      dsimp only at h
      rw [hc] at h
      cases h
    | _ => trivial

theorem changeApplied_follows :
    ∃ p, (Process.system readingOne).ReachableWith (Process.FollowsConfigs changeLog seedOfThree) p ∧
      p.group.halt = none ∧ p.group.app.lastEnqueued = 2 := by
  obtain ⟨p, hreach, hends⟩ := (Process.system readingOne).reachesWith
    (fun p e => followsChange p e = true) changeApplied rfl
    (P := fun p => p.group.halt = none ∧ p.group.app.lastEnqueued = 2) (by decide +kernel)
  exact ⟨p, hreach.mono fun _ _ => followsConfigs_of_change, hends⟩

theorem changeArrives_agrees :
    ∃ p₁ p₂, (Process.system readingOne).Reachable p₁ ∧ (Process.system readingTwo).Reachable p₂ ∧
      p₁.group.app.lastEnqueued = 2 ∧ p₁.group.mem.config.Same p₂.group.mem.config := by
  obtain ⟨p₁, hreach₁, hup₁, htwo₁⟩ := changeApplied_follows
  obtain ⟨p₂, hreach₂, hup₂, htwo₂⟩ := (Process.system readingTwo).reachesWith
    (fun p e => followsChange p e = true) changeArrives rfl
    (P := fun p => p.group.halt = none ∧ p.group.app.lastEnqueued = 2) (by decide +kernel)
  refine ⟨p₁, p₂, hreach₁.reachable, hreach₂.reachable, htwo₁, ?_⟩
  have hjson : readingOne.json = readingTwo.json := rfl
  exact Process.configs_agree hjson hreach₁ (hreach₂.mono fun _ _ => followsConfigs_of_change) hup₁
    hup₂ (htwo₁.trans htwo₂.symm)

end RollingRaft
