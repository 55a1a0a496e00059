/-
# RollingRaft.ChangeTracking — what a leader knows of the changes in its log, over whole runs.

`Outstanding` follows the configuration entries of a leader through single sections. Here they are
followed through runs. Four things make a leader lose track: it is elected with configuration entries
that it has not applied, a membership call reaches it in joint mode or appends an entry that it then
fails to write, a client's command has the text of a configuration entry, or entries of an earlier
leader arrive in the second phase of AppendEntries after it has been elected. `Steady` excludes
these; in runs of such steps a membership call is accepted only with no entry outstanding.
-/
import RollingRaft.ChunkTransfer
import RollingRaft.Outstanding
import RollingRaft.PhaseGap

namespace RollingRaft

open Lib

/-! ## §1 — Elections. -/

/-- The node does not lead, and with this event it would count a quorum of votes. -/
def RaftGroup.electsLeader (g : RaftGroup) : Event → Bool
  | .electionTick | .response _ (.preVote _) _ =>
    g.el.role ≠ .leader && g.electionQuorumSatisfied {g.serverId}
  | .response peer (.vote _) _ =>
    g.el.role = .candidate && g.electionQuorumSatisfied (insert peer g.el.votesReceived)
  | _ => false

/-- What an event can bring to an election. -/
def electionMessages (ev : Event) : Vouched where
  asked _ _ := True
  granted peer t := ∃ resp, ev = .response peer (.vote t) resp
  carried _ := True
  preVoteTimesOut := True
  resigns := True
  stands := ev = .electionTick ∨ ∃ peer t resp, ev = .response peer (.preVote t) resp

theorem vouchedBy_election (ev : Event) : ev.VouchedBy (electionMessages ev) := by
  refine vouchedBy_of (fun _ _ _ => trivial) (fun peer t resp heq _ => ⟨_, heq⟩) fun hstand => ?_
  unfold Event.canStand at hstand
  split at hstand
  · exact .inl rfl
  · exact .inr ⟨_, _, _, rfl⟩
  · cases hstand

section Moves

variable {m : Vouched} {g g' : RaftGroup} {w : Option Waiting}

/-- Who leads after a section led before it or has won. -/
theorem ElectionMove.leads (h : ElectionMove m g g' w) (hlead : g'.el.role = .leader) :
    g.el.role = .leader ∨
      m.stands ∧ g.el.role ≠ .leader ∧ g.mem.config.quorumSatisfied {g.serverId} = true ∨
      ∃ peer, m.granted peer g.el.currentTerm ∧ g.el.role = .candidate ∧
        g.mem.config.quorumSatisfied (insert peer g.el.votesReceived) = true := by
  cases h.roleMove with
  | kept hsame hterm hreceived => exact .inl (hsame.symm.trans hlead)
  | down h | stood _ _ h | counted _ _ h => cases h.symm.trans hlead
  | wonAlone hm hrole h hterm hquorum => exact .inr (.inl ⟨hm, hrole, hquorum⟩)
  | won granted hrole h hterm hquorum => exact .inr (.inr ⟨_, granted, hrole, hquorum⟩)

theorem ElectionMove.lead_is_new (h : ElectionMove m g g' w) (hw : w = some .lead) :
    g.el.role ≠ .leader := by
  cases h with
  | candidacy h hkeeps hrole hm => exact hrole
  | elected hrole granted hquorum =>
    intro hlead
    rw [hrole] at hlead
    cases hlead
  | _ => cases hw

end Moves

/-- A node becomes leader only with an event that gives it a quorum. -/
theorem RaftGroup.onEvent_leads {g : RaftGroup} {call : Nat} {ev : Event} {o : SectionEnd}
    (ho : g.onEvent call ev = some o) (hlead : o.group.el.role = .leader) :
    g.el.role = .leader ∨ g.electsLeader ev = true := by
  rcases (onEvent_move (vouchedBy_election ev) ho).leads hlead with h | ⟨hstands, hrole, hquorum⟩ |
    ⟨peer, ⟨resp, rfl⟩, hrole, hquorum⟩
  · exact .inl h
  · have hquorum : g.electionQuorumSatisfied {g.serverId} = true := hquorum
    right
    rcases hstands with rfl | ⟨peer, t, resp, rfl⟩
    · simp [electsLeader, hrole, hquorum]
    · simp [electsLeader, hrole, hquorum]
  · have hquorum : g.electionQuorumSatisfied (insert peer g.el.votesReceived) = true := hquorum
    right
    simp [electsLeader, hrole, hquorum]

/-! ## §2 — Sections. -/

theorem Kept.Does.keepsTrack {k k' : Kept} {ops : List PipeOp} (h : k.Does ops k')
    (hfits : k.pipeline.Fits) (hops : ∀ op ∈ ops, op.Plain) (hfound : .stuck ∉ ops) :
    KeepsTrack k k' := by
  induction h with
  | nil => exact ⟨id, id⟩
  | @cons k k₁ k' op ops hstep _ ih =>
    have hop := hops op List.mem_cons_self
    have hopfits : op.fits := by cases op <;> first | exact hop | trivial
    have hfirst := hstep.keepsTrack hfits hop fun heq => hfound (heq ▸ List.mem_cons_self)
    have hrest := ih (hfits.next hopfits hstep.pipeline)
      (fun op hop => hops op (List.mem_cons_of_mem _ hop))
      fun hmem => hfound (List.mem_cons_of_mem _ hmem)
    exact ⟨fun ht => hrest.1 (hfirst.1 ht), fun hnone => hrest.2 (hfirst.2 hnone)⟩

namespace RaftGroup

variable {g : RaftGroup}

/-- What a client's command must not be, for the node to keep track of its configuration entries. -/
def Plain : Event → Prop
  | .propose command _ _ => isConfigChange command = false
  | .proposeBatch commands => ∀ c ∈ commands, isConfigChange c = false
  | _ => True

theorem plain_of_isWork {t : Term} {op : PipeOp} (h : isWork t op) (hne : ∀ e, op ≠ .create e) :
    op.Plain := by
  cases op with
  | create e => exact absurd rfl (hne e)
  | _ => trivial

variable {ops : List PipeOp}

theorem eventOps_plain {call : Nat} {calls : List Call} {ev : Event}
    (h : g.eventOps call calls ev ops) (hcreate : ∀ e, .create e ∉ ops) (hplain : Plain ev) :
    ∀ op ∈ ops, op.Plain := by
  have hwork : ∀ op ∈ ops, isWork g.el.currentTerm op → op.Plain :=
    fun op hop hwork => plain_of_isWork hwork fun e heq => hcreate e (heq ▸ hop)
  cases ev with
  | compact index term => obtain rfl | rfl := h <;> simp [PipeOp.Plain]
  | applyTake | applyLoad | applyTask | applyPublish | drain =>
    rw [show ops = _ from h]
    simp [PipeOp.Plain]
  | clientRequest req => cases h <;> simp [PipeOp.Plain]
  | propose command sessionId seqNum =>
    have hplain : isConfigChange command = false := hplain
    cases h <;> simp [PipeOp.Plain, newEntry, hplain]
  | proposeBatch commands =>
    obtain rfl | ⟨work, rfl, hworks⟩ := h
    · simp
    · intro op hop
      rcases List.mem_append.mp hop with hbatch | hmem
      · obtain ⟨e, callback, rfl, hdata⟩ := batchOps_submit op hbatch
        exact hplain _ hdata
      · exact hwork op hop (hworks op hmem)
  | _ => exact fun op hop => hwork op hop (h op hop)

theorem callOps_plain {input : CallInput} {c : Call} (h : g.callOps input c ops)
    (hcreate : ∀ peer ok, c = .snapshotResponse peer ok → ∀ e, .create e ∉ ops)
    (happend : ∀ reply t req, c ≠ .follower (.append reply t req))
    (hplain : ∀ call req, c = .client (.propose call req) → isConfigChange req.command = false)
    (hfits : ∀ reply t received, c = .follower (.install reply t received) →
      ¬ g.skipsInstall received → received.index < 2 ^ 32) : ∀ op ∈ ops, op.Plain := by
  cases c with
  | follower c =>
    cases c with
    | append reply t req => exact absurd rfl (happend _ _ _)
    | chunk reply t req =>
      obtain ⟨env, rfl⟩ := h
      simp [PipeOp.Plain]
    | restore reply t received =>
      rw [show ops = _ from h]
      split <;> simp [PipeOp.Plain]
    | install reply t received =>
      rw [show ops = _ from h]
      split
      · simp [PipeOp.Plain]
      · rename_i hskip
        have hindex := hfits _ _ _ rfl (by simpa [skipsInstall] using hskip)
        simpa [PipeOp.Plain] using hindex
  | client c =>
    cases c with
    | propose call req =>
      have hdata := hplain call req rfl
      obtain rfl | rfl := h <;> simpa [PipeOp.Plain, newEntry] using hdata
    | waiting call req index =>
      rw [show ops = _ from h]
      split <;> simp [PipeOp.Plain]
    | finish call req result =>
      obtain ⟨resp, rfl⟩ := h
      simp [PipeOp.Plain]
  | snapshotResponse peer ok =>
    exact fun op hop => plain_of_isWork (h op hop) fun e heq => hcreate peer ok rfl e (heq ▸ hop)
  | failProposal index => obtain rfl | rfl := h <;> simp [PipeOp.Plain]
  | begun b => exact h.elim

theorem becomeLeaderRest_tracked (hnone : g.outstanding = []) : g.becomeLeaderRest.Tracked := by
  have hdoes := becomeLeaderRest_does g
  show g.becomeLeaderRest.kept.Tracked
  unfold Does at hdoes
  generalize g.becomeLeaderRest.kept = k' at hdoes ⊢
  rcases hdoes with hdoes | ⟨hjoint, hdoes⟩
  · cases hdoes with
    | nil => exact .inl hnone
  · obtain ⟨hn, hopts, hmem⟩ := hdoes.single
    obtain ⟨-, heq⟩ := Option.ite_none_right_eq_some.mp hn
    obtain ⟨q, opts, m⟩ := k'
    obtain rfl := Option.some.inj heq
    obtain rfl : opts = g.opts := hopts
    obtain rfl : m = g.mem := hmem
    have hout := Pipeline.outstanding_append (q := g.pipeline) (r := g.pipeline.addEntry _)
      (e := g.newEntry (finalizeCommand g.opts.json g.mem.config.nodes)) rfl rfl
    rcases hout with hsame | ⟨-, hmore⟩
    · exact .inl (hsame.trans hnone)
    · refine .inr ⟨_, hmore.trans (congrArg (· ++ _) hnone), ?_⟩
      rw [if_pos hjoint]
      rfl

end RaftGroup

/-! ## §3 — Runs. -/

namespace Process

/-- A leader that makes such steps does not lose track of the configuration entries in its log.
Elections find none outstanding; membership calls find no joint mode and their entry is written;
clients send no configuration commands; no second phase of AppendEntries runs on a leader. -/
structure Steady (p : Process) (e : Event × Env) : Prop where
  fits : p.keepsFits e.1
  elected : p.group.electsLeader e.1 = true → p.group.outstanding = []
  plain : RaftGroup.Plain e.1
  calls : isMembershipCall e.1 = true → p.group.el.role = .leader →
    p.group.mem.config.isJoint = false ∧ e.2.writes.headD true = true
  commands : ∀ i input call req, e.1 = .run i input →
    p.calls[i]? = some (.client (.propose call req)) → isConfigChange req.command = false
  phases : ∀ i input reply t req, e.1 = .run i input → p.group.el.role = .leader →
    p.calls[i]? ≠ some (.follower (.append reply t req))

/-- A leader that is up keeps track of what is outstanding, and a new one has nothing to keep track
of until it has the second lock. -/
structure OnTrack (p : Process) : Prop where
  fits : p.group.pipeline.Fits
  waiting : p.WaitingSound anyMessages
  tracked : p.group.halt = none → p.group.el.role = .leader → p.group.Tracked
  lead : p.group.halt = none → p.waiting = some .lead → p.group.outstanding = []

variable {p p' : Process} {ev : Event} {env : Env}

theorem OnTrack.initial (opts : Options) : OnTrack (Process.initial opts) :=
  ⟨⟨show 1 < 2 ^ 32 by decide, nofun, show 0 < 2 ^ 32 by decide⟩, (fun _ h => nomatch h), nofun,
    nofun⟩

variable {g : RaftGroup} {o : SectionEnd}

/-- A membership call finds nothing outstanding when it is not refused. -/
theorem outstanding_of_free (ht : g.Tracked) (hfree : g.mem.pendingConfigChange = false)
    (hjoint : g.mem.config.isJoint = false) :
    g.outstanding = [] := by
  rcases ht with hnone | ⟨e, -, hpending⟩
  · exact hnone
  · rw [hjoint, hfree] at hpending
    cases hpending

theorem callCommand_eq_some (hev : isMembershipCall ev = true) :
    ∃ cmd, g.callCommand ev = some cmd := by
  cases ev <;> first | exact ⟨_, rfl⟩ | cases hev

theorem electsLeader_call (hev : isMembershipCall ev = true) : g.electsLeader ev = false := by
  cases ev <;> first | rfl | cases hev

theorem OnTrack.event_keepsTrack (h : OnTrack p) (hok : p.Steady (ev, env))
    (hev : isMembershipCall ev = false) (ho : (p.entered env).onEvent p.nextCall ev = some o)
    (hup : o.group.halt = none) : (p.entered env).kept.KeepsTrack o.group.kept := by
  obtain ⟨ops, hops, hdoes, hstuck, hcreate⟩ := RaftGroup.onEvent_does _ hev ho
  exact hdoes.keepsTrack h.fits (RaftGroup.eventOps_plain hops hcreate hok.plain) (hstuck hup)

theorem OnTrack.event (h : OnTrack p) (hok : p.Steady (ev, env)) (up : p.group.halt = none)
    (ho : (p.entered env).onEvent p.nextCall ev = some o) (hup : o.group.halt = none)
    (hlead : o.group.el.role = .leader) : o.group.Tracked := by
  have helects : (p.entered env).electsLeader ev = p.group.electsLeader ev := by
    cases ev <;> rfl
  -- who leads afterwards kept track before: it led already, or has just won with nothing outstanding
  have ht : (p.entered env).Tracked := by
    rcases RaftGroup.onEvent_leads ho hlead with hrole | hwon
    · exact h.tracked up hrole
    · rw [helects] at hwon
      exact .inl (hok.elected hwon)
  by_cases hcall : isMembershipCall ev = true
  · obtain ⟨cmd, hcmd⟩ := callCommand_eq_some (g := p.entered env) hcall
    have hrole : p.group.el.role = .leader := by
      rcases RaftGroup.onEvent_leads ho hlead with hrole | hwon
      · exact hrole
      · rw [electsLeader_call hcall] at hwon
        cases hwon
    obtain ⟨hjoint, hwrite⟩ := hok.calls hcall hrole
    rcases RaftGroup.call_cases _ hcmd ho hwrite with ⟨hsame, -⟩ | ⟨haccepts, -⟩
    · rw [hsame]
      exact ht
    · exact haccepts.tracked (outstanding_of_free ht haccepts.free hjoint) hjoint
  · exact (h.event_keepsTrack hok (Bool.eq_false_iff.mpr hcall) ho hup).1 ht

theorem OnTrack.resume {w : Waiting} (h : OnTrack p) (up : p.group.halt = none)
    (hw : p.waiting = some w) (hlead : ((p.entered env).runWaiting w).group.el.role = .leader) :
    ((p.entered env).runWaiting w).group.Tracked := by
  cases w with
  | lead =>
    have hnone : (p.entered env).outstanding = [] := h.lead up hw
    exact RaftGroup.becomeLeaderRest_tracked hnone
  | stepDown persistState rest =>
    -- it has stepped down and holds the election lock
    have hfollower : p.group.el.role = .follower := (h.waiting _ hw).1
    have hsettled := (h.waiting _ hw).settled (t := p.group.el.currentTerm)
    have hmove := RaftGroup.runWaiting_move (g := p.entered env) hsettled trivial
    rcases hmove.leads hlead with hrole | ⟨hstands, -⟩ | ⟨peer, hgranted, -⟩
    · have hrole : p.group.el.role = .leader := hrole
      rw [hfollower] at hrole
      cases hrole
    · exact hstands.elim
    · exact hgranted.elim

theorem OnTrack.run {i : Nat} {input : CallInput} {c : Call} (h : OnTrack p)
    (hok : p.Steady (.run i input, env)) (up : p.group.halt = none) (hc : p.calls[i]? = some c)
    (ho : (p.entered env).runCall input c = some o) (hup : o.group.halt = none)
    (hlead : o.group.el.role = .leader) :
    o.group.Tracked ∧ (p.waiting = some .lead → o.group.outstanding = []) := by
  have hrole : p.group.el.role = .leader := (RaftGroup.runCall_frame ho).1.role.symm.trans hlead
  have happend : ∀ reply t req, c ≠ .follower (.append reply t req) := by
    rintro reply t req rfl
    exact hok.phases i input reply t req rfl hrole hc
  have hplain : ∀ call req, c = .client (.propose call req) →
      isConfigChange req.command = false := by
    rintro call req rfl
    exact hok.commands i input call req rfl hc
  have hfits : ∀ reply t received, c = .follower (.install reply t received) →
      ¬ (p.entered env).skipsInstall received → received.index < 2 ^ 32 := by
    rintro reply t received rfl
    exact hok.fits reply t received hc
  obtain ⟨ops, hops, hdoes, hstuck, hcreate⟩ := RaftGroup.runCall_does _ ho
  have hkeeps := hdoes.keepsTrack h.fits
    (RaftGroup.callOps_plain hops hcreate happend hplain hfits) (hstuck hup)
  exact ⟨hkeeps.1 (h.tracked up hrole), fun hw => hkeeps.2 (h.lead up hw)⟩

theorem OnTrack.event_lead (h : OnTrack p) (hok : p.Steady (ev, env)) (up : p.group.halt = none)
    (free : p.canTake ev.needs) (ho : (p.entered env).onEvent p.nextCall ev = some o)
    (hup : o.group.halt = none) (hw : (p.absorb o).waiting = some .lead) :
    o.group.outstanding = [] := by
  have hw : (o.waiting <|> p.waiting) = some .lead := hw
  rcases hown : o.waiting with _ | w
  · rw [hown] at hw
    have hw : p.waiting = some .lead := hw
    have hneeds : ev.needs.election = false := by
      by_contra hneeds
      rw [waiting_none_of_canTake free (Bool.not_eq_false _ ▸ hneeds)] at hw
      cases hw
    have hev : isMembershipCall ev = false := by
      cases ev <;> first | rfl | cases hneeds
    exact (h.event_keepsTrack hok hev ho hup).2 (h.lead up hw)
  · rw [hown] at hw
    obtain rfl : w = .lead := Option.some.inj hw
    have hmove := RaftGroup.onEvent_move (vouchedBy_any ev) ho
    have hrole := hmove.lead_is_new hown
    have hlead : o.group.el.role = .leader := hmove.waiting_sound hown
    have hwon : p.group.electsLeader ev = true := by
      have helects : (p.entered env).electsLeader ev = p.group.electsLeader ev := by
        cases ev <;> rfl
      rcases RaftGroup.onEvent_leads ho hlead with hold | hwon
      · exact absurd hold hrole
      · exact helects.symm.trans hwon
    have hev : isMembershipCall ev = false := by
      by_contra hcall
      rw [electsLeader_call (Bool.not_eq_false _ ▸ hcall)] at hwon
      cases hwon
    exact (h.event_keepsTrack hok hev ho hup).2 (hok.elected hwon)

theorem OnTrack.step (h : OnTrack p) (hok : p.Steady (ev, env))
    (hn : p.next (ev, env) = some p') : OnTrack p' := by
  have hstep := step_of_next hn
  refine ⟨hstep.fits h.fits hok.fits, h.waiting.step runCall_framed (vouchedBy_any ev) hstep, ?_, ?_⟩
  · intro hup hlead
    cases hstep with
    | restart down =>
      have hfollower : ∀ r, ((p.entered env).start r).el.role = .follower :=
        fun r => (RaftGroup.stepDownRest_talks _ true).frame.role
      rw [hfollower] at hlead
      cases hlead
    | crash => cases hup
    | resume up hw free => exact h.resume up hw hlead
    | run up hc free ho => exact (h.run hok up hc ho hup hlead).1
    | event up free ho => exact h.event hok up ho hup hlead
  · intro hup hw
    cases hstep with
    | restart down => cases hw
    | crash => cases hup
    | @resume w up hwaits free =>
      have hnone : ((p.entered env).runWaiting w).waiting = none :=
        RaftGroup.runWaiting_waiting _ w
      have hw : (((p.entered env).runWaiting w).waiting <|> none) = some .lead := hw
      rw [hnone] at hw
      cases hw
    | run up hc free ho =>
      have hnone := (RaftGroup.runCall_frame ho).2.1
      have hw : (_ <|> p.waiting) = some .lead := hw
      rw [hnone] at hw
      have hw : p.waiting = some .lead := hw
      have hlead : _ = Role.leader := (RaftGroup.runCall_frame ho).1.role.trans (h.waiting _ hw)
      exact (h.run hok up hc ho hup hlead).2 hw
    | event up free ho => exact h.event_lead hok up free ho hup hw

theorem leader_of_accepted (h : g.callStatus ev = some .ok) :
    isMembershipCall ev = true ∧ g.el.role = .leader ∧ g.mem.pendingConfigChange = false := by
  have hpassed {wrong : Option Bytes} {cmd : Bytes} {edit : Map NodeId Bytes → Map NodeId Bytes}
      {g' : RaftGroup} {status : Status} (hcalls : RaftGroup.CallsFor g wrong cmd edit g' status)
      (hok : some status = some .ok) :
      g.el.role = .leader ∧ g.mem.pendingConfigChange = false := by
    cases hcalls with
    | refused hcheck => exact absurd (Option.some.inj hok) (RaftGroup.membershipCheck_ne_ok hcheck)
    | unwritten hcheck hwritten => cases hok
    | accepted hcheck hwritten hkept =>
      obtain ⟨-, hrole, -, hfree⟩ := RaftGroup.membershipCheck_eq_none hcheck
      exact ⟨hrole, hfree⟩
  cases ev with
  | addNode id addr => obtain ⟨_, hcalls⟩ := g.addNode_calls id addr; exact ⟨rfl, hpassed hcalls h⟩
  | addLearner id addr => obtain ⟨_, hcalls⟩ := g.addLearner_calls id addr; exact ⟨rfl, hpassed hcalls h⟩
  | promoteLearner id => obtain ⟨_, hcalls⟩ := g.promoteLearner_calls id; exact ⟨rfl, hpassed hcalls h⟩
  | removeNode id => exact ⟨rfl, hpassed (g.removeNode_calls id) h⟩
  | _ => cases h

/-- **A call is accepted only when the log holds no outstanding configuration entry and the
configuration is not joint**, in runs of steady steps. -/
theorem OnTrack.accepted (h : OnTrack p) (hok : p.Steady (ev, env)) (hup : p.group.halt = none)
    (haccepted : (p.entered env).callStatus ev = some .ok) :
    p.group.outstanding = [] ∧ p.group.mem.config.isJoint = false := by
  obtain ⟨hcall, hrole, hfree⟩ := leader_of_accepted haccepted
  obtain ⟨hjoint, -⟩ := hok.calls hcall hrole
  exact ⟨outstanding_of_free (h.tracked hup hrole) hfree hjoint, hjoint⟩

theorem onTrack_of_reachable {opts : Options} (h : (system opts).ReachableWith Steady p) :
    OnTrack p := by
  refine h.invariant ?_ ?_
  · rintro p rfl
    exact .initial opts
  · rintro p ⟨ev, env⟩ p' hinv hok hn
    exact hinv.step hok hn

end Process

end RollingRaft
