/-
# RollingRaft.ProposalHistory — what happens to the proposals of a node.

The history of a node says which callback was left for which entry, which entries were handed over,
applied or overwritten, and which callbacks were completed. A callback belongs to a call, and calls
are numbered, so a callback is left once.
-/
import RollingRaft.Waiting

namespace RollingRaft

open Lib

/-! ## §1 — Histories. -/

/-- What happens to proposals. -/
inductive ProposalEvent where
  /-- The callback is left for the entry, which its call has just appended. -/
  | registered (callback : ProposalCallback) (entry : LogEntry) (session : Nat × Nat)
  /-- The entry at `index` is handed over; a configuration change takes effect. -/
  | handedOver (index : Index) (entry : LogEntry)
  /-- The state machine applies the task of `index`. -/
  | applied (index : Index) (data : Bytes)
  | completed (callback : ProposalCallback) (result : ApplyResult)
  /-- The result of `index` is recorded for a session. -/
  | recorded (index : Index) (session : Nat × Nat)
  /-- The entry at `index` is cut off for those of a request. -/
  | overwritten (index : Index) (entry : LogEntry)
  /-- The call of the callback stops waiting and tells its client so. -/
  | gaveUp (callback : ProposalCallback)
  | restarted
  deriving DecidableEq

def Act.createdEntry : Act → Option LogEntry
  | .created e => some e
  | _ => none

def Act.proposalEvent : Act → Option ProposalEvent
  | .applied i data _ => some (.applied i data)
  | .completed cb result => some (.completed cb result)
  | _ => none

namespace Pipeline

def created (q q' : Pipeline) : List LogEntry :=
  (q'.acts.drop q.acts.length).filterMap Act.createdEntry

def handedOver (q q' : Pipeline) : List ProposalEvent :=
  (q'.applyQueue.drop q.applyQueue.length).filterMap fun t =>
    if q'.log.startIndex ≤ t.index then
      (q'.log.entries[t.index - q'.log.startIndex]?).map (.handedOver t.index)
    else none

end Pipeline

namespace Process

/-- The callbacks that a step leaves for the entries it appends. -/
def registrations (p : Process) (ev : Event) (p' : Process) : List ProposalEvent :=
  let made := p.group.pipeline.created p'.group.pipeline
  match ev with
  | .propose _ sessionId seqNum =>
    made.head?.toList.map fun e => .registered (.propose p.nextCall) e (sessionId, seqNum)
  | .proposeBatch commands =>
    (made.take commands.length).zipIdx.map fun e =>
      .registered (.batch p.nextCall e.2) e.1 (0, 0)
  | .run i _ =>
    match p.calls[i]? with
    | some (.client (.propose call _)) =>
      (made.head?.filter fun e =>
        p'.group.pipeline.pendingProposals.lookup e.index = some (.client call)).toList.map
        fun e => .registered (.client call) e (0, 0)
    | _ => []
  | _ => []

/-- The session that the next task of the apply thread records a result for. -/
def recordings (p : Process) : Event → List ProposalEvent
  | .applyTask _ =>
    match p.group.app.thread.newLastApplied, p.group.app.thread.batch with
    | some last, t :: _ =>
      if t.index ≤ last || t.isConfigChange || t.sessionId = 0 then []
      else [.recorded t.index (t.sessionId, t.seqNum)]
    | _, _ => []
  | _ => []

/-- The entries that a request replaces: they no longer stand in their slots. -/
def overwrites (p : Process) (ev : Event) (p' : Process) : List ProposalEvent :=
  match ev with
  | .run i _ =>
    match p.calls[i]? with
    | some (.follower (.append _ _ _)) =>
      (p.group.rep.log.entries.zipIdx.filter fun e =>
        p'.group.rep.log.entries[e.2]? ≠ some e.1).map
        fun e => .overwritten (p.group.rep.log.startIndex + e.2) e.1
    | _ => []
  | _ => []

/-- Callbacks go with their process, and with a call that stops waiting. -/
def farewells (p : Process) : Event → List ProposalEvent
  | .restart _ => [.restarted]
  | .run i input =>
    match p.calls[i]? with
    | some (.client (.waiting call _ _)) => if input.timedOut then [.gaveUp (.client call)] else []
    | _ => []
  | _ => []

/-- What a step adds to the history, the latest first. -/
def proposalEvents (p : Process) (e : Event × Env) (p' : Process) : List ProposalEvent :=
  p.recordings e.1 ++ (p.group.pipeline.newSeen Act.proposalEvent p'.group.pipeline ++
    ((p.group.pipeline.handedOver p'.group.pipeline).reverse ++
      (p.registrations e.1 p' ++ (p.overwrites e.1 p' ++ p.farewells e.1))))

end Process

/-- The entry last handed over at index `i`. -/
def handed (h : List ProposalEvent) (i : Index) : Option LogEntry :=
  h.findSome? fun
    | .handedOver j e => if j = i then some e else none
    | _ => none

/-- The entry last applied at its index is `e`. -/
def IsApplied (h : List ProposalEvent) (e : LogEntry) : Prop :=
  handed h e.index = some e ∧
    (isConfigChange e.data = true ∨ .applied e.index e.data ∈ h)

/-- What happened since the process last started. -/
def sinceRestart (h : List ProposalEvent) : List ProposalEvent :=
  h.takeWhile fun ev => decide (ev ≠ .restarted)

/-- The callback has been called with `success = false`. -/
def IsFailed (h : List ProposalEvent) (cb : ProposalCallback) : Prop :=
  ∃ result, .completed cb result ∈ h ∧ result.success = false

/-- A callback that no longer waits: its entry was handed over, or it was told of a failure, or its
call stopped waiting. -/
def Settled (h : List ProposalEvent) (cb : ProposalCallback) (e : LogEntry) : Prop :=
  .handedOver e.index e ∈ h ∨ IsFailed h cb ∨ .gaveUp cb ∈ h

/-- A callback is completed with success only when the entry it was left for is the one applied at
its index; a result is recorded only for the session whose command was applied; and the callback of
an entry that is overwritten has been called with `success = false`. -/
def CompletesOwn : List ProposalEvent → Prop
  | [] => True
  | .completed cb result :: past =>
    (result.success = true → ∀ e s, .registered cb e s ∈ past → IsApplied past e) ∧
      CompletesOwn past
  | .recorded i s :: past =>
    (∃ cb e, .registered cb e s ∈ past ∧ e.index = i ∧ IsApplied past e) ∧ CompletesOwn past
  | .overwritten i e :: past =>
    (e.index = i → ∀ cb s, .registered cb e s ∈ sinceRestart past → IsFailed past cb) ∧
      CompletesOwn past
  | _ :: past => CompletesOwn past

def Registered (h : List ProposalEvent) : Registrations := fun cb e s => .registered cb e s ∈ h

theorem Pipeline.Waits.append {q : Pipeline} {h : List ProposalEvent} (hw : q.Waits (Registered h))
    (l : List ProposalEvent) : q.Waits (Registered (l ++ h)) :=
  hw.mono fun _ _ _ hr => List.mem_append_right _ hr

theorem Pipeline.created_of_append {q q' : Pipeline} {new : List Act} (h : q'.acts = q.acts ++ new) :
    q.created q' = new.filterMap Act.createdEntry := by
  unfold created
  rw [h, List.drop_left]

/-! ## §2 — Every callback is left once. -/

/-- The parts of what a step adds to the history. -/
inductive EventPart where
  | recorded | acted | handedOver | left | overwritten | gone

def ProposalEvent.part : ProposalEvent → EventPart
  | .recorded _ _ => .recorded
  | .applied _ _ | .completed _ _ => .acted
  | .handedOver _ _ => .handedOver
  | .registered _ _ _ => .left
  | .overwritten _ _ => .overwritten
  | .gaveUp _ | .restarted => .gone

/-- What a step adds, part by part. -/
def Process.eventsOf (p : Process) (ev : Event) (p' : Process) : EventPart → List ProposalEvent
  | .recorded => p.recordings ev
  | .acted => p.group.pipeline.newSeen Act.proposalEvent p'.group.pipeline
  | .handedOver => p.group.pipeline.handedOver p'.group.pipeline
  | .left => p.registrations ev p'
  | .overwritten => p.overwrites ev p'
  | .gone => p.farewells ev

def ProposalCallback.call : ProposalCallback → Nat
  | .client call | .propose call | .batch call _ => call

namespace Process

variable {p p' : Process} {ev : Event} {env : Env} {h : List ProposalEvent} {cb : ProposalCallback}
  {r : ProposalEvent} {e : LogEntry} {s : Nat × Nat}

theorem part_of_mem {k : EventPart} (hr : r ∈ p.eventsOf ev p' k) : r.part = k := by
  cases k with
  | recorded =>
    simp only [eventsOf, recordings] at hr
    split at hr
    · split at hr
      · split at hr
        · cases hr
        · cases List.mem_singleton.mp hr
          rfl
      · cases hr
    · cases hr
  | acted =>
    obtain ⟨a, -, ha⟩ := List.mem_filterMap.mp (List.mem_reverse.mp hr)
    cases a <;> cases ha <;> rfl
  | handedOver =>
    obtain ⟨t, -, ht⟩ := List.mem_filterMap.mp hr
    split at ht
    · obtain ⟨e', -, rfl⟩ := Option.map_eq_some_iff.mp ht
      rfl
    · cases ht
  | left =>
    cases ev with
    | propose | proposeBatch =>
      obtain ⟨e, -, rfl⟩ := List.mem_map.mp hr
      rfl
    | run i input =>
      simp only [eventsOf, registrations] at hr
      split at hr
      · obtain ⟨e, -, rfl⟩ := List.mem_map.mp hr
        rfl
      · cases hr
    | _ => cases hr
  | overwritten =>
    cases ev with
    | run i input =>
      simp only [eventsOf, overwrites] at hr
      split at hr
      · obtain ⟨e, -, rfl⟩ := List.mem_map.mp hr
        rfl
      · cases hr
    | _ => cases hr
  | gone =>
    cases ev with
    | restart recovered =>
      cases List.mem_singleton.mp hr
      rfl
    | run i input =>
      simp only [eventsOf, farewells] at hr
      split at hr
      · split at hr
        · cases List.mem_singleton.mp hr
          rfl
        · cases hr
      · cases hr
    | _ => cases hr

theorem mem_events : r ∈ p.proposalEvents (ev, env) p' ↔ r ∈ p.eventsOf ev p' r.part := by
  have hpart : ∀ k, r ∈ p.eventsOf ev p' k → r ∈ p.eventsOf ev p' r.part :=
    fun k hr => (part_of_mem hr).symm ▸ hr
  simp only [proposalEvents, List.mem_append, List.mem_reverse]
  constructor
  · rintro (hr | hr | hr | hr | hr | hr)
    exacts [hpart .recorded hr, hpart .acted hr, hpart .handedOver hr, hpart .left hr,
      hpart .overwritten hr, hpart .gone hr]
  · intro hr
    generalize r.part = k at hr
    cases k <;> dsimp only [eventsOf] at hr <;> tauto

/-- A callback that a step leaves belongs to the call that the step begins, or to the client's call
that it continues. -/
theorem registrations_call (hr : .registered cb e s ∈ p.registrations ev p') :
    (cb.call = p.nextCall ∧ ∀ call, cb ≠ .client call) ∨
      ∃ i input call req, ev = .run i input ∧ p.calls[i]? = some (.client (.propose call req)) ∧
        cb = .client call := by
  cases ev with
  | propose | proposeBatch =>
    obtain ⟨e', -, heq⟩ := List.mem_map.mp hr
    cases heq
    exact .inl ⟨rfl, by simp⟩
  | run i input =>
    simp only [registrations] at hr
    split at hr
    · rename_i call req hc
      obtain ⟨e', -, heq⟩ := List.mem_map.mp hr
      cases heq
      exact .inr ⟨i, input, call, req, rfl, hc, rfl⟩
    · cases hr
  | _ => cases hr

theorem registrations_unique {e' : LogEntry} {s' : Nat × Nat}
    (hr : .registered cb e s ∈ p.registrations ev p')
    (hr' : .registered cb e' s' ∈ p.registrations ev p') : e' = e ∧ s' = s := by
  cases ev with
  | propose command sessionId seqNum =>
    obtain ⟨e₁, he₁, heq⟩ := List.mem_map.mp hr
    obtain ⟨e₂, he₂, heq'⟩ := List.mem_map.mp hr'
    cases heq
    cases heq'
    exact ⟨Option.some.inj ((Option.mem_toList.mp he₂).symm.trans (Option.mem_toList.mp he₁)), rfl⟩
  | proposeBatch commands =>
    obtain ⟨⟨e₁, k⟩, he₁, heq⟩ := List.mem_map.mp hr
    obtain ⟨⟨e₂, k'⟩, he₂, heq'⟩ := List.mem_map.mp hr'
    cases heq
    cases heq'
    have hk := List.mem_zipIdx_iff_getElem?.mp he₁
    have hk' := List.mem_zipIdx_iff_getElem?.mp he₂
    exact ⟨Option.some.inj (hk'.symm.trans hk), rfl⟩
  | run i input =>
    simp only [registrations] at hr hr'
    split at hr
    · rename_i call req hc
      rw [hc] at hr'
      obtain ⟨e₁, he₁, heq⟩ := List.mem_map.mp hr
      obtain ⟨e₂, he₂, heq'⟩ := List.mem_map.mp hr'
      cases heq
      cases heq'
      exact ⟨Option.some.inj ((Option.mem_toList.mp he₂).symm.trans (Option.mem_toList.mp he₁)),
        rfl⟩
    · cases hr
  | _ => cases hr

theorem registrations_run {i : Nat} {input : CallInput}
    (hr : .registered cb e s ∈ p.registrations (.run i input) p') :
    p'.group.pipeline.pendingProposals.lookup e.index = some cb := by
  simp only [registrations] at hr
  split at hr
  · obtain ⟨e', he', heq⟩ := List.mem_map.mp hr
    cases heq
    simpa using (Option.mem_filter_iff.mp (Option.mem_toList.mp he')).2
  · cases hr

/-- Calls are numbered; a client's call that is about to append has left no callback yet, and there
is at most one, since it holds `replication_mtx_`. -/
structure CallIds (p : Process) (h : List ProposalEvent) : Prop where
  fresh : ∀ cb e s, .registered cb e s ∈ h → cb.call < p.nextCall
  begun : ∀ call req, .client (.propose call req) ∈ p.calls →
    call < p.nextCall ∧ ∀ e s, .registered (.client call) e s ∉ h
  one : p.calls.countP Call.leads ≤ 1
  unique : ∀ cb e e' s s', .registered cb e s ∈ h → .registered cb e' s' ∈ h → e' = e ∧ s' = s

/-- A client's call that is about to append was there before, and is not the one that goes on; or it
has just begun. -/
theorem Step.proposing {call : Nat} {req : ClientRequest} (hstep : p.Step env ev p')
    (hone : p.calls.countP Call.leads ≤ 1) (hc : .client (.propose call req) ∈ p'.calls) :
    (.client (.propose call req) ∈ p.calls ∧ ∀ i input call' req', ev = .run i input →
        p.calls[i]? ≠ some (.client (.propose call' req'))) ∨
      (ev = .clientRequest req ∧ call = p.nextCall) := by
  cases hstep with
  | restart down => cases hc
  | crash => exact .inl ⟨hc, by simp⟩
  | resume up hw free =>
    rcases List.mem_append.mp hc with hc | hc
    · exact .inl ⟨hc, by simp⟩
    · obtain ⟨persistState, rest, -, hleaves⟩ := RaftGroup.runWaiting_leaves hc
      cases rest <;> simp [RaftGroup.Rest.leaves] at hleaves
  | @run i input c o up hi free ho =>
    rcases List.mem_append.mp hc with hc | hc
    · refine .inl ⟨List.mem_of_mem_eraseIdx hc, ?_⟩
      rintro i' input' call' req' hev hi'
      cases hev
      -- Two calls would hold `replication_mtx_`.
      have hcount := countP_eraseIdx Call.leads hi'
      have hpos : 0 < (p.calls.eraseIdx i).countP Call.leads :=
        List.countP_pos_iff.mpr ⟨_, hc, rfl⟩
      rw [if_pos (by rfl)] at hcount
      omega
    · cases RaftGroup.runCall_continues ho hc
  | event up free ho =>
    rcases List.mem_append.mp hc with hc | hc
    · refine .inl ⟨hc, ?_⟩
      rintro i input call' req' rfl
      cases ho
    · cases RaftGroup.onEvent_starts ho hc
      exact .inr ⟨rfl, rfl⟩

theorem Step.proposing_le_one (hstep : p.Step env ev p')
    (hone : p.calls.countP Call.leads ≤ 1) : p'.calls.countP Call.leads ≤ 1 := by
  cases hstep with
  | restart down => exact Nat.zero_le _
  | crash => exact hone
  | @resume w up hw free =>
    show (p.calls ++ ((p.entered env).runWaiting w).calls).countP Call.leads ≤ 1
    have hnone : ((p.entered env).runWaiting w).calls.countP Call.leads = 0 := by
      refine List.countP_eq_zero.mpr fun c hc hleads => ?_
      obtain ⟨persistState, rest, -, hleaves⟩ := RaftGroup.runWaiting_leaves hc
      cases rest with
      | appendEntries | installSnapshot => obtain ⟨respTerm, rfl⟩ := hleaves; cases hleads
      | failProposal => obtain rfl := hleaves; cases hleads
      | _ => cases hleaves
    rw [List.countP_append, hnone, Nat.add_zero]
    exact hone
  | @run i input c o up hi free ho =>
    show (p.calls.eraseIdx i ++ o.calls).countP Call.leads ≤ 1
    have hnone : o.calls.countP Call.leads = 0 := by
      refine List.countP_eq_zero.mpr fun d hd => ?_
      cases RaftGroup.runCall_continues ho hd <;> simp [Call.leads]
    rw [List.countP_append, hnone, Nat.add_zero]
    exact ((List.eraseIdx_sublist p.calls i).countP_le).trans hone
  | @event ev o up free ho =>
    show (p.calls ++ o.calls).countP Call.leads ≤ 1
    rw [List.countP_append]
    by_cases hnone : o.calls.countP Call.leads = 0
    · rw [hnone]
      exact hone
    obtain ⟨c, hc, hleads⟩ := List.countP_pos_iff.mp (Nat.pos_of_ne_zero hnone)
    have hold : p.calls.countP Call.leads = 0 := by
      refine List.countP_eq_zero.mpr fun d hd hd' => ?_
      have hlock := needs_of_leads hd hd' free
      cases RaftGroup.onEvent_starts ho hc with
      | client req =>
        have hlock : true = false := hlock
        cases hlock
      | _ => cases hleads
    have hnew : o.calls.countP Call.leads ≤ 1 := by
      cases RaftGroup.onEvent_starts ho hc with
      | client req =>
        obtain ⟨ops, hops, -⟩ := (p.entered env).onClientRequest_does p.nextCall req
        have hcalls : o.calls = ((p.entered env).onClientRequest p.nextCall req).calls := by
          cases ho
          rfl
        rw [← hcalls] at hops
        generalize o.calls = calls at hops ⊢
        cases hops with
        | first => exact le_rfl
        | _ => exact Nat.zero_le _
      | _ => cases hleads
    rw [hold, Nat.zero_add]
    exact hnew

theorem CallIds.step (hids : CallIds p h) (hstep : p.Step env ev p') :
    CallIds p' (p.proposalEvents (ev, env) p' ++ h) := by
  have hnext : p.nextCall ≤ p'.nextCall ∧ (ev ≠ .crash → p.nextCall < p'.nextCall) := by
    cases hstep with
    | crash => exact ⟨le_rfl, fun hne => absurd rfl hne⟩
    | _ => exact ⟨Nat.le_succ _, fun _ => Nat.lt_succ_self _⟩
  have hmem : ∀ {cb e s}, .registered cb e s ∈ p.proposalEvents (ev, env) p' ++ h →
      .registered cb e s ∈ p.registrations ev p' ∨ .registered cb e s ∈ h := by
    intro cb e s hr
    rcases List.mem_append.mp hr with hr | hr
    · exact .inl (mem_events.mp hr)
    · exact .inr hr
  have hcrash : ∀ {r}, r ∈ p.registrations ev p' → ev ≠ .crash := by
    rintro r hr rfl
    cases hr
  have hbegun : ∀ {i input call req}, ev = .run i input →
      p.calls[i]? = some (.client (.propose call req)) →
      call < p.nextCall ∧ ∀ e s, .registered (.client call) e s ∉ h :=
    fun _ hc => hids.begun _ _ (List.mem_of_getElem? hc)
  refine ⟨?_, ?_, hstep.proposing_le_one hids.one, ?_⟩
  · intro cb e s hr
    rcases hmem hr with hr | hr
    · rcases registrations_call hr with ⟨hcall, -⟩ | ⟨i, input, call, req, hev, hc, rfl⟩
      · rw [hcall]
        exact hnext.2 (hcrash hr)
      · exact (hbegun hev hc).1.trans_le hnext.1
    · exact (hids.fresh cb e s hr).trans_le hnext.1
  · intro call req hc
    rcases hstep.proposing hids.one hc with ⟨hold, hother⟩ | ⟨rfl, rfl⟩
    · obtain ⟨hlt, hnone⟩ := hids.begun call req hold
      refine ⟨hlt.trans_le hnext.1, fun e s hr => ?_⟩
      rcases hmem hr with hr | hr
      · rcases registrations_call hr with ⟨-, hne⟩ | ⟨i, input, call', req', hev, hi, -⟩
        · exact hne call rfl
        · exact hother i input call' req' hev hi
      · exact hnone e s hr
    · refine ⟨hnext.2 (by simp), fun e s hr => ?_⟩
      rcases hmem hr with hr | hr
      · cases hr
      · exact lt_irrefl _ (hids.fresh _ e s hr)
  · -- A callback that is left now has not been left before.
    have hnew : ∀ {cb e e' s s'}, .registered cb e s ∈ p.registrations ev p' →
        .registered cb e' s' ∉ h := by
      intro cb e e' s s' hr hr'
      rcases registrations_call hr with ⟨hcall, -⟩ | ⟨i, input, call, req, hev, hc, rfl⟩
      · exact absurd (hids.fresh cb e' s' hr') (by rw [hcall]; exact lt_irrefl _)
      · exact (hbegun hev hc).2 e' s' hr'
    intro cb e e' s s' hr hr'
    rcases hmem hr with hr | hr <;> rcases hmem hr' with hr' | hr'
    · exact registrations_unique hr hr'
    · exact absurd hr' (hnew hr)
    · exact absurd hr (hnew hr')
    · exact hids.unique cb e e' s s' hr hr'

end Process

/-! ## §3 — Longer histories. -/

section Histories

variable {l h : List ProposalEvent} {i : Index} {e : LogEntry}

theorem handed_append : handed (l ++ h) i = (handed l i).or (handed h i) :=
  List.findSome?_append

theorem handed_eq_none (hl : ∀ e, .handedOver i e ∉ l) : handed l i = none := by
  refine List.findSome?_eq_none_iff.mpr fun ev hev => ?_
  cases ev with
  | handedOver j e =>
    refine if_neg ?_
    rintro rfl
    exact hl e hev
  | _ => rfl

theorem handed_of_mem (he : .handedOver i e ∈ l) (hl : ∀ e', .handedOver i e' ∈ l → e' = e) :
    handed l i = some e := by
  cases hfound : handed l i with
  | none =>
    have hnone := List.findSome?_eq_none_iff.mp hfound _ he
    simp at hnone
  | some e' =>
    obtain ⟨ev, hev, heq⟩ := List.exists_of_findSome?_eq_some hfound
    cases ev with
    | handedOver j e'' =>
      dsimp only at heq
      split at heq
      · rename_i hj
        cases heq
        rw [hl e' (hj ▸ hev)]
      · cases heq
    | _ => cases heq

theorem handed_append_of_not_mem (hl : ∀ e, .handedOver i e ∉ l) :
    handed (l ++ h) i = handed h i := by
  rw [handed_append, handed_eq_none hl, Option.none_or]

theorem IsApplied.append (ha : IsApplied h e) (hl : ∀ e', .handedOver e.index e' ∉ l) :
    IsApplied (l ++ h) e := by
  obtain ⟨hhanded, happlied⟩ := ha
  refine ⟨by rw [handed_append_of_not_mem hl, hhanded], ?_⟩
  exact happlied.imp id (List.mem_append_right _)

/-- The parts that need nothing of what is before them. -/
def EventPart.isPlain : EventPart → Bool
  | .handedOver | .left | .gone => true
  | _ => false

theorem CompletesOwn.append_plain {k : EventPart} (hh : CompletesOwn h) (hk : k.isPlain = true)
    (hl : ∀ ev ∈ l, ev.part = k) : CompletesOwn (l ++ h) := by
  induction l with
  | nil => exact hh
  | cons ev l ih =>
    have hrest := ih fun ev hev => hl ev (List.mem_cons_of_mem _ hev)
    obtain rfl := hl ev List.mem_cons_self
    cases ev with
    | completed | recorded | overwritten => cases hk
    | _ => exact hrest

variable {cb : ProposalCallback}

theorem Settled.mono (hs : Settled l cb e) (hl : l ⊆ h) : Settled h cb e := by
  rcases hs with hhanded | ⟨result, hmem, hfailed⟩ | hgave
  · exact .inl (hl hhanded)
  · exact .inr (.inl ⟨result, hl hmem, hfailed⟩)
  · exact .inr (.inr (hl hgave))

theorem sinceRestart_append (hl : .restarted ∉ l) : sinceRestart (l ++ h) = l ++ sinceRestart h := by
  refine List.takeWhile_append_of_pos fun ev hev => ?_
  refine decide_eq_true ?_
  rintro rfl
  exact hl hev

theorem sinceRestart_subset (hl : .restarted ∈ l) : sinceRestart (l ++ h) ⊆ l := by
  induction l with
  | nil => cases hl
  | cons ev l ih =>
    by_cases hev : ev = .restarted
    · subst hev
      exact List.nil_subset _
    · have hrest := ih ((List.mem_cons.mp hl).resolve_left (Ne.symm hev))
      have hgo : sinceRestart (ev :: l ++ h) = ev :: sinceRestart (l ++ h) :=
        List.takeWhile_cons_of_pos (decide_eq_true hev)
      rw [hgo]
      exact List.cons_subset_cons ev hrest

theorem CompletesOwn.append_overwritten (hh : CompletesOwn h) (hl : ∀ ev ∈ l, ev.part = .overwritten)
    (htold : ∀ i e, .overwritten i e ∈ l → e.index = i →
      ∀ cb s, .registered cb e s ∈ sinceRestart h → IsFailed h cb) : CompletesOwn (l ++ h) := by
  induction l with
  | nil => exact hh
  | cons ev l ih =>
    have hparts : ∀ ev ∈ l, ev.part = .overwritten := fun ev hev => hl ev (List.mem_cons_of_mem _ hev)
    have hrest := ih hparts fun i e hmem => htold i e (List.mem_cons_of_mem _ hmem)
    have hev := hl ev List.mem_cons_self
    cases ev with
    | overwritten i e =>
      refine ⟨fun hi cb s hr => ?_, hrest⟩
      have hr : .registered cb e s ∈ sinceRestart (l ++ h) := hr
      rw [sinceRestart_append fun hmem => by cases hparts _ hmem] at hr
      rcases List.mem_append.mp hr with hr | hr
      · cases hparts _ hr
      · obtain ⟨result, hmem, hfailed⟩ := htold i e List.mem_cons_self hi cb s hr
        exact ⟨result, List.mem_append_right _ hmem, hfailed⟩
    | _ => cases hev

theorem CompletesOwn.append_acted (hh : CompletesOwn h) (hl : ∀ ev ∈ l, ev.part = .acted)
    (hright : ∀ cb result, .completed cb result ∈ l → result.success = true →
      ∀ e s, .registered cb e s ∈ h → IsApplied h e) : CompletesOwn (l ++ h) := by
  induction l with
  | nil => exact hh
  | cons ev l ih =>
    have hparts : ∀ ev ∈ l, ev.part = .acted := fun ev hev => hl ev (List.mem_cons_of_mem _ hev)
    have hrest := ih hparts fun cb result hmem => hright cb result (List.mem_cons_of_mem _ hmem)
    have hev := hl ev List.mem_cons_self
    cases ev with
    | completed cb result =>
      refine ⟨fun hsuccess e s hr => ?_, hrest⟩
      rcases List.mem_append.mp hr with hr | hr
      · cases hparts _ hr
      · exact (hright cb result List.mem_cons_self hsuccess e s hr).append
          fun e' hmem => by cases hparts _ hmem
    | applied => exact hrest
    | _ => cases hev

end Histories

namespace Pipeline

variable {q q' : Pipeline} {i : Index} {e : LogEntry}

/-- What is recorded as handed over stands in its slot. -/
theorem mem_handedOver {ts : List ApplyTask} (hqueue : q'.applyQueue = q.applyQueue ++ ts) :
    .handedOver i e ∈ q.handedOver q' ↔ q'.log.HasAt i e ∧ ∃ t ∈ ts, t.index = i := by
  unfold handedOver RaftLog.HasAt
  rw [hqueue, List.drop_left, List.mem_filterMap]
  constructor
  · rintro ⟨t, ht, heq⟩
    split at heq
    · rename_i hle
      obtain ⟨e', he', heq⟩ := Option.map_eq_some_iff.mp heq
      cases heq
      exact ⟨⟨hle, he'⟩, t, ht, rfl⟩
    · cases heq
  · rintro ⟨⟨hle, he⟩, t, ht, rfl⟩
    exact ⟨t, ht, by rw [if_pos hle, he]; rfl⟩

end Pipeline

end RollingRaft
