/-
# RollingRaft.Waiting — what waits for an index of the log.

`pending_proposals_` and `proposal_sessions_` are keyed by the index of an entry.
`ApplyCommittedLocked` looks up both by the index of the entry it hands over, and neither a
step-down nor a truncation touches them. `Waits` is the invariant that links the maps with the log:
what waits for an index waits for the entry that stands there. `Hands` says what a section hands
over, and what becomes of the callbacks that waited before it.
-/
import RollingRaft.Lib.Accounting
import RollingRaft.ApplyLine
import RollingRaft.LeaderActs

namespace RollingRaft

open Lib

/-! ## §1 — What waits for an index. -/

/-- Which callback was left for which entry, and the session of its command. -/
abbrev Registrations := ProposalCallback → LogEntry → Nat × Nat → Prop

/-- The operations after which whatever waits for an entry still finds it in its slot. -/
def PipeOp.isSteady : PipeOp → Bool
  | .submit _ _ _ | .truncate _ | .compact _ _ | .install _ _ | .boot _ => false
  | _ => true

namespace Pipeline

/-- What waits for an index was left there for the entry that stands in its slot. -/
structure Waits (R : Registrations) (q : Pipeline) : Prop where
  pending : ∀ j cb, q.pendingProposals.lookup j = some cb →
    ∃ e s, R cb e s ∧ e.index = j ∧ q.log.HasAt j e
  tagged : ∀ j s, q.proposalSessions.lookup j = some s →
    ∃ cb e, R cb e s ∧ e.index = j ∧ q.log.HasAt j e

/-- Whatever waits, waits for an index below `i`. -/
def WaitsBelow (q : Pipeline) (i : Index) : Prop :=
  (∀ j ∈ q.pendingProposals.keys, j < i) ∧ ∀ j ∈ q.proposalSessions.keys, j < i

variable {q : Pipeline}

theorem WaitsBelow.pending {i j : Index} {cb : ProposalCallback} (h : q.WaitsBelow i)
    (hcb : q.pendingProposals.lookup j = some cb) : j < i :=
  h.1 j (AList.mem_keys.mpr (AList.lookup_isSome.mp (by rw [hcb]; rfl)))

theorem WaitsBelow.tagged {i j : Index} {s : Nat × Nat} (h : q.WaitsBelow i)
    (hs : q.proposalSessions.lookup j = some s) : j < i :=
  h.2 j (AList.mem_keys.mpr (AList.lookup_isSome.mp (by rw [hs]; rfl)))

namespace Waits

variable {R R' : Registrations} {q q' : Pipeline}

theorem mono (h : Waits R q) (hR : ∀ cb e s, R cb e s → R' cb e s) : Waits R' q where
  pending j cb hcb := by
    obtain ⟨e, s, hr, hrest⟩ := h.pending j cb hcb
    exact ⟨e, s, hR cb e s hr, hrest⟩
  tagged j s hs := by
    obtain ⟨cb, e, hr, hrest⟩ := h.tagged j s hs
    exact ⟨cb, e, hR cb e s hr, hrest⟩

theorem shrink (h : Waits R q) (hlog : ∀ j e, ((∃ cb, q.pendingProposals.lookup j = some cb) ∨
      ∃ s, q.proposalSessions.lookup j = some s) → q.log.HasAt j e → q'.log.HasAt j e)
    (hpending : ∀ j cb, q'.pendingProposals.lookup j = some cb →
      q.pendingProposals.lookup j = some cb)
    (htagged : ∀ j s, q'.proposalSessions.lookup j = some s →
      q.proposalSessions.lookup j = some s) : Waits R q' where
  pending j cb hcb := by
    have hold := hpending j cb hcb
    obtain ⟨e, s, hr, hj, he⟩ := h.pending j cb hold
    exact ⟨e, s, hr, hj, hlog j e (.inl ⟨cb, hold⟩) he⟩
  tagged j s hs := by
    have hold := htagged j s hs
    obtain ⟨cb, e, hr, hj, he⟩ := h.tagged j s hold
    exact ⟨cb, e, hr, hj, hlog j e (.inr ⟨s, hold⟩) he⟩

theorem of_eq (h : Waits R q) (hlog : q'.log = q.log)
    (hpending : q'.pendingProposals = q.pendingProposals)
    (htagged : q'.proposalSessions = q.proposalSessions) : Waits R q' :=
  h.shrink (fun _ _ _ he => by rw [hlog]; exact he) (fun _ _ hcb => by rwa [hpending] at hcb)
    (fun _ _ hs => by rwa [htagged] at hs)

theorem of_none (hq : q'.WaitsBelow 0) : Waits R q' where
  pending j _ hcb := absurd (hq.pending hcb) (Nat.not_lt_zero j)
  tagged j _ hs := absurd (hq.tagged hs) (Nat.not_lt_zero j)

theorem submit (h : Waits R q) {e : LogEntry} {cb : ProposalCallback} {s : Nat × Nat}
    (hR : R cb e s) (hlog : q.log.Contiguous) (hn : q.next (.submit e cb s) = some q') :
    Waits R q' := by
  obtain ⟨he, ⟨⟩⟩ := Option.ite_none_right_eq_some.mp hn
  have hnew := hlog.hasAt he
  refine ⟨fun j cb' hcb => ?_, fun j s' hs => ?_⟩
  · have hcb : (q.pendingProposals.insert e.index cb).lookup j = some cb' := hcb
    by_cases hj : j = e.index
    · rw [hj, AList.lookup_insert] at hcb
      rw [← Option.some.inj hcb, hj]
      exact ⟨e, s, hR, rfl, hnew⟩
    rw [AList.lookup_insert_ne hj] at hcb
    obtain ⟨e', s', hr, hj', he'⟩ := h.pending j cb' hcb
    exact ⟨e', s', hr, hj', he'.append [e]⟩
  · have hs : (if s.1 = 0 then q.proposalSessions else q.proposalSessions.insert e.index s).lookup j
        = some s' := hs
    have hold : q.proposalSessions.lookup j = some s' →
        ∃ cb' e', R cb' e' s' ∧ e'.index = j ∧ (q.log.appendLogEntry e).HasAt j e' := by
      intro hs
      obtain ⟨cb', e', hr, hj', he'⟩ := h.tagged j s' hs
      exact ⟨cb', e', hr, hj', he'.append [e]⟩
    split at hs
    · exact hold hs
    by_cases hj : j = e.index
    · rw [hj, AList.lookup_insert] at hs
      rw [← Option.some.inj hs, hj]
      exact ⟨cb, e, hR, rfl, hnew⟩
    rw [AList.lookup_insert_ne hj] at hs
    exact hold hs

theorem truncate (h : Waits R q) {i : Index} (hbelow : q.WaitsBelow i)
    (hn : q.next (.truncate i) = some q') : Waits R q' := by
  cases hn
  refine h.shrink (fun j e hwaits he => he.truncate ?_) (fun _ _ hcb => hcb) (fun _ _ hs => hs)
  rcases hwaits with ⟨cb, hcb⟩ | ⟨s, hs⟩
  · exact hbelow.pending hcb
  · exact hbelow.tagged hs

theorem next {op : PipeOp} (h : Waits R q) (hop : op.isSteady = true)
    (hn : q.next op = some q') : Waits R q' := by
  have hframe := next_frame hn
  -- the log keeps its entries, so only the maps matter
  have hlog := next_extends hn (by cases op <;> first | rfl | cases hop)
  refine h.shrink (fun _ _ _ he => he.extends hlog) ?_ ?_
  · intro j cb hcb
    cases op with
    | handOver e =>
      obtain ⟨-, ⟨⟩⟩ := Option.ite_none_right_eq_some.mp hn
      exact lookup_of_erase hcb
    | handOverConfig e made =>
      simp only [Pipeline.next, Option.ite_none_right_eq_some, handOverConfig_eq] at hn
      obtain ⟨-, ⟨⟩⟩ := hn
      split at hcb
      · exact lookup_of_erase hcb
      · exact hcb
    | fail i result =>
      simp only [Pipeline.next] at hn
      split at hn
      · cases hn
      cases hn
      exact lookup_of_erase hcb
    | forget i => cases hn; exact lookup_of_erase hcb
    | drain =>
      rw [(drain_cases hn).2, AList.lookup_empty] at hcb
      cases hcb
    | submit | truncate | compact | install | boot => cases hop
    | _ => exact hframe.waiting rfl ▸ hcb
  · intro j s hs
    cases op with
    | handOver e =>
      obtain ⟨-, ⟨⟩⟩ := Option.ite_none_right_eq_some.mp hn
      exact lookup_of_erase hs
    | submit | boot => cases hop
    | _ => exact hframe.tags rfl ▸ hs

end Waits

end Pipeline

/-! ## §2 — Handing over. -/

/-- The task is made of the entry, with what waited for it. -/
structure ApplyTask.MadeOf (R : Registrations) (t : ApplyTask) (e : LogEntry) : Prop where
  config : t.isConfigChange = RollingRaft.isConfigChange e.data
  data : t.isConfigChange = false → t.data = e.data
  callback : ∀ cb, t.callback = some cb → t.isConfigChange = false ∧ e.index = t.index ∧
    ∃ s, R cb e s
  session : t.sessionId ≠ 0 → e.index = t.index ∧ ∃ cb, R cb e (t.sessionId, t.seqNum)

theorem ApplyTask.MadeOf.mono {R R' : Registrations} {t : ApplyTask} {e : LogEntry}
    (h : t.MadeOf R e) (hR : ∀ cb e s, R cb e s → R' cb e s) : t.MadeOf R' e where
  config := h.config
  data := h.data
  callback cb hcb := by
    obtain ⟨hconfig, hindex, s, hr⟩ := h.callback cb hcb
    exact ⟨hconfig, hindex, s, hR cb e s hr⟩
  session hs := by
    obtain ⟨hindex, cb, hr⟩ := h.session hs
    exact ⟨hindex, cb, hR cb e _ hr⟩

/-- An act that applies nothing and completes no callback with success. -/
def Act.isSilent : Act → Bool
  | .applied _ _ _ => false
  | .completed _ result => !result.success
  | _ => true

/-- The operations of sections that may hand entries over: they complete callbacks with success only
as part of it. -/
def PipeOp.isHanding : PipeOp → Bool
  | .create _ | .extend _ | .commit _ | .follow _ | .handOver _ | .handOverConfig _ _ | .stuck => true
  | .receive _ | .endRestore | .setSession _ _ | .clearSessions | .touch _ | .respond _ _ => true
  | .fail _ result => !result.success
  | _ => false

variable {op : PipeOp}

theorem PipeOp.isSteady_of_isHanding (h : op.isHanding = true) : op.isSteady = true := by
  cases op <;> first | rfl | cases h

theorem PipeOp.fits_of_isHanding (h : op.isHanding = true) : op.fits := by
  cases op <;> trivial

theorem PipeOp.keepsLog_of_isHanding (h : op.isHanding = true) : op.keepsLog = true := by
  cases op <;> first | rfl | cases h

namespace Pipeline

variable {R : Registrations} {q q₁ q' : Pipeline} {ts ts' : List ApplyTask} {new new' : List Act}
  {j : Index} {cb : ProposalCallback} {e : LogEntry}

theorem extends_of_path {ops : List PipeOp} (hops : ∀ op ∈ ops, op.isHanding = true)
    (hpath : machine.Path q ops q') : q.log.Extends q'.log := by
  refine hpath.invariant (P := fun r => q.log.Extends r.log) ?_ (.refl _)
  intro q₁ q₂ op hop hext hn
  exact hext.trans (next_extends hn (PipeOp.keepsLog_of_isHanding (hops op hop)))

/-- The act applies nothing, and completes with success only the callback of a configuration change
that `ts` hand over, or one that was left for no entry. -/
def Rightly (R : Registrations) (q : Pipeline) (ts : List ApplyTask) (a : Act) : Prop :=
  a.isSilent = true ∨ ∃ cb result, a = .completed cb result ∧
    ((∃ e s, ∃ t ∈ ts, R cb e s ∧ e.index = t.index ∧ q.log.HasAt t.index e ∧
        t.isConfigChange = true) ∨ ∀ e s, ¬ R cb e s)

/-- The callback of index `j` went with a task of its entry, or was told of a failure. -/
def Gone (R : Registrations) (q : Pipeline) (ts : List ApplyTask) (new : List Act) (j : Index)
    (cb : ProposalCallback) : Prop :=
  (∃ t ∈ ts, t.index = j ∧ ∃ e s, R cb e s ∧ q.log.HasAt j e) ∨
    ∃ result, .completed cb result ∈ new ∧ result.success = false

theorem Rightly.mono {a : Act} (h : q.Rightly R ts a) (hlog : q.log.Extends q'.log)
    (hts : ts ⊆ ts') : q'.Rightly R ts' a := by
  rcases h with hsilent | ⟨cb, result, rfl, ⟨e, s, t, ht, hr, hindex, he, hconfig⟩ | hnone⟩
  · exact .inl hsilent
  · exact .inr ⟨cb, result, rfl, .inl ⟨e, s, t, hts ht, hr, hindex, he.extends hlog, hconfig⟩⟩
  · exact .inr ⟨cb, result, rfl, .inr hnone⟩

theorem Gone.mono (h : q.Gone R ts new j cb) (hlog : q.log.Extends q'.log) (hts : ts ⊆ ts')
    (hnew : new ⊆ new') : q'.Gone R ts' new' j cb := by
  rcases h with ⟨t, ht, hj, e, s, hr, he⟩ | ⟨result, hmem, hfailed⟩
  · exact .inl ⟨t, hts ht, hj, e, s, hr, he.extends hlog⟩
  · exact .inr ⟨result, hnew hmem, hfailed⟩

/-- From `q` to `q'` the tasks `ts` were handed over and the acts `new` done. A callback that waited
still waits, or is gone. -/
structure Hands (R : Registrations) (q q' : Pipeline) (ts : List ApplyTask) (new : List Act) :
    Prop where
  queue : q'.applyQueue = q.applyQueue ++ ts
  moved : q.lastEnqueued ≤ q'.lastEnqueued
  bound : ∀ t ∈ ts, q.lastEnqueued < t.index ∧ t.index ≤ q'.lastEnqueued
  made : ∀ t ∈ ts, ∃ e, q'.log.HasAt t.index e ∧ t.MadeOf R e
  acts : q'.acts = q.acts ++ new
  completed : ∀ a ∈ new, q'.Rightly R ts a
  kept : ∀ j cb, q.pendingProposals.lookup j = some cb →
    q'.pendingProposals.lookup j = some cb ∨ q'.Gone R ts new j cb

namespace Hands

theorem of_acts (hqueue : q'.applyQueue = q.applyQueue)
    (hmoved : q.lastEnqueued ≤ q'.lastEnqueued) (hacts : q'.acts = q.acts ++ new)
    (hcompleted : ∀ a ∈ new, q'.Rightly R [] a) (hkept : ∀ j cb,
      q.pendingProposals.lookup j = some cb → q'.pendingProposals.lookup j = some cb ∨
        ∃ result, .completed cb result ∈ new ∧ result.success = false) :
    Hands R q q' [] new where
  queue := hqueue.trans (List.append_nil _).symm
  moved := hmoved
  bound := List.forall_mem_nil _
  made := List.forall_mem_nil _
  acts := hacts
  completed := hcompleted
  kept j cb hcb := (hkept j cb hcb).imp_right .inr

theorem of_eq (hqueue : q'.applyQueue = q.applyQueue) (hmoved : q.lastEnqueued ≤ q'.lastEnqueued)
    (hacts : q'.acts = q.acts) (hkept : q'.pendingProposals = q.pendingProposals) :
    Hands R q q' [] [] :=
  .of_acts hqueue hmoved (hacts.trans (List.append_nil _).symm) (List.forall_mem_nil _)
    fun _ _ hcb => .inl (hkept ▸ hcb)

/-- What is done later leaves the entries where they are. -/
theorem trans (h : Hands R q q₁ ts new) (h' : Hands R q₁ q' ts' new')
    (hlog : q₁.log.Extends q'.log) : Hands R q q' (ts ++ ts') (new ++ new') where
  queue := by rw [h'.queue, h.queue, List.append_assoc]
  moved := h.moved.trans h'.moved
  bound := List.forall_mem_append.mpr
    ⟨fun t ht => ⟨(h.bound t ht).1, (h.bound t ht).2.trans h'.moved⟩,
      fun t ht => ⟨h.moved.trans_lt (h'.bound t ht).1, (h'.bound t ht).2⟩⟩
  made := by
    refine List.forall_mem_append.mpr ⟨fun t ht => ?_, h'.made⟩
    obtain ⟨e, he, hmade⟩ := h.made t ht
    exact ⟨e, he.extends hlog, hmade⟩
  acts := by rw [h'.acts, h.acts, List.append_assoc]
  completed := List.forall_mem_append.mpr
    ⟨fun a ha => (h.completed a ha).mono hlog (List.subset_append_left _ _),
      fun a ha => (h'.completed a ha).mono (.refl _) (List.subset_append_right _ _)⟩
  kept j cb hcb := by
    rcases h.kept j cb hcb with hcb | hgone
    · refine (h'.kept j cb hcb).imp_right fun hgone => hgone.mono (.refl _) ?_ ?_
      · exact List.subset_append_right _ _
      · exact List.subset_append_right _ _
    · exact .inr (hgone.mono hlog (List.subset_append_left _ _) (List.subset_append_left _ _))

/-- The task made of the next entry takes along what waited for it. -/
theorem taskFor_madeOf (hw : Waits R q) (he : q.log.HasAt q.nextIndex e)
    (hconfig : isConfigChange e.data = false) : (q.taskFor e).MadeOf R e where
  config := hconfig.symm
  data _ := rfl
  callback cb hcb := by
    obtain ⟨e', s, hr, hindex, he'⟩ := hw.pending _ cb hcb
    obtain rfl := he.unique he'
    exact ⟨rfl, hindex, s, hr⟩
  session hs := by
    cases htag : q.proposalSessions.lookup q.nextIndex with
    | none =>
      refine absurd ?_ hs
      simp [taskFor, htag]
    | some s =>
      obtain ⟨cb, e', hr, hindex, he'⟩ := hw.tagged _ s htag
      obtain rfl := he.unique he'
      refine ⟨hindex, cb, ?_⟩
      simpa [taskFor, htag] using hr

theorem next {op : PipeOp} (hw : Waits R q) (hfits : q.Fits) (hop : op.isHanding = true)
    (hn : q.next op = some q') : ∃ ts new, Hands R q q' ts new := by
  have hlog := next_extends hn (PipeOp.keepsLog_of_isHanding hop)
  have hnext : q.lastEnqueued < q.commitIndex → q.nextIndex = q.lastEnqueued + 1 := by
    intro hlt
    exact add32_of_lt (lt_of_le_of_lt (Nat.succ_le_of_lt hlt) hfits.commit)
  -- The next entry goes with its task.
  have hpush : ∀ {e t new}, q.lastEnqueued < q.commitIndex → q.log.getEntry q.nextIndex = some e →
      q'.applyQueue = q.applyQueue ++ [t] → t.index = q.nextIndex →
      q'.lastEnqueued = q.nextIndex → t.MadeOf R e → q'.acts = q.acts ++ new →
      (∀ a ∈ new, q'.Rightly R [t] a) →
      (∀ j cb, q.pendingProposals.lookup j = some cb → j ≠ q.nextIndex →
        q'.pendingProposals.lookup j = some cb) → ∃ ts new, Hands R q q' ts new := by
    intro e t new hlt hget hqueue ht hlast hmade hacts hcompleted hkept
    have he := (RaftLog.hasAt_of_getEntry hget).extends hlog
    have hmoved : q.lastEnqueued < q.nextIndex := (hnext hlt).symm ▸ Nat.lt_succ_self _
    refine ⟨[t], new, hqueue, by rw [hlast]; exact hmoved.le, ?_, ?_, hacts, hcompleted, ?_⟩
    · rintro _ (_ | ⟨_, ⟨⟩⟩)
      rw [ht, hlast]
      exact ⟨hmoved, le_rfl⟩
    · rintro _ (_ | ⟨_, ⟨⟩⟩)
      exact ⟨e, ht.symm ▸ he, hmade⟩
    · intro j cb hcb
      by_cases hj : j = q.nextIndex
      · obtain ⟨e', s, hr, -, he'⟩ := hw.pending j cb hcb
        exact .inr (.inl ⟨t, List.mem_cons_self, ht.trans hj.symm, e', s, hr, he'.extends hlog⟩)
      · exact .inl (hkept j cb hcb hj)
  cases op with
  | create e =>
    obtain ⟨-, ⟨⟩⟩ := Option.ite_none_right_eq_some.mp hn
    exact ⟨[], [.created e], .of_acts rfl le_rfl rfl (by simp [Rightly, Act.isSilent])
      fun _ _ hcb => .inl hcb⟩
  | extend | commit | follow =>
    obtain ⟨-, ⟨⟩⟩ := Option.ite_none_right_eq_some.mp hn
    exact ⟨[], [], .of_eq rfl le_rfl rfl rfl⟩
  | handOver e =>
    simp only [Pipeline.next, Option.ite_none_right_eq_some, Bool.and_eq_true,
      decide_eq_true_eq, Bool.not_eq_true'] at hn
    obtain ⟨⟨⟨hlt, hget⟩, hconfig⟩, ⟨⟩⟩ := hn
    exact hpush hlt hget rfl rfl rfl
      (taskFor_madeOf hw (RaftLog.hasAt_of_getEntry hget) hconfig) (List.append_nil _).symm
      (List.forall_mem_nil _) fun j cb hcb hj => (AList.lookup_erase_ne hj).trans hcb
  | handOverConfig e made =>
    simp only [Pipeline.next, Option.ite_none_right_eq_some, Bool.and_eq_true,
      decide_eq_true_eq, handOverConfig_eq] at hn
    obtain ⟨⟨⟨⟨hlt, hget⟩, hconfig⟩, -⟩, ⟨⟩⟩ := hn
    have he := RaftLog.hasAt_of_getEntry hget
    refine hpush hlt hget rfl rfl rfl
      ⟨hconfig.symm, fun hplain => absurd hplain.symm Bool.false_ne_true,
        fun cb hcb => absurd hcb.symm (Option.some_ne_none cb), fun hs => absurd rfl hs⟩
      (List.append_assoc _ _ _) ?_ ?_
    · intro a ha
      rcases List.mem_append.mp ha with ha | ha
      · obtain ⟨e', -, rfl⟩ := List.mem_map.mp ha
        exact .inl rfl
      · obtain ⟨cb, hcb, rfl⟩ := List.mem_map.mp ha
        obtain ⟨e', s, hr, hindex, he'⟩ := hw.pending _ cb (Option.mem_toList.mp hcb)
        obtain rfl := he.unique he'
        exact .inr ⟨cb, _, rfl, .inl ⟨e', s, _, List.mem_cons_self, hr, hindex,
          he.extends hlog, rfl⟩⟩
    · intro j cb hcb hj
      split
      · exact (AList.lookup_erase_ne hj).trans hcb
      · exact hcb
  | stuck =>
    simp only [Pipeline.next, Option.ite_none_right_eq_some, Bool.and_eq_true,
      decide_eq_true_eq] at hn
    obtain ⟨⟨hlt, -⟩, ⟨⟩⟩ := hn
    refine ⟨[], [], .of_eq rfl ?_ rfl rfl⟩
    show q.lastEnqueued ≤ q.nextIndex
    rw [hnext hlt]
    exact Nat.le_succ _
  | fail i result =>
    simp only [Pipeline.next] at hn
    split at hn
    · cases hn
    rename_i cb hcb
    cases hn
    refine ⟨[], [.completed cb result], .of_acts rfl le_rfl rfl ?_ ?_⟩
    · intro a ha
      rw [List.mem_singleton.mp ha]
      exact .inl hop
    · intro j cb' hcb'
      by_cases hj : j = i
      · rw [hj, hcb] at hcb'
        cases hcb'
        exact .inr ⟨result, List.mem_cons_self, by simpa [PipeOp.isHanding] using hop⟩
      · exact .inl ((AList.lookup_erase_ne hj).trans hcb')
  | respond request response =>
    cases hn
    exact ⟨[], [.responded request response], .of_acts rfl le_rfl rfl
      (by simp [Rightly, Act.isSilent]) fun _ _ hcb => .inl hcb⟩
  | receive | endRestore | setSession | clearSessions | touch =>
    cases hn
    exact ⟨[], [], .of_eq rfl le_rfl rfl rfl⟩
  | submit | truncate | compact | take | load | task | publish | restore | install | complete
    | forget | drain | boot => cases hop

theorem path {ops : List PipeOp} (hw : Waits R q) (hfits : q.Fits)
    (hops : ∀ op ∈ ops, op.isHanding = true) (hpath : machine.Path q ops q') :
    Waits R q' ∧ ∃ ts new, Hands R q q' ts new := by
  induction hpath with
  | nil q => exact ⟨hw, [], [], .of_eq rfl le_rfl rfl rfl⟩
  | @cons q q₁ q' op ops hn hpath ih =>
    have hop := hops op List.mem_cons_self
    have hrest : ∀ op ∈ ops, op.isHanding = true := fun op hop => hops op (List.mem_cons_of_mem _ hop)
    have hfits₁ := hfits.next (PipeOp.fits_of_isHanding hop) hn
    obtain ⟨ts, new, h⟩ := next hw hfits hop hn
    obtain ⟨hw', ts', new', h'⟩ := ih (hw.next (PipeOp.isSteady_of_isHanding hop) hn) hfits₁ hrest
    exact ⟨hw', _, _, h.trans h' (extends_of_path hrest hpath)⟩

end Hands

end Pipeline

/-! ## §3 — Submitting. -/

namespace Pipeline

variable {R : Registrations} {q q' : Pipeline} {op : PipeOp}

theorem handing_of_isWork {t : Term} (h : RaftGroup.isWork t op) : op.isHanding = true := by
  cases op <;> first | rfl | exact h.elim

theorem handing_of_replicates {g : RaftGroup} {req : AppendEntriesRequest}
    (h : g.replicatesOp req op) : op.isHanding = true := by
  rcases h with ⟨e, -, rfl⟩ | rfl | h
  · rfl
  · rfl
  · cases op <;> first | rfl | exact h.elim

/-- A callback is left for a new entry; whatever waits, waits for older ones. -/
theorem Hands.submit {e : LogEntry} {cb : ProposalCallback} {s : Nat × Nat} (hw : Waits R q)
    (hlog : q.log.Contiguous) (hn : q.next (.submit e cb s) = some q') :
    Hands R q q' [] [.created e] ∧ q'.pendingProposals.lookup e.index = some cb := by
  obtain ⟨he, ⟨⟩⟩ := Option.ite_none_right_eq_some.mp hn
  refine ⟨.of_acts rfl le_rfl rfl (by simp [Rightly, Act.isSilent]) ?_, AList.lookup_insert _⟩
  intro j c hc
  obtain ⟨e', s', -, -, hle, hslot⟩ := hw.pending j c hc
  refine .inl ((AList.lookup_insert_ne ?_).trans hc)
  rintro rfl
  have hlt := (List.getElem?_eq_some_iff.mp hslot).1
  rw [he, hlog.newIndex, Nat.add_sub_cancel_left] at hlt
  exact lt_irrefl _ hlt

/-- The entries that a batch makes of its commands. -/
def batchEntries (q : Pipeline) (t : Term) : List Bytes → List LogEntry
  | [] => []
  | data :: rest =>
    ⟨q.log.newIndex, t, data⟩ :: (q.addEntry ⟨q.log.newIndex, t, data⟩).batchEntries t rest

theorem batchEntries_length (q : Pipeline) (t : Term) (commands : List Bytes) :
    (q.batchEntries t commands).length = commands.length := by
  induction commands generalizing q with
  | nil => rfl
  | cons data rest ih => simp [batchEntries, ih]

theorem log_addEntry_congr (hlog : q'.log = q.log) (e : LogEntry) :
    (q'.addEntry e).log = (q.addEntry e).log := by
  show q'.log.appendLogEntry _ = q.log.appendLogEntry _
  rw [hlog]

theorem batchEntries_congr (hlog : q'.log = q.log) (t : Term) (commands : List Bytes) :
    q'.batchEntries t commands = q.batchEntries t commands := by
  induction commands generalizing q q' with
  | nil => rfl
  | cons data rest ih =>
    simp only [batchEntries, hlog]
    rw [ih (log_addEntry_congr hlog _)]

theorem batchOps_congr (hlog : q'.log = q.log) (t : Term) (call slot : Nat)
    (commands : List Bytes) :
    q'.batchOps t call slot commands = q.batchOps t call slot commands := by
  induction commands generalizing q q' slot with
  | nil => rfl
  | cons data rest ih =>
    simp only [batchOps, hlog]
    rw [ih (log_addEntry_congr hlog _)]

theorem Hands.batch {t : Term} {call slot : Nat} {commands : List Bytes} (hw : Waits R q)
    (hfits : q.Fits) (hlog : q.log.Contiguous)
    (hroom : q.log.startIndex + q.log.entries.length + commands.length < 2 ^ 32)
    (hR : ∀ k e, (q.batchEntries t commands)[k]? = some e → R (.batch call (slot + k)) e (0, 0))
    (hpath : machine.Path q (q.batchOps t call slot commands) q') :
    Waits R q' ∧ q'.Fits ∧ Hands R q q' [] ((q.batchEntries t commands).map .created) ∧
      q.log.Extends q'.log ∧ ∀ k e, (q.batchEntries t commands)[k]? = some e →
        q'.pendingProposals.lookup e.index = some (.batch call (slot + k)) := by
  induction commands generalizing q slot with
  | nil =>
    cases hpath
    exact ⟨hw, hfits, .of_eq rfl le_rfl rfl rfl, .refl _, nofun⟩
  | cons data rest ih =>
    cases hpath with
    | @cons _ q₁ _ _ _ hn hrest =>
      have hn : q.next (.submit ⟨q.log.newIndex, t, data⟩ (.batch call slot) (0, 0)) = some q₁ := hn
      have hlog₁ : q₁.log = q.log.appendLogEntry ⟨q.log.newIndex, t, data⟩ := by
        obtain ⟨-, ⟨⟩⟩ := Option.ite_none_right_eq_some.mp hn
        rfl
      have hadd : q₁.log = (q.addEntry ⟨q.log.newIndex, t, data⟩).log := hlog₁
      have hlen : q₁.log.startIndex + q₁.log.entries.length + rest.length =
          q.log.startIndex + q.log.entries.length + (data :: rest).length := by
        rw [hlog₁]
        simp only [RaftLog.appendLogEntry, List.length_append, List.length_cons, List.length_nil]
        rw [Nat.zero_add, ← Nat.add_assoc, Nat.add_assoc _ 1, Nat.add_comm 1]
      have hcontiguous : q₁.log.Contiguous := by
        rw [hlog₁]
        refine hlog.append rfl (lt_of_le_of_lt ?_ hroom)
        rw [List.length_cons, ← Nat.add_assoc]
        exact Nat.add_le_add_left (Nat.le_add_left 1 _) _
      have hslot : ∀ k, slot + (k + 1) = slot + 1 + k := by
        intro k
        omega
      rw [← batchOps_congr hadd] at hrest
      obtain ⟨h, hleft⟩ := Hands.submit hw hlog hn
      obtain ⟨hw', hfits', h', hlog', hwaits⟩ := ih (hw.submit (hR 0 _ rfl) hlog hn)
        (hfits.next (show PipeOp.fits (.submit _ _ _) from trivial) hn) hcontiguous
        (by rw [hlen]; exact hroom) (fun k e hk => by
          rw [batchEntries_congr hadd] at hk
          rw [← hslot]
          exact hR (k + 1) e hk) hrest
      rw [batchEntries_congr hadd] at h' hwaits
      refine ⟨hw', hfits', h.trans h' hlog', (next_extends hn rfl).trans hlog', ?_⟩
      rintro (_ | k) e hk
      · -- the first callback still waits after the others
        cases hk
        rcases h'.kept _ _ hleft with hcb | ⟨_, ⟨⟩, -⟩ | ⟨result, hmem, -⟩
        · exact hcb
        · simp at hmem
      · rw [hslot]
        exact hwaits k e hk

end Pipeline

end RollingRaft
