/-
# RollingRaft.Storage.Shutdown — what has become of the callbacks when `Stop` returns.

`Stop` joins the threads, flushes once and syncs once. A callback passed before the call has then
been called exactly once, unless one of three things happened: the disk space check of that last
flush failed, so that the batch went back into the buffer with its callbacks and nobody looks at the
buffer again; the persister was not running, so that `Stop` returned without flushing; or a
`durable_callback_executor` is set and has not run all that was posted to it.
-/
import RollingRaft.Storage.Callbacks

namespace RollingRaft

open Lib

/-! ## §1 — How far a `Stop` has got. -/

namespace LogPersister

variable {s s' : LogPersister} {action : FlushAction} {e : Event} {k n endEpoch : Nat}
  {status : StoreStatus} {stopping : StopCall}

/-- The range of the controller ends at `n`, which is 0 when it has given none out. -/
def RangeEnds (s : LogPersister) (n : Nat) : Prop :=
  ∀ c, s.controller = some c → c.syncInProgressEnd = n

/-- The threads run: only the flush thread flushes, and the range is that of the sync thread. -/
structure Early (s : LogPersister) : Prop where
  idle : s.flusher ≠ .testing → s.flush = .idle
  range : s.RangeEnds (s.syncer.inFlight.elim 0 Prod.fst)

/-- The threads are gone; `k` callbacks were passed before `Stop`. -/
structure Joined (s : LogPersister) (k : Nat) : Prop where
  flusher : s.flusher = .off
  syncer : s.syncer = .off
  running : s.running = false
  before : k ≤ s.passed

theorem Joined.of_eq (h : s.Joined k) (hflusher : s'.flusher = s.flusher)
    (hsyncer : s'.syncer = s.syncer) (hrunning : s'.running = s.running)
    (hpassed : s.passed ≤ s'.passed) : s'.Joined k :=
  ⟨hflusher.trans h.flusher, hsyncer.trans h.syncer, hrunning.trans h.running,
    h.before.trans hpassed⟩

/-- The callbacks passed before `Stop` have left the buffer. -/
def Emptied (s : LogPersister) (k : Nat) : Prop := ∀ t ∈ callbacksOf s.buffer, k ≤ t

/-- A sync of the range up to `endEpoch` is in flight, and covers all that is pending. -/
def SyncsAll (s : LogPersister) (endEpoch : Nat) : Prop :=
  ∀ c, s.controller = some c →
    c.syncInProgressEnd = endEpoch ∧ 0 < endEpoch ∧ ∀ p ∈ c.pending, p.epoch ≤ endEpoch

/-- What holds at each section of `Stop`. -/
def At (s : LogPersister) : StopCall → Prop
  | .none => s.Early
  | .joining k => s.Early ∧ s.running = false ∧ k ≤ s.passed
  | .joined k => s.Joined k ∧ s.flush = .idle ∧ s.RangeEnds 0
  | .flushing k => s.Joined k ∧ s.Emptied k ∧ s.RangeEnds 0 ∧
      ∀ batch, s.flush = .failed batch → callbacksOf batch = []
  | .acquired k endEpoch | .synced k endEpoch _ =>
      s.Joined k ∧ s.Emptied k ∧ s.flush = .idle ∧ s.SyncsAll endEpoch
  | .done k => s.Joined k ∧ s.Emptied k ∧ s.flush = .idle ∧ s.RangeEnds 0 ∧ s.registered = []

/-- A step that leaves threads, flush and controller alone. Callbacks passed from now on are not
among those counted. -/
theorem At.keep (hs : s.At stopping) (hflusher : s'.flusher = s.flusher)
    (hsyncer : s'.syncer = s.syncer) (hrunning : s'.running = s.running)
    (hflush : s'.flush = s.flush) (hcontroller : s'.controller = s.controller)
    (hpassed : s.passed ≤ s'.passed)
    (hbuffer : ∀ t ∈ callbacksOf s'.buffer, t ∈ callbacksOf s.buffer ∨ s.passed ≤ t) :
    s'.At stopping := by
  have hjoined : ∀ {k}, s.Joined k → s'.Joined k :=
    fun h => h.of_eq hflusher hsyncer hrunning hpassed
  have hemptied : ∀ {k}, s.Joined k → s.Emptied k → s'.Emptied k :=
    fun hj h t ht => (hbuffer t ht).elim (h t) hj.before.trans
  have hearly : s.Early → s'.Early := by
    rintro ⟨hidle, hrange⟩
    refine ⟨?_, ?_⟩
    · rw [hflusher, hflush]
      exact hidle
    · rw [hsyncer, RangeEnds, hcontroller]
      exact hrange
  cases stopping with
  | none => exact hearly hs
  | joining k => exact ⟨hearly hs.1, hrunning.trans hs.2.1, hs.2.2.trans hpassed⟩
  | joined k =>
    refine ⟨hjoined hs.1, hflush.trans hs.2.1, ?_⟩
    rw [RangeEnds, hcontroller]
    exact hs.2.2
  | flushing k =>
    refine ⟨hjoined hs.1, hemptied hs.1 hs.2.1, ?_⟩
    rw [RangeEnds, hcontroller, hflush]
    exact hs.2.2
  | acquired k endEpoch | synced k endEpoch status =>
    refine ⟨hjoined hs.1, hemptied hs.1 hs.2.1, hflush.trans hs.2.2.1, ?_⟩
    rw [SyncsAll, hcontroller]
    exact hs.2.2.2
  | done k =>
    refine ⟨hjoined hs.1, hemptied hs.1 hs.2.1, hflush.trans hs.2.2.1, ?_⟩
    rw [RangeEnds, registered, hcontroller]
    exact hs.2.2.2

/-- A background thread that takes a step has not been joined. -/
theorem At.of_thread (hs : s.At stopping) (halive : s.flusher ≠ .off ∨ s.syncer ≠ .off)
    (hrunning : s'.running = s.running) (hpassed : s'.passed = s.passed)
    (hearly : s.Early → s'.Early) : s'.At stopping := by
  have hthere : ∀ {k}, ¬ s.Joined k := fun h => halive.elim (· h.flusher) (· h.syncer)
  cases stopping with
  | none => exact hearly hs
  | joining k => exact ⟨hearly hs.1, hrunning.trans hs.2.1, hs.2.2.trans hpassed.ge⟩
  | _ => exact absurd hs.1 hthere

theorem At.early (hs : s.At stopping) (hrunning : s.running = true) : s.Early := by
  have hno : ∀ {k}, ¬ s.Joined k := fun h =>
    absurd (h.running.symm.trans hrunning) Bool.false_ne_true
  cases stopping with
  | none => exact hs
  | joining k => exact hs.1
  | _ => exact absurd hs.1 hno

/-! ## §2 — Ranges. -/

theorem Epochs.le_last {c : GroupCommitController DurableCallback} (hc : Epochs c)
    {last : PendingEpoch DurableCallback} (hlast : c.pending.getLast? = some last)
    {p : PendingEpoch DurableCallback} (hp : p ∈ c.pending) : p.epoch ≤ last.epoch := by
  obtain ⟨init, hinit⟩ := List.getLast?_eq_some_iff.mp hlast
  rw [hinit] at hp
  rcases List.mem_append.mp hp with hp | hp
  · have hsorted := hc.sorted
    rw [hinit, List.pairwise_append] at hsorted
    exact le_of_lt (hsorted.2.2 p hp last (List.mem_singleton_self last))
  · rw [List.mem_singleton.mp hp]

theorem RangeEnds.flushes (hs : s.RangeEnds n) (h : s.Flushes action s') : s'.RangeEnds n := by
  cases h with
  | register hflush hcontroller hregister =>
    rintro d ⟨⟩
    exact (registered_register hregister).2.2.1.trans (hs _ hcontroller)
  | _ => exact hs

theorem RangeEnds.report (status : StoreStatus) (hs : s.RangeEnds endEpoch) :
    (s.report endEpoch status).RangeEnds 0 := by
  obtain ⟨more, posted, heq⟩ := report_eq s endEpoch status
  rw [heq]
  intro d hd
  obtain ⟨c, hc, rfl⟩ := Option.map_eq_some_iff.mp hd
  have hend := hs c hc
  unfold GroupCommitController.onSync GroupCommitController.onSyncSuccess
    GroupCommitController.onSyncFailure
  by_cases hzero : endEpoch = 0
  · split <;> split <;> simp_all
  · split <;> split <;> simp_all

theorem registered_of_no_range (hsound : s.Sound) (hrange : s.RangeEnds 0)
    (hnone : s.persister = true → ∀ c, s.controller = some c → c.acquireSyncRange = none) :
    s.registered = [] := by
  unfold registered
  split
  · rfl
  rename_i c hc
  suffices hpending : c.pending = [] by
    rw [hpending]
    rfl
  cases hp : s.persister with
  | false => exact hsound.absent hp c hc
  | true =>
    have hnone := hnone hp c hc
    cases hhealthy : c.healthy with
    | false => exact (hsound.epochs c hc).unhealthy hhealthy
    | true =>
      simp only [GroupCommitController.acquireSyncRange, hhealthy, hrange c hc] at hnone
      cases hlast : c.pending.getLast? with
      | none => exact List.getLast?_eq_none_iff.mp hlast
      | some last => simp [hlast] at hnone

theorem registered_of_report (status : StoreStatus) (hs : s.SyncsAll endEpoch) :
    (s.report endEpoch status).registered = [] := by
  obtain ⟨more, posted, heq⟩ := report_eq s endEpoch status
  rw [heq]
  unfold registered
  cases hc : s.controller with
  | none => rfl
  | some c =>
    obtain ⟨hend, hpos, hle⟩ := hs c hc
    suffices hpending : (c.onSync endEpoch status).1.pending = [] by
      simp only [Option.map_some]
      rw [hpending]
      rfl
    have hguard : ¬ (c.syncInProgressEnd = 0 ∨ endEpoch ≠ c.syncInProgressEnd) := by omega
    by_cases hok : status = .ok
    · simp only [GroupCommitController.onSync, if_pos hok, GroupCommitController.onSyncSuccess,
        if_neg hguard]
      refine List.dropWhile_eq_nil_iff.mpr ?_
      intro p hp
      exact decide_eq_true (hle p hp)
    simp only [GroupCommitController.onSync, if_neg hok, GroupCommitController.onSyncFailure,
      if_neg hguard]

/-! ## §3 — What `Stop` has taken care of. -/

/-- The conditions under which `Stop` leaves nothing behind: it is called on a running persister,
its last flush finds space on the disk, and the executor has run what was posted to it. -/
def CleanStop (s : LogPersister) : Event → Prop
  | .stop => s.running = true
  | .stopFlush (.checkSpace statvfs) => checkDiskSpace s.config statvfs = .ok
  | .stopReturn => s.posted = []
  | _ => True

/-- The flush of `Stop`, when it finds space: what it puts back carries no callback. -/
theorem At.flushes (hs : s.At (.flushing k)) (hclean : s.CleanStop (.stopFlush action))
    (h : s.Flushes action s') : s'.At (.flushing k) := by
  obtain ⟨hjoined, hemptied, hrange, hfailed⟩ := hs
  refine ⟨?_, ?_, hrange.flushes h, ?_⟩
  · obtain ⟨t, -, rfl⟩ := h.frame
    exact hjoined.of_eq rfl rfl rfl le_rfl
  · cases h with
    | swap hidle hsome => exact fun t ht => absurd ht List.not_mem_nil
    | @putBack batch hflush =>
      intro t ht
      rw [callbacksOf_append, hfailed batch hflush, List.append_nil] at ht
      exact hemptied t ht
    | _ => exact hemptied
  · intro batch hbatch
    cases h with
    | nothing hidle hempty =>
      rw [hidle] at hbatch
      cases hbatch
    | full status hflush hspace => exact absurd hclean hspace
    | writeFails | noPersister =>
      cases hbatch
      exact callbacksOf_clear _
    | _ => cases hbatch

theorem mem_nextCallback {callback : Bool} {t : Nat} (h : t ∈ (s.nextCallback callback).toList) :
    t = s.passed := by
  cases callback with
  | false => exact absurd h List.not_mem_nil
  | true => exact List.mem_singleton.mp h

theorem At.of_syncer (hs : s.At stopping) (hsyncer : s.syncer ≠ .off)
    (hrunning : s'.running = s.running) (hpassed : s'.passed = s.passed)
    (hflusher : s'.flusher = s.flusher) (hflush : s'.flush = s.flush)
    (hrange : s.RangeEnds (s.syncer.inFlight.elim 0 Prod.fst) →
      s'.RangeEnds (s'.syncer.inFlight.elim 0 Prod.fst)) : s'.At stopping := by
  refine hs.of_thread (.inr hsyncer) hrunning hpassed fun hearly => ⟨?_, hrange hearly.range⟩
  rw [hflusher, hflush]
  exact hearly.idle

theorem At.moves (hs : s.At s.stopping) (hsound : s.Sound) (hclean : s.CleanStop e)
    (h : s.Moves e s') : s'.At s'.stopping := by
  cases h with
  | startAgain hrunning => exact hs
  | start hrunning hstopping hflusher hsyncer =>
    have hrange : s.RangeEnds 0 := by
      rw [hstopping] at hs
      have hrange := hs.range
      rwa [hsyncer] at hrange
    show At _ s.stopping
    rw [hstopping]
    refine ⟨fun hne => absurd rfl hne, ?_⟩
    show RangeEnds _ (Option.elim (SyncThread.inFlight (if _ then _ else _)) 0 Prod.fst)
    split <;> exact hrange
  | @push entry callback statvfs text =>
    refine hs.keep rfl rfl rfl rfl rfl ?_ fun t ht => ?_
    · exact (passed_pass s callback).ge.trans' (Nat.le_add_right _ _)
    · have ht : t ∈ callbacksOf (s.buffer ++ [⟨entry, s.nextCallback callback⟩]) := ht
      rw [callbacksOf_append, callbacksOf_singleton] at ht
      exact (List.mem_append.mp ht).imp_right fun ht => (mem_nextCallback ht).ge
  | @drop entry callback statvfs told htold =>
    cases callback with
    | false => exact hs.keep rfl rfl rfl rfl rfl le_rfl fun _ => .inl
    | true => exact hs.keep rfl rfl rfl rfl rfl (Nat.le_succ _) fun _ => .inl
  | runPosted | stopAtOnce => exact hs.keep rfl rfl rfl rfl rfl le_rfl fun _ => .inl
  | flushBegins hflusher hf =>
    obtain ⟨t, -, rfl⟩ := hf.frame
    refine hs.of_thread (.inl (by rw [hflusher]; decide)) rfl rfl fun hearly => ?_
    have hrange := hearly.range.flushes hf
    exact ⟨fun hne => absurd rfl hne, hrange⟩
  | flush hflusher haction hf =>
    obtain ⟨t, -, rfl⟩ := hf.frame
    refine hs.of_thread (.inl (by rw [hflusher]; decide)) rfl rfl fun hearly => ?_
    exact ⟨fun hne => absurd hflusher hne, hearly.range.flushes hf⟩
  | flushTest hflusher hidle =>
    refine hs.of_thread (.inl (by rw [hflusher]; decide)) rfl rfl fun hearly => ?_
    exact ⟨fun _ => hidle, hearly.range⟩
  | wake hsyncer =>
    refine hs.of_syncer (by rw [hsyncer]; exact SyncThread.noConfusion) rfl rfl rfl rfl ?_
    rw [hsyncer]
    show _ → RangeEnds _ (Option.elim (SyncThread.inFlight (if _ then _ else _)) 0 Prod.fst)
    split <;> exact id
  | noRange hsyncer =>
    refine hs.of_syncer (by rw [hsyncer]; exact SyncThread.noConfusion) rfl rfl rfl rfl ?_
    rw [hsyncer]
    exact id
  | acquire hsyncer hcontroller hrange =>
    refine hs.of_syncer (by rw [hsyncer]; exact SyncThread.noConfusion) rfl rfl rfl rfl ?_
    rintro - d ⟨⟩
    exact (acquire_spec hrange).2.2.2.1
  | sync hsyncer | noSync hsyncer =>
    refine hs.of_syncer (by rw [hsyncer]; exact SyncThread.noConfusion) rfl rfl rfl rfl ?_
    rw [hsyncer]
    exact id
  | @report endEpoch status healthy text hsyncer =>
    have hcleared : s.RangeEnds endEpoch → (s.report endEpoch status).RangeEnds 0 := .report status
    obtain ⟨more, posted, heq⟩ := report_eq s endEpoch status
    rw [heq] at hcleared ⊢
    refine hs.of_syncer (by rw [hsyncer]; exact SyncThread.noConfusion) rfl rfl rfl rfl ?_
    rw [hsyncer]
    exact hcleared
  | stop hrunning =>
    have hearly := hs.early hrunning
    exact ⟨⟨hearly.idle, hearly.range⟩, rfl, le_rfl⟩
  | joined hstopping hflusher hsyncer =>
    rw [hstopping] at hs
    obtain ⟨⟨hidle, hrange⟩, hrunning, hbefore⟩ := hs
    rw [hsyncer] at hrange
    exact ⟨⟨hflusher, hsyncer, hrunning, hbefore⟩, hidle (by rw [hflusher]; decide), hrange⟩
  | stopFlushBegins hstopping hf =>
    rw [hstopping] at hs
    obtain ⟨hjoined, hidle, hrange⟩ := hs
    cases hf with
    | nothing _ hempty =>
      refine ⟨hjoined.of_eq rfl rfl rfl le_rfl, fun t ht => ?_, hrange, fun batch hbatch => ?_⟩
      · have ht : t ∈ callbacksOf s.buffer := ht
        rw [hempty] at ht
        exact absurd ht List.not_mem_nil
      · cases hidle.symm.trans hbatch
    | swap =>
      exact ⟨hjoined.of_eq rfl rfl rfl le_rfl, fun t ht => absurd ht List.not_mem_nil, hrange,
        fun batch hbatch => FlushPhase.noConfusion hbatch⟩
  | stopFlush hstopping haction hf =>
    have hnow : s'.stopping = s.stopping := by
      obtain ⟨t, -, rfl⟩ := hf.frame
      rfl
    rw [hstopping] at hs hnow
    rw [hnow]
    exact hs.flushes hclean hf
  | @stopAcquire before c c' first endEpoch hstopping hidle hpersister hcontroller hrange =>
    rw [hstopping] at hs
    obtain ⟨hjoined, hemptied, -, -⟩ := hs
    obtain ⟨hpending, -, -, hend, -, last, hlast, hepoch⟩ := acquire_spec hrange
    have hepochs := hsound.epochs c hcontroller
    refine ⟨hjoined.of_eq rfl rfl rfl le_rfl, hemptied, hidle, ?_⟩
    rintro d ⟨⟩
    refine ⟨hend, hepoch ▸ (hepochs.given last (List.mem_of_getLast? hlast)).1, fun p hp => ?_⟩
    rw [hpending] at hp
    exact hepoch ▸ hepochs.le_last hlast hp
  | stopNoRange hstopping hidle hnone =>
    rw [hstopping] at hs
    obtain ⟨hjoined, hemptied, hrange, -⟩ := hs
    exact ⟨hjoined.of_eq rfl rfl rfl le_rfl, hemptied, hidle, hrange,
      registered_of_no_range (s := s) hsound hrange hnone⟩
  | stopSync hstopping =>
    rw [hstopping] at hs
    obtain ⟨hjoined, hemptied, hidle, hall⟩ := hs
    exact ⟨hjoined.of_eq rfl rfl rfl le_rfl, hemptied, hidle, hall⟩
  | @stopReport before endEpoch status hstopping =>
    rw [hstopping] at hs
    obtain ⟨hjoined, hemptied, hidle, hall⟩ := hs
    have hcleared := RangeEnds.report status fun c hc => (hall c hc).1
    have hnothing := registered_of_report status hall
    obtain ⟨more, posted, heq⟩ := report_eq s endEpoch status
    rw [heq] at hcleared hnothing ⊢
    exact ⟨hjoined.of_eq rfl rfl rfl le_rfl, hemptied, hidle, hcleared, hnothing⟩
  | stopReturn hstopping =>
    rw [hstopping] at hs
    obtain ⟨⟨-, hsyncer, -, -⟩, -, hidle, hrange, -⟩ := hs
    refine ⟨fun _ => hidle, ?_⟩
    rw [show SyncThread.inFlight _ = _ from congrArg _ hsyncer]
    exact hrange

/-! ## §4 — The callbacks when `Stop` has returned. -/

/-- Every callback passed before a `Stop` that has returned has been called exactly once. -/
def CalledOnce (s : LogPersister) : Prop :=
  ∀ k ∈ s.returns, k ≤ s.passed ∧ ∀ t < k, (s.invoked.map Prod.fst).count t = 1

/-- What has been called once stays called once. -/
theorem CalledOnce.keep (hs : s.CalledOnce) (hledger' : s'.Ledger) (h : s.Moves e s')
    (hreturns : s'.returns = s.returns) : s'.CalledOnce := by
  intro k hk
  obtain ⟨hle, honce⟩ := hs k (hreturns ▸ hk)
  obtain ⟨hpassed, hinvoked⟩ := passed_moves h
  refine ⟨by omega, ?_⟩
  intro t ht
  have hmore : (s.invoked.map Prod.fst).count t ≤ (s'.invoked.map Prod.fst).count t :=
    (hinvoked.sublist.map Prod.fst).count_le t
  have hone := hledger' t
  rw [if_pos (by omega)] at hone
  have hless : (s'.invoked.map Prod.fst).count t ≤ s'.placed t := by
    unfold placed
    omega
  have := honce t ht
  omega

/-- When `Stop` returns, the callbacks it counted are in no place but the calls. -/
theorem called_of_done (hledger : s.Ledger) (hs : s.At (.done k)) (hposted : s.posted = []) :
    ∀ t < k, (s.invoked.map Prod.fst).count t = 1 := by
  obtain ⟨hjoined, hemptied, hidle, -, hnone⟩ := hs
  intro t ht
  have hone := hledger t
  rw [if_pos (ht.trans_le hjoined.before)] at hone
  have hbuffer : (callbacksOf s.buffer).count t = 0 := by
    refine List.count_eq_zero_of_not_mem ?_
    intro hmem
    exact absurd ht (not_lt.mpr (hemptied t hmem))
  simp only [placed, hposted, hidle, hnone, hbuffer, FlushPhase.batch, callbacksOf_nil,
    List.map_nil, List.count_nil] at hone
  omega

theorem returns_moves (h : s.Moves e s') :
    s'.returns = s.returns ∨ (e = .stop ∧ s.running = false) ∨
      e = .stopReturn ∧ ∃ k, s.stopping = .done k ∧ s'.returns = k :: s.returns := by
  cases h with
  | @drop entry callback statvfs told htold => cases callback <;> exact .inl rfl
  | flushBegins _ hf | flush _ _ hf | stopFlushBegins _ hf | stopFlush _ _ hf =>
    obtain ⟨t, -, rfl⟩ := hf.frame
    exact .inl rfl
  | report | stopReport =>
    obtain ⟨more, posted, heq⟩ := report_eq s _ _
    rw [heq]
    exact .inl rfl
  | stopAtOnce hrunning => exact .inr (.inl ⟨rfl, hrunning⟩)
  | stopReturn hstopping => exact .inr (.inr ⟨rfl, _, hstopping, rfl⟩)
  | _ => exact .inl rfl

theorem CalledOnce.moves (hs : s.CalledOnce) (hledger : s.Ledger) (hat : s.At s.stopping)
    (hclean : s.CleanStop e) (h : s.Moves e s') : s'.CalledOnce := by
  obtain hsame | ⟨rfl, hrunning⟩ | ⟨rfl, k, hstopping, hreturns⟩ := returns_moves h
  · exact hs.keep (hledger.step h) h hsame
  · exact absurd (hrunning.symm.trans hclean) Bool.false_ne_true
  · cases h with
    | stopReturn hstopping' =>
      obtain rfl := StopCall.done.inj (hstopping.symm.trans hstopping')
      rw [hstopping] at hat
      intro k' hk'
      rcases List.mem_cons.mp hk' with rfl | hk'
      · exact ⟨hat.1.before, called_of_done (s := s) hledger hat hclean⟩
      · exact hs k' hk'

/-- Everything above, together: it holds in every state of a run. -/
structure Accounted (s : LogPersister) : Prop where
  ledger : s.Ledger
  sound : s.Sound
  stop : s.At s.stopping
  once : s.CalledOnce

theorem accounted_create (config : LogPersistenceConfig) (persister : Bool) :
    (create config persister).Accounted := by
  have hcontroller : ∀ c, (create config persister).controller = some c → c = {} := by
    intro c hc
    simp only [create] at hc
    split at hc <;> cases hc
    rfl
  refine ⟨?_, ?_, ?_, ?_⟩
  · intro t
    have hregistered : (create config persister).registered = [] := by
      unfold registered
      split
      · rfl
      rename_i c hc
      rw [hcontroller c hc]
      rfl
    unfold placed
    rw [hregistered]
    simp [create, callbacksOf, FlushPhase.batch]
  · refine ⟨?_, ?_, ?_, ?_, ?_, ?_⟩
    · exact fun t ht => absurd ht List.not_mem_nil
    · exact fun b hb => FlushPhase.noConfusion hb
    · intro c hc p hp
      rw [hcontroller c hc] at hp
      exact absurd hp List.not_mem_nil
    · intro c hc
      rw [hcontroller c hc]
      exact ⟨fun p hp => absurd hp List.not_mem_nil, .nil, Nat.zero_lt_one, fun _ => rfl⟩
    · rintro c hc endEpoch status (h | h) <;> cases h
    · intro _ c hc
      rw [hcontroller c hc]
  · refine ⟨fun _ => rfl, fun c hc => ?_⟩
    rw [hcontroller c hc]
    rfl
  · exact fun k hk => absurd hk List.not_mem_nil

theorem Accounted.step (hs : s.Accounted) (hclean : s.CleanStop e)
    (hn : s.next e = some s') : s'.Accounted := by
  have h := moves_of_next hn
  exact ⟨hs.ledger.step h, hs.sound.moves h, hs.stop.moves hs.sound hclean h,
    hs.once.moves hs.ledger hs.stop hclean h⟩

/-- In every run whose calls of `Stop` are clean, each callback passed before a `Stop` that has
returned was called exactly once, and `OK` was only told for an entry written by a successful write
that a successful sync followed. -/
theorem callbacks_called_once_with_durable_ok (h : system.ReachableWith CleanStop s) :
    (∀ k ∈ s.returns, ∀ t < k, (s.invoked.map Prod.fst).count t = 1) ∧
      ∀ t, (t, .ok) ∈ s.invoked → Durable s.calls t := by
  have hs : s.Accounted := by
    refine h.invariant ?_ ?_
    · rintro s ⟨config, persister, rfl⟩
      exact accounted_create config persister
    · intro s e s' hs hclean hn
      exact hs.step hclean hn
  refine ⟨fun k hk => (hs.once k hk).2, ?_⟩
  intro t ht
  exact hs.sound.told t (List.mem_append_left _ ht)

/-- A run with one callback and a clean `Stop`. -/
def oneCallback : List Event :=
  [.start, .append ⟨1, 1, [1], [], 0⟩ true none, .stop, .flushTest, .stopJoined, .stopFlush .swap,
    .stopFlush (.checkSpace (some 100)), .stopFlush (.write .ok), .stopFlush (.complete .ok),
    .stopFlush .finish, .stopAcquire, .stopReturn]

/-- The same run when the last flush finds the disk full. -/
def diskFullAtStop : List Event :=
  [.start, .append ⟨1, 1, [1], [], 0⟩ true none, .stop, .flushTest, .stopJoined, .stopFlush .swap,
    .stopFlush (.checkSpace (some 50)), .stopFlush .putBack, .stopAcquire, .stopReturn]

instance (s : LogPersister) (e : Event) : Decidable (s.CleanStop e) := by
  unfold CleanStop
  split <;> infer_instance

theorem callbacks_called_once_with_durable_ok_oneCallback :
    ∃ s, system.ReachableWith CleanStop s ∧ s.returns = [1] ∧ s.invoked = [(0, .ok)] ∧
      ((∀ k ∈ s.returns, ∀ t < k, (s.invoked.map Prod.fst).count t = 1) ∧
        ∀ t, (t, .ok) ∈ s.invoked → Durable s.calls t) := by
  obtain ⟨s, hreach, hreturns, hinvoked⟩ := system.reachesWith CleanStop oneCallback init_small
    (P := fun s => s.returns = [1] ∧ s.invoked = [(0, .ok)]) (by decide +kernel)
  exact ⟨s, hreach, hreturns, hinvoked, callbacks_called_once_with_durable_ok hreach⟩

/-- `Stop` has returned and the callback passed before it was never called: it is back in the buffer. -/
theorem callback_lost_when_disk_full_at_stop :
    ∃ s, system.Reachable s ∧ 1 ∈ s.returns ∧ (s.invoked.map Prod.fst).count 0 = 0 ∧
      callbacksOf s.buffer = [0] := by
  exact system.reaches diskFullAtStop init_small (by decide +kernel)

/-- **No callback is lost or called twice**, in every run, however the disk, `Stop` and the executor
behave: each one passed so far is in exactly one place, and one that was told `OK`, or will be, is
durable. -/
theorem callback_in_one_place (h : system.Reachable s) (t : Nat) :
    s.placed t = (if t < s.passed then 1 else 0) ∧
      ((t, .ok) ∈ s.invoked ++ s.posted → Durable s.calls t) := by
  have hs : s.Ledger ∧ s.Sound := by
    refine TransitionSystem.ReachableWith.invariant (?_ : ∀ s, _ → s.Ledger ∧ s.Sound) ?_ h
    · rintro s ⟨config, persister, rfl⟩
      exact ⟨(accounted_create config persister).ledger, (accounted_create config persister).sound⟩
    · intro s e s' hs _ hn
      have hmoves := moves_of_next hn
      exact ⟨hs.1.step hmoves, hs.2.moves hmoves⟩
  exact ⟨hs.1 t, hs.2.told t⟩

/-- The callback that a full disk leaves in the buffer. -/
theorem callback_in_one_place_disk_full :
    ∃ s, system.Reachable s ∧ 1 ∈ s.returns ∧ s.placed 0 = 1 := by
  obtain ⟨s, hreach, hreturns, hpassed⟩ := system.reaches diskFullAtStop init_small
    (P := fun s => 1 ∈ s.returns ∧ s.passed = 1) (by decide +kernel)
  refine ⟨s, hreach, hreturns, (callback_in_one_place hreach 0).1.trans ?_⟩
  rw [hpassed]
  rfl

end LogPersister

end RollingRaft
