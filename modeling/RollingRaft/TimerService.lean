/-
# RollingRaft.TimerService — one interval timer against `CancelTimer`.

`SetInterval` arms a wait whose handler runs the callback and arms the next wait, on the strand of the
service: a queue of handlers that run one at a time. `CancelTimer` erases the timer from `timers_` and
posts a cancel step to that strand. The handler looks at the error code of its own completion and not
at `timers_`, and a cancel has no effect on a completion that is already queued: a timer that expires
between the call and its cancel step outlives both.

The timer is followed while the service runs (`running_` holds). A callback holds the strand from its
start to its end; `CancelTimer` may be called in between, by the callback or by another thread. The
handlers of other timers only delay those of this one.
-/
import RollingRaft.Lib.Transition

namespace RollingRaft.TimerService

/-- What waits on the strand: a wait that completed, with success or with `operation_aborted`, or the
cancel step of a `CancelTimer`. -/
inductive Handler
  | expired
  | aborted
  | cancel
  deriving DecidableEq

structure IntervalTimer where
  /-- `timers_` holds the timer's id. -/
  active : Bool
  /-- An `async_wait` is outstanding. -/
  armed : Bool
  strand : List Handler
  /-- The handler is inside `timer->callback()`. -/
  inCallback : Bool
  /-- How often the callback was started. -/
  started : Nat
  /-- The cancel step of a `CancelTimer` that returned true has run. -/
  cancelled : Bool
  deriving DecidableEq

inductive Event
  /-- The wait completes: its handler is queued. -/
  | expire
  | cancelTimer
  /-- The strand runs its next handler, up to the callback if it has one. -/
  | run
  /-- The callback returns or throws, and the next wait is armed. -/
  | finish
  deriving DecidableEq

def setInterval : IntervalTimer := ⟨true, true, [], false, 0, false⟩

/-- `CancelTimer`: what it returns, and the timer after it. -/
def cancelTimer (t : IntervalTimer) : Bool × IntervalTimer :=
  if t.active then (true, { t with active := false, strand := t.strand ++ [.cancel] })
  else (false, t)

def runHandler (t : IntervalTimer) : Handler → IntervalTimer
  | .expired => { t with inCallback := true, started := t.started + 1 }
  | .aborted => { t with active := false }
  -- `asio_timer->cancel()` completes an outstanding wait with `operation_aborted`
  | .cancel =>
    { t with
      armed := false, cancelled := true
      strand := if t.armed then t.strand ++ [.aborted] else t.strand }

def next (t : IntervalTimer) : Event → Option IntervalTimer
  | .expire => if t.armed then some { t with armed := false, strand := t.strand ++ [.expired] } else none
  | .cancelTimer => some (cancelTimer t).2
  | .run =>
    match t.inCallback, t.strand with
    | false, h :: rest => some (runHandler { t with strand := rest } h)
    | _, _ => none
  | .finish => if t.inCallback then some { t with inCallback := false, armed := true } else none

def system : Lib.TransitionSystem IntervalTimer Event where
  init t := t = setInterval
  next := next

/-- When the strand runs the cancel step, no expiry of the timer is queued behind it. -/
def CancelsInTime (t : IntervalTimer) : Event → Prop
  | .run => t.strand.head? = some .cancel → .expired ∉ t.strand
  | _ => True

instance (t : IntervalTimer) (ev : Event) : Decidable (CancelsInTime t ev) := by
  unfold CancelsInTime; split <;> infer_instance

/-- Nothing is left that could start the callback. -/
structure Quiet (t : IntervalTimer) : Prop where
  armed : t.armed = false
  strand : .expired ∉ t.strand
  inCallback : t.inCallback = false

variable {t t' : IntervalTimer}

theorem next_run (h : next t .run = some t') :
    ∃ first rest, t.inCallback = false ∧ t.strand = first :: rest ∧
      runHandler { t with strand := rest } first = t' := by
  simp only [next] at h
  split at h
  · rename_i first rest hcall hstrand
    exact ⟨first, rest, hcall, hstrand, by simpa using h⟩
  · cases h

theorem Quiet.next {ev : Event} (h : Quiet t) (hn : next t ev = some t') :
    Quiet t' ∧ t'.started = t.started := by
  obtain ⟨harmed, hstrand, hcall⟩ := h
  cases ev with
  | expire => simp [TimerService.next, harmed] at hn
  | finish => simp [TimerService.next, hcall] at hn
  | cancelTimer =>
    obtain rfl : (cancelTimer t).2 = t' := by simpa [TimerService.next] using hn
    unfold cancelTimer
    split
    · exact ⟨⟨harmed, by simpa using hstrand, hcall⟩, rfl⟩
    · exact ⟨⟨harmed, hstrand, hcall⟩, rfl⟩
  | run =>
    obtain ⟨first, rest, -, hs, rfl⟩ := next_run hn
    rw [hs, List.mem_cons, not_or] at hstrand
    cases first with
    | expired => exact absurd rfl hstrand.1
    | aborted => exact ⟨⟨harmed, hstrand.2, hcall⟩, rfl⟩
    | cancel => exact ⟨⟨rfl, by simpa [runHandler, harmed] using hstrand.2, hcall⟩, rfl⟩

/-- A cancel step that runs in time leaves the timer quiet: the strand runs no callback beside it,
and it aborts an outstanding wait. -/
theorem quiet_of_cancel (hok : CancelsInTime t .run) (hn : next t .run = some t')
    (hbefore : ¬t.cancelled) (hc : t'.cancelled) : Quiet t' := by
  obtain ⟨first, rest, hcall, hs, rfl⟩ := next_run hn
  cases first with
  | expired => exact absurd hc hbefore
  | aborted => exact absurd hc hbefore
  | cancel =>
    have hnone : Handler.expired ∉ rest := by simpa [CancelsInTime, hs] using hok
    refine ⟨rfl, ?_, hcall⟩
    show Handler.expired ∉ if t.armed then rest ++ [.aborted] else rest
    split <;> simpa using hnone

theorem quiet_of_cancelled (h : system.ReachableWith CancelsInTime t) : t.cancelled → Quiet t := by
  induction h with
  | init h0 =>
    subst h0
    exact fun hc => nomatch hc
  | @step t t' ev _ hok hn ih =>
    intro hc
    by_cases hbefore : t.cancelled
    · exact ((ih hbefore).next hn).1
    -- only a handler of the strand sets the flag
    cases ev with
    | run => exact quiet_of_cancel hok hn hbefore hc
    | cancelTimer =>
      obtain rfl : (cancelTimer t).2 = t' := by simpa [system, next] using hn
      unfold cancelTimer at hc
      split at hc <;> exact absurd hc hbefore
    | expire | finish =>
      obtain ⟨-, rfl⟩ : _ ∧ _ = t' := by simpa [system, next] using hn
      exact absurd hc hbefore

/-- **A timer that is cancelled in time is silent.** In every run whose cancel step finds no expiry
queued behind it, the callback is never started again once that step has run. -/
theorem interval_silent_after_cancel (h : system.ReachableWith CancelsInTime t)
    (hc : t.cancelled) (hl : system.Later CancelsInTime t t') : t'.started = t.started := by
  refine (hl.stable (P := fun t' => Quiet t' ∧ t'.started = t.started) ?_
    ⟨quiet_of_cancelled h hc, rfl⟩).2
  rintro s ev s' ⟨hquiet, hsame⟩ - hn
  obtain ⟨hquiet', hkept⟩ := hquiet.next hn
  exact ⟨hquiet', hkept.trans hsame⟩

/-- The timer expires once, its callback runs, and it is cancelled while the next wait is
outstanding. The cancel step aborts that wait. -/
theorem interval_silent_after_second : ∃ t, system.ReachableWith CancelsInTime t ∧ t.cancelled ∧
    t.started = 1 ∧ ∀ t', system.Later CancelsInTime t t' → t'.started = 1 := by
  obtain ⟨t, hreach, hc, hone⟩ := system.reachesWith CancelsInTime
    (P := fun t => t.cancelled ∧ t.started = 1)
    [.expire, .run, .finish, .cancelTimer, .run] rfl (by decide)
  exact ⟨t, hreach, hc, hone, fun t' hl => (interval_silent_after_cancel hreach hc hl).trans hone⟩

/-- The timer expires after `CancelTimer` has returned true and before its cancel step: that step
finds the completion queued, and the callback starts after it and arms the next wait. -/
theorem cancelled_timer_restarts : (cancelTimer setInterval).1 = true ∧
    ∃ t t', system.Reachable t ∧ t.cancelled ∧ system.Later (fun _ _ => True) t t' ∧
      t.started < t'.started ∧ t'.armed := by
  refine ⟨rfl, ⟨false, false, [.expired], false, 0, true⟩, ⟨false, true, [], false, 1, true⟩, ?_, rfl,
    ?_, by decide, rfl⟩
  · obtain ⟨t, h, rfl⟩ := system.reaches (P := (· = ⟨false, false, [.expired], false, 0, true⟩))
      [.cancelTimer, .expire, .run] rfl (by decide)
    exact h
  · exact .step (e := .finish) (.step (e := .run) (.refl _) trivial rfl) trivial rfl

end RollingRaft.TimerService
