/-
# RollingRaft.Steps — the steps of a process, from its sections.

`Process.Step` inverts `Process.next`, and `GroupStep` says what a step does to the group: a crash, a
restart, a call that goes on, or one of the election moves. How calls go on is a parameter
(`StepBy`), of which these need only that the election state is left alone. A section that holds `election_mtx_` and
waits for the other lock keeps role and term fixed until it resumes (`Process.WaitingSound`), since
no section that could change them gets the lock.
-/
import RollingRaft.Sections

namespace RollingRaft

open Lib

variable {m : Vouched}

namespace Process

variable {p p' : Process} {ev : Event} {env : Env}

/-! ## §1 — Inversion of `next`. -/

/-- The steps of a process whose calls go on by `run`. -/
inductive StepBy (run : RaftGroup → CallInput → Call → Option SectionEnd) (p : Process)
    (env : Env) : Event → Process → Prop
  | restart {recovered : Recovered} (down : p.group.halt.isSome) :
      StepBy run p env (.restart recovered)
        { group := (p.entered env).start recovered, nextCall := p.nextCall + 1 }
  | crash : StepBy run p env .crash { p with group := { p.group with halt := some .down } }
  | resume {w : Waiting} (up : p.group.halt = none) (hw : p.waiting = some w)
      (free : p.canTake .r) :
      StepBy run p env .resume (({ p with waiting := none }).absorb ((p.entered env).runWaiting w))
  | run {i : Nat} {input : CallInput} {c : Call} {o : SectionEnd} (up : p.group.halt = none)
      (hc : p.calls[i]? = some c) (free : p.canTake c.needs)
      (ho : run (p.entered env) input c = some o) :
      StepBy run p env (.run i input) (({ p with calls := p.calls.eraseIdx i }).absorb o)
  | event {ev : Event} {o : SectionEnd} (up : p.group.halt = none) (free : p.canTake ev.needs)
      (ho : (p.entered env).onEvent p.nextCall ev = some o) :
      StepBy run p env ev (p.absorb o)

abbrev Step (p : Process) (env : Env) : Event → Process → Prop := StepBy RaftGroup.runCall p env

/-- Calls that go on by `run` leave the election state alone and wait for no lock. -/
def Framed (run : RaftGroup → CallInput → Call → Option SectionEnd) : Prop :=
  ∀ ⦃g input c o⦄, run g input c = some o → ElectionFrame g o.group ∧ o.waiting = none

theorem runCall_framed : Framed RaftGroup.runCall := fun _ _ _ _ h =>
  ⟨(RaftGroup.runCall_frame h).1, (RaftGroup.runCall_frame h).2.1⟩

theorem step_of_next (h : p.next (ev, env) = some p') : p.Step env ev p' := by
  have hevent : (if p.group.halt.isNone && p.canTake ev.needs then
      ((p.entered env).onEvent p.nextCall ev).map p.absorb else none) = some p' →
      p.Step env ev p' := by
    intro h
    split at h
    · rename_i hfree
      obtain ⟨hup, hfree⟩ := Bool.and_eq_true_iff.mp hfree
      obtain ⟨o, ho, rfl⟩ := Option.map_eq_some_iff.mp h
      exact .event (Option.isNone_iff_eq_none.mp hup) hfree ho
    · cases h
  cases ev with
  | restart recovered =>
    simp only [next] at h
    split at h
    · cases h; exact .restart ‹_›
    · cases h
  | crash => cases h; exact .crash
  | resume =>
    simp only [next] at h
    split at h
    · split at h
      · rename_i w hw hfree
        obtain ⟨hup, hfree⟩ := Bool.and_eq_true_iff.mp hfree
        cases h
        exact .resume (Option.isNone_iff_eq_none.mp hup) hw hfree
      · cases h
    · cases h
  | run i input =>
    simp only [next] at h
    split at h
    · split at h
      · rename_i c hc hfree
        obtain ⟨hup, hfree⟩ := Bool.and_eq_true_iff.mp hfree
        obtain ⟨o, ho, rfl⟩ := Option.map_eq_some_iff.mp h
        exact .run (Option.isNone_iff_eq_none.mp hup) hc hfree ho
      · cases h
    · cases h
  | _ => exact hevent h

/-! ## §2 — Waiting sections. -/

/-- A section that waits for `replication_mtx_` still has the role and term it took. -/
def WaitingSound (m : Vouched) (p : Process) : Prop :=
  ∀ w, p.waiting = some w → w.Sound m p.group.el

theorem Waiting.sound_of_frame {w : Waiting} {g g' : RaftGroup} (h : ElectionFrame g g')
    (hw : w.Sound m g.el) : w.Sound m g'.el := by
  cases w with
  | lead => exact h.role.trans hw
  | stepDown persistState rest =>
    refine ⟨h.role.trans hw.1, ?_⟩
    rw [h.currentTerm]
    exact hw.2

end Process

/-- What a section newly waits for is sound. -/
theorem ElectionMove.waiting_sound {g g' : RaftGroup} {o : Option Waiting} {w : Waiting}
    (h : ElectionMove m g g' o) (hw : o = some w) : w.Sound m g'.el := by
  cases h with
  | stepDown h hterm hrest => cases hw; exact ⟨rfl, hrest⟩
  | elected hrole granted hquorum => cases hw; exact rfl
  | candidacy h hkeeps hrole hm =>
    unfold RaftGroup.becomeCandidate at hw ⊢
    dsimp only at hw ⊢
    split at hw
    · cases hw
    rw [if_neg ‹_›]
    split at hw
    · rw [if_pos ‹_›]; cases hw; exact rfl
    · cases hw
  | _ => cases hw

namespace Process

variable {run : RaftGroup → CallInput → Call → Option SectionEnd} {p p' : Process} {ev : Event}
  {env : Env}

theorem entered_guarded (p : Process) (env : Env) : GuardedFrame p.group (p.entered env) :=
  .of_eq rfl rfl

/-- While a section waits, only sections that leave the election state alone run. -/
theorem waiting_none_of_canTake {l : Locks} (free : p.canTake l) (hl : l.election = true) :
    p.waiting = none := by
  simp_all [canTake]

theorem event_move {o : SectionEnd} (hm : ev.VouchedBy m)
    (ho : (p.entered env).onEvent p.nextCall ev = some o) :
    ElectionMove m (p.entered env) o.group o.waiting :=
  RaftGroup.onEvent_move hm ho

theorem WaitingSound.step (hrun : Framed run) (hs : p.WaitingSound m) (hm : ev.VouchedBy m)
    (h : p.StepBy run env ev p') : p'.WaitingSound m := by
  intro w hw
  cases h with
  | restart down => cases hw
  | crash => exact hs w hw
  | resume up hw' free =>
    have hmove := RaftGroup.runWaiting_move (g := p.entered env) (hs _ hw') hm
    refine hmove.waiting_sound ?_
    simpa [absorb] using hw
  | run up hc free ho =>
    obtain ⟨hframe, hnone⟩ := hrun ho
    have hw : p.waiting = some w := by simpa [absorb, hnone] using hw
    exact Waiting.sound_of_frame hframe (hs w hw)
  | event up free ho =>
    by_cases hwait : p.waiting = none
    · refine (event_move hm ho).waiting_sound ?_
      simpa [absorb, hwait] using hw
    have hfree : ev.needs.election = false := by
      by_contra hl
      exact hwait (waiting_none_of_canTake free (by simpa using hl))
    obtain ⟨hframe, hnone⟩ := RaftGroup.onEvent_guarded hfree ho
    have hw : p.waiting = some w := by simpa [absorb, hnone] using hw
    exact Waiting.sound_of_frame hframe.toElectionFrame (hs w hw)

end Process

/-! ## §3 — What a step does to the group. -/

inductive GroupStep (m : Vouched) (g : RaftGroup) : RaftGroup → Prop
  | crash : GroupStep m g { g with halt := some .down }
  | restart {recovered : Recovered} {env : Env} (down : g.halt.isSome) :
      GroupStep m g (({ g with env := env }).start recovered)
  /-- A call goes on; it may be one that appends an entry without looking at the role. -/
  | call {g' : RaftGroup} (up : g.halt = none) (h : ElectionFrame g g') : GroupStep m g g'
  | move {g' : RaftGroup} {env : Env} {w : Option Waiting} (up : g.halt = none)
      (h : ElectionMove m { g with env := env } g' w) : GroupStep m g g'

theorem Process.StepBy.groupStep {run : RaftGroup → CallInput → Call → Option SectionEnd}
    {p p' : Process} {ev : Event} {env : Env} (h : p.StepBy run env ev p') (hrun : Framed run)
    (hs : p.WaitingSound m) (hm : ev.VouchedBy m) : GroupStep m p.group p'.group := by
  cases h with
  | restart down => exact .restart down
  | crash => exact .crash
  | resume up hw free =>
    exact .move up (RaftGroup.runWaiting_move (g := p.entered env) (hs _ hw) hm)
  | run up hc free ho =>
    exact .call up ((p.entered_guarded env).toElectionFrame.trans (hrun ho).1)
  | event up free ho => exact .move up (Process.event_move hm ho)

/-! ## §4 — Any messages. -/

def anyMessages : Vouched where
  asked _ _ := True
  granted _ _ := True
  carried _ := True
  preVoteTimesOut := True
  resigns := True
  stands := True

/-- The event can begin a candidacy: an election timeout, or a pre-vote that is granted. -/
def Event.canStand : Event → Bool
  | .electionTick => true
  | .response _ (.preVote _) (.vote resp) => resp.voteGranted
  | _ => false

theorem vouchedBy_of {ev : Event} {asked : ReplyTo → Request → Prop}
    {granted : NodeId → Term → Prop} {stands : Prop}
    (hasked : ∀ reply req, ev = .request reply req → asked reply req)
    (hgranted : ∀ peer t resp, ev = .response peer (.vote t) (.vote resp) →
      resp.voteGranted = true → granted peer t)
    (hstands : ev.canStand = true → stands) :
    ev.VouchedBy { anyMessages with asked := asked, granted := granted, stands := stands } := by
  cases ev with
  | request reply req =>
    cases req with
    | preVote req => exact hasked _ _ rfl
    | _ => exact ⟨hasked _ _ rfl, trivial⟩
  | response peer callback resp =>
    refine ⟨trivial, ?_⟩
    rintro t r rfl hvote
    refine ⟨?_, ?_⟩ <;> rintro rfl
    · exact hgranted peer t r rfl hvote
    · exact hstands hvote
  | persisted index ok => cases ok <;> trivial
  | electionTick => exact hstands rfl
  | _ => trivial

theorem vouchedBy_of_canStand {ev : Event} {s : Prop} (h : ev.canStand = true → s) :
    ev.VouchedBy { anyMessages with stands := s } :=
  vouchedBy_of (fun _ _ _ => trivial) (fun _ _ _ _ _ => trivial) h

theorem vouchedBy_any (ev : Event) : ev.VouchedBy anyMessages :=
  vouchedBy_of_canStand fun _ => trivial

theorem Process.waitingSound_of_reachable {opts : Options} {p : Process}
    (h : (Process.system opts).Reachable p) : p.WaitingSound anyMessages := by
  refine h.invariant ?_ ?_
  · rintro p rfl w hw
    cases hw
  · rintro p ⟨ev, env⟩ p' hinv - hn
    exact hinv.step runCall_framed (vouchedBy_any ev) (step_of_next hn)

end RollingRaft
