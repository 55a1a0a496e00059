/-
# RollingRaft.SyncAppend — calls that wait for a persistence callback with the Raft locks.

`AppendSync` waits until the callback of its entry is called. Its callers keep locks meanwhile: the
membership calls `election_mtx_` and `replication_mtx_`, a client's write `replication_mtx_`. One
thread calls the callbacks in the order of the appends, and `OnLogEntryPersisted`, the callback of
`Propose`, `ProposeBatch` and a leader's FINALIZE, takes both locks. So the callback of an earlier
proposal can keep the thread from the one that the caller waits for.

Appends and syncs never fail here. The bound of the wait is left out: a call that is stuck returns
`AppendSync timeout` when it is over.
-/
import RollingRaft.Lib.Transition

namespace RollingRaft

open Lib

/-- The callers of `AppendSync`. -/
inductive SyncCall where
  | clientWrite | addNode | removeNode | addLearner | promoteLearner
  deriving DecidableEq

/-- `HandleClientRequest` gives `election_mtx_` back before `ProposeAndWaitLocked`. -/
def SyncCall.holdsElection : SyncCall → Bool
  | .clientWrite => false
  | _ => true

/-- The callback of an appended entry: of `Propose`, `ProposeBatch` and the FINALIZE that a leader
proposes by itself, or of `AppendSync`. -/
inductive FlushCallback where
  | onLogEntryPersisted | setPromise
  deriving DecidableEq

/-- Where the thread is that calls the callbacks. -/
inductive Delivery where
  | idle
  /-- In `OnLogEntryPersisted`, before `election_mtx_` or, with it, before `replication_mtx_`. -/
  | atElection | atReplication
  | atPromise
  deriving DecidableEq

/-- The callbacks to come, and the call that waits in `AppendSync` with whether it has been told `OK`.
It has `replication_mtx_`, so there is at most one. -/
structure Appends where
  callbacks : List FlushCallback := []
  delivery : Delivery := .idle
  waiting : Option (SyncCall × Bool) := none
  deriving DecidableEq

namespace Appends

/-- Nobody has `election_mtx_` for longer than a section that waits for nothing. -/
def electionFree (s : Appends) : Bool :=
  s.delivery ≠ .atReplication && !s.waiting.any (·.1.holdsElection)

def replicationFree (s : Appends) : Bool := s.waiting.isNone

inductive Event where
  /-- `Propose`, a FINALIZE, or `ProposeBatch` of `n` commands. -/
  | propose (n : Nat)
  | appendSync (call : SyncCall)
  | take
  | lockElection
  /-- `flushed_index_` and `TryCommitLocked`; both locks are given back. -/
  | lockReplication
  | setPromise
  /-- `AppendSync` returns `OK`, and its caller gives its locks back. -/
  | returned
  deriving DecidableEq

def next (s : Appends) : Event → Option Appends
  | .propose n =>
    if s.electionFree ∧ s.replicationFree then
      some { s with callbacks := s.callbacks ++ List.replicate n .onLogEntryPersisted }
    else none
  | .appendSync call =>
    if s.electionFree ∧ s.replicationFree then
      some { s with callbacks := s.callbacks ++ [.setPromise], waiting := some (call, false) }
    else none
  | .take =>
    match s.delivery, s.callbacks with
    | .idle, .onLogEntryPersisted :: rest => some { s with callbacks := rest, delivery := .atElection }
    | .idle, .setPromise :: rest => some { s with callbacks := rest, delivery := .atPromise }
    | _, _ => none
  | .lockElection =>
    if s.delivery = .atElection ∧ s.electionFree then some { s with delivery := .atReplication } else none
  | .lockReplication =>
    if s.delivery = .atReplication ∧ s.replicationFree then some { s with delivery := .idle } else none
  | .setPromise =>
    if s.delivery = .atPromise then
      some { s with delivery := .idle, waiting := s.waiting.map fun w => (w.1, true) }
    else none
  | .returned =>
    match s.waiting with
    | some (_, true) => some { s with waiting := none }
    | _ => none

def system : TransitionSystem Appends Event where
  init s := s = {}
  next := next

/-- A synchronous append begins when no callback of an asynchronous proposal is to come or running. -/
def Clear (s : Appends) (e : Event) : Prop :=
  ∀ call, e = .appendSync call → .onLogEntryPersisted ∉ s.callbacks ∧ s.delivery = .idle

/-- A call that waits is alone with its callback. -/
structure Alone (s : Appends) : Prop where
  untold : ∀ call, s.waiting = some (call, false) →
    s.callbacks = [.setPromise] ∧ s.delivery = .idle ∨ s.callbacks = [] ∧ s.delivery = .atPromise
  told : ∀ call, s.waiting = some (call, true) → s.callbacks = [] ∧ s.delivery = .idle
  none : s.waiting = none → .setPromise ∉ s.callbacks ∧ s.delivery ≠ .atPromise

theorem Alone.step {s s' : Appends} {e : Event} (h : s.Alone) (hclear : s.Clear e)
    (hn : s.next e = some s') : s'.Alone := by
  obtain ⟨huntold, htold, hnone⟩ := h
  cases e with
  | propose n =>
    obtain ⟨⟨-, hfree⟩, ⟨⟩⟩ := Option.ite_none_right_eq_some.mp hn
    have hw : s.waiting = .none := by simpa [replicationFree] using hfree
    obtain ⟨hpromise, hat⟩ := hnone hw
    refine ⟨fun _ h => (by cases hw.symm.trans h), fun _ h => (by cases hw.symm.trans h),
      fun _ => ⟨fun hmem => ?_, hat⟩⟩
    rcases List.mem_append.mp hmem with hmem | hmem
    · exact hpromise hmem
    · cases (List.mem_replicate.mp hmem).2
  | appendSync call =>
    obtain ⟨⟨-, hfree⟩, ⟨⟩⟩ := Option.ite_none_right_eq_some.mp hn
    have hw : s.waiting = .none := by simpa [replicationFree] using hfree
    obtain ⟨hclear, hidle⟩ := hclear call rfl
    -- no callback of either kind is left
    have hempty : s.callbacks = [] := by
      refine List.eq_nil_iff_forall_not_mem.mpr fun cb hcb => ?_
      cases cb with
      | onLogEntryPersisted => exact hclear hcb
      | setPromise => exact (hnone hw).1 hcb
    exact ⟨fun _ _ => .inl ⟨by rw [hempty]; rfl, hidle⟩, nofun, nofun⟩
  | take =>
    simp only [next] at hn
    split at hn
    · rename_i rest hidle hcb
      cases hn
      -- the callbacks begin with one of a proposal, so nobody waits
      refine ⟨fun call h => ?_, fun call h => ?_, fun h => ⟨fun hmem => ?_, nofun⟩⟩
      · rcases huntold call h with ⟨hone, -⟩ | ⟨hone, -⟩ <;> cases hcb.symm.trans hone
      · cases hcb.symm.trans (htold call h).1
      · exact (hnone h).1 (hcb ▸ List.mem_cons_of_mem _ hmem)
    · rename_i rest hidle hcb
      cases hn
      refine ⟨fun call h => ?_, fun call h => ?_, fun h => ?_⟩
      · rcases huntold call h with ⟨hone, -⟩ | ⟨hone, -⟩
        · cases hcb.symm.trans hone
          exact .inr ⟨rfl, rfl⟩
        · cases hcb.symm.trans hone
      · cases hcb.symm.trans (htold call h).1
      · exact absurd (hcb ▸ List.mem_cons_self) (hnone h).1
    · cases hn
  | lockElection | lockReplication =>
    obtain ⟨⟨hat, -⟩, ⟨⟩⟩ := Option.ite_none_right_eq_some.mp hn
    -- the thread is in `OnLogEntryPersisted`, so nobody waits
    refine ⟨fun call h => ?_, fun call h => ?_, fun h => ⟨(hnone h).1, nofun⟩⟩
    · rcases huntold call h with ⟨-, hidle⟩ | ⟨-, hidle⟩ <;> cases hat.symm.trans hidle
    · cases hat.symm.trans (htold call h).2
  | setPromise =>
    obtain ⟨hat, ⟨⟩⟩ := Option.ite_none_right_eq_some.mp hn
    refine ⟨fun call h => ?_, fun call h => ?_, fun h => ?_⟩
    · obtain ⟨w, -, hw⟩ := Option.map_eq_some_iff.mp h
      cases hw
    · obtain ⟨⟨call, told⟩, hw, -⟩ := Option.map_eq_some_iff.mp h
      cases told with
      | false =>
        rcases huntold call hw with ⟨-, hidle⟩ | ⟨hempty, -⟩
        · cases hat.symm.trans hidle
        · exact ⟨hempty, rfl⟩
      | true => cases hat.symm.trans (htold call hw).2
    · exact absurd hat (hnone (Option.map_eq_none_iff.mp h)).2
  | returned =>
    simp only [next] at hn
    split at hn <;> cases hn
    obtain ⟨hempty, hidle⟩ := htold _ ‹_›
    refine ⟨nofun, nofun, fun _ => ⟨?_, ?_⟩⟩
    · rw [hempty]
      exact List.not_mem_nil
    · rw [hidle]
      decide

end Appends

end RollingRaft
