/-
# RollingRaft.Storage.AppendOrder — in which order the entries reach the persister.

The buffer is a queue as long as flushes succeed: the written entries, the batch in flight and the
buffer are the accepted entries, in order (`Queued`). A flush that fails puts its batch *behind*
what `Append` has pushed since the batch was taken, and the order is lost: an entry of a later
`Append` is written first, and the older one for the same index overwrites it.

Only what reaches the buffer counts as appended: an `Append` refused while the persister is
unhealthy reports its error and hands over nothing.
-/
import RollingRaft.Storage.LogPersister

namespace RollingRaft

open Lib

/-! ## §1 — The queue. -/

def entriesOf (batch : List PendingEntry) : List RaftLogEntry := batch.map (·.entry)

@[simp] theorem entriesOf_nil : entriesOf [] = [] := rfl

@[simp] theorem entriesOf_clear (batch : List PendingEntry) :
    entriesOf (batch.map fun p => { p with callback := none }) = entriesOf batch := by
  simp [entriesOf]

/-- The batch of the running flush that has not been written. -/
def FlushPhase.unwritten : FlushPhase → List PendingEntry
  | .swapped batch | .checked batch | .failed batch => batch
  | .idle | .wrote _ | .finishing => []

/-- The entries a call has written: all of its batch, or none known of. -/
def PersisterCall.wrote : PersisterCall → List RaftLogEntry
  | .write batch .ok => entriesOf batch
  | .write _ (.corruption _) | .write _ (.error _) | .sync _ => []

def written (calls : List PersisterCall) : List RaftLogEntry := calls.flatMap PersisterCall.wrote

theorem written_concat (calls : List PersisterCall) (c : PersisterCall) :
    written (calls ++ [c]) = written calls ++ c.wrote := by
  simp [written]

namespace LogPersister

variable {s s' : LogPersister}

/-- The last entry of a list for a log index. -/
def lastAt (i : Index) (entries : List RaftLogEntry) : Option RaftLogEntry :=
  (entries.filter (·.index = i)).getLast?

/-- Every batch handed over so far goes on where the successful writes before it end. -/
def BatchesInOrder (s : LogPersister) : Prop :=
  ∀ before batch result after, s.calls = before ++ .write batch result :: after →
    written before ++ entriesOf batch <+: s.accepted

/-- The entries are handed over in the order of `Append`: every batch handed to the persister goes
on exactly where the successful writes before it end, and once nothing is waiting, the last entry
written for an index is the last one appended. -/
structure InAppendOrder (s : LogPersister) : Prop where
  batches : s.BatchesInOrder
  last : s.buffer = [] → s.flush.unwritten = [] →
    ∀ i, lastAt i (written s.calls) = lastAt i s.accepted

/-- The written entries, the batch in flight and the buffer are the accepted entries. -/
def Queued (s : LogPersister) : Prop :=
  written s.calls ++ entriesOf s.flush.unwritten ++ entriesOf s.buffer = s.accepted

/-! ## §2 — What a step does to the queue. -/

def Event.isPutBack : Event → Bool
  | .flush .putBack | .stopFlush .putBack => true
  | _ => false

/-- The part of the state that the order is about. -/
inductive QueueStep (s : LogPersister) (e : Event) (s' : LogPersister) : Prop
  | still (hcalls : s'.calls = s.calls ∨ ∃ result, s'.calls = s.calls ++ [.sync result])
      (hflight : s'.flush.unwritten = s.flush.unwritten) (hbuffer : s'.buffer = s.buffer)
      (haccepted : s'.accepted = s.accepted)
  | push (p : PendingEntry) (hcalls : s'.calls = s.calls) (hflight : s'.flush = s.flush)
      (hbuffer : s'.buffer = s.buffer ++ [p]) (haccepted : s'.accepted = s.accepted ++ [p.entry])
  | swap (hcalls : s'.calls = s.calls) (hidle : s.flush.unwritten = [])
      (hflight : s'.flush.unwritten = s.buffer) (hbuffer : s'.buffer = [])
      (haccepted : s'.accepted = s.accepted)
  | write (batch : List PendingEntry) (result : StoreStatus)
      (hcalls : s'.calls = s.calls ++ [.write batch result]) (hbatch : s.flush.unwritten = batch)
      (hflight : entriesOf s'.flush.unwritten = if result = .ok then [] else entriesOf batch)
      (hbuffer : s'.buffer = s.buffer) (haccepted : s'.accepted = s.accepted)
  /-- There is no persister: the write fails and nothing is handed over. -/
  | refused (hcalls : s'.calls = s.calls)
      (hflight : entriesOf s'.flush.unwritten = entriesOf s.flush.unwritten)
      (hbuffer : s'.buffer = s.buffer) (haccepted : s'.accepted = s.accepted)
  | putBack (he : e.isPutBack = true) (hcalls : s'.calls = s.calls)
      (hflight : s'.flush.unwritten = []) (hbuffer : s'.buffer = s.buffer ++ s.flush.unwritten)
      (haccepted : s'.accepted = s.accepted)

variable {e : Event}

/-- The step is about these four fields: other fields may be set besides. -/
theorem QueueStep.congr {s'' : LogPersister} (h : QueueStep s e s')
    (hcalls : s''.calls = s'.calls) (hflush : s''.flush = s'.flush)
    (hbuffer : s''.buffer = s'.buffer) (haccepted : s''.accepted = s'.accepted) :
    QueueStep s e s'' := by
  cases h with
  | still h₁ h₂ h₃ h₄ =>
    exact .still (by rwa [hcalls]) (by rw [hflush, h₂]) (by rw [hbuffer, h₃]) (by rw [haccepted, h₄])
  | push p h₁ h₂ h₃ h₄ =>
    exact .push p (by rw [hcalls, h₁]) (by rw [hflush, h₂]) (by rw [hbuffer, h₃])
      (by rw [haccepted, h₄])
  | swap h₁ h₂ h₃ h₄ h₅ =>
    exact .swap (by rw [hcalls, h₁]) h₂ (by rw [hflush, h₃]) (by rw [hbuffer, h₄])
      (by rw [haccepted, h₅])
  | write batch result h₁ h₂ h₃ h₄ h₅ =>
    exact .write batch result (by rw [hcalls, h₁]) h₂ (by rw [hflush, h₃]) (by rw [hbuffer, h₄])
      (by rw [haccepted, h₅])
  | refused h₁ h₂ h₃ h₄ =>
    exact .refused (by rw [hcalls, h₁]) (by rw [hflush, h₂]) (by rw [hbuffer, h₃])
      (by rw [haccepted, h₄])
  | putBack he h₁ h₂ h₃ h₄ =>
    exact .putBack he (by rw [hcalls, h₁]) (by rw [hflush, h₂]) (by rw [hbuffer, h₃])
      (by rw [haccepted, h₄])

theorem QueueStep.rest (hcalls : s'.calls = s.calls) (hflush : s'.flush = s.flush)
    (hbuffer : s'.buffer = s.buffer) (haccepted : s'.accepted = s.accepted) :
    QueueStep s e s' :=
  .still (.inl hcalls) (by rw [hflush]) hbuffer haccepted

theorem queueStep_of_flushes {action : FlushAction} (he : action = .putBack → e.isPutBack = true)
    (h : s.Flushes action s') :
    QueueStep s e s' := by
  cases h with
  | nothing hidle hempty => exact .rest rfl rfl rfl rfl
  | swap hidle hsome => exact .swap rfl (by rw [hidle]; rfl) rfl rfl rfl
  | space _ hflush | full _ hflush | register hflush | refused hflush | unsynced hflush
  | finish hflush => exact .still (.inl rfl) (by rw [hflush]; rfl) rfl rfl
  | @write batch hflush hpersister =>
    exact .write batch .ok rfl (by rw [hflush]; rfl) rfl rfl rfl
  | @writeFails batch result status told hflush hpersister hresult htold =>
    refine .write batch result rfl (by rw [hflush]; rfl) ?_ rfl rfl
    rw [if_neg hresult]
    exact entriesOf_clear batch
  | @noPersister batch result status told hflush hpersister htold =>
    refine .refused rfl ?_ rfl rfl
    rw [hflush]
    exact entriesOf_clear batch
  | putBack hflush => exact .putBack (he rfl) rfl rfl (by rw [hflush]; rfl) rfl
  | sync hflush | syncFails hflush =>
    exact .still (.inr ⟨_, rfl⟩) (by rw [hflush]; rfl) rfl rfl

/-- **What a step does to the queue.** -/
theorem queueStep_of_next (h : s.next e = some s') : QueueStep s e s' := by
  cases moves_of_next h with
  | push text => exact .push ⟨_, _⟩ rfl rfl rfl rfl
  | @drop entry callback statvfs told htold => cases callback <;> exact .rest rfl rfl rfl rfl
  | flushBegins _ hf | stopFlushBegins _ hf =>
    exact (queueStep_of_flushes (fun hne => absurd hne (by decide)) hf).congr rfl rfl rfl rfl
  | flush _ _ hf | stopFlush _ _ hf => exact queueStep_of_flushes (by rintro rfl; rfl) hf
  | sync | stopSync => exact .still (.inr ⟨_, rfl⟩) rfl rfl rfl
  | report | stopReport =>
    obtain ⟨more, posted, heq⟩ := report_eq s _ _
    rw [heq]
    exact .rest rfl rfl rfl rfl
  -- the other events touch neither the buffer nor the persister
  | _ => exact .rest rfl rfl rfl rfl

/-! ## §3 — The order over whole runs. -/

/-- A put-back finds the buffer empty: no `Append` was accepted since its batch was taken. -/
def NothingBehind (s : LogPersister) (e : Event) : Prop := e.isPutBack = true → s.buffer = []

instance (s : LogPersister) (e : Event) : Decidable (NothingBehind s e) :=
  inferInstanceAs (Decidable (_ → _))

theorem Queued.step (hs : s.Queued) (hc : NothingBehind s e) (h : QueueStep s e s') :
    s'.Queued := by
  unfold Queued at hs ⊢
  cases h with
  | still hcalls hflight hbuffer haccepted =>
    have hwritten : written s'.calls = written s.calls := by
      obtain h | ⟨result, h⟩ := hcalls
      · rw [h]
      · rw [h, written_concat]
        exact List.append_nil _
    rw [hwritten, hflight, hbuffer, haccepted]
    exact hs
  | push p hcalls hflight hbuffer haccepted =>
    rw [hcalls, hflight, hbuffer, haccepted, ← hs]
    simp [entriesOf]
  | swap hcalls hidle hflight hbuffer haccepted =>
    rw [hcalls, hflight, hbuffer, haccepted, ← hs, hidle]
    simp
  | write batch result hcalls hbatch hflight hbuffer haccepted =>
    rw [hcalls, hflight, hbuffer, haccepted, ← hs, hbatch, written_concat]
    cases result <;> simp [PersisterCall.wrote]
  | refused hcalls hflight hbuffer haccepted =>
    rw [hcalls, hflight, hbuffer, haccepted]
    exact hs
  | putBack he hcalls hflight hbuffer haccepted =>
    -- the only case that moves entries backwards: with an empty buffer it does not
    rw [hcalls, hflight, hbuffer, haccepted, ← hs, hc he]
    simp

theorem split_concat {calls before after : List PersisterCall} {c d : PersisterCall}
    (h : calls ++ [d] = before ++ c :: after) :
    (before = calls ∧ c = d) ∨ ∃ after', calls = before ++ c :: after' := by
  rcases List.eq_nil_or_concat after with rfl | ⟨after', x, rfl⟩
  · obtain ⟨rfl, hd⟩ := List.append_inj' h rfl
    exact .inl ⟨rfl, (List.cons.inj hd).1.symm⟩
  · refine .inr ⟨after', ?_⟩
    rw [List.concat_eq_append, ← List.cons_append, ← List.append_assoc] at h
    exact (List.append_inj' h rfl).1

theorem BatchesInOrder.step (hb : s.BatchesInOrder) (hs : s.Queued) (h : QueueStep s e s') :
    s'.BatchesInOrder := by
  intro before batch result after hsplit
  cases h with
  | still hcalls hflight hbuffer haccepted =>
    rw [haccepted]
    obtain hcalls | ⟨r, hcalls⟩ := hcalls
    · exact hb _ _ _ _ (hcalls ▸ hsplit)
    · obtain ⟨-, h⟩ | ⟨after', h⟩ := split_concat (hcalls ▸ hsplit)
      · cases h
      · exact hb _ _ _ _ h
  | push p hcalls hflight hbuffer haccepted =>
    rw [haccepted]
    exact (hb _ _ _ _ (hcalls ▸ hsplit)).trans (List.prefix_append _ _)
  | swap hcalls _ _ _ haccepted | refused hcalls _ _ haccepted | putBack _ hcalls _ _ haccepted =>
    rw [haccepted]
    exact hb _ _ _ _ (hcalls ▸ hsplit)
  | write batch' result' hcalls hbatch hflight hbuffer haccepted =>
    rw [haccepted]
    obtain ⟨rfl, h⟩ | ⟨after', h⟩ := split_concat (hcalls ▸ hsplit)
    · -- the batch just handed over is the one in flight, which comes next in the queue
      obtain ⟨rfl, rfl⟩ := PersisterCall.write.inj h
      rw [← hs, hbatch]
      exact List.prefix_append _ _
    · exact hb _ _ _ _ h

theorem Queued.inAppendOrder (hs : s.Queued) (hb : s.BatchesInOrder) : s.InAppendOrder := by
  refine ⟨hb, ?_⟩
  intro hbuffer hflight i
  have hall : written s.calls = s.accepted := by
    rw [← hs, hbuffer, hflight]
    simp
  rw [hall]

/-- The queue and what was handed over from it. -/
def Ordered (s : LogPersister) : Prop := s.Queued ∧ s.BatchesInOrder

/-- In every run in which each failed flush puts its batch back into an empty buffer, the entries
reach the persister in the order of `Append`. -/
theorem entries_written_in_append_order {s : LogPersister}
    (h : system.ReachableWith NothingBehind s) : s.InAppendOrder := by
  have hinv : Ordered s := by
    refine h.invariant ?_ ?_
    · rintro s ⟨config, persister, rfl⟩
      refine ⟨rfl, ?_⟩
      intro before batch result after hsplit
      exact absurd hsplit (by simp [create])
    · intro s e s' hs hc hn
      have hstep := queueStep_of_next hn
      exact ⟨hs.1.step hc hstep, hs.2.step hs.1 hstep⟩
  exact hinv.1.inAppendOrder hinv.2

/-! ## §4 — A failed flush with an append behind it. -/

/-- Flush the buffer with the given amount of free space and success of every call. -/
def flushAll : List Event :=
  [.flushTest, .flush .swap, .flush (.checkSpace (some 100)), .flush (.write .ok),
    .flush (.complete .ok), .flush .finish]

/-- Two appends for index 5; the second comes while the flush of the first finds the disk full. -/
def overtaken : List Event :=
  [.start, .append ⟨5, 1, [1], [], 0⟩ false none, .flushTest, .flush .swap,
    .append ⟨5, 2, [2], [], 0⟩ false none, .flush (.checkSpace (some 50)), .flush .putBack]
    ++ flushAll

/-- The same two appends when the flush of the first succeeds. -/
def inTurn : List Event :=
  [.start, .append ⟨5, 1, [1], [], 0⟩ false none] ++ flushAll
    ++ [.append ⟨5, 2, [2], [], 0⟩ false none] ++ flushAll

theorem entries_written_in_append_order_inTurn :
    ∃ s, system.ReachableWith NothingBehind s ∧
      lastAt 5 (written s.calls) = some ⟨5, 2, [2], [], 0⟩ ∧ s.InAppendOrder := by
  obtain ⟨s, hreach, hlast⟩ := system.reachesWith NothingBehind inTurn init_small
    (P := fun s => lastAt 5 (written s.calls) = some ⟨5, 2, [2], [], 0⟩) (by decide +kernel)
  exact ⟨s, hreach, hlast, entries_written_in_append_order hreach⟩

/-- The batch put back is written after the newer entry: the last entry written for index 5 is the
one appended first. -/
theorem older_entry_written_last :
    ∃ s, system.Reachable s ∧ s.buffer = [] ∧ s.flush.unwritten = [] ∧
      lastAt 5 s.accepted = some ⟨5, 2, [2], [], 0⟩ ∧
      lastAt 5 (written s.calls) = some ⟨5, 1, [1], [], 0⟩ ∧ ¬ s.InAppendOrder := by
  obtain ⟨s, hreach, hbuffer, hflight, hnew, hold⟩ := system.reaches overtaken init_small
    (P := fun s => s.buffer = [] ∧ s.flush.unwritten = [] ∧
      lastAt 5 s.accepted = some ⟨5, 2, [2], [], 0⟩ ∧
      lastAt 5 (written s.calls) = some ⟨5, 1, [1], [], 0⟩) (by decide +kernel)
  refine ⟨s, hreach, hbuffer, hflight, hnew, hold, fun horder => ?_⟩
  have hlast := horder.last hbuffer hflight 5
  rw [hnew, hold] at hlast
  exact absurd hlast (by decide)

end LogPersister

end RollingRaft
