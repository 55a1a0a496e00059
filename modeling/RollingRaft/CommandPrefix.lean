/-
# RollingRaft.CommandPrefix — which submitted commands reach the state machine.

Client data and configuration commands share the untyped data of a log entry. `Propose`,
`ProposeBatch` and `HandleClientRequest` append whatever text they are given, and
`ApplyCommittedLocked` takes every entry that starts with `CONFIG_CHANGE:` for a configuration
change: the state machine never sees it, `pending_config_change_` is cleared, and the configuration
and the peers are what the text asks for. A command is kept apart from configuration changes exactly
when it does not start so.
-/
import RollingRaft.NodeLists

namespace RollingRaft

open Lib

/-- What tells configuration changes from commands. -/
def configPrefix : Bytes := ascii "CONFIG_CHANGE:"

/-- The three ways to submit a command. -/
inductive Submission where
  /-- `Propose`. -/
  | propose (call sessionId seqNum : Nat)
  /-- `ProposeBatch`, with the commands before and after this one. -/
  | batch (before after : List Bytes) (call : Nat)
  /-- `HandleClientRequest`, once leadership and session are checked. -/
  | client (call : Nat)

namespace RaftGroup

/-- The section that appends the command. -/
def submit (g : RaftGroup) (cmd : Bytes) : Submission → RaftGroup
  | .propose call sessionId seqNum => (g.propose cmd call sessionId seqNum).1
  | .batch before after call => (g.proposeBatch (before ++ cmd :: after) call).1
  | .client call => (g.proposeAndWait cmd call).1

/-- A submission of `cmd` has made the entry `e` of it. -/
def Submitted (cmd : Bytes) (e : LogEntry) : Prop :=
  e.data = cmd ∧ ∃ (g : RaftGroup) (s : Submission),
    ∃ o ∈ (g.submit cmd s).out.drop g.out.length, o.act = .created e

/-- Applying the next entry leaves the membership state alone and hands the entry to the state
machine. -/
def HandsToMachine (g : RaftGroup) (e : LogEntry) : Prop :=
  g.enqueueNext.mem = g.mem ∧
    ∃ task, g.enqueueNext.app.applyQueue = g.app.applyQueue ++ [task] ∧
      task.index = add32 g.app.lastEnqueued 1 ∧ task.data = e.data ∧ task.isConfigChange = false

/-- Wherever an entry made of `cmd` is the next to be applied, it goes to the state machine and
nothing else happens. -/
def KeptApart (cmd : Bytes) : Prop :=
  ∀ e, Submitted cmd e → ∀ g : RaftGroup,
    g.rep.log.getEntry (add32 g.app.lastEnqueued 1) = some e → g.HandsToMachine e

variable {g : RaftGroup} {e : LogEntry}

theorem handsToMachine_of_command
    (he : g.rep.log.getEntry (add32 g.app.lastEnqueued 1) = some e)
    (hcmd : startsWith e.data configPrefix = false) : g.HandsToMachine e := by
  have hnext : g.enqueueNext =
      ({ g with app := { g.app with lastEnqueued := add32 g.app.lastEnqueued 1 } }).enqueueEntry
        (add32 g.app.lastEnqueued 1) e := by
    unfold enqueueNext
    simp only [he, show startsWith e.data (ascii "CONFIG_CHANGE:") = false from hcmd,
      Bool.false_eq_true, if_false]
  rw [HandsToMachine, hnext]
  exact ⟨rfl, _, rfl, rfl, rfl, rfl⟩

/-- An entry with the prefix is queued as a configuration change, whatever follows it. -/
theorem not_handsToMachine_of_prefix
    (he : g.rep.log.getEntry (add32 g.app.lastEnqueued 1) = some e)
    (hcmd : startsWith e.data configPrefix = true) : ¬ g.HandsToMachine e := by
  rintro ⟨-, task, hqueue, -, -, hconfig⟩
  have hlast : ∃ queue, g.enqueueNext.app.applyQueue =
      queue ++ [{ index := add32 g.app.lastEnqueued 1, isConfigChange := true }] := by
    unfold enqueueNext
    simp only [he, show startsWith e.data (ascii "CONFIG_CHANGE:") = true from hcmd, if_true]
    exact ⟨_, rfl⟩
  obtain ⟨queue, hlast⟩ := hlast
  rw [hqueue] at hlast
  have htask := List.head_eq_of_cons_eq (List.append_inj' hlast rfl).2
  rw [htask] at hconfig
  cases hconfig

/-- A leader alone, to submit to. -/
def soleLeader : RaftGroup :=
  { opts := { serverId := 1, json := unusedJson }, el := { role := .leader } }

theorem soleLeader_submitted (cmd : Bytes) : Submitted cmd ⟨1, 0, cmd⟩ :=
  ⟨rfl, soleLeader, .propose 1 0 0, ⟨.leader, 0, .created ⟨1, 0, cmd⟩, 0⟩, List.mem_singleton_self _,
    rfl⟩

theorem not_keptApart_of_prefix {cmd : Bytes} (hcmd : startsWith cmd configPrefix = true) :
    ¬ KeptApart cmd := by
  intro h
  have hentry : (soleLeader.submit cmd (.propose 1 0 0)).rep.log.getEntry (add32 0 1) =
      some ⟨1, 0, cmd⟩ := rfl
  exact not_handsToMachine_of_prefix hentry hcmd (h _ (soleLeader_submitted cmd) _ hentry)

/-- **Which commands are kept apart from configuration changes.** Those that do not start with
`CONFIG_CHANGE:`, and no others, however they are submitted. -/
theorem keptApart_iff (cmd : Bytes) : KeptApart cmd ↔ startsWith cmd configPrefix = false := by
  constructor
  · intro h
    by_contra hcmd
    exact not_keptApart_of_prefix (Bool.eq_true_of_not_eq_false hcmd) h
  · rintro hcmd e ⟨hdata, -⟩ g he
    exact handsToMachine_of_command he (hdata ▸ hcmd)

end RaftGroup

/-! ## A client that changes the configuration. -/

def shrinkCommand : Bytes := ascii "CONFIG_CHANGE:FINALIZE:[1]"

/-- Node 1 is elected, and a client submits the text as its command. -/
def clientShrinks : List (Event × Env) :=
  [(.restart {}, { now := 0 }), (.electionTick, { now := 1000 }),
    (.response 2 (.vote 1) (.vote ⟨1, true⟩), { now := 1001 }), (.resume, { now := 1001 }),
    (.clientRequest { clientId := 1, seq := 1, command := shrinkCommand }, { now := 1002 }),
    (.run 0 {}, { now := 1002 })]

/-- Node 2 acknowledges the client's entry. -/
def entryAcknowledged : Event × Env :=
  (.response 2 (.append false 0) (.append ⟨1, true, 0, 1⟩), { now := 1003 })

/-- A client's command, once committed, makes node 1 the only voter of a reachable leader. -/
theorem client_changes_membership :
    ∃ p p', (Process.system readingOne).Reachable p ∧ p.next entryAcknowledged = some p' ∧
      p.group.mem.config.nodes = [1, 2, 3] ∧ p'.group.mem.config.nodes = [1] ∧
      ¬ RaftGroup.KeptApart shrinkCommand := by
  obtain ⟨p, hreach, hbefore, p', hp', hafter⟩ := (Process.system readingOne).reaches clientShrinks rfl
    (P := fun p => p.group.mem.config.nodes = [1, 2, 3] ∧
      ∃ p' ∈ p.next entryAcknowledged, p'.group.mem.config.nodes = [1]) (by decide +kernel)
  exact ⟨p, p', hreach, hp', hbefore, hafter, RaftGroup.not_keptApart_of_prefix (by decide +kernel)⟩

end RollingRaft
