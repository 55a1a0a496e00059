/-
# RollingRaft.SaveRace — two writers of the persistent state.

A vote or a change of the term is saved under `election_mtx_`, a configuration change under
`replication_mtx_` and `membership_mtx_`; a follower applies it without `election_mtx_`. Either save
copies term, vote and configuration and writes the copy later. `CurrentPersistentStateLocked` gives
`membership_mtx_` back before the write, so a configuration saved in between is overwritten.
-/
import RollingRaft.ConfigChange

namespace RollingRaft

open Lib

/-- The holder of `election_mtx_` on its way from a change to `SaveState`. -/
inductive VoteSave where
  | idle
  | stopping
  | changed
  | readVote (term : Term) (votedFor : NodeId)
  | copied (state : PersistentState)
  deriving DecidableEq

/-- The thread that applies a configuration change, on its way to `SaveState`. It has
`replication_mtx_` and `membership_mtx_`, on a leader `election_mtx_` as well. -/
inductive ConfigSave where
  | idle
  | changed (locksElection : Bool)
  | readTerm (locksElection : Bool) (term : Term)
  | copied (locksElection : Bool) (state : PersistentState)
  deriving DecidableEq

def VoteSave.isCopied : VoteSave → Bool
  | .copied _ => true
  | _ => false

def ConfigSave.locksElection : ConfigSave → Bool
  | .idle => false
  | .changed b | .readTerm b _ | .copied b _ => b

/-- `current_term_` is read, `voted_for_` is not. -/
def ConfigSave.betweenReads : ConfigSave → Bool
  | .readTerm _ _ => true
  | _ => false

/-- The fields in memory, what is durable, and the two savers. -/
structure Savers where
  memory : PersistentState
  disk : PersistentState
  voter : VoteSave := .idle
  applier : ConfigSave := .idle
  deriving DecidableEq

namespace Savers

inductive Event where
  | vote (candidateId : NodeId)
  | becomeFollower (term : Term)
  | becomeCandidate (serverId : NodeId)
  | stopTimers
  | readVote
  | readConfig
  | saveVote
  | applyConfig (locksElection : Bool) (change : ConfigChange)
  | readTerm
  | readVotedFor
  | saveConfig

/-- `election_mtx_` is free. -/
def electionFree (s : Savers) : Bool := s.voter = .idle && !s.applier.locksElection

/-- One step of one of the threads. A new term and its vote are written in one step, though a
configuration save could read `current_term_` and `voted_for_` between the two writes. -/
def next (s : Savers) : Event → Option Savers
  | .vote candidateId =>
    if s.electionFree ∧ (s.memory.votedFor = -1 ∨ s.memory.votedFor = candidateId) then
      some { s with memory := { s.memory with votedFor := candidateId }, voter := .changed }
    else none
  | .becomeFollower term =>
    -- no caller passes an older term
    if s.electionFree ∧ s.memory.currentTerm ≤ term then
      some { s with
        memory := { s.memory with
          currentTerm := term
          votedFor := if s.memory.currentTerm < term then -1 else s.memory.votedFor }
        voter := .stopping }
    else none
  | .becomeCandidate serverId =>
    if s.electionFree then
      some { s with
        memory := { s.memory with
          currentTerm := add32 s.memory.currentTerm 1, votedFor := serverId }
        voter := .changed }
    else none
  | .stopTimers =>
    -- under `replication_mtx_`
    if s.voter = .stopping ∧ s.applier = .idle then some { s with voter := .changed } else none
  | .readVote =>
    if s.voter = .changed then
      some { s with voter := .readVote s.memory.currentTerm s.memory.votedFor }
    else none
  | .readConfig =>
    match s.voter with
    | .readVote term votedFor =>
      if s.applier = .idle then some { s with voter := .copied ⟨term, votedFor, s.memory.config⟩ }
      else none
    | _ => none
  | .saveVote =>
    match s.voter with
    | .copied state => some { s with disk := state, voter := .idle }
    | _ => none
  | .applyConfig locksElection change =>
    if s.applier = .idle ∧ (locksElection → s.voter = .idle) then
      -- the branches that make a new version save it
      some { s with
        memory := { s.memory with config := change.config s.memory.config }
        applier := if (change.config s.memory.config).version = s.memory.config.version then .idle
          else .changed locksElection }
    else none
  | .readTerm =>
    match s.applier with
    | .changed b => some { s with applier := .readTerm b s.memory.currentTerm }
    | _ => none
  | .readVotedFor =>
    match s.applier with
    | .readTerm b term =>
      some { s with applier := .copied b ⟨term, s.memory.votedFor, s.memory.config⟩ }
    | _ => none
  | .saveConfig =>
    match s.applier with
    | .copied _ state => some { s with disk := state, applier := .idle }
    | _ => none

def system : TransitionSystem Savers Event where
  init s := ∃ state, s = { memory := state, disk := state }
  next := next

end Savers

/-- `new` has an older term, another vote than the one cast in the term, or an older configuration. -/
def Regresses (old new : PersistentState) : Prop :=
  new.currentTerm < old.currentTerm ∨
    (new.currentTerm = old.currentTerm ∧ old.votedFor ≠ -1 ∧ new.votedFor ≠ old.votedFor) ∨
    new.config.version < old.config.version

instance (old new : PersistentState) : Decidable (Regresses old new) :=
  inferInstanceAs (Decidable (_ ∨ _))

theorem Regresses.irrefl (a : PersistentState) : ¬ Regresses a a := by
  unfold Regresses
  simp

theorem not_regresses_trans {a b c : PersistentState} (hab : ¬ Regresses a b) (hbc : ¬ Regresses b c) :
    ¬ Regresses a c := by
  grind [Regresses]

theorem ConfigChange.version_le (ch : ConfigChange) (c : ClusterConfig) :
    c.version ≤ (ch.config c).version := by
  cases ch <;> simp only [ConfigChange.config] <;> (try split) <;> simp

namespace Savers

/-- The steps that may interleave: no configuration is applied between the copy and the write of a
vote or term, and no term begins between the two reads of a configuration save. A term ends before
the counter does, and what a configuration change changes is a new version. -/
def Apart (s : Savers) : Event → Prop
  | .applyConfig _ change =>
    s.voter.isCopied = false ∧
      ((change.config s.memory.config).version = s.memory.config.version →
        change.config s.memory.config = s.memory.config)
  | .becomeFollower term => s.memory.currentTerm < term → s.applier.betweenReads = false
  | .becomeCandidate _ => s.memory.currentTerm + 1 < 2 ^ 32 ∧ s.applier.betweenReads = false
  | _ => True

instance (s : Savers) (e : Event) : Decidable (s.Apart e) := by
  cases e <;> dsimp only [Apart] <;> infer_instance

/-- What the savers hold is current, up to a vote or term that is still to be saved. -/
structure Current (s : Savers) : Prop where
  disk : ¬ Regresses s.disk s.memory
  saved : s.voter = .idle → s.applier = .idle → s.disk = s.memory
  readVote : ∀ t v, s.voter = .readVote t v → t = s.memory.currentTerm ∧ v = s.memory.votedFor
  voter : ∀ state, s.voter = .copied state → state = s.memory ∧ s.applier = .idle
  readTerm : ∀ b t, s.applier = .readTerm b t → t = s.memory.currentTerm
  applier : ∀ b state, s.applier = .copied b state →
    ¬ Regresses s.disk state ∧ ¬ Regresses state s.memory ∧ (s.voter = .idle → state = s.memory)

variable {s s' : Savers}

/-- A vote or term that does not regress is in memory and still to be saved. -/
theorem Current.changes (h : s.Current) {memory : PersistentState} {voter : VoteSave}
    (hlater : ¬ Regresses s.memory memory) (hvoter : voter = .stopping ∨ voter = .changed)
    (hterm : s.applier.betweenReads = true → memory.currentTerm = s.memory.currentTerm) :
    Current { s with memory := memory, voter := voter } where
  disk := not_regresses_trans h.disk hlater
  saved hidle := by rcases hvoter with rfl | rfl <;> cases hidle
  readVote _ _ hread := by rcases hvoter with rfl | rfl <;> cases hread
  voter _ hcopied := by rcases hvoter with rfl | rfl <;> cases hcopied
  readTerm b t hread := by
    rw [hterm (by rw [show s.applier = _ from hread]; rfl)]
    exact h.readTerm b t hread
  applier b state hcopied :=
    have hstate := h.applier b state hcopied
    ⟨hstate.1, not_regresses_trans hstate.2.1 hlater, fun hidle => by
      rcases hvoter with rfl | rfl <;> cases hidle⟩

/-- Every step keeps this: a save writes what is in memory, or less than a vote still to be saved. -/
theorem Current.next (h : s.Current) {e : Event} (hc : s.Apart e) (hn : s.next e = some s') :
    s'.Current := by
  cases e with
  | vote candidateId =>
    obtain ⟨⟨-, hvote⟩, ⟨⟩⟩ := Option.ite_none_right_eq_some.mp hn
    exact h.changes (by grind [Regresses]) (.inr rfl) fun _ => rfl
  | becomeFollower term =>
    obtain ⟨⟨-, hle⟩, ⟨⟩⟩ := Option.ite_none_right_eq_some.mp hn
    refine h.changes (by grind [Regresses]) (.inl rfl) fun hreads => ?_
    by_contra hne
    rw [hc (lt_of_le_of_ne hle (Ne.symm hne))] at hreads
    cases hreads
  | becomeCandidate serverId =>
    obtain ⟨-, ⟨⟩⟩ := Option.ite_none_right_eq_some.mp hn
    rw [add32_of_lt hc.1]
    exact h.changes (by grind [Regresses]) (.inr rfl) fun hreads => absurd hreads (by simp [hc.2])
  | stopTimers =>
    obtain ⟨-, ⟨⟩⟩ := Option.ite_none_right_eq_some.mp hn
    exact h.changes (Regresses.irrefl _) (.inr rfl) fun _ => rfl
  | readVote =>
    obtain ⟨-, ⟨⟩⟩ := Option.ite_none_right_eq_some.mp hn
    refine ⟨h.disk, nofun, ?_, nofun, h.readTerm, fun b state hcopied => ?_⟩
    · rintro t v ⟨⟩
      exact ⟨rfl, rfl⟩
    · exact ⟨(h.applier b state hcopied).1, (h.applier b state hcopied).2.1, nofun⟩
  | readConfig =>
    simp only [Savers.next] at hn
    split at hn
    · obtain ⟨hidle, ⟨⟩⟩ := Option.ite_none_right_eq_some.mp hn
      obtain ⟨rfl, rfl⟩ := h.readVote _ _ ‹_›
      refine ⟨h.disk, nofun, nofun, ?_, h.readTerm, fun b state hcopied => ?_⟩
      · rintro state ⟨⟩
        exact ⟨rfl, hidle⟩
      · cases hidle.symm.trans hcopied
    · cases hn
  | saveVote =>
    simp only [Savers.next] at hn
    split at hn <;> cases hn
    -- the copy is what is in memory, and nobody applies a configuration
    obtain ⟨rfl, hidle⟩ := h.voter _ ‹_›
    refine ⟨Regresses.irrefl _, fun _ _ => rfl, nofun, nofun, fun b t hread => ?_,
      fun b state hcopied => ?_⟩
    · cases hidle.symm.trans hread
    · cases hidle.symm.trans hcopied
  | applyConfig locksElection change =>
    have hversion := change.version_le s.memory.config
    obtain ⟨⟨hidle, -⟩, ⟨⟩⟩ := Option.ite_none_right_eq_some.mp hn
    have hlater : ¬ Regresses s.memory { s.memory with config := change.config s.memory.config } := by
      grind [Regresses]
    refine ⟨not_regresses_trans h.disk hlater, fun hv ha => ?_, h.readVote, fun state hcopied => ?_,
      fun b t hread => ?_, fun b state hcopied => ?_⟩
    · -- nothing is left to save only if nothing has changed
      have hsame : change.config s.memory.config = s.memory.config := hc.2 (by grind)
      rw [h.saved hv hidle, hsame]
    · have hfree := hc.1
      rw [show s.voter = _ from hcopied] at hfree
      cases hfree
    · grind
    · grind
  | readTerm =>
    simp only [Savers.next] at hn
    split at hn <;> cases hn
    rename_i b hchanged
    refine ⟨h.disk, nofun, h.readVote, fun state hcopied => ?_, ?_, nofun⟩
    · cases hchanged.symm.trans (h.voter state hcopied).2
    · rintro b t ⟨⟩
      rfl
  | readVotedFor =>
    simp only [Savers.next] at hn
    split at hn <;> cases hn
    rename_i b t hread
    obtain rfl := h.readTerm _ _ hread
    refine ⟨h.disk, nofun, h.readVote, fun state hcopied => ?_, nofun, ?_⟩
    · cases hread.symm.trans (h.voter state hcopied).2
    · rintro b state ⟨⟩
      exact ⟨h.disk, Regresses.irrefl _, fun _ => rfl⟩
  | saveConfig =>
    simp only [Savers.next] at hn
    split at hn <;> cases hn
    rename_i b state hcopied
    obtain ⟨-, hmemory, hsame⟩ := h.applier b state hcopied
    refine ⟨hmemory, fun hidle _ => hsame hidle, h.readVote, fun copy hcopy => ?_, nofun, nofun⟩
    cases hcopied.symm.trans (h.voter copy hcopy).2

theorem Current.not_regresses (h : s.Current) {e : Event} (hn : s.next e = some s') :
    ¬ Regresses s.disk s'.disk := by
  obtain ⟨hdisk, -, -, hvoter, -, happlier⟩ := h
  have hsame := Regresses.irrefl s.disk
  cases e with
  | saveVote | saveConfig | readTerm | readVotedFor =>
    simp only [Savers.next] at hn
    split at hn <;> cases hn
    grind
  | readConfig =>
    simp only [Savers.next] at hn
    split at hn
    · obtain ⟨-, ⟨⟩⟩ := Option.ite_none_right_eq_some.mp hn
      exact hsame
    · cases hn
  | _ =>
    obtain ⟨-, ⟨⟩⟩ := Option.ite_none_right_eq_some.mp hn
    exact hsame

/-- In every run whose steps are apart: once both savers are done, the newest term, the vote cast in
it and the newest configuration are durable, and no save overwrites any of them with an older one. -/
theorem saves_newest (h : system.ReachableWith Apart s) :
    (s.voter = .idle → s.applier = .idle → s.disk = s.memory) ∧
      ∀ e s', s.next e = some s' → ¬ Regresses s.disk s'.disk := by
  have hs : s.Current := by
    refine h.invariant ?_ fun s e s' hs hc hn => hs.next hc hn
    rintro s ⟨state, rfl⟩
    exact ⟨Regresses.irrefl _, fun _ _ => rfl, nofun, nofun, nofun, nofun⟩
  exact ⟨hs.saved, fun e s' hn => hs.not_regresses hn⟩

/-- A node of term 1 that has not voted. -/
def beforeVote : Savers where
  memory := ⟨1, -1, { nodes := [1, 2, 3] }⟩
  disk := ⟨1, -1, { nodes := [1, 2, 3] }⟩

/-- It applies a configuration change and saves it. -/
def appliesConfig : List Event :=
  [.applyConfig false (.finalize [1, 2]), .readTerm, .readVotedFor, .saveConfig]

/-- The configuration is applied before the vote's save copies it. -/
theorem saves_newest_interleaved :
    ∃ s, system.ReachableWith Apart s ∧ s.memory = ⟨1, 2, { nodes := [1, 2], version := 1 }⟩ ∧
      s.disk = s.memory := by
  obtain ⟨s, hs, hmemory, hvoter, happlier⟩ := system.reachesWith Apart (s := beforeVote)
    ([.vote 2, .readVote] ++ appliesConfig ++ [.readConfig, .saveVote]) ⟨_, rfl⟩
    (P := fun s => s.memory = ⟨1, 2, { nodes := [1, 2], version := 1 }⟩ ∧ s.voter = .idle ∧
      s.applier = .idle) (by decide +kernel)
  exact ⟨s, hs, hmemory, (saves_newest hs).1 hvoter happlier⟩

/-- It is applied between the copy and the write: the old configuration is written over it. -/
theorem vote_overwrites_config :
    ∃ s s', system.Reachable s ∧ s.next .saveVote = some s' ∧ Regresses s.disk s'.disk ∧
      s'.voter = .idle ∧ s'.applier = .idle ∧ s'.disk.config ≠ s'.memory.config := by
  obtain ⟨s, hreach, s', hn, hrest⟩ := system.reaches (s := beforeVote)
    ([.vote 2, .readVote, .readConfig] ++ appliesConfig) ⟨_, rfl⟩
    (P := fun s => ∃ s' ∈ s.next .saveVote, Regresses s.disk s'.disk ∧ s'.voter = .idle ∧
      s'.applier = .idle ∧ s'.disk.config ≠ s'.memory.config) (by decide +kernel)
  exact ⟨s, s', hreach, hn, hrest⟩

end Savers

end RollingRaft
