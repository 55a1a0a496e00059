/-
# RollingRaft.Lib.Transition — guarded, executable transition systems and their invariants.

A system is a set of initial states and a partial step function: `next s e` is the state after
event `e`, or nothing when `e` is not enabled in `s`. One definition serves replay (`replay` runs a
list of events, so a concrete scenario is decided by evaluation) and proof (`Reachable`, with the
rule that an invariant holds initially and along every enabled event).

`ReachableWith C` is reachability by runs all of whose steps meet `C`, a condition on the state
before the step and the event.
-/
import Mathlib.Data.List.Basic
import Mathlib.Tactic.Common

namespace RollingRaft.Lib

/-- A transition system: initial states and a partial step function. -/
structure TransitionSystem (σ ε : Type*) where
  init : σ → Prop
  next : σ → ε → Option σ

namespace TransitionSystem

variable {σ ε : Type*} {S : TransitionSystem σ ε} {C : σ → ε → Prop}

/-- A state that some run leads to. The condition `C` holds of every step of the run. -/
inductive ReachableWith (S : TransitionSystem σ ε) (C : σ → ε → Prop) : σ → Prop
  | init {s : σ} : S.init s → ReachableWith S C s
  | step {s s' : σ} {e : ε} : ReachableWith S C s → C s e → S.next s e = some s' →
      ReachableWith S C s'

/-- A state that some run leads to, with no condition on its steps. -/
def Reachable (S : TransitionSystem σ ε) : σ → Prop := S.ReachableWith fun _ _ => True

/-- `s'` is a later state of a run through `s` whose steps all meet `C`. -/
inductive Later (S : TransitionSystem σ ε) (C : σ → ε → Prop) : σ → σ → Prop
  | refl (s : σ) : Later S C s s
  | step {s s' s'' : σ} {e : ε} : Later S C s s' → C s' e → S.next s' e = some s'' → Later S C s s''

/-- **The invariant rule.** What holds initially and is kept by every enabled step that meets the
condition holds in every state of every such run. -/
theorem ReachableWith.invariant {Inv : σ → Prop} (hinit : ∀ s, S.init s → Inv s)
    (hstep : ∀ s e s', Inv s → C s e → S.next s e = some s' → Inv s') {s : σ}
    (h : S.ReachableWith C s) : Inv s := by
  induction h with
  | init h0 => exact hinit _ h0
  | step _ hc hn ih => exact hstep _ _ _ ih hc hn

variable {D : σ → ε → Prop}

theorem ReachableWith.mono (hCD : ∀ s e, C s e → D s e) {s : σ}
    (h : S.ReachableWith C s) : S.ReachableWith D s := by
  induction h with
  | init h0 => exact .init h0
  | step _ hc hn ih => exact .step ih (hCD _ _ hc) hn

theorem ReachableWith.reachable {s : σ} (h : S.ReachableWith C s) : S.Reachable s :=
  h.mono fun _ _ _ => trivial

theorem Later.reachable {s s' : σ} (h : S.Later C s s') (hs : S.ReachableWith C s) :
    S.ReachableWith C s' := by
  induction h with
  | refl => exact hs
  | step _ hc hn ih => exact .step ih hc hn

variable {P : σ → Prop}

/-- What every step keeps, once it holds, holds in every later state. -/
theorem Later.stable
    (hstep : ∀ s e s', P s → C s e → S.next s e = some s' → P s') {s s' : σ}
    (h : S.Later C s s') (hs : P s) : P s' := by
  induction h with
  | refl => exact hs
  | step _ hc hn ih => exact hstep _ _ _ ih hc hn

theorem Later.mono (hCD : ∀ s e, C s e → D s e) {s s' : σ}
    (h : S.Later C s s') : S.Later D s s' := by
  induction h with
  | refl => exact .refl _
  | step _ hc hn ih => exact .step ih (hCD _ _ hc) hn

theorem Later.trans {s s' s'' : σ} (h : S.Later C s s') (h' : S.Later C s' s'') :
    S.Later C s s'' := by
  induction h' with
  | refl => exact h
  | step _ hc hn ih => exact .step ih hc hn

/-- The events `es`, one after the other, lead from `s` to `s'`. -/
inductive Path (S : TransitionSystem σ ε) : σ → List ε → σ → Prop
  | nil (s : σ) : Path S s [] s
  | cons {s s' s'' : σ} {e : ε} {es : List ε} : S.next s e = some s' → Path S s' es s'' →
      Path S s (e :: es) s''

namespace Path

variable {s s' s'' : σ} {e : ε} {es es' : List ε}

theorem single (h : S.next s e = some s') : S.Path s [e] s' := .cons h (.nil s')

theorem next_single (h : S.Path s [e] s') : S.next s e = some s' := by
  cases h with
  | cons hn hnil =>
    cases hnil
    exact hn

theorem eq_of_nil (h : S.Path s [] s') : s' = s := by
  cases h
  rfl

theorem split (h : S.Path s (es ++ es') s'') : ∃ s', S.Path s es s' ∧ S.Path s' es' s'' := by
  induction es generalizing s with
  | nil => exact ⟨s, .nil s, h⟩
  | cons e es ih =>
    cases h with
    | cons hn hrest =>
      obtain ⟨s', hes, hes'⟩ := ih hrest
      exact ⟨s', .cons hn hes, hes'⟩

theorem invariant (hstep : ∀ s s', ∀ e ∈ es, P s → S.next s e = some s' → P s')
    (h : S.Path s es s') (hs : P s) : P s' := by
  induction h with
  | nil => exact hs
  | cons hn _ ih =>
    refine ih (fun s s' e he => hstep s s' e (List.mem_cons_of_mem _ he)) ?_
    exact hstep _ _ _ List.mem_cons_self hs hn

end Path

/-- The system with a history: what its steps let one observe, the latest first. -/
def recording {α : Type*} (S : TransitionSystem σ ε) (observe : σ → ε → σ → List α) :
    TransitionSystem (σ × List α) ε where
  init s := S.init s.1 ∧ s.2 = []
  next s e := (S.next s.1 e).map fun s' => (s', observe s.1 e s' ++ s.2)

theorem recording_next {α : Type*} {observe : σ → ε → σ → List α} {s s' : σ × List α} {e : ε}
    (h : (S.recording observe).next s e = some s') :
    S.next s.1 e = some s'.1 ∧ s'.2 = observe s.1 e s'.1 ++ s.2 := by
  obtain ⟨s₁, hs₁, rfl⟩ := Option.map_eq_some_iff.mp h
  exact ⟨hs₁, rfl⟩

/-- Run a list of events, checking `ok` before each; nothing when an event is refused. -/
def replay (S : TransitionSystem σ ε) (ok : σ → ε → Bool) (s : σ) : List ε → Option σ
  | [] => some s
  | e :: es =>
    if ok s e then
      match S.next s e with
      | some s' => S.replay ok s' es
      | none => none
    else none

/-- The states that a list of events leads through, one after each event; nothing when an event is
refused. -/
def trace (S : TransitionSystem σ ε) (s : σ) : List ε → Option (List σ)
  | [] => some []
  | e :: es =>
    match S.next s e with
    | some s' => (S.trace s' es).map (s' :: ·)
    | none => none

theorem trace_cons {s : σ} {e : ε} {es : List ε} {ss : List σ} :
    S.trace s (e :: es) = some ss ↔
      ∃ s' ss', S.next s e = some s' ∧ S.trace s' es = some ss' ∧ ss = s' :: ss' := by
  rw [trace]
  cases S.next s e with
  | none => simp
  | some s' =>
    constructor
    · intro h
      obtain ⟨ss', hss, rfl⟩ := Option.map_eq_some_iff.mp h
      exact ⟨s', ss', rfl, hss, rfl⟩
    · rintro ⟨s₁, ss', hs, hss, rfl⟩
      cases hs
      exact Option.map_eq_some_iff.mpr ⟨ss', hss, rfl⟩

variable {ok : σ → ε → Bool}

theorem later_of_replay {s s' : σ} {es : List ε}
    (h : S.replay ok s es = some s') : S.Later (fun s e => ok s e = true) s s' := by
  induction es generalizing s with
  | nil =>
    obtain rfl : s = s' := by simpa [replay] using h
    exact .refl s
  | cons e es ih =>
    simp only [replay] at h
    split at h
    case isFalse => cases h
    case isTrue hok =>
      split at h
      · rename_i s₁ hn
        exact (Later.step (.refl s) hok hn).trans (ih h)
      · cases h

/-- The end of a replay that starts in a reachable state is reachable, and every step was checked. -/
theorem reachableWith_of_replay {s s' : σ} {es : List ε}
    (hs : S.ReachableWith (fun s e => ok s e = true) s) (h : S.replay ok s es = some s') :
    S.ReachableWith (fun s e => ok s e = true) s' :=
  (later_of_replay h).reachable hs

/-- A run all of whose steps meet `C` reaches what holds at its end. -/
theorem reachesWith (S : TransitionSystem σ ε) (C : σ → ε → Prop) [∀ s e, Decidable (C s e)] {s : σ}
    (es : List ε) (hs : S.init s) [DecidablePred P]
    (h : (S.replay (fun s e => decide (C s e)) s es).any (fun s => decide (P s)) = true) :
    ∃ s', S.ReachableWith C s' ∧ P s' := by
  obtain ⟨s', hreplay, hp⟩ := (Option.any_eq_true ..).mp h
  have hreach := reachableWith_of_replay (.init hs) hreplay
  exact ⟨s', hreach.mono fun _ _ hc => of_decide_eq_true hc, of_decide_eq_true hp⟩

/-- A run reaches what holds at its end. -/
theorem reaches (S : TransitionSystem σ ε) {s : σ} (es : List ε) (hs : S.init s)
    [DecidablePred P] (h : (S.replay (fun _ _ => decide True) s es).any (fun s => decide (P s)) = true) :
    ∃ s', S.Reachable s' ∧ P s' :=
  S.reachesWith (fun _ _ => True) es hs h

end TransitionSystem

/-- The history `l'` goes on from `l` with items of which `P` holds. -/
def GoesOn {α : Type*} (P : α → Prop) (l l' : List α) : Prop :=
  ∃ new, l' = l ++ new ∧ ∀ a ∈ new, P a

namespace GoesOn

variable {α : Type*} {P Q : α → Prop} {l l' l'' : List α} {a : α}

theorem of_eq (h : l' = l) : GoesOn P l l' := ⟨[], by rw [h, List.append_nil], by simp⟩

theorem single (ha : P a) : GoesOn P l (l ++ [a]) := ⟨[a], rfl, by simpa using ha⟩

theorem trans (h : GoesOn P l l') (h' : GoesOn P l' l'') : GoesOn P l l'' := by
  obtain ⟨new, rfl, hnew⟩ := h
  obtain ⟨new', rfl, hnew'⟩ := h'
  exact ⟨new ++ new', List.append_assoc .., List.forall_mem_append.mpr ⟨hnew, hnew'⟩⟩

theorem mono (h : GoesOn P l l') (hPQ : ∀ a, P a → Q a) : GoesOn Q l l' :=
  h.imp fun _ h => ⟨h.1, fun a ha => hPQ a (h.2 a ha)⟩

theorem mem (h : GoesOn P l l') (ha : a ∈ l) : a ∈ l' := by
  obtain ⟨new, rfl, -⟩ := h
  exact List.mem_append_left _ ha

theorem mem_or (h : GoesOn P l l') (ha : a ∈ l') : a ∈ l ∨ P a := by
  obtain ⟨new, rfl, hnew⟩ := h
  exact (List.mem_append.mp ha).imp id (hnew a)

end GoesOn

end RollingRaft.Lib
