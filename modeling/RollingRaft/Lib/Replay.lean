/-
# RollingRaft.Lib.Replay — pointwise updates of a map, and replaying a log of them twice.

An update says for each key whether it sets the key (to a value or to nothing) or leaves it alone.
Such updates forget the past at the keys they touch, so replaying a whole log over a state that
already contains the effect of a leading part of it gives the same state as replaying it from the
start: the rule behind recovery from a checkpoint that was taken in the middle of a log.
-/
import Mathlib.Data.List.Basic
import Mathlib.Tactic.Common

namespace RollingRaft.Lib

/-- What happens to each key: nothing, or a new content (possibly none). -/
def Update (κ α : Type*) := κ → Option (Option α)

namespace Update

variable {κ α : Type*}

def apply (u : Update κ α) (m : κ → Option α) : κ → Option α := fun k => (u k).getD (m k)

def replay (log : List (Update κ α)) (m : κ → Option α) : κ → Option α :=
  log.foldl (fun m u => u.apply m) m

@[simp] theorem replay_nil (m : κ → Option α) : replay [] m = m := rfl

@[simp] theorem replay_cons (u : Update κ α) (log : List (Update κ α)) (m : κ → Option α) :
    replay (u :: log) m = replay log (u.apply m) := rfl

def Touches (log : List (Update κ α)) (k : κ) : Prop := ∃ u ∈ log, u k ≠ none

variable {log : List (Update κ α)}

/-- A key that no update touches keeps its content. -/
theorem replay_of_not_touches {k : κ} (h : ¬ Touches log k)
    (m : κ → Option α) : replay log m k = m k := by
  induction log generalizing m with
  | nil => rfl
  | cons u log ih =>
    have hu : u k = none := by
      by_contra hne
      exact h ⟨u, List.mem_cons_self, hne⟩
    have hlog : ¬ Touches log k := fun ⟨v, hv, hne⟩ => h ⟨v, List.mem_cons_of_mem _ hv, hne⟩
    rw [replay_cons, ih hlog, apply, hu, Option.getD_none]

/-- A key that the log touches ends with a content that does not depend on the start. -/
theorem replay_of_touches {k : κ} (h : Touches log k)
    (m m' : κ → Option α) : replay log m k = replay log m' k := by
  induction log generalizing m m' with
  | nil =>
    obtain ⟨u, hu, -⟩ := h
    exact absurd hu List.not_mem_nil
  | cons u log ih =>
    rw [replay_cons, replay_cons]
    by_cases hlog : Touches log k
    · exact ih hlog _ _
    rw [replay_of_not_touches hlog, replay_of_not_touches hlog]
    obtain ⟨v, hv, hne⟩ := h
    rcases List.mem_cons.mp hv with rfl | hv
    · obtain ⟨a, ha⟩ := Option.ne_none_iff_exists'.mp hne
      rw [apply, apply, ha, Option.getD_some, Option.getD_some]
    · exact absurd ⟨v, hv, hne⟩ hlog

/-- **Replaying over an advanced state.** A log replayed over the effect of a leading part of itself
gives what it gives from the start. -/
theorem replay_over_part (done rest : List (Update κ α)) (m : κ → Option α) :
    replay (done ++ rest) (replay done m) = replay (done ++ rest) m := by
  funext k
  by_cases h : Touches (done ++ rest) k
  · exact replay_of_touches h _ _
  have hdone : ¬ Touches done k := fun ⟨u, hu, hne⟩ => h ⟨u, List.mem_append_left _ hu, hne⟩
  rw [replay_of_not_touches h, replay_of_not_touches hdone, replay_of_not_touches h]

end Update

end RollingRaft.Lib
