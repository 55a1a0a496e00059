/-
# RollingRaft.Lib.Accounting — counting tokens in lists and tables.

The lemmas behind "each token is in at most one place": what removing one element, overwriting one
element or taking one entry out of a keyed table does to a count. Everything is an equation (or
bound) between natural numbers, so a caller finishes with linear arithmetic.
-/
import Mathlib.Algebra.Ring.Int.Defs
import Mathlib.Algebra.Ring.Nat
import Mathlib.Data.List.AList
import Mathlib.Algebra.BigOperators.Group.List.Basic

namespace RollingRaft.Lib

variable {α : Type*}

/-! ## §1 — Lists. -/

variable {l : List α}

/-- Removing the element at a position takes exactly its own count away. -/
theorem countP_eraseIdx {i : Nat} {x : α} (p : α → Bool) (h : l[i]? = some x) :
    (l.eraseIdx i).countP p + (if p x then 1 else 0) = l.countP p := by
  induction l generalizing i with
  | nil => simp at h
  | cons y l ih =>
    cases i with
    | zero =>
      obtain rfl : y = x := by simpa using h
      simp [List.countP_cons]
    | succ i =>
      have htail := ih (by simpa using h)
      simp only [List.eraseIdx_cons_succ, List.countP_cons]
      omega

theorem sum_map_set {i : Nat} {x : α} (f : α → Nat) (y : α) (h : l[i]? = some x) :
    ((l.set i y).map f).sum + f x = (l.map f).sum + f y := by
  induction l generalizing i with
  | nil => simp at h
  | cons z l ih =>
    cases i with
    | zero =>
      obtain rfl : z = x := by simpa using h
      simp only [List.set_cons_zero, List.map_cons, List.sum_cons]
      omega
    | succ i =>
      have htail := ih (by simpa using h)
      simp only [List.set_cons_succ, List.map_cons, List.sum_cons]
      omega

/-- Elements numbered one after the other: those up to a bound are a leading part. -/
theorem takeWhile_of_numbered {f : α → Nat} {a n : Nat} (h : l.map f = List.range' a n)
    (bound : Nat) :
    l.takeWhile (fun x => f x ≤ bound) = l.take (bound + 1 - a) ∧
      l.dropWhile (fun x => f x ≤ bound) = l.drop (bound + 1 - a) := by
  induction l generalizing a n with
  | nil => simp
  | cons x l ih =>
    cases n with
    | zero => simp at h
    | succ n =>
      rw [List.range'_succ, List.map_cons] at h
      obtain ⟨hx, hl⟩ := List.cons.inj h
      obtain ⟨htake, hdrop⟩ := ih hl
      by_cases hle : a ≤ bound
      · have hlen : bound + 1 - a = (bound + 1 - (a + 1)) + 1 := by omega
        rw [List.takeWhile_cons_of_pos (by simpa [hx] using hle),
          List.dropWhile_cons_of_pos (by simpa [hx] using hle), hlen, List.take_succ_cons,
          List.drop_succ_cons, htake, hdrop]
        exact ⟨rfl, rfl⟩
      have hlen : bound + 1 - a = 0 := by omega
      rw [List.takeWhile_cons_of_neg (by simpa [hx] using hle),
        List.dropWhile_cons_of_neg (by simpa [hx] using hle), hlen]
      exact ⟨rfl, rfl⟩

theorem filter_of_numbered {f : α → Nat} {s : Nat} (a b : Nat)
    (h : ∀ k x, l[k]? = some x → f x = s + k) :
    l.filter (fun x => a ≤ f x && f x < b) = (l.drop (a - s)).take (b - max a s) := by
  induction l generalizing s with
  | nil => simp
  | cons x l ih =>
    have hx : f x = s := h 0 x rfl
    have htail := ih (s := s + 1) fun k y hk => (h (k + 1) y hk).trans (by omega)
    rw [List.filter_cons, htail, hx]
    rcases Nat.lt_or_ge s a with hlt | hge
    · rw [show a - s = a - (s + 1) + 1 by omega, List.drop_succ_cons,
        show max a (s + 1) = max a s by omega]
      simp [Nat.not_le.mpr hlt]
    · rw [show a - s = 0 by omega, show a - (s + 1) = 0 by omega, show max a s = s by omega,
        show max a (s + 1) = s + 1 by omega, List.drop_zero, List.drop_zero]
      rcases Nat.lt_or_ge s b with hb | hb
      · rw [show b - s = b - (s + 1) + 1 by omega, List.take_succ_cons]
        simp [hge, hb]
      · rw [show b - s = 0 by omega, show b - (s + 1) = 0 by omega]
        simp [Nat.not_lt.mpr hb]

theorem take_clamped (a b s : Nat) (l : List α) :
    (if b ≤ a || l.isEmpty then []
      else if min b (s + l.length) ≤ max a s then []
      else (l.drop (max a s - s)).take (min b (s + l.length) - max a s)) =
      (l.drop (a - s)).take (b - max a s) := by
  rw [show max a s - s = a - s by omega]
  split
  · rename_i hnone
    simp only [Bool.or_eq_true, decide_eq_true_eq, List.isEmpty_iff] at hnone
    rcases hnone with hle | rfl
    · rw [show b - max a s = 0 by omega, List.take_zero]
    · simp
  split
  · symm
    apply List.eq_nil_of_length_eq_zero
    rw [List.length_take, List.length_drop]
    omega
  · rw [List.take_eq_take_iff, List.length_drop]
    omega

/-! ## §2 — Keyed tables. -/

section Table

variable {β : α → Type*} [DecidableEq α] {a : AList β} {k : α}

theorem lookup_of_erase {j : α} {v : β j} (h : (a.erase k).lookup j = some v) :
    a.lookup j = some v := by
  by_cases hjk : j = k
  · subst hjk
    rw [AList.lookup_erase] at h
    cases h
  · rwa [AList.lookup_erase_ne hjk] at h

/-- A stored entry splits the entry list, and erasing its key leaves the two sides. -/
theorem entries_split {v : β k} (h : a.lookup k = some v) :
    ∃ l₁ l₂, a.entries = l₁ ++ ⟨k, v⟩ :: l₂ ∧ (a.erase k).entries = l₁ ++ l₂ := by
  have hmem : (⟨k, v⟩ : Sigma β) ∈ a.entries := AList.mem_lookup_iff.mp h
  obtain ⟨w, l₁, l₂, -, hsplit, herase⟩ := List.exists_of_kerase (List.mem_keys_of_mem hmem)
  refine ⟨l₁, l₂, ?_, herase⟩
  -- the entry the split found is the stored one, since keys are unique
  have hw : (⟨k, w⟩ : Sigma β) ∈ a.entries := by rw [hsplit]; simp
  have heq : w = v := by
    have := AList.mem_lookup_iff.mpr hw
    rw [h] at this
    exact (Option.some.inj this).symm
  rw [hsplit, heq]

theorem countP_erase_of_lookup {v : β k} (p : Sigma β → Bool) (h : a.lookup k = some v) :
    (a.erase k).entries.countP p + (if p ⟨k, v⟩ then 1 else 0) = a.entries.countP p := by
  obtain ⟨l₁, l₂, hsplit, herase⟩ := entries_split h
  rw [hsplit, herase, List.countP_append, List.countP_append, List.countP_cons]
  omega

/-- Storing an entry adds at most its own count: an overwritten entry is lost. -/
theorem countP_insert_le (a : AList β) (k : α) (v : β k) (p : Sigma β → Bool) :
    (a.insert k v).entries.countP p ≤ a.entries.countP p + (if p ⟨k, v⟩ then 1 else 0) := by
  have hle : (a.entries.kerase k).countP p ≤ a.entries.countP p :=
    (List.kerase_sublist k a.entries).countP_le
  rw [AList.entries_insert, List.countP_cons]
  omega

theorem countP_congr {b : AList β} {p : Sigma β → Bool}
    (h : ∀ e, p e = true → a.lookup e.1 = b.lookup e.1) :
    a.entries.countP p = b.entries.countP p := by
  rw [List.countP_eq_length_filter, List.countP_eq_length_filter]
  apply List.Perm.length_eq
  refine (List.perm_ext_iff_of_nodup (a.nodupKeys.nodup.filter _)
    (b.nodupKeys.nodup.filter _)).mpr fun e => ?_
  simp only [List.mem_filter, and_congr_left_iff]
  intro he
  rw [← AList.mem_lookup_iff, ← AList.mem_lookup_iff, h e he]

end Table

end RollingRaft.Lib
