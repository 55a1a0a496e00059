/-
# RollingRaft.Lib.Ballot — durable votes and why one term has one winner.

A ballot is a term and the vote cast in it, if any. Ballots are ordered by "may become": the term
grows, or the term stays and a missing vote is filled in. A voter that keeps a durable ballot, lets
it only grow, and tells others about a vote only once it is durable casts one vote a term.

`Elected` is a certificate that survives: whoever has it for a term keeps it, and two candidates
cannot both have it when any two quorums meet.
-/
import Mathlib.Data.Finset.Basic
import Mathlib.Order.Defs.PartialOrder

namespace RollingRaft.Lib

/-! ## §1 — The order of ballots. -/

structure Ballot (ν : Type*) where
  term : Nat
  vote : Option ν
  deriving DecidableEq

namespace Ballot

variable {ν : Type*} {b c : Ballot ν} {t : Nat} {x y : ν}

instance : PartialOrder (Ballot ν) where
  le b c := b.term < c.term ∨ b.term = c.term ∧ (b.vote = none ∨ b.vote = c.vote)
  le_refl b := .inr ⟨rfl, .inr rfl⟩
  le_trans a b c := by
    rintro (hab | ⟨hab, hv⟩) (hbc | ⟨hbc, hw⟩)
    · exact .inl (hab.trans hbc)
    · exact .inl (hab.trans_eq hbc)
    · exact .inl (hab.trans_lt hbc)
    · refine .inr ⟨hab.trans hbc, ?_⟩
      rcases hv with hv | hv
      · exact .inl hv
      · rw [hv]; exact hw
  le_antisymm a b := by
    rintro (hab | ⟨hab, hv⟩) (hba | ⟨hba, hw⟩)
    · omega
    · omega
    · omega
    · obtain ⟨ta, va⟩ := a
      obtain ⟨tb, vb⟩ := b
      simp only at hab hv hw
      subst hab
      rcases hv with rfl | rfl
      · rcases hw with rfl | rfl <;> rfl
      · rfl

theorem le_of_term_lt (h : b.term < c.term) : b ≤ c := .inl h

/-- Below a vote there is, in its term, only that vote. -/
theorem eq_of_le_of_le_cast (hb : (⟨t, some x⟩ : Ballot ν) ≤ b) (hc : b ≤ ⟨t, some y⟩) : x = y := by
  rcases hb.trans hc with h | ⟨-, h | h⟩
  · exact absurd h (lt_irrefl t)
  · cases h
  · exact Option.some.inj h

end Ballot

/-! ## §2 — One voter. -/

section Voter

variable {ν : Type*} {d d' : Ballot ν} {cast cast' : Nat → ν → Prop} {t : Nat} {x y : ν}

/-- The votes a voter has told others about are durable, one for each term. -/
structure VoterOk (d : Ballot ν) (cast : Nat → ν → Prop) : Prop where
  backed : ∀ {t x}, cast t x → (⟨t, some x⟩ : Ballot ν) ≤ d
  unique : ∀ {t x y}, cast t x → cast t y → x = y

/-- The voter cannot vote for anyone but `x` in term `t` any more. -/
structure Pledged (d : Ballot ν) (cast : Nat → ν → Prop) (t : Nat) (x : ν) : Prop where
  durable : (⟨t, some x⟩ : Ballot ν) ≤ d
  only : ∀ {y}, cast t y → y = x

/-- One step of a voter: the durable ballot grows, and a vote it tells is the durable one. -/
structure VoterStep (d d' : Ballot ν) (cast cast' : Nat → ν → Prop) : Prop where
  grows : d ≤ d'
  tells : ∀ {t x}, cast' t x → cast t x ∨ d' = ⟨t, some x⟩

theorem VoterStep.refl (d : Ballot ν) (cast : Nat → ν → Prop) : VoterStep d d cast cast :=
  ⟨le_rfl, .inl⟩

theorem VoterOk.step (h : VoterOk d cast) (hs : VoterStep d d' cast cast') : VoterOk d' cast' where
  backed := by
    intro t x hx
    rcases hs.tells hx with hx | rfl
    · exact (h.backed hx).trans hs.grows
    · exact le_rfl
  unique := by
    intro t x y hx hy
    rcases hs.tells hx with hx | hx <;> rcases hs.tells hy with hy | hy
    · exact h.unique hx hy
    · exact Ballot.eq_of_le_of_le_cast ((h.backed hx).trans hs.grows) hy.le
    · exact (Ballot.eq_of_le_of_le_cast ((h.backed hy).trans hs.grows) hx.le).symm
    · exact Ballot.eq_of_le_of_le_cast hx.ge hy.le

/-- A pledge is kept. -/
theorem Pledged.step (h : Pledged d cast t x) (hs : VoterStep d d' cast cast') :
    Pledged d' cast' t x where
  durable := h.durable.trans hs.grows
  only := by
    intro y hy
    rcases hs.tells hy with hy | hy
    · exact h.only hy
    · exact (Ballot.eq_of_le_of_le_cast (h.durable.trans hs.grows) hy.le).symm

theorem VoterOk.pledged (h : VoterOk d cast) (hx : cast t x) : Pledged d cast t x :=
  ⟨h.backed hx, fun hy => h.unique hy hx⟩

/-- A durable vote is a pledge even before it is told. -/
theorem VoterOk.pledged_of_eq (h : VoterOk d cast) (hd : d = ⟨t, some x⟩) : Pledged d cast t x :=
  ⟨hd.ge, fun hy => Ballot.eq_of_le_of_le_cast (h.backed hy) hd.le⟩

end Voter

/-! ## §3 — The electorate. -/

section Electorate

variable {ν : Type*} {quorum : Finset ν → Prop} {d d' : ν → Ballot ν}
  {cast cast' : ν → Nat → ν → Prop} {t : Nat} {x y : ν}

/-- A quorum is pledged to `x` in term `t`, and all of it but `x` itself told so. -/
def Elected (quorum : Finset ν → Prop) (d : ν → Ballot ν) (cast : ν → Nat → ν → Prop) (t : Nat)
    (x : ν) : Prop :=
  ∃ q, quorum q ∧ ∀ v ∈ q, Pledged (d v) (cast v) t x ∧ (v = x ∨ cast v t x)

theorem Elected.step (h : Elected quorum d cast t x)
    (hs : ∀ v, VoterStep (d v) (d' v) (cast v) (cast' v))
    (hcast : ∀ v, cast v t x → cast' v t x) : Elected quorum d' cast' t x := by
  obtain ⟨q, hq, hall⟩ := h
  refine ⟨q, hq, fun v hv => ?_⟩
  obtain ⟨hpledged, htold⟩ := hall v hv
  exact ⟨hpledged.step (hs v), htold.imp id (hcast v)⟩

/-- **One winner a term**, when any two quorums meet. -/
theorem Elected.unique (hmeet : ∀ q q', quorum q → quorum q' → ∃ v ∈ q, v ∈ q')
    (hx : Elected quorum d cast t x) (hy : Elected quorum d cast t y) : x = y := by
  obtain ⟨q, hq, hall⟩ := hx
  obtain ⟨q', hq', hall'⟩ := hy
  obtain ⟨v, hv, hv'⟩ := hmeet q q' hq hq'
  obtain ⟨hpledged, hown⟩ := hall v hv
  obtain ⟨hpledged', hown'⟩ := hall' v hv'
  rcases hown' with rfl | htold'
  · rcases hown with rfl | htold
    · rfl
    · exact hpledged'.only htold
  · exact (hpledged.only htold').symm

end Electorate

end RollingRaft.Lib
