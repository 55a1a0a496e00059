/-
# RollingRaft.Lib.ByteString — byte strings and the searches a hand-written text protocol makes.

A byte string is a list of bytes, so every operation below runs in the kernel on a concrete text.
The operations are the ones of the C++ standard string: `find` (first occurrence at or after a
position, or nothing), `substr`, `starts_with`, the last occurrence of a byte, and the two decimal
readers `stoi` and `stoull` (leading blanks and a sign are accepted, trailing text is ignored, no
digits or a value out of range is an exception).

What is proved is what a client of `find` needs: where it stops, that nothing matched before, and
how cutting a string at the first occurrence of a byte interacts with prefixes and with a second
cut.
-/
import Mathlib.Algebra.Ring.Int.Defs
import Mathlib.Algebra.Ring.Nat
import Mathlib.Data.List.Basic
import Mathlib.Tactic.Common

namespace RollingRaft.Lib

/-! ## §1 — Byte strings and literals. -/

/-- A C++ `std::string`: a sequence of bytes, with no assumption on the encoding. -/
abbrev Bytes := List UInt8

/-- The bytes of an ASCII literal. Irreducible, so that unification never compares two literals byte
by byte; a fact about literals is decided in the kernel. -/
@[irreducible] def ascii (s : String) : Bytes := s.toList.map fun c => UInt8.ofNat c.toNat

/-- `a.starts_with(b)`. -/
def startsWith (text lead : Bytes) : Bool := lead.isPrefixOf text

variable {text lead needle hay : Bytes} {c : UInt8}

theorem startsWith_iff : startsWith text lead = true ↔ lead <+: text := by
  simp [startsWith]

/-! ## §2 — Searching. -/

/-- `hay.find(needle)`: the least position at which `needle` occurs. -/
def find (needle : Bytes) : Bytes → Option Nat
  | [] => if needle.isEmpty then some 0 else none
  | b :: rest =>
    if needle.isPrefixOf (b :: rest) then some 0 else (find needle rest).map (· + 1)

/-- `hay.find(needle, pos)`. -/
def findFrom (needle hay : Bytes) (pos : Nat) : Option Nat :=
  if pos ≤ hay.length then (find needle (hay.drop pos)).map (· + pos) else none

/-- `hay.find(c)` for a single byte. -/
def findByte (c : UInt8) (hay : Bytes) : Option Nat := find [c] hay

/-- `hay.find_last_of(c)`. -/
def findLastOf (c : UInt8) : Bytes → Option Nat
  | [] => none
  | b :: rest =>
    match findLastOf c rest with
    | some i => some (i + 1)
    | none => if b = c then some 0 else none

/-- `s.substr(pos, n)`; `pos` is at most the length at every call. -/
def substr (s : Bytes) (pos n : Nat) : Bytes := (s.drop pos).take n

/-- `s.substr(pos)`. -/
def substrFrom (s : Bytes) (pos : Nat) : Bytes := s.drop pos

theorem find_isPrefix :
    ∀ {hay : Bytes} {i : Nat}, find needle hay = some i → needle <+: hay.drop i
  | [], i, h => by
      simp only [find] at h
      split at h
      · simp_all
      · cases h
  | b :: rest, i, h => by
      simp only [find] at h
      split at h
      case isTrue hp =>
        obtain rfl : 0 = i := by simpa using h
        simpa using hp
      case isFalse hp =>
        obtain ⟨j, hj, rfl⟩ := Option.map_eq_some_iff.mp h
        simpa using find_isPrefix hj

theorem find_split {i : Nat} (h : find needle hay = some i) :
    hay = hay.take i ++ needle ++ hay.drop (i + needle.length) := by
  obtain ⟨rest, hrest⟩ := find_isPrefix h
  have htail : hay.drop (i + needle.length) = rest := by
    rw [← List.drop_drop, ← hrest, List.drop_left]
  rw [htail, List.append_assoc, hrest, List.take_append_drop]

theorem findFrom_split {pos e : Nat} (h : findFrom needle hay pos = some e) :
    pos ≤ e ∧ hay = hay.take pos ++ substr hay pos (e - pos) ++ needle
      ++ hay.drop (e + needle.length) := by
  simp only [findFrom] at h
  split at h
  case isFalse => cases h
  case isTrue =>
    obtain ⟨i, hi, rfl⟩ := Option.map_eq_some_iff.mp h
    refine ⟨by omega, ?_⟩
    have hsplit := find_split hi
    have htail : hay.drop (i + pos + needle.length) = (hay.drop pos).drop (i + needle.length) := by
      rw [List.drop_drop]; congr 1; omega
    rw [htail, substr, Nat.add_sub_cancel, List.append_assoc, List.append_assoc,
      ← List.append_assoc _ needle, ← hsplit, List.take_append_drop]

theorem find_le_of_isPrefix {i : Nat} (h : needle <+: hay.drop i) (hi : i ≤ hay.length) :
    ∃ j, find needle hay = some j ∧ j ≤ i := by
  induction hay generalizing i with
  | nil =>
    rw [List.drop_nil, List.prefix_nil] at h
    exact ⟨0, by simp [find, h], Nat.zero_le i⟩
  | cons b rest ih =>
    rw [find]
    split
    · exact ⟨0, rfl, Nat.zero_le i⟩
    rename_i hno
    cases i with
    | zero => exact absurd (List.isPrefixOf_iff_prefix.mpr h) hno
    | succ i =>
      obtain ⟨j, hj, hle⟩ := ih h (Nat.le_of_succ_le_succ hi)
      exact ⟨j + 1, by rw [hj, Option.map_some], Nat.succ_le_succ hle⟩

theorem find_append_of_not_mem (h : c ∉ lead) (needle rest : Bytes) :
    find (c :: needle) (lead ++ rest) = (find (c :: needle) rest).map (· + lead.length) := by
  induction lead with
  | nil => simp
  | cons b lead ih =>
    obtain ⟨hb, hlead⟩ := not_or.mp (List.mem_cons.not.mp h)
    have hno : (c :: needle).isPrefixOf (b :: (lead ++ rest)) = false := by
      simp [List.isPrefixOf, hb]
    rw [List.cons_append, find, hno, if_neg Bool.false_ne_true, ih hlead, Option.map_map]
    rfl

theorem findByte_append (h : c ∉ lead) (rest : Bytes) :
    findByte c (lead ++ c :: rest) = some lead.length := by
  rw [findByte, find_append_of_not_mem h]
  simp [find]

theorem findByte_of_not_mem (h : c ∉ text) : findByte c text = none := by
  have hnone := find_append_of_not_mem h [] []
  simpa [findByte, find] using hnone

/-! ## §3 — Cutting at the first occurrence of a byte. -/

/-- The part of `s` before the first `c`, the whole of `s` when there is none. -/
def cutAt (c : UInt8) (s : Bytes) : Bytes :=
  match findByte c s with
  | some i => s.take i
  | none => s

theorem cutAt_cons (c b : UInt8) (s : Bytes) :
    cutAt c (b :: s) = if b = c then [] else b :: cutAt c s := by
  by_cases hb : b = c
  · subst hb; simp [cutAt, findByte, find]
  have hne : ¬ c = b := fun h => hb h.symm
  simp only [cutAt, findByte, find, List.isPrefixOf, Bool.and_true,
    beq_iff_eq, hne, if_false, if_neg hb]
  cases find [c] s <;> simp

theorem not_mem_cutAt (c : UInt8) (s : Bytes) : c ∉ cutAt c s := by
  induction s with
  | nil => exact List.not_mem_nil
  | cons b s ih =>
    rw [cutAt_cons]
    split
    · simp
    rename_i hb
    simp only [List.mem_cons, not_or]
    exact ⟨fun h => hb h.symm, ih⟩

theorem cutAt_of_not_mem {s : Bytes} (h : c ∉ s) : cutAt c s = s := by
  induction s with
  | nil => rfl
  | cons b s ih =>
    simp only [List.mem_cons, not_or] at h
    rw [cutAt_cons, if_neg (fun hb => h.1 hb.symm), ih h.2]

@[simp] theorem cutAt_cutAt (c : UInt8) (s : Bytes) : cutAt c (cutAt c s) = cutAt c s :=
  cutAt_of_not_mem (not_mem_cutAt c s)

theorem isPrefix_cutAt {s : Bytes} (hlead : c ∉ lead) (h : lead <+: s) : lead <+: cutAt c s := by
  induction lead generalizing s with
  | nil => exact List.nil_prefix
  | cons b lead ih =>
    obtain ⟨rest, rfl⟩ := h
    simp only [List.mem_cons, not_or] at hlead
    rw [List.cons_append, cutAt_cons, if_neg (fun hb => hlead.1 hb.symm)]
    exact List.cons_prefix_cons.mpr ⟨rfl, ih hlead.2 (List.prefix_append ..)⟩

/-! ## §4 — Decimal readers. -/

/-- `isspace` of the C locale. -/
def isSpace (b : UInt8) : Bool := b = 32 || (9 ≤ b && b ≤ 13)

def isDigit (b : UInt8) : Bool := 48 ≤ b && b ≤ 57

/-- The value of the longest run of leading digits, `none` when there is no digit. -/
def digits (s : Bytes) : Option Nat :=
  match s.takeWhile isDigit with
  | [] => none
  | ds => some (ds.foldl (fun acc b => 10 * acc + (b.toNat - 48)) 0)

/-- The number `strtol`/`strtoull` sees: blanks, an optional sign, digits. -/
def signedDigits (s : Bytes) : Option (Bool × Nat) :=
  match s.dropWhile isSpace with
  | 45 :: rest => (digits rest).map (true, ·)
  | 43 :: rest => (digits rest).map (false, ·)
  | rest => (digits rest).map (false, ·)

/-- `std::stoi`: `none` is `std::invalid_argument` or `std::out_of_range`. -/
def stoi (s : Bytes) : Option Int :=
  match signedDigits s with
  | none => none
  | some (neg, n) =>
    let v : Int := if neg then -n else n
    if -2 ^ 31 ≤ v ∧ v < 2 ^ 31 then some v else none

def stoll (s : Bytes) : Option Int :=
  match signedDigits s with
  | none => none
  | some (neg, n) =>
    let v : Int := if neg then -n else n
    if -2 ^ 63 ≤ v ∧ v < 2 ^ 63 then some v else none

/-- `std::stoull`: the magnitude has to fit 64 bits, and a minus sign negates modulo `2^64`. -/
def stoull (s : Bytes) : Option Nat :=
  match signedDigits s with
  | none => none
  | some (neg, n) =>
    if n < 2 ^ 64 then some (if neg then (2 ^ 64 - n) % 2 ^ 64 else n) else none

example : stoi (ascii " -42abc") = some (-42) := by decide +kernel

end RollingRaft.Lib
