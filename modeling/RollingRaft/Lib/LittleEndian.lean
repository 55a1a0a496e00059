/-
# RollingRaft.Lib.LittleEndian — unsigned integers as little-endian bytes.

`leBytes w n` is what copying a `w`-byte unsigned integer into memory gives, `leNat` the value of
such bytes. A number that fits is read back; a field of `w` bytes can be taken off the front of
whatever follows it.
-/
import RollingRaft.Lib.ByteString

namespace RollingRaft.Lib

/-- The low `width` bytes of `n`, the least significant first. -/
def leBytes : Nat → Nat → Bytes
  | 0, _ => []
  | width + 1, n => UInt8.ofNat n :: leBytes width (n / 256)

/-- The number that bytes stand for, the least significant first. -/
def leNat : Bytes → Nat
  | [] => 0
  | b :: bytes => b.toNat + 256 * leNat bytes

variable (width : Nat) (bytes : Bytes) (n : Nat) (rest : Bytes)

@[simp] theorem length_leBytes : (leBytes width n).length = width := by
  induction width generalizing n with
  | zero => rfl
  | succ width ih => simp [leBytes, ih]

theorem leNat_leBytes : leNat (leBytes width n) = n % 256 ^ width := by
  induction width generalizing n with
  | zero => simp [leBytes, leNat, Nat.mod_one]
  | succ width ih =>
    have hbyte : (UInt8.ofNat n).toNat = n % 256 := by simp
    rw [leBytes, leNat, ih, hbyte, Nat.pow_succ, Nat.mul_comm (256 ^ width), Nat.mod_mul]

theorem leNat_leBytes_of_lt {width n : Nat} (h : n < 256 ^ width) : leNat (leBytes width n) = n := by
  rw [leNat_leBytes, Nat.mod_eq_of_lt h]

theorem leNat_lt : leNat bytes < 256 ^ bytes.length := by
  induction bytes with
  | nil => simp [leNat]
  | cons b bytes ih =>
    have hb : b.toNat < 256 := b.toNat_lt
    simp only [leNat, List.length_cons, Nat.pow_succ]
    omega

@[simp] theorem take_leBytes_append : (leBytes width n ++ rest).take width = leBytes width n :=
  List.take_left' (length_leBytes width n)

@[simp] theorem drop_leBytes_append : (leBytes width n ++ rest).drop width = rest :=
  List.drop_left' (length_leBytes width n)

theorem drop_leBytes_of_le {width n k : Nat} (h : width ≤ k) : (leBytes width n).drop k = [] :=
  List.drop_eq_nil_of_le (by simpa using h)

theorem leBytes_leNat : leBytes bytes.length (leNat bytes) = bytes := by
  induction bytes with
  | nil => rfl
  | cons b bytes ih =>
    have hb : b.toNat < 256 := b.toNat_lt
    have hlow : UInt8.ofNat (b.toNat + 256 * leNat bytes) = b := by
      apply UInt8.toNat_inj.mp
      rw [UInt8.toNat_ofNat']
      omega
    have hhigh : (b.toNat + 256 * leNat bytes) / 256 = leNat bytes := by omega
    rw [List.length_cons, leBytes, leNat, hlow, hhigh, ih]

theorem leNat_leBytes_le : leNat (leBytes width n) ≤ n := by
  rw [leNat_leBytes]
  exact Nat.mod_le n _

example : leBytes 4 0x57414C30 = [0x30, 0x4C, 0x41, 0x57] := by decide +kernel

end RollingRaft.Lib
