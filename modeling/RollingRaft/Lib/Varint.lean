/-
# RollingRaft.Lib.Varint — base-128 integers.

Seven bits a byte, the low ones first; the high bit of a byte says that another one follows. A number
below `128 ^ width` takes at most `width` bytes and is read back from whatever follows it.
-/
import RollingRaft.Lib.ByteString

namespace RollingRaft.Lib

/-- The base-128 digits of `n`, at most `width` of them. -/
def varint : Nat → Nat → Bytes
  | 0, _ => []
  | width + 1, n =>
    if n < 128 then [UInt8.ofNat n] else UInt8.ofNat (n % 128 + 128) :: varint width (n / 128)

/-- The number at the front of a text, and what follows it. -/
def readVarint : Nat → Bytes → Option (Nat × Bytes)
  | 0, _ => none
  | _ + 1, [] => none
  | width + 1, b :: rest =>
    if b.toNat < 128 then some (b.toNat, rest)
    else (readVarint width rest).map fun (n, rest) => (b.toNat - 128 + 128 * n, rest)

theorem readVarint_varint {width n : Nat} (h : n < 128 ^ (width + 1)) (rest : Bytes) :
    readVarint (width + 1) (varint (width + 1) n ++ rest) = some (n, rest) := by
  induction width generalizing n with
  | zero =>
    have hn : n < 128 := by simpa using h
    have hbyte : (UInt8.ofNat n).toNat = n := by
      rw [UInt8.toNat_ofNat']
      omega
    rw [varint, if_pos hn, List.singleton_append, readVarint, hbyte, if_pos hn]
  | succ width ih =>
    rw [varint]
    by_cases hn : n < 128
    · have hbyte : (UInt8.ofNat n).toNat = n := by
        rw [UInt8.toNat_ofNat']
        omega
      rw [if_pos hn, List.singleton_append, readVarint, hbyte, if_pos hn]
    -- the low seven bits with the mark, then the rest of the number
    have hbyte : (UInt8.ofNat (n % 128 + 128)).toNat = n % 128 + 128 := by
      rw [UInt8.toNat_ofNat']
      omega
    have hrest : n / 128 < 128 ^ (width + 1) := by
      rw [Nat.pow_succ] at h
      exact Nat.div_lt_of_lt_mul (by omega)
    rw [if_neg hn, List.cons_append, readVarint, hbyte, if_neg (by omega), ih hrest,
      Option.map_some]
    have hn' : n % 128 + 128 - 128 + 128 * (n / 128) = n := by omega
    show some (n % 128 + 128 - 128 + 128 * (n / 128), rest) = some (n, rest)
    rw [hn']

example : varint 10 300 = [0xAC, 0x02] := by decide +kernel

end RollingRaft.Lib
