/-
# RollingRaft.Storage.DamagedCheckpoints — no damaged checkpoint is loaded.

The words of the CRC table have different top bytes, so a step of the CRC can be undone: two texts
that differ in one byte have different CRCs. A checkpoint with one byte changed is therefore rejected
wherever the byte is, and `Open` starts from a checkpoint as it was saved or scans everything.
-/
import RollingRaft.Storage.WalSteps

namespace RollingRaft

open Lib

/-! ## §1 — The CRC of a text with one byte changed. -/

/-- What a step of `ComputeCRC32` makes of the remainder with the byte added to it. -/
def crcShift (x : UInt32) : UInt32 := (x >>> 8) ^^^ kCRC32Table.getD (x &&& 0xFF).toNat 0

/-- The top byte of the result tells the word of the table, and with it the rest. -/
theorem crcShift_injective {x y : UInt32} (h : crcShift x = crcShift y) : x = y := by
  have hnodup : (kCRC32Table.map fun t => t.toNat / 2 ^ 24).Nodup := by decide +kernel
  have hlow : ∀ x : UInt32, (x &&& 0xFF).toNat = x.toNat % 256 := fun x =>
    Nat.and_two_pow_sub_one_eq_mod x.toNat 8
  have hhigh : ∀ x : UInt32, (x >>> 8).toNat = x.toNat / 256 := fun x => by
    simp [Nat.shiftRight_eq_div_pow]
  have hlt : ∀ x : UInt32, (x &&& 0xFF).toNat < kCRC32Table.length := by
    intro x
    rw [show kCRC32Table.length = 256 by decide +kernel, hlow]
    omega
  have hgone : ∀ x : UInt32, (x >>> 8).toNat / 2 ^ 24 = 0 := by
    intro x
    have := x.toNat_lt
    rw [hhigh]
    omega
  unfold crcShift at h
  have hindex : (x &&& 0xFF).toNat = (y &&& 0xFF).toNat := by
    have hword := congrArg (fun t : UInt32 => t.toNat / 2 ^ 24) h
    refine (List.getElem?_inj (by rw [List.length_map]; exact hlt x) hnodup).mp ?_
    simpa only [UInt32.toNat_xor, Nat.xor_div_two_pow, hgone, Nat.zero_xor, List.getElem?_map,
      List.getElem?_eq_getElem (hlt _), List.getD_eq_getElem?_getD, Option.getD_some,
      Option.map_some, Option.some.injEq] using hword
  rw [hindex, UInt32.xor_left_inj] at h
  have hrest := congrArg UInt32.toNat h
  rw [hhigh, hhigh] at hrest
  rw [hlow, hlow] at hindex
  apply UInt32.toNat_inj.mp
  omega

/-- One step of `ComputeCRC32`. -/
def crcStep (crc : UInt32) (c : UInt8) : UInt32 := crcShift (crc ^^^ c.toUInt32)

theorem computeCRC32_eq (l : Bytes) : computeCRC32 l = ~~~ l.foldl crcStep 0xFFFFFFFF := by
  have hstep : ∀ (crc : UInt32) (c : UInt8), (crc ^^^ c.toUInt32) >>> 8 = crc >>> 8 := by
    intro crc c
    have := c.toNat_lt
    have hc : c.toUInt32 >>> 8 = 0 := by
      apply UInt32.toNat_inj.mp
      simp [Nat.shiftRight_eq_div_pow]
      omega
    rw [UInt32.shiftRight_xor, hc, UInt32.xor_zero]
  unfold computeCRC32 crcStep crcShift
  simp only [hstep]

theorem foldl_crcStep_injective {s s' : UInt32} {l : Bytes}
    (h : l.foldl crcStep s = l.foldl crcStep s') : s = s' := by
  induction l generalizing s s' with
  | nil => exact h
  | cons c l ih => exact (UInt32.xor_left_inj _).mp (crcShift_injective (ih h))

/-- **One changed byte changes the CRC.** -/
theorem eq_of_foldl_crcStep {s : UInt32} {l : Bytes} {i : Nat} {b : UInt8}
    (h : (l.set i b).foldl crcStep s = l.foldl crcStep s) : l.set i b = l := by
  induction l generalizing i s with
  | nil => rfl
  | cons c l ih =>
    cases i with
    | zero =>
      have hstep : crcStep s b = crcStep s c := foldl_crcStep_injective (l := l) h
      have hbyte := (UInt32.xor_right_inj _).mp (crcShift_injective hstep)
      rw [List.set_cons_zero, UInt8.toUInt32_inj.mp hbyte]
    | succ i => rw [List.set_cons_succ, ih h]

/-! ## §2 — Checkpoints. -/

namespace WalPersister

variable {file : Bytes} {loaded : DenseIndex × Nat}

theorem crc_of_decodeCheckpoint (h : decodeCheckpoint file = .ok loaded) :
    (computeCRC32 (file.take (file.length - 4))).toNat = leNat (file.drop (file.length - 4)) := by
  unfold decodeCheckpoint at h
  dsimp only at h
  split_ifs at h with _ _ _ _ hcrc
  exact not_not.mp hcrc

/-- **A checkpoint with one byte changed is not loaded**, wherever the byte is. -/
theorem eq_of_decodeCheckpoint (h : decodeCheckpoint file = .ok loaded) {i : Nat} {b : UInt8}
    {loaded' : DenseIndex × Nat} (h' : decodeCheckpoint (file.set i b) = .ok loaded') :
    file.set i b = file := by
  have hcrc := crc_of_decodeCheckpoint h
  have hcrc' := crc_of_decodeCheckpoint h'
  rw [List.length_set, List.take_set] at hcrc'
  generalize hn : file.length - 4 = n at hcrc hcrc'
  have hparts : (file.take n).set i b = file.take n ∧ (file.set i b).drop n = file.drop n := by
    rcases Nat.lt_or_ge i n with hi | hi
    · -- the byte is covered by the CRC
      have hdrop : (file.set i b).drop n = file.drop n := by rw [List.drop_set, if_pos hi]
      rw [hdrop, ← hcrc, UInt32.toNat_inj, computeCRC32_eq, computeCRC32_eq, UInt32.not_inj] at hcrc'
      exact ⟨eq_of_foldl_crcStep hcrc', hdrop⟩
    · have htake : (file.take n).set i b = file.take n :=
        List.set_eq_of_length_le ((List.length_take_le n file).trans hi)
      rw [htake, hcrc] at hcrc'
      have hdrop := leBytes_leNat ((file.set i b).drop n)
      rw [← hcrc', List.length_drop, List.length_set, ← List.length_drop, leBytes_leNat] at hdrop
      exact ⟨htake, hdrop.symm⟩
  rw [← List.take_append_drop n (file.set i b), List.take_set, hparts.1, hparts.2,
    List.take_append_drop]

/-- **`Open` starts from nothing damaged.** When each checkpoint of a directory is one that was saved,
with at most one of its bytes changed, `Open` starts from one that is as it was saved, or it scans all
segments. -/
theorem startingPoint_as_saved {dir : WalDir} {saved : FileTable}
    (hsaved : ∀ c ∈ saved, ∃ loaded, decodeCheckpoint c.2 = .ok loaded)
    (hdamage : ∀ c ∈ dir.checkpoints, ∃ c₀ ∈ saved, ∃ i b, c = (c₀.1, c₀.2.set i b)) :
    startingPoint dir = (.clear, 0) ∨
      ∃ c ∈ dir.checkpoints, c ∈ saved ∧ decodeCheckpoint c.2 = .ok (startingPoint dir) := by
  rcases startingPoint_cases dir with hscan | ⟨c, hc, hload⟩
  · exact .inl hscan
  · refine .inr ⟨c, hc, ?_, hload⟩
    obtain ⟨c₀, hc₀, i, b, rfl⟩ := hdamage c hc
    obtain ⟨loaded, hload₀⟩ := hsaved c₀ hc₀
    rw [eq_of_decodeCheckpoint hload₀ hload]
    exact hc₀

def oneEntry : Bytes := encodeCheckpoint ⟨1, [⟨1, 16, 12⟩]⟩ 1

theorem startingPoint_as_saved_one_byte :
    let dir : WalDir := { segments := [(1, [])], checkpoints := [(1, oneEntry.set 50 7)] }
    oneEntry.set 50 7 ≠ oneEntry ∧ (startingPoint dir = (.clear, 0) ∨
      ∃ c ∈ dir.checkpoints, c ∈ [(1, oneEntry)] ∧ decodeCheckpoint c.2 = .ok (startingPoint dir)) := by
  refine ⟨by decide +kernel, startingPoint_as_saved ?_ ?_⟩
  · intro c hc
    rw [List.mem_singleton.mp hc]
    exact ⟨(⟨1, [⟨1, 16, 12⟩]⟩, 1), by decide +kernel⟩
  · intro c hc
    exact ⟨_, List.mem_singleton_self _, 50, 7, List.mem_singleton.mp hc⟩

end WalPersister

end RollingRaft
