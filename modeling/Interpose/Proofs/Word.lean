import Interpose.Word
import Mathlib.Algebra.Group.Nat.Defs

/-!
# Words, signed distances and their bytes

Little-endian digits determine a word, and shifting an address by its distance to another leads to
the other, whichever way round the address space is shorter.
-/

namespace Interpose

variable {d : Int}

theorem leNat_leBytes (n v : Nat) : leNat (leBytes n v) = v % 256 ^ n := by
  induction n generalizing v with
  | zero => simp [leBytes, leNat, Nat.mod_one]
  | succ n ih =>
    have hbyte : (UInt8.ofNat v).toNat = v % 256 := UInt8.toNat_ofNat'
    rw [leBytes, leNat, ih, hbyte, Nat.pow_succ, Nat.mul_comm (256 ^ n) 256, Nat.mod_mul]

theorem leNat_lt (bytes : Bytes) : leNat bytes < 256 ^ bytes.length := by
  induction bytes with
  | nil => decide
  | cons b bytes ih =>
    have hb := b.toNat_lt
    rw [leNat, List.length_cons, Nat.pow_succ]
    omega

theorem leBytes_leNat (bytes : Bytes) : leBytes bytes.length (leNat bytes) = bytes := by
  induction bytes with
  | nil => rfl
  | cons b bytes ih =>
    have hb := b.toNat_lt
    have hrest : leNat (b :: bytes) / 256 = leNat bytes := by
      rw [leNat]
      omega
    have hbyte : UInt8.ofNat (leNat (b :: bytes)) = b := by
      rw [← UInt8.toNat_inj, UInt8.toNat_ofNat', leNat]
      omega
    rw [List.length_cons, leBytes, hrest, hbyte, ih]

theorem leNat_append_zeros (bytes : Bytes) (n : Nat) :
    leNat (bytes ++ List.replicate n 0) = leNat bytes := by
  induction bytes with
  | nil =>
    induction n with
    | zero => rfl
    | succ n ih =>
      rw [List.nil_append] at ih ⊢
      simp [List.replicate_succ, leNat, ih]
  | cons b bytes ih => simp [leNat, ih]

theorem toNat_ofNat_leNat {n : Nat} (hn : n ≤ 8) (v : Nat) :
    (UInt64.ofNat (leNat (leBytes n v))).toNat = leNat (leBytes n v) := by
  refine UInt64.toNat_ofNat_of_lt' ?_
  rw [leNat_leBytes]
  have hle : 256 ^ n ≤ 256 ^ 8 := Nat.pow_le_pow_right (by decide) hn
  have hlt : v % 256 ^ n < 256 ^ n := Nat.mod_lt _ (Nat.pow_pos (by decide))
  exact Nat.lt_of_lt_of_le hlt hle

theorem ofNat_leNat_leBytes (b : Address) : UInt64.ofNat (leNat (leBytes 8 b.toNat)) = b := by
  have hlt : b.toNat < 256 ^ 8 := b.toNat_lt
  rw [leNat_leBytes, Nat.mod_eq_of_lt hlt, UInt64.ofNat_toNat]

/-- Masking the low digits away rounds down. -/
theorem and_sub_twoPow {x k : Nat} (hx : x < 2 ^ 64) (hk : k ≤ 64) :
    x &&& (2 ^ 64 - 2 ^ k) = x / 2 ^ k * 2 ^ k := by
  have hmask : 2 ^ 64 - 2 ^ k = 2 ^ k * (2 ^ (64 - k) - 1) := by
    rw [Nat.mul_sub_one, ← Nat.pow_add, Nat.add_sub_cancel' hk]
  refine Nat.eq_of_testBit_eq fun i => ?_
  rw [hmask, Nat.testBit_and, Nat.testBit_two_pow_mul, Nat.testBit_two_pow_sub_one,
    Nat.testBit_mul_two_pow, Nat.testBit_div_two_pow]
  by_cases hi : k ≤ i
  · rw [Nat.sub_add_cancel hi]
    by_cases hlt : i < 64
    · have hd : i - k < 64 - k := by omega
      simp [hi, hd]
    · have hbit : x.testBit i = false :=
        Nat.testBit_lt_two_pow (Nat.lt_of_lt_of_le hx (Nat.pow_le_pow_right (by decide) (by omega)))
      simp [hbit]
  · simp [hi]

theorem toNat_add_ofNat {a : Address} {m : Nat} (h : a.toNat + m < wordLimit) :
    (a + UInt64.ofNat m).toNat = a.toNat + m := by
  have hm : m < UInt64.size := Nat.lt_of_le_of_lt (Nat.le_add_left ..) h
  rw [UInt64.toNat_add, UInt64.toNat_ofNat_of_lt' hm]
  exact Nat.mod_eq_of_lt h

theorem toNat_ofInt (d : Int) : (UInt64.ofInt d).toNat = (d % 18446744073709551616).toNat := by
  have hlt : (d % 18446744073709551616).toNat < UInt64.size := by
    have := Int.emod_lt_of_pos d (b := 18446744073709551616) (by decide)
    show _ < 18446744073709551616
    omega
  exact UInt64.toNat_ofNat_of_lt' hlt

theorem ofInt_signed64 (x : UInt64) : UInt64.ofInt (signed64 x.toNat) = x := by
  refine UInt64.toNat_inj.mp ?_
  have hlt := x.toNat_lt
  rw [toNat_ofInt]
  unfold signed64 wordLimit
  rw [Int.bmod_def]
  split <;> omega

theorem shift_distance (a b : Address) : a.shift (distance a b) = b := by
  unfold Address.shift distance
  rw [ofInt_signed64, UInt64.add_comm, UInt64.sub_add_cancel]

/-- A displacement that fits is read back from its four bytes. -/
theorem signed32_ofInt (h : fits32 d = true) :
    signed32 (leNat (leBytes 4 (UInt64.ofInt d).toNat)) = d := by
  obtain ⟨hlow, hhigh⟩ : -2147483648 ≤ d ∧ d ≤ 2147483647 := by simpa [fits32] using h
  rw [leNat_leBytes, toNat_ofInt]
  unfold signed32
  rw [Int.bmod_def]
  split <;> omega

end Interpose
