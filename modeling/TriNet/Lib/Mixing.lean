import Mathlib.Data.Nat.ModEq
import Mathlib.Logic.Function.Basic

namespace TriNet.Lib.Mixing

variable {w k : Nat}

theorem xorShift_injective (hk : 0 < k) : Function.Injective (fun x : BitVec w => x ^^^ x >>> k) := by
  intro x y h
  have hd : x ^^^ y = (x ^^^ y) >>> k := by
    rw [BitVec.ushiftRight_xor_distrib]
    have hx : x ^^^ y ^^^ (x >>> k ^^^ y >>> k) = x ^^^ x >>> k ^^^ (y ^^^ y >>> k) := by ac_rfl
    apply BitVec.xor_eq_zero_iff.mp
    rw [hx]
    exact BitVec.xor_eq_zero_iff.mpr h
  -- a number that equals its own quotient by a power of two is zero
  have hnat := congrArg BitVec.toNat hd
  rw [BitVec.toNat_ushiftRight, Nat.shiftRight_eq_div_pow] at hnat
  have hzero : (x ^^^ y).toNat = 0 := by
    by_contra hne
    have hlt := Nat.div_lt_self (Nat.pos_of_ne_zero hne) (Nat.one_lt_two_pow hk.ne')
    omega
  apply BitVec.xor_eq_zero_iff.mp
  apply BitVec.eq_of_toNat_eq
  simpa using hzero

theorem addShift_injective (hk : 0 < k) : Function.Injective (fun x : BitVec w => x + x <<< k) := by
  have hmul (x : BitVec w) : (x + x <<< k).toNat ≡ x.toNat * (1 + 2 ^ k) [MOD 2 ^ w] := by
    rw [Nat.ModEq, BitVec.toNat_add, BitVec.toNat_shiftLeft, Nat.shiftLeft_eq, Nat.mod_mod,
      Nat.mul_add, Nat.mul_one, Nat.add_mod_mod]
  have hodd : Nat.Coprime (2 ^ w) (1 + 2 ^ k) := by
    apply Nat.Coprime.pow_left
    obtain ⟨j, rfl⟩ := Nat.exists_eq_succ_of_ne_zero hk.ne'
    rw [Nat.pow_succ', Nat.coprime_add_mul_left_right]
    exact Nat.coprime_one_right 2
  intro x y h
  have hxy := ((hmul x).symm.trans (by rw [show x + x <<< k = y + y <<< k from h])).trans (hmul y)
  have hcancel := Nat.ModEq.cancel_right_of_coprime hodd hxy
  apply BitVec.eq_of_toNat_eq
  exact Nat.ModEq.eq_of_lt_of_lt hcancel x.isLt y.isLt

theorem rotate_injective (hk : k ≤ w) :
    Function.Injective (fun x : BitVec w => x <<< k ||| x >>> (w - k)) := by
  intro x y h
  apply BitVec.eq_of_getLsbD_eq
  intro i hi
  rcases lt_or_ge (i + k) w with hlow | hhigh
  · have hbit := congrArg (fun z : BitVec w => z.getLsbD (i + k)) h
    have hout (z : BitVec w) : z.getLsbD (w - k + (i + k)) = false := BitVec.getLsbD_of_ge _ _ (by omega)
    have hge : ¬ i + k < k := by omega
    simpa [hlow, hout, hge, hi] using hbit
  · have hbit := congrArg (fun z : BitVec w => z.getLsbD (i - (w - k))) h
    have hindex : w - k + (i - (w - k)) = i := by omega
    have hlt : i - (w - k) < k := by omega
    simpa [hlt, hindex, hi] using hbit

end TriNet.Lib.Mixing
