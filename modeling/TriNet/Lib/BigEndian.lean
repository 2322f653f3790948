import Mathlib.Data.List.Basic
import Mathlib.Tactic.Ring
import Mathlib.Tactic.Linarith

namespace TriNet.Lib.BigEndian

abbrev Bytes := List UInt8

instance lawfulBEqBytes : LawfulBEq Bytes := List.instLawfulBEq

theorem length_take_padded (n : Nat) (bytes : Bytes) :
    ((bytes ++ List.replicate n 0).take n).length = n := by simp

theorem length_take_digest (bytes : Bytes) : ((bytes ++ List.replicate 32 0).take 32).length = 32 :=
  length_take_padded 32 bytes

/-- Big-endian encoding of the low bytes of a number; higher bytes are cut. -/
def beBytes : Nat → Nat → Bytes
  | 0, _ => []
  | w + 1, n => UInt8.ofNat (n / 256 ^ w) :: beBytes w n

def ofBe : Bytes → Nat
  | [] => 0
  | b :: bs => b.toNat * 256 ^ bs.length + ofBe bs

@[simp] theorem beBytes_length (w n : Nat) : (beBytes w n).length = w := by
  induction w with
  | zero => rfl
  | succ w ih => simp [beBytes, ih]

theorem ofBe_lt (bs : Bytes) : ofBe bs < 256 ^ bs.length := by
  induction bs with
  | nil => simp [ofBe]
  | cons b bs ih =>
      have hb : b.toNat ≤ 255 := Nat.le_of_lt_succ b.toNat_lt
      have hm := Nat.mul_le_mul_right (256 ^ bs.length) hb
      rw [ofBe, List.length_cons, pow_succ]
      omega

theorem ofBe_beBytes (w n : Nat) : ofBe (beBytes w n) = n % 256 ^ w := by
  induction w with
  | zero => simp [beBytes, ofBe, Nat.mod_one]
  | succ w ih =>
      have hb : (UInt8.ofNat (n / 256 ^ w)).toNat = n / 256 ^ w % 256 := UInt8.toNat_ofNat'
      rw [beBytes, ofBe, ih, beBytes_length, hb, pow_succ, Nat.mod_mul]
      ring

theorem ofBe_beBytes_of_lt {w n : Nat} (h : n < 256 ^ w) : ofBe (beBytes w n) = n := by
  rw [ofBe_beBytes, Nat.mod_eq_of_lt h]

theorem uint32_ofBe_beBytes (x : UInt32) : UInt32.ofNat (ofBe (beBytes 4 x.toNat)) = x := by
  rw [ofBe_beBytes_of_lt x.toNat_lt, UInt32.ofNat_toNat]

theorem uint64_ofBe_beBytes (x : UInt64) : UInt64.ofNat (ofBe (beBytes 8 x.toNat)) = x := by
  rw [ofBe_beBytes_of_lt x.toNat_lt, UInt64.ofNat_toNat]

theorem beBytes_mod (w n : Nat) : beBytes w (n % 256 ^ w) = beBytes w n := by
  have general (v : Nat) (h : v ≤ w) : beBytes v (n % 256 ^ w) = beBytes v n := by
    induction v with
    | zero => rfl
    | succ v ih =>
        have hsplit : 256 ^ w = 256 ^ v * (256 * 256 ^ (w - (v + 1))) := by
          rw [← mul_assoc, ← pow_succ, ← pow_add]
          congr 1
          omega
        rw [beBytes, beBytes, ih (by omega), hsplit, Nat.mod_mul_right_div_self]
        congr 1
        apply UInt8.toNat_inj.mp
        simp only [UInt8.toNat_ofNat', Nat.reducePow]
        exact Nat.mod_mul_right_mod _ _ _
  exact general w le_rfl

theorem beBytes_ofBe (bs : Bytes) : beBytes bs.length (ofBe bs) = bs := by
  induction bs with
  | nil => rfl
  | cons b bs ih =>
      have hlt := ofBe_lt bs
      have hdiv : ofBe (b :: bs) / 256 ^ bs.length = b.toNat := by
        rw [ofBe, Nat.add_comm, Nat.add_mul_div_right _ _ (by positivity), Nat.div_eq_of_lt hlt]
        omega
      have hmod : ofBe (b :: bs) % 256 ^ bs.length = ofBe bs := by
        rw [ofBe, Nat.add_comm, Nat.add_mul_mod_self_right, Nat.mod_eq_of_lt hlt]
      rw [List.length_cons, beBytes, hdiv, ← beBytes_mod, hmod, ih, UInt8.ofNat_toNat]

end TriNet.Lib.BigEndian
