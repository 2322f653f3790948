import Mathlib.Algebra.Order.Field.Power
import Mathlib.Algebra.Order.Ring.Nat
import Mathlib.Data.Nat.Cast.Order.Field
import Mathlib.Tactic.Linarith
import Mathlib.Tactic.Positivity
import Mathlib.Tactic.Ring

namespace TriNet.Lib

variable {K : Type*} [Field K] [LinearOrder K] [IsStrictOrderedRing K] {m k v sig sig' : ℕ}
  {e e' n : ℤ} {x y : K}

/-- The number `sig * 2 ^ e` is what remains of `x` when all but the leading one
and the `m` bits below it are dropped. -/
structure Truncates (m : ℕ) (x : K) (e : ℤ) (sig : ℕ) : Prop where
  le_sig : 2 ^ m ≤ sig
  sig_lt : sig < 2 ^ (m + 1)
  le : sig * 2 ^ e ≤ x
  lt : x < (sig + 1) * 2 ^ e

namespace Truncates

theorem scale_pos (e : ℤ) : (0 : K) < 2 ^ e := zpow_pos two_pos e

theorem scale_add (e : ℤ) (k : ℕ) : (2 : K) ^ (e + k) = 2 ^ k * 2 ^ e := by
  rw [zpow_add₀ two_ne_zero, zpow_natCast, mul_comm]

theorem floor_le (v k : ℕ) (e : ℤ) : ((v / 2 ^ k : ℕ) : K) * 2 ^ (e + k) ≤ v * 2 ^ e := by
  have hfloor : ((v / 2 ^ k * 2 ^ k : ℕ) : K) ≤ v := Nat.cast_le.mpr (Nat.div_mul_le_self v (2 ^ k))
  push_cast at hfloor
  rw [scale_add, ← mul_assoc]
  exact mul_le_mul_of_nonneg_right hfloor (scale_pos e).le

theorem succ_le_floor_succ (v k : ℕ) (e : ℤ) :
    ((v : K) + 1) * 2 ^ e ≤ (((v / 2 ^ k : ℕ) : K) + 1) * 2 ^ (e + k) := by
  have hceil : v + 1 ≤ (v / 2 ^ k + 1) * 2 ^ k :=
    Nat.lt_mul_of_div_lt (Nat.lt_succ_self _) (Nat.two_pow_pos k)
  have hcast : ((v + 1 : ℕ) : K) ≤ ((v / 2 ^ k + 1) * 2 ^ k : ℕ) := Nat.cast_le.mpr hceil
  push_cast at hcast
  rw [scale_add, ← mul_assoc]
  exact mul_le_mul_of_nonneg_right hcast (scale_pos e).le

theorem shiftRight (hle : v * 2 ^ e ≤ x) (hlt : x < (v + 1) * 2 ^ e) (hv : 2 ^ (m + k) ≤ v)
    (hv' : v < 2 ^ (m + 1 + k)) : Truncates m x (e + k) (v / 2 ^ k) where
  le_sig := by
    rw [Nat.le_div_iff_mul_le (Nat.two_pow_pos k), ← Nat.pow_add]
    exact hv
  sig_lt := by
    rw [Nat.div_lt_iff_lt_mul (Nat.two_pow_pos k), ← Nat.pow_add]
    exact hv'
  le := (floor_le v k e).trans hle
  lt := hlt.trans_le (succ_le_floor_succ v k e)

theorem shiftLeft (hx : x = v * 2 ^ (e + k)) (hv : 2 ^ m ≤ v * 2 ^ k) (hv' : v * 2 ^ k < 2 ^ (m + 1)) :
    Truncates m x e (v * 2 ^ k) where
  le_sig := hv
  sig_lt := hv'
  le := by
    rw [hx, scale_add]
    push_cast
    rw [mul_assoc]
  lt := by
    rw [hx, scale_add]
    push_cast
    rw [← mul_assoc]
    exact mul_lt_mul_of_pos_right (lt_add_one _) (scale_pos e)

theorem borrow (hx : x = (sig + 1) * 2 ^ e - y) (hy : 0 < y) (hy' : y ≤ 2 ^ e) (hsig : 2 ^ m ≤ sig)
    (hsig' : sig < 2 ^ (m + 1)) : Truncates m x e sig where
  le_sig := hsig
  sig_lt := hsig'
  le := by linarith
  lt := by linarith

theorem two_zpow_le (h : Truncates m x e sig) : (2 : K) ^ (e + m) ≤ x := by
  have hsig : ((2 ^ m : ℕ) : K) ≤ sig := Nat.cast_le.mpr h.le_sig
  push_cast at hsig
  rw [scale_add]
  exact (mul_le_mul_of_nonneg_right hsig (scale_pos e).le).trans h.le

theorem lt_two_zpow (h : Truncates m x e sig) : x < 2 ^ (e + m + 1) := by
  have hsig : ((sig + 1 : ℕ) : K) ≤ (2 ^ (m + 1) : ℕ) := Nat.cast_le.mpr h.sig_lt
  push_cast at hsig
  have hscale := scale_add (K := K) e (m + 1)
  push_cast at hscale
  rw [add_assoc, hscale]
  exact h.lt.trans_le (mul_le_mul_of_nonneg_right hsig (scale_pos e).le)

theorem le_exp_iff (h : Truncates m x e sig) : 2 ^ n ≤ x ↔ n ≤ e + m := by
  constructor
  · intro hn
    have hlt := (zpow_lt_zpow_iff_right₀ (one_lt_two (α := K))).mp (hn.trans_lt h.lt_two_zpow)
    exact Int.lt_add_one_iff.mp hlt
  · intro hn
    exact (zpow_le_zpow_right₀ one_le_two hn).trans h.two_zpow_le

theorem mono (hx : Truncates m x e sig) (hy : Truncates m y e' sig') (hxy : x ≤ y) :
    (sig : K) * 2 ^ e ≤ sig' * 2 ^ e' := by
  have hexp : e ≤ e' := by
    have h := hy.le_exp_iff.mp (hx.two_zpow_le.trans hxy)
    omega
  obtain ⟨k, rfl⟩ := Int.le.dest hexp
  have hsig : sig ≤ sig' * 2 ^ k := by
    cases k with
    | zero =>
        have hlt : (sig : K) * 2 ^ e < (sig' + 1) * 2 ^ e := by
          have hy' := hy.lt
          rw [Int.natCast_zero, add_zero] at hy'
          exact (hx.le.trans hxy).trans_lt hy'
        have hcast : (sig : K) < (sig' + 1 : ℕ) := by
          push_cast
          exact lt_of_mul_lt_mul_right hlt (scale_pos e).le
        have hnat : sig < sig' + 1 := Nat.cast_lt.mp hcast
        omega
    | succ k =>
        -- a binade lower, every significand is smaller
        calc sig ≤ 2 ^ (m + 1) := hx.sig_lt.le
          _ ≤ 2 ^ m * 2 ^ (k + 1) := by
              rw [← Nat.pow_add]
              exact Nat.pow_le_pow_right two_pos (by omega)
          _ ≤ sig' * 2 ^ (k + 1) := Nat.mul_le_mul_right _ hy.le_sig
  have hcast : (sig : K) ≤ (sig' * 2 ^ k : ℕ) := Nat.cast_le.mpr hsig
  push_cast at hcast
  rw [scale_add, ← mul_assoc]
  exact mul_le_mul_of_nonneg_right hcast (scale_pos e).le

theorem unique (h : Truncates m x e sig) (h' : Truncates m x e' sig') : e = e' ∧ sig = sig' := by
  have hexp := h'.le_exp_iff.mp h.two_zpow_le
  have hexp' := h.le_exp_iff.mp h'.two_zpow_le
  obtain rfl : e = e' := by omega
  have hle : (sig : K) ≤ sig' := le_of_mul_le_mul_right (h.mono h' le_rfl) (scale_pos e)
  have hge : (sig' : K) ≤ sig := le_of_mul_le_mul_right (h'.mono h le_rfl) (scale_pos e)
  exact ⟨rfl, Nat.cast_injective (le_antisymm hle hge)⟩

end Truncates

end TriNet.Lib
