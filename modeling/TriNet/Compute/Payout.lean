import TriNet.Lib.FloorSplit
import Mathlib.Algebra.Order.Ring.Nat

namespace TriNet.Compute

open Lib.FloorSplit

def u32Max : Nat := 4294967295

def saturate (x : UInt64) : UInt32 := if x > 4294967295 then 4294967295 else x.toUInt32

def saturatingSum3 (w0 w1 w2 : UInt32) : UInt32 := saturate (w0.toUInt64 + w1.toUInt64 + w2.toUInt64)

def floorShare (totalPool mine total : UInt32) : UInt32 :=
  if total = 0 then 0
  else
    let num := totalPool.toUInt64 * mine.toUInt64
    let den := total.toUInt64
    (num / den).toUInt32

def weighted (rawWork rep : UInt32) : UInt32 := saturate (rawWork.toUInt64 * rep.toUInt64)

def totalWeighted3 (w0 w1 w2 : UInt32) : UInt32 := saturatingSum3 w0 w1 w2

def payout (totalPool myWeighted totalWeighted : UInt32) : UInt32 :=
  floorShare totalPool myWeighted totalWeighted

def totalWork3 (w0 w1 w2 : UInt32) : UInt32 := saturatingSum3 w0 w1 w2

def poolShare (totalPool myWork total : UInt32) : UInt32 := floorShare totalPool myWork total

theorem toNat_saturate (x : UInt64) : (saturate x).toNat = min x.toNat u32Max := by
  rw [saturate, u32Max]
  split
  · next h =>
      have h' : 4294967295 < x.toNat := UInt64.lt_iff_toNat_lt.mp h
      rw [Nat.min_eq_right h'.le]
      rfl
  · next h =>
      have h' : x.toNat ≤ 4294967295 := by
        rw [gt_iff_lt, UInt64.lt_iff_toNat_lt] at h
        exact not_lt.mp h
      rw [Nat.min_eq_left h', UInt64.toNat_toUInt32]
      omega

theorem toNat_mul_widened (a b : UInt32) : (a.toUInt64 * b.toUInt64).toNat = a.toNat * b.toNat := by
  have hmul : a.toNat * b.toNat < 2 ^ 32 * 2 ^ 32 :=
    Nat.mul_lt_mul_of_lt_of_lt a.toNat_lt b.toNat_lt
  rw [UInt64.toNat_mul, UInt32.toNat_toUInt64, UInt32.toNat_toUInt64]
  exact Nat.mod_eq_of_lt hmul

theorem toNat_weighted (rawWork rep : UInt32) :
    (weighted rawWork rep).toNat = min (rawWork.toNat * rep.toNat) u32Max := by
  rw [weighted, toNat_saturate, toNat_mul_widened]

theorem toNat_saturatingSum3 (w0 w1 w2 : UInt32) :
    (saturatingSum3 w0 w1 w2).toNat = min (w0.toNat + w1.toNat + w2.toNat) u32Max := by
  have h0 := w0.toNat_lt
  have h1 := w1.toNat_lt
  have h2 := w2.toNat_lt
  rw [saturatingSum3, toNat_saturate, UInt64.toNat_add, UInt64.toNat_add, UInt32.toNat_toUInt64,
    UInt32.toNat_toUInt64, UInt32.toNat_toUInt64]
  congr 1
  omega

/-- A share of a total that is at least its own weight is never cut by the
final narrowing to 32 bits. -/
theorem toNat_floorShare {totalPool mine total : UInt32} (h : mine.toNat ≤ total.toNat) :
    (floorShare totalPool mine total).toNat = totalPool.toNat * mine.toNat / total.toNat := by
  rw [floorShare]
  split
  · next hzero =>
      subst hzero
      simp
  · next hpos =>
      have hle : totalPool.toNat * mine.toNat / total.toNat ≤ totalPool.toNat := by
        apply Nat.div_le_of_le_mul
        rw [Nat.mul_comm total.toNat]
        exact Nat.mul_le_mul_left _ h
      have hlt := totalPool.toNat_lt
      simp only [UInt64.toNat_toUInt32, UInt64.toNat_div, toNat_mul_widened, UInt32.toNat_toUInt64]
      exact Nat.mod_eq_of_lt (by omega)

/-- The three shares of a split whose total was summed with saturation. -/
def threeShares (pool w0 w1 w2 : UInt32) : Nat :=
  (floorShare pool w0 (saturatingSum3 w0 w1 w2)).toNat +
    (floorShare pool w1 (saturatingSum3 w0 w1 w2)).toNat +
    (floorShare pool w2 (saturatingSum3 w0 w1 w2)).toNat

theorem threeShares_eq (pool w0 w1 w2 : UInt32) :
    threeShares pool w0 w1 w2 =
      issued pool.toNat (min (w0.toNat + w1.toNat + w2.toNat) u32Max) [w0.toNat, w1.toNat, w2.toNat] := by
  have hbound (w : UInt32) : w.toNat ≤ u32Max := Nat.le_of_lt_succ w.toNat_lt
  have hle (w : UInt32) (h : w.toNat ≤ w0.toNat + w1.toNat + w2.toNat) :
      w.toNat ≤ (saturatingSum3 w0 w1 w2).toNat := by
    rw [toNat_saturatingSum3]
    exact le_min h (hbound w)
  rw [threeShares, toNat_floorShare (hle w0 (by omega)), toNat_floorShare (hle w1 (by omega)),
    toNat_floorShare (hle w2 (by omega)), toNat_saturatingSum3]
  simp [issued, Nat.add_assoc]

/-- The total was not capped, or the roundings withhold at least what the cap
hands out twice. -/
def Covered (pool : Nat) (ws : List Nat) : Prop :=
  ws.sum ≤ u32Max ∨ pool * (ws.sum - u32Max) ≤ dust pool u32Max ws

theorem issued_le_iff_covered (pool : Nat) (ws : List Nat) :
    issued pool (min ws.sum u32Max) ws ≤ pool ↔ Covered pool ws := by
  rw [Covered]
  rcases le_or_gt ws.sum u32Max with hle | hgt
  · rw [min_eq_left hle]
    refine iff_of_true ?_ (Or.inl hle)
    rcases Nat.eq_zero_or_pos ws.sum with hzero | hpos
    · have hissued : issued pool 0 ws = 0 := by simp [issued]
      rw [hzero, hissued]
      exact Nat.zero_le _
    · exact issued_le_of_sum_le hpos le_rfl
  · rw [min_eq_right hgt.le, issued_le_iff (by decide), Nat.mul_sub]
    have hmul := Nat.mul_le_mul_left pool hgt.le
    constructor
    · intro h
      exact Or.inr (by omega)
    · rintro (h | h)
      · exact absurd h (not_le.mpr hgt)
      · omega

theorem threeShares_le_iff (pool w0 w1 w2 : UInt32) :
    threeShares pool w0 w1 w2 ≤ pool.toNat ↔ Covered pool.toNat [w0.toNat, w1.toNat, w2.toNat] := by
  have hsum : [w0.toNat, w1.toNat, w2.toNat].sum = w0.toNat + w1.toNat + w2.toNat := by
    simp [Nat.add_assoc]
  rw [threeShares_eq, ← hsum]
  exact issued_le_iff_covered _ _

/-- Both reward splits stay within the pool exactly as long as capping the total
of the weights costs no more than rounding the shares withholds. -/
theorem split_within_pool_iff (pool work0 work1 work2 rep0 rep1 rep2 : UInt32) :
    ((payout pool (weighted work0 rep0)
          (totalWeighted3 (weighted work0 rep0) (weighted work1 rep1) (weighted work2 rep2))).toNat +
        (payout pool (weighted work1 rep1)
          (totalWeighted3 (weighted work0 rep0) (weighted work1 rep1) (weighted work2 rep2))).toNat +
        (payout pool (weighted work2 rep2)
          (totalWeighted3 (weighted work0 rep0) (weighted work1 rep1)
            (weighted work2 rep2))).toNat ≤ pool.toNat ↔
      Covered pool.toNat [min (work0.toNat * rep0.toNat) u32Max,
        min (work1.toNat * rep1.toNat) u32Max, min (work2.toNat * rep2.toNat) u32Max]) ∧
    ((poolShare pool work0 (totalWork3 work0 work1 work2)).toNat +
        (poolShare pool work1 (totalWork3 work0 work1 work2)).toNat +
        (poolShare pool work2 (totalWork3 work0 work1 work2)).toNat ≤ pool.toNat ↔
      Covered pool.toNat [work0.toNat, work1.toNat, work2.toNat]) := by
  constructor
  · rw [← toNat_weighted, ← toNat_weighted, ← toNat_weighted]
    exact threeShares_le_iff pool (weighted work0 rep0) (weighted work1 rep1) (weighted work2 rep2)
  · exact threeShares_le_iff pool work0 work1 work2

theorem saturated_split_over_issues :
    ¬ ((payout 1000 (weighted 5000000 1000)
          (totalWeighted3 (weighted 5000000 1000) (weighted 5000000 1000) (weighted 5000000 1000))).toNat +
        (payout 1000 (weighted 5000000 1000)
          (totalWeighted3 (weighted 5000000 1000) (weighted 5000000 1000) (weighted 5000000 1000))).toNat +
        (payout 1000 (weighted 5000000 1000)
          (totalWeighted3 (weighted 5000000 1000) (weighted 5000000 1000) (weighted 5000000 1000))).toNat ≤
      (1000 : UInt32).toNat) ∧
    ¬ ((poolShare 1000 4294967295 (totalWork3 4294967295 4294967295 4294967295)).toNat +
        (poolShare 1000 4294967295 (totalWork3 4294967295 4294967295 4294967295)).toNat +
        (poolShare 1000 4294967295 (totalWork3 4294967295 4294967295 4294967295)).toNat ≤
      (1000 : UInt32).toNat) := by
  decide

end TriNet.Compute
