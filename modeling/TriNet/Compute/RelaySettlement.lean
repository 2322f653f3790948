import TriNet.Compute.Exposure
import Mathlib.Algebra.Order.BigOperators.Group.List

namespace TriNet.Compute

open Lib.FloorSplit

def roundAdd (roundTotal epochBytes : UInt32) : UInt32 := addOrMax roundTotal epochBytes

def rewardUnits (nodeBytes roundBytes pool : UInt32) : UInt64 :=
  if roundBytes = 0 then 0
  else
    let num := pool.toUInt64 * nodeBytes.toUInt64
    num / roundBytes.toUInt64

def weightedContrib (nodeBytes quality : UInt32) : UInt64 := nodeBytes.toUInt64 * quality.toUInt64

def roundAddWeighted (wtotal : UInt64) (nodeBytes quality : UInt32) : UInt64 :=
  wtotal + weightedContrib nodeBytes quality

def rewardWeighted (nodeBytes quality : UInt32) (weightedTotal : UInt64) (pool : UInt32) : UInt64 :=
  let hi := (weightedTotal >>> 32).toUInt32
  let lo := weightedTotal.toUInt32
  if hi = 0 ∧ lo = 0 then 0
  else
    let contrib := nodeBytes.toUInt64 * quality.toUInt64
    let ppm := contrib * 1000000 / weightedTotal
    pool.toUInt64 * ppm / 1000000

def snrFloor : UInt32 := 3
def snrCeil : UInt32 := 40

def snrToQuality (snrDb : UInt32) : UInt32 :=
  if snrDb ≤ snrFloor then 0
  else if snrDb ≥ snrCeil then snrCeil - snrFloor
  else snrDb - snrFloor

theorem toNat_snrToQuality_le (snrDb : UInt32) : (snrToQuality snrDb).toNat ≤ 37 := by
  rw [snrToQuality]
  split
  · decide
  · next hfloor =>
      split
      · decide
      · next hceil =>
          simp only [snrFloor, snrCeil, ge_iff_le, UInt32.le_iff_toNat_le,
            UInt32.reduceToNat] at hfloor hceil
          rw [snrFloor, UInt32.toNat_sub_of_le _ _ (UInt32.le_iff_toNat_le.mpr (by simp; omega))]
          simp
          omega

def roundTotal (bytes : List UInt32) : UInt32 := bytes.foldl roundAdd 0

theorem toNat_foldl_roundAdd (bytes : List UInt32) (start : UInt32) :
    (bytes.foldl roundAdd start).toNat = min (start.toNat + (bytes.map UInt32.toNat).sum) u32Max := by
  induction bytes generalizing start with
  | nil =>
      have hle : start.toNat ≤ u32Max := Nat.le_of_lt_succ start.toNat_lt
      simp [min_eq_left hle]
  | cons b bytes ih =>
      rw [List.foldl_cons, ih, roundAdd, toNat_addOrMax, List.map_cons, List.sum_cons]
      omega

theorem toNat_rewardUnits (nodeBytes roundBytes pool : UInt32) :
    (rewardUnits nodeBytes roundBytes pool).toNat = pool.toNat * nodeBytes.toNat / roundBytes.toNat := by
  rw [rewardUnits]
  split
  · next h => simp [h]
  · simp only [UInt64.toNat_div, toNat_mul_widened, UInt32.toNat_toUInt64]

theorem sum_rewardUnits (bytes : List UInt32) (pool total : UInt32) :
    (bytes.map (fun b => (rewardUnits b total pool).toNat)).sum =
      issued pool.toNat total.toNat (bytes.map UInt32.toNat) := by
  simp only [issued, List.map_map, toNat_rewardUnits]
  rfl

/-- A node of a weighted round: the bytes it relayed and the SNR of its link. -/
structure Relay where
  bytes : UInt32
  snrDb : UInt32

namespace Relay

def quality (n : Relay) : UInt32 := snrToQuality n.snrDb

def contrib (n : Relay) : Nat := n.bytes.toNat * n.quality.toNat

theorem contrib_lt (n : Relay) : n.contrib < 2 ^ 32 * 38 :=
  Nat.mul_lt_mul_of_lt_of_lt n.bytes.toNat_lt (Nat.lt_succ_of_le (toNat_snrToQuality_le n.snrDb))

end Relay

def weightedTotal (nodes : List Relay) : UInt64 :=
  nodes.foldl (fun t n => roundAddWeighted t n.bytes n.quality) 0

theorem toNat_weightedTotal {nodes : List Relay} (h : (nodes.map Relay.contrib).sum < 2 ^ 64) :
    (weightedTotal nodes).toNat = (nodes.map Relay.contrib).sum := by
  have general (start : UInt64) (hfit : start.toNat + (nodes.map Relay.contrib).sum < 2 ^ 64) :
      (nodes.foldl (fun t n => roundAddWeighted t n.bytes n.quality) start).toNat =
        start.toNat + (nodes.map Relay.contrib).sum := by
    clear h
    induction nodes generalizing start with
    | nil => simp
    | cons n nodes ih =>
        have hstep : (roundAddWeighted start n.bytes n.quality).toNat = start.toNat + n.contrib := by
          simp only [List.map_cons, List.sum_cons] at hfit
          rw [roundAddWeighted, weightedContrib, UInt64.toNat_add, toNat_mul_widened]
          exact Nat.mod_eq_of_lt (by rw [← Relay.contrib]; omega)
        simp only [List.map_cons, List.sum_cons, List.foldl_cons] at hfit ⊢
        rw [ih _ (by rw [hstep]; omega), hstep, Nat.add_assoc]
  rw [weightedTotal, general 0 (by simpa using h)]
  simp

theorem halves_eq_zero_iff (x : UInt64) : ((x >>> 32).toUInt32 = 0 ∧ x.toUInt32 = 0) ↔ x = 0 := by
  have hx := x.toNat_lt
  rw [← UInt32.toNat_inj, ← UInt32.toNat_inj, ← UInt64.toNat_inj]
  simp only [UInt64.toNat_toUInt32, UInt64.toNat_shiftRight, UInt32.toNat_zero, UInt64.toNat_zero]
  rw [show (32 : UInt64).toNat % 64 = 32 from rfl, Nat.shiftRight_eq_div_pow]
  omega

def ppm (n : Relay) (total : Nat) : Nat := n.contrib * 1000000 / total

theorem ppm_le {n : Relay} {total : Nat} (h : n.contrib ≤ total) : ppm n total ≤ 1000000 := by
  rw [ppm]
  rcases Nat.eq_zero_or_pos total with hzero | hpos
  · simp [hzero]
  · exact Nat.div_le_of_le_mul (Nat.mul_le_mul_right _ h)

theorem toNat_rewardWeighted {n : Relay} {total : UInt64} (h : n.contrib ≤ total.toNat) (pool : UInt32) :
    (rewardWeighted n.bytes n.quality total pool).toNat = pool.toNat * ppm n total.toNat / 1000000 := by
  have hcontrib := n.contrib_lt
  have hmillion : (1000000 : UInt64).toNat = 1000000 := rfl
  have hppm : (n.bytes.toUInt64 * n.quality.toUInt64 * 1000000 / total).toNat = ppm n total.toNat := by
    rw [UInt64.toNat_div, UInt64.toNat_mul, toNat_mul_widened, hmillion, ppm, Relay.contrib]
    rw [Relay.contrib] at hcontrib
    rw [Nat.mod_eq_of_lt (by omega)]
  have hpool : pool.toNat * ppm n total.toNat < 2 ^ 64 := by
    have hle := Nat.mul_le_mul (Nat.le_of_lt pool.toNat_lt) (ppm_le h)
    omega
  rw [rewardWeighted]
  simp only [halves_eq_zero_iff]
  split
  · next hzero => simp [hzero, ppm]
  · rw [UInt64.toNat_div, UInt64.toNat_mul, hppm, UInt32.toNat_toUInt64, hmillion, Nat.mod_eq_of_lt hpool]

theorem contrib_le_sum {nodes : List Relay} {n : Relay} (h : n ∈ nodes) :
    n.contrib ≤ (nodes.map Relay.contrib).sum := List.le_sum_of_mem (List.mem_map_of_mem h)

theorem sum_ppm_le (nodes : List Relay) :
    (nodes.map (fun n => ppm n (nodes.map Relay.contrib).sum)).sum ≤ 1000000 := by
  have hissued : (nodes.map (fun n => ppm n (nodes.map Relay.contrib).sum)).sum =
      issued 1000000 (nodes.map Relay.contrib).sum (nodes.map Relay.contrib) := by
    rw [issued, List.map_map]
    congr 1
    apply List.map_congr_left
    intro n _
    rw [ppm, Function.comp_apply, Nat.mul_comm]
  rw [hissued]
  rcases Nat.eq_zero_or_pos (nodes.map Relay.contrib).sum with hzero | hpos
  · have hnothing : issued 1000000 0 (nodes.map Relay.contrib) = 0 := by
      simp [issued, Function.comp_def]
    rw [hzero, hnothing]
    exact Nat.zero_le _
  · exact issued_le_of_sum_le hpos le_rfl

theorem sum_rewardWeighted_le {nodes : List Relay} (hfit : (nodes.map Relay.contrib).sum < 2 ^ 64)
    (pool : UInt32) :
    (nodes.map (fun n => (rewardWeighted n.bytes n.quality (weightedTotal nodes) pool).toNat)).sum ≤
      pool.toNat := by
  have htotal := toNat_weightedTotal hfit
  have hissued : (nodes.map
      (fun n => (rewardWeighted n.bytes n.quality (weightedTotal nodes) pool).toNat)).sum =
      issued pool.toNat 1000000 (nodes.map (fun n => ppm n (nodes.map Relay.contrib).sum)) := by
    rw [issued, List.map_map]
    congr 1
    apply List.map_congr_left
    intro n hn
    have hle : n.contrib ≤ (weightedTotal nodes).toNat := htotal.symm ▸ contrib_le_sum hn
    rw [toNat_rewardWeighted hle, htotal, Function.comp_apply]
  rw [hissued]
  exact issued_le_of_sum_le (by decide) (sum_ppm_le nodes)

/-- The flat split of a relay round stays within the pool exactly as long as
capping the round total costs no more than rounding withholds; the weighted
split always does, and no product of it leaves 64 bits. -/
theorem relay_rewards_within_pool_iff (bytes : List UInt32) (nodes : List Relay) (pool : UInt32)
    (hfit : (nodes.map Relay.contrib).sum < 2 ^ 64) :
    ((bytes.map (fun b => (rewardUnits b (roundTotal bytes) pool).toNat)).sum ≤ pool.toNat ↔
      Covered pool.toNat (bytes.map UInt32.toNat)) ∧
    (nodes.map (fun n => (rewardWeighted n.bytes n.quality (weightedTotal nodes) pool).toNat)).sum ≤
      pool.toNat ∧
    ∀ n ∈ nodes, n.contrib < 2 ^ 64 ∧ n.contrib * 1000000 < 2 ^ 64 ∧
      pool.toNat * ppm n (weightedTotal nodes).toNat < 2 ^ 64 := by
  refine ⟨?_, sum_rewardWeighted_le hfit pool, ?_⟩
  · rw [sum_rewardUnits, roundTotal, toNat_foldl_roundAdd, ← issued_le_iff_covered]
    simp
  · intro n hn
    have hcontrib := n.contrib_lt
    have hppm : ppm n (weightedTotal nodes).toNat ≤ 1000000 := by
      apply ppm_le
      rw [toNat_weightedTotal hfit]
      exact contrib_le_sum hn
    have hpool := Nat.mul_le_mul (Nat.le_of_lt pool.toNat_lt) hppm
    exact ⟨by omega, by omega, by omega⟩

theorem relay_rewards_of_two_links :
    (([⟨10000, 34⟩, ⟨10000, 5⟩] : List Relay).map Relay.contrib).sum < 2 ^ 64 ∧
    (([⟨10000, 34⟩, ⟨10000, 5⟩] : List Relay).map (fun n =>
      (rewardWeighted n.bytes n.quality (weightedTotal [⟨10000, 34⟩, ⟨10000, 5⟩]) 1000).toNat)).sum ≤
      (1000 : UInt32).toNat :=
  ⟨by decide, (relay_rewards_within_pool_iff [] [⟨10000, 34⟩, ⟨10000, 5⟩] 1000 (by decide)).2.1⟩

/-- Two nodes that each relayed all the total can show are each paid the pool. -/
theorem capped_round_over_issues :
    ¬ (([4294967295, 4294967295] : List UInt32).map (fun b =>
      (rewardUnits b (roundTotal [4294967295, 4294967295]) 1000).toNat)).sum ≤ (1000 : UInt32).toNat := by
  decide

end TriNet.Compute
