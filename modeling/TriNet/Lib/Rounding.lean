import Mathlib.Data.Int.ConditionallyCompleteOrder
import Mathlib.Data.Int.Log
import Mathlib.Data.Rat.Floor
import Mathlib.Algebra.Order.Field.Rat
import Mathlib.Tactic.Linarith
import Mathlib.Tactic.Positivity
import Mathlib.Tactic.FieldSimp

namespace TriNet.Lib

def Dyadic24 (q : ℚ) : Prop := ∃ k j : ℕ, k ≤ 2 ^ 24 ∧ j ≤ 64 ∧ q = k / 2 ^ j

/-- What arithmetic on a number format makes of an exact result. -/
structure Rounding where
  round : ℚ → ℚ
  mono : Monotone round
  exact : ∀ q, Dyadic24 q → round q = q

namespace Rounding

def unrounded : Rounding where
  round := id
  mono := monotone_id
  exact _ _ := rfl

def nearestEven (x : ℚ) : ℤ :=
  if Int.fract x < 1 / 2 then ⌊x⌋
  else if 1 / 2 < Int.fract x then ⌊x⌋ + 1
  else if Even ⌊x⌋ then ⌊x⌋
  else ⌊x⌋ + 1

theorem floor_le_nearestEven (x : ℚ) : ⌊x⌋ ≤ nearestEven x := by
  rw [nearestEven]
  split_ifs <;> omega

theorem nearestEven_le_floor_add_one (x : ℚ) : nearestEven x ≤ ⌊x⌋ + 1 := by
  rw [nearestEven]
  split_ifs <;> omega

theorem nearestEven_mono : Monotone nearestEven := by
  intro x y hxy
  rcases (Int.floor_mono hxy).lt_or_eq with hlt | heq
  · exact (nearestEven_le_floor_add_one x).trans
      ((Int.add_one_le_of_lt hlt).trans (floor_le_nearestEven y))
  · have hfract : Int.fract x ≤ Int.fract y := by
      rw [Int.fract, Int.fract, heq]
      linarith
    rw [nearestEven, nearestEven, heq]
    split_ifs <;> first | omega | linarith

theorem nearestEven_intCast (n : ℤ) : nearestEven n = n := by
  simp [nearestEven]

/-- The spacing of binary32 numbers around a magnitude: 24 significant bits, and
no finer than the subnormal spacing. -/
def quantum (x : ℚ) : ℚ := 2 ^ (max (Int.log 2 x) (-126) - 23)

def roundMagnitude (x : ℚ) : ℚ := nearestEven (x / quantum x) * quantum x

theorem quantum_pos (x : ℚ) : 0 < quantum x := zpow_pos two_pos _

theorem roundMagnitude_le {x : ℚ} {n : ℤ} (h : x ≤ n * quantum x) : roundMagnitude x ≤ n * quantum x := by
  have hq := quantum_pos x
  have hdiv : x / quantum x ≤ n := (div_le_iff₀ hq).mpr h
  have hround := nearestEven_mono hdiv
  rw [nearestEven_intCast] at hround
  exact mul_le_mul_of_nonneg_right (by exact_mod_cast hround) hq.le

theorem le_roundMagnitude {x : ℚ} {n : ℤ} (h : n * quantum x ≤ x) : n * quantum x ≤ roundMagnitude x := by
  have hq := quantum_pos x
  have hdiv : (n : ℚ) ≤ x / quantum x := (le_div_iff₀ hq).mpr h
  have hround := nearestEven_mono hdiv
  rw [nearestEven_intCast] at hround
  exact mul_le_mul_of_nonneg_right (by exact_mod_cast hround) hq.le

theorem roundMagnitude_of_multiple {x : ℚ} {n : ℤ} (h : x = n * quantum x) : roundMagnitude x = x :=
  le_antisymm ((roundMagnitude_le h.le).trans h.ge) (h.le.trans (le_roundMagnitude h.ge))

theorem roundMagnitude_nonneg {x : ℚ} (h : 0 ≤ x) : 0 ≤ roundMagnitude x := by
  simpa using le_roundMagnitude (x := x) (n := 0) (by simpa using h)

theorem exists_mul_quantum {x : ℚ} {e : ℤ} (h : max (Int.log 2 x) (-126) - 23 ≤ e) :
    ∃ n : ℤ, (2 : ℚ) ^ e = n * quantum x := by
  obtain ⟨k, hk⟩ := Int.eq_ofNat_of_zero_le (sub_nonneg.mpr h)
  refine ⟨2 ^ k, ?_⟩
  have he : e = (k : ℤ) + (max (Int.log 2 x) (-126) - 23) := by omega
  rw [quantum, he, zpow_add₀ two_ne_zero, zpow_natCast]
  push_cast
  rfl

theorem roundMagnitude_mono {x y : ℚ} (hx : 0 ≤ x) (hxy : x ≤ y) :
    roundMagnitude x ≤ roundMagnitude y := by
  rcases hx.eq_or_lt with rfl | hpos
  · have hzero := roundMagnitude_of_multiple (x := 0) (n := 0) (by simp)
    rw [hzero]
    exact roundMagnitude_nonneg hxy
  have hlog : Int.log 2 x ≤ Int.log 2 y := Int.log_mono_right hpos hxy
  rcases (max_le_max_right (-126) hlog).eq_or_lt with heq | hlt
  · have hq : quantum x = quantum y := by rw [quantum, quantum, heq]
    rw [roundMagnitude, roundMagnitude, hq]
    have hdiv := nearestEven_mono (div_le_div_of_nonneg_right hxy (quantum_pos y).le)
    exact mul_le_mul_of_nonneg_right (by exact_mod_cast hdiv) (quantum_pos y).le
  · -- a power of two separates the two numbers, and both roundings respect it
    have hy : Int.log 2 x < Int.log 2 y ∧ -126 < Int.log 2 y := by omega
    have hypos : 0 < y := hpos.trans_le hxy
    have hle : (2 : ℚ) ^ Int.log 2 y ≤ y := by exact_mod_cast Int.zpow_log_le_self one_lt_two hypos
    have hge : x ≤ (2 : ℚ) ^ Int.log 2 y := by
      have hsucc : x < (2 : ℚ) ^ (Int.log 2 x + 1) := by
        exact_mod_cast Int.lt_zpow_succ_log_self one_lt_two x
      exact hsucc.le.trans (zpow_le_zpow_right₀ one_le_two (by omega))
    obtain ⟨n, hn⟩ := exists_mul_quantum (x := x) (e := Int.log 2 y) (by omega)
    obtain ⟨m, hm⟩ := exists_mul_quantum (x := y) (e := Int.log 2 y) (by omega)
    calc roundMagnitude x ≤ n * quantum x := roundMagnitude_le (hn ▸ hge)
      _ = m * quantum y := by rw [← hn, hm]
      _ ≤ roundMagnitude y := le_roundMagnitude (hm ▸ hle)

/-- Rounding to binary32, nearest with ties to even, by sign and magnitude.
Magnitudes of 2^128 and more, which overflow the format, are left unbounded. -/
def round32 (x : ℚ) : ℚ := if x < 0 then -roundMagnitude (-x) else roundMagnitude x

theorem round32_mono : Monotone round32 := by
  intro x y hxy
  rw [round32, round32]
  split_ifs with hx hy hy
  · exact neg_le_neg (roundMagnitude_mono (by linarith) (by linarith))
  · have hx' := roundMagnitude_nonneg (x := -x) (by linarith)
    have hy' := roundMagnitude_nonneg (x := y) (by linarith)
    linarith
  · linarith
  · exact roundMagnitude_mono (not_lt.mp hx) hxy

theorem round32_dyadic {q : ℚ} (h : Dyadic24 q) : round32 q = q := by
  obtain ⟨k, j, hk, hj, rfl⟩ := h
  have hnonneg : (0 : ℚ) ≤ k / 2 ^ j := by positivity
  rw [round32, if_neg (not_lt.mpr hnonneg)]
  rcases Nat.eq_zero_or_pos k with rfl | hkpos
  · exact roundMagnitude_of_multiple (n := 0) (by simp)
  have hx : (k : ℚ) / 2 ^ j = k * 2 ^ (-(j : ℤ)) := by rw [zpow_neg, zpow_natCast]; rfl
  have hpos : (0 : ℚ) < k / 2 ^ j := by positivity
  generalize hxe : (k : ℚ) / 2 ^ j = x at hx hpos ⊢
  have hlog : (2 : ℚ) ^ Int.log 2 x ≤ x := by exact_mod_cast Int.zpow_log_le_self one_lt_two hpos
  have hle : (2 : ℚ) ^ (Int.log 2 x + j) ≤ k := by
    rw [zpow_add₀ two_ne_zero, zpow_natCast, ← le_div_iff₀ (by positivity)]
    rwa [hxe]
  have hbits : Int.log 2 x + j ≤ 24 := by
    have hpow : (2 : ℚ) ^ (Int.log 2 x + j) ≤ 2 ^ (24 : ℤ) := hle.trans (by exact_mod_cast hk)
    exact (zpow_le_zpow_iff_right₀ one_lt_two).mp hpow
  rcases hbits.eq_or_lt with heq | hlt
  · -- the only 25-bit case is 2 ^ 24 itself
    have hk' : (k : ℚ) = 2 ^ (24 : ℤ) := le_antisymm (by exact_mod_cast hk) (heq ▸ hle)
    obtain ⟨n, hn⟩ := exists_mul_quantum (x := x) (e := 24 - j) (by omega)
    apply roundMagnitude_of_multiple (n := n)
    rw [← hn, hx, hk', ← zpow_add₀ two_ne_zero]
    rfl
  · obtain ⟨n, hn⟩ := exists_mul_quantum (x := x) (e := -(j : ℤ)) (by omega)
    apply roundMagnitude_of_multiple (n := k * n)
    push_cast
    rw [mul_assoc, ← hn, hx]

def binary32 : Rounding := ⟨round32, round32_mono, fun _ => round32_dyadic⟩

variable (R : Rounding)

theorem le_round {a x : ℚ} (ha : Dyadic24 a) (h : a ≤ x) : a ≤ R.round x := by
  rw [← R.exact a ha]
  exact R.mono h

theorem round_le {b x : ℚ} (hb : Dyadic24 b) (h : x ≤ b) : R.round x ≤ b := by
  rw [← R.exact b hb]
  exact R.mono h

theorem round_mem_Icc {a b x : ℚ} (ha : Dyadic24 a) (hb : Dyadic24 b) (h : x ∈ Set.Icc a b) :
    R.round x ∈ Set.Icc a b :=
  ⟨R.le_round ha h.1, R.round_le hb h.2⟩

theorem lt_round_add {a b : ℚ} (ha : 0 ≤ a) (hle : a ≤ 1000000) (hb : 1 / 8 ≤ b) :
    a < R.round (b + a) := by
  have hfloor := Nat.floor_le (mul_nonneg (by norm_num : (0 : ℚ) ≤ 16) ha)
  have hlt := Nat.lt_floor_add_one (16 * a)
  have hd : Dyadic24 ((⌊16 * a⌋₊ + 1 : ℕ) / 2 ^ 4) := by
    refine ⟨⌊16 * a⌋₊ + 1, 4, ?_, by norm_num, rfl⟩
    have hmul : 16 * a ≤ (16000000 : ℕ) := by push_cast; linarith
    have hnat := Nat.floor_le_of_le hmul
    norm_num
    omega
  have hbelow : ((⌊16 * a⌋₊ + 1 : ℕ) : ℚ) / 2 ^ 4 ≤ b + a := by
    push_cast
    linarith
  refine lt_of_lt_of_le ?_ (R.le_round hd hbelow)
  push_cast
  linarith

end Rounding

end TriNet.Lib
