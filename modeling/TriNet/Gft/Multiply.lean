import TriNet.Gft.Format

namespace TriNet.Gft

open Lib

/-- Does the product of two significands, in words of `w` bits, reach two? -/
def mulCarry (w ma mb mantOne : Nat) : Option Nat := do
  let prod ← Checked.mul w (← Checked.add w mantOne ma) (← Checked.add w mantOne mb)
  if (← Checked.mul w (← Checked.mul w 2 mantOne) mantOne) ≤ prod then
    return 1
  else
    return 0

def mulMant (w ma mb mantOne : Nat) : Option Nat := do
  let prod ← Checked.mul w (← Checked.add w mantOne ma) (← Checked.add w mantOne mb)
  if (← Checked.mul w (← Checked.mul w 2 mantOne) mantOne) ≤ prod then
    Checked.sub (← Checked.div prod (← Checked.mul w 2 mantOne)) mantOne
  else
    Checked.sub (← Checked.div prod mantOne) mantOne

def mulOffset (carry : Option Nat) (offsetA offsetB bias offsetMax : Nat) : Option Nat := do
  let sum ← Checked.add 32 (← Checked.add 32 offsetA offsetB) (← carry)
  if sum < bias then
    return 0
  else
    let result ← Checked.sub sum bias
    if offsetMax ≤ result then
      return offsetMax
    else
      return result

def gftMulMantCarryP (ma mb mantOne : Nat) : Option Nat := mulCarry 32 ma mb mantOne

def gftMulMantP (ma mb mantOne : Nat) : Option Nat := mulMant 32 ma mb mantOne

def gftMulOffsetFullP (offsetA ma offsetB mb bias offsetMax mantOne : Nat) : Option Nat :=
  mulOffset (gftMulMantCarryP ma mb mantOne) offsetA offsetB bias offsetMax

def gftMulMantCarryU64 (ma mb mantOne : Nat) : Option Nat := mulCarry 64 ma mb mantOne

def gftMulMantU64 (ma mb mantOne : Nat) : Option Nat := do
  return (← mulMant 64 ma mb mantOne) % 2 ^ 32

def gftMulOffsetFullU64 (offsetA ma offsetB mb bias offsetMax mantOne : Nat) : Option Nat :=
  mulOffset (gftMulMantCarryU64 ma mb mantOne) offsetA offsetB bias offsetMax

section Product

variable {F : Format} {w : Nat} (a b : Number F)

def carry : Nat := if 2 ^ (2 * F.mantBits + 1) ≤ a.sig * b.sig then 1 else 0

theorem sig_mul_lt : a.sig * b.sig < 2 ^ (2 * F.mantBits + 2) := by
  have h := Nat.mul_lt_mul_of_lt_of_lt a.sig_lt b.sig_lt
  rw [← Nat.pow_add] at h
  exact h.trans_eq (congrArg _ (by omega))

theorem carry_bounds :
    2 ^ (F.mantBits + (F.mantBits + carry a b)) ≤ a.sig * b.sig ∧
      a.sig * b.sig < 2 ^ (F.mantBits + 1 + (F.mantBits + carry a b)) := by
  rw [carry]
  split
  · next h =>
      have hlt := sig_mul_lt a b
      exact ⟨(Nat.pow_le_pow_right two_pos (by omega)).trans h, hlt.trans_eq (congrArg _ (by omega))⟩
  · next h =>
      have hle := Nat.mul_le_mul a.mantOne_le_sig b.mantOne_le_sig
      rw [← Nat.pow_add] at hle
      exact ⟨hle, (Nat.not_le.mp h).trans_eq (congrArg _ (by omega))⟩

theorem mul_fits (hw : 2 * F.mantBits + 2 ≤ w) :
    Checked.mul w a.sig b.sig = some (a.sig * b.sig) ∧
      Checked.mul w (2 ^ (F.mantBits + 1)) F.mantOne = some (2 ^ (2 * F.mantBits + 1)) := by
  have hlimit : 2 ^ (F.mantBits + 1) * F.mantOne = 2 ^ (2 * F.mantBits + 1) := by
    rw [Format.mantOne, ← Nat.pow_add]
    congr 1
    omega
  constructor
  · exact Checked.mul_of_lt ((sig_mul_lt a b).trans_le (Nat.pow_le_pow_right two_pos hw))
  · rw [← hlimit]
    apply Checked.mul_of_lt
    rw [hlimit]
    exact Nat.pow_lt_pow_right one_lt_two (by omega)

theorem mulCarry_eq (hw : 2 * F.mantBits + 2 ≤ w) :
    mulCarry w a.mant b.mant F.mantOne = some (carry a b) := by
  obtain ⟨hprod, hlimit⟩ := mul_fits a b hw
  have hsig := Number.checked_sig (show F.mantBits + 1 ≤ w by omega)
  have hdouble := F.checked_double (show F.mantBits + 1 < w by omega)
  simp only [mulCarry, hsig, hprod, hdouble, hlimit, Option.bind_eq_bind, Option.bind_some, carry]
  split <;> rfl

theorem mulMant_eq (hw : 2 * F.mantBits + 2 ≤ w) :
    mulMant w a.mant b.mant F.mantOne =
      some (a.sig * b.sig / 2 ^ (F.mantBits + carry a b) - F.mantOne) := by
  obtain ⟨hprod, hlimit⟩ := mul_fits a b hw
  have hsig := Number.checked_sig (show F.mantBits + 1 ≤ w by omega)
  have hdouble := F.checked_double (show F.mantBits + 1 < w by omega)
  have hdiv (k : Nat) : Checked.div (a.sig * b.sig) (2 ^ k) = some (a.sig * b.sig / 2 ^ k) :=
    Checked.div_of_pos (Nat.two_pow_pos k)
  have hnormal : F.mantOne ≤ a.sig * b.sig / 2 ^ (F.mantBits + carry a b) := by
    rw [Nat.le_div_iff_mul_le (Nat.two_pow_pos _), Format.mantOne, ← Nat.pow_add]
    exact (carry_bounds a b).1
  simp only [mulMant, hsig, hprod, hdouble, hlimit, Option.bind_eq_bind, Option.bind_some]
  by_cases hcarry : 2 ^ (2 * F.mantBits + 1) ≤ a.sig * b.sig
  · have hone : carry a b = 1 := if_pos hcarry
    rw [hone] at hnormal ⊢
    rw [if_pos hcarry, hdiv, Option.bind_some]
    exact Checked.sub_of_le hnormal
  · have hzero : carry a b = 0 := if_neg hcarry
    rw [hzero, Nat.add_zero] at hnormal ⊢
    rw [if_neg hcarry, Format.mantOne, hdiv, Option.bind_some]
    exact Checked.sub_of_le hnormal

theorem product_truncates :
    Truncates F.mantBits (a.value * b.value)
      (F.ulpExp a.offset + F.ulpExp b.offset + (F.mantBits + carry a b : ℕ))
      (a.sig * b.sig / 2 ^ (F.mantBits + carry a b)) := by
  have hexact : a.value * b.value = (a.sig * b.sig : ℕ) * 2 ^ (F.ulpExp a.offset + F.ulpExp b.offset) := by
    rw [a.value_eq_sig, b.value_eq_sig, Format.ulp, Format.ulp, zpow_add₀ two_ne_zero]
    push_cast
    ring
  obtain ⟨hle, hlt⟩ := carry_bounds a b
  apply Truncates.shiftRight _ _ hle hlt
  · exact hexact.ge
  · rw [hexact]
    exact mul_lt_mul_of_pos_right (lt_add_one _) (Truncates.scale_pos _)

theorem mulOffset_clamps {carried offsetA offsetB : Nat}
    (hfit : offsetA + offsetB + carried < 2 ^ 32) (bias offsetMax : Nat) :
    mulOffset (some carried) offsetA offsetB bias offsetMax =
      some (if offsetA + offsetB + carried < bias then 0
        else min (offsetA + offsetB + carried - bias) offsetMax) := by
  rw [mulOffset, Option.bind_eq_bind, Checked.add_of_lt (show offsetA + offsetB < 2 ^ 32 by omega),
    Option.bind_some, Option.bind_some, Checked.add_of_lt hfit, Option.bind_some]
  split
  · rfl
  · next hlow =>
      rw [Checked.sub_of_le (Nat.not_lt.mp hlow), Option.bind_some]
      split
      · next hhigh => exact congrArg some (Nat.min_eq_right hhigh).symm
      · next hhigh => exact congrArg some (Nat.min_eq_left (Nat.not_le.mp hhigh).le).symm

theorem mulOffset_eq {carried offsetA offsetB bias offsetMax : Nat}
    (hfit : offsetA + offsetB + carried < 2 ^ 32)
    (hlow : bias ≤ offsetA + offsetB + carried) (hhigh : offsetA + offsetB + carried - bias < offsetMax) :
    mulOffset (some carried) offsetA offsetB bias offsetMax =
      some (offsetA + offsetB + carried - bias) := by
  rw [mulOffset_clamps hfit, if_neg (Nat.not_lt.mpr hlow), Nat.min_eq_left hhigh.le]

theorem carry_le_one : carry a b ≤ 1 := by
  rw [carry]
  split <;> omega

theorem mul_offsets_fit : a.offset + b.offset + carry a b < 2 ^ 32 := by
  have ha := a.finite
  have hb := b.finite
  have hnarrow := F.narrow
  have hcarry := carry_le_one a b
  omega

/-- The offset and the mantissa, each with its own carry, are those of the
truncated product. -/
theorem product_rounds (hw : 2 * F.mantBits + 2 ≤ w) (hlow : F.smallest ≤ a.value * b.value)
    (hhigh : a.value * b.value < F.top) :
    ∃ r : Number F, mulOffset (mulCarry w a.mant b.mant F.mantOne) a.offset b.offset F.bias
      F.offsetMax = some r.offset ∧
      mulMant w a.mant b.mant F.mantOne = some r.mant ∧ r.RoundsTowardZero (a.value * b.value) := by
  have htrunc := product_truncates a b
  rw [F.smallest_eq, htrunc.le_exp_iff] at hlow
  have hbias : F.bias ≤ a.offset + b.offset + carry a b := by
    simp only [Format.ulpExp] at hlow
    omega
  have hexp : F.ulpExp a.offset + F.ulpExp b.offset + (F.mantBits + carry a b : ℕ) =
      F.ulpExp (a.offset + b.offset + carry a b - F.bias) := by
    simp only [Format.ulpExp]
    omega
  rw [hexp] at htrunc
  obtain ⟨r, hoffset, hsig, hrounds⟩ := Number.exists_of_truncates htrunc hhigh
  refine ⟨r, ?_, ?_, hrounds⟩
  · rw [mulCarry_eq a b hw, hoffset]
    exact mulOffset_eq (mul_offsets_fit a b) hbias (hoffset ▸ r.finite)
  · rw [mulMant_eq a b hw, ← hsig, Number.sig, Nat.add_sub_cancel_left]

end Product

section Commutes

variable (w ma mb mantOne : Nat)

theorem product_comm (rest : Nat → Option Nat) :
    (do rest (← Checked.mul w (← Checked.add w mantOne ma) (← Checked.add w mantOne mb))) =
      (do rest (← Checked.mul w (← Checked.add w mantOne mb) (← Checked.add w mantOne ma))) := by
  cases Checked.add w mantOne ma with
  | none => cases Checked.add w mantOne mb <;> rfl
  | some sa =>
      cases Checked.add w mantOne mb with
      | none => rfl
      | some sb => simp only [Option.bind_eq_bind, Option.bind_some, Checked.mul_comm w sa sb]

theorem mulCarry_comm :
    mulCarry w ma mb mantOne = mulCarry w mb ma mantOne := product_comm w ma mb mantOne _

theorem mulMant_comm : mulMant w ma mb mantOne = mulMant w mb ma mantOne := product_comm w ma mb mantOne _

theorem mulOffset_comm (carried : Option Nat) (offsetA offsetB bias offsetMax : Nat) :
    mulOffset carried offsetA offsetB bias offsetMax =
      mulOffset carried offsetB offsetA bias offsetMax := by
  rw [mulOffset, mulOffset, Checked.add_comm]

end Commutes

def gft16Bias : Nat := 40

def gft16OffsetMax : Nat := 80

def mantOne : Nat := 512

def gftMulMant (ma mb : Nat) : Option Nat := gftMulMantP ma mb mantOne

def gftMulOffsetFull (offsetA ma offsetB mb bias offsetMax : Nat) : Option Nat :=
  gftMulOffsetFullP offsetA ma offsetB mb bias offsetMax mantOne

/-- `offset << 9`, which drops the bits it moves out, beside the mantissa. -/
def gftResultEncode (offset mant : Nat) : Nat := (offset * 2 ^ 9 % 2 ^ 32) ||| (mant &&& 0x1FF)

/-- The golden unit of the GF-T16 rung: offsets add, significands multiply and
are renormalized, and the result is one 16-bit word. -/
def gftMulResult (offsetA ma offsetB mb bias offsetMax : Nat) : Option Nat := do
  let offset ← gftMulOffsetFull offsetA ma offsetB mb bias offsetMax
  return gftResultEncode offset (← gftMulMant ma mb)

/-- The recomputation a receipt is checked with is the exact product rounded
toward zero. -/
theorem gftMulResult_rounds (a b : Number gft16) (hlow : gft16.smallest ≤ a.value * b.value)
    (hhigh : a.value * b.value < gft16.top) :
    ∃ r : Number gft16, r.RoundsTowardZero (a.value * b.value) ∧
      gftMulResult a.offset a.mant b.offset b.mant gft16Bias gft16OffsetMax =
        some (gftResultEncode r.offset r.mant) := by
  obtain ⟨r, hoffset, hmant, hrounds⟩ := product_rounds (w := 32) a b (by decide) hlow hhigh
  refine ⟨r, hrounds, ?_⟩
  have hfull : gftMulOffsetFull a.offset a.mant b.offset b.mant gft16Bias gft16OffsetMax =
      some r.offset := hoffset
  have hlast : gftMulMant a.mant b.mant = some r.mant := hmant
  rw [gftMulResult, hfull, hlast]
  rfl

theorem gftMulResult_rounds_one :
    ∃ r : Number gft16, r.RoundsTowardZero 1 ∧
      gftMulResult 40 0 40 0 40 80 = some (gftResultEncode r.offset r.mant) := by
  have hone : (⟨40, 0, by decide, by decide⟩ : Number gft16).value = 1 := by
    norm_num [Number.value, Format.value, gft16]
  have h := gftMulResult_rounds ⟨40, 0, by decide, by decide⟩ ⟨40, 0, by decide, by decide⟩
  rw [hone, one_mul] at h
  exact h (by rw [gft16.smallest_eq]; norm_num [gft16]) (by rw [Format.top]; norm_num [gft16])

theorem gft_mul_rounds (F : Format) :
    (F.mantBits ≤ 15 → ∀ a b : Number F, F.smallest ≤ a.value * b.value →
      a.value * b.value < F.top → ∃ r : Number F,
        gftMulOffsetFullP a.offset a.mant b.offset b.mant F.bias F.offsetMax F.mantOne = some r.offset ∧
        gftMulMantP a.mant b.mant F.mantOne = some r.mant ∧ r.RoundsTowardZero (a.value * b.value)) ∧
    (F.mantBits = 25 → ∀ a b : Number F, F.smallest ≤ a.value * b.value →
      a.value * b.value < F.top → ∃ r : Number F,
        gftMulOffsetFullU64 a.offset a.mant b.offset b.mant F.bias F.offsetMax F.mantOne = some r.offset ∧
        gftMulMantU64 a.mant b.mant F.mantOne = some r.mant ∧ r.RoundsTowardZero (a.value * b.value)) ∧
    (∀ offsetA ma offsetB mb bias offsetMax mantOne,
      gftMulOffsetFullP offsetA ma offsetB mb bias offsetMax mantOne =
        gftMulOffsetFullP offsetB mb offsetA ma bias offsetMax mantOne ∧
      gftMulMantP ma mb mantOne = gftMulMantP mb ma mantOne ∧
      gftMulOffsetFullU64 offsetA ma offsetB mb bias offsetMax mantOne =
        gftMulOffsetFullU64 offsetB mb offsetA ma bias offsetMax mantOne ∧
      gftMulMantU64 ma mb mantOne = gftMulMantU64 mb ma mantOne) := by
  refine ⟨?_, ?_, ?_⟩
  · intro hm a b hlow hhigh
    exact product_rounds a b (by omega) hlow hhigh
  · intro hm a b hlow hhigh
    obtain ⟨r, hoffset, hmant, hrounds⟩ := product_rounds (w := 64) a b (by omega) hlow hhigh
    refine ⟨r, hoffset, ?_, hrounds⟩
    have hlt := r.mant_lt
    rw [hm] at hlt
    rw [gftMulMantU64, hmant, Option.bind_eq_bind, Option.bind_some, Nat.mod_eq_of_lt (by omega)]
    rfl
  · intro offsetA ma offsetB mb bias offsetMax mantOne
    refine ⟨?_, mulMant_comm 32 ma mb mantOne, ?_, ?_⟩
    · rw [gftMulOffsetFullP, gftMulOffsetFullP, mulOffset_comm, gftMulMantCarryP,
        gftMulMantCarryP, mulCarry_comm]
    · rw [gftMulOffsetFullU64, gftMulOffsetFullU64, mulOffset_comm, gftMulMantCarryU64,
        gftMulMantCarryU64, mulCarry_comm]
    · rw [gftMulMantU64, gftMulMantU64, mulMant_comm]

def three : Number gft16 := ⟨41, 256, by decide, by decide⟩

def threeHalves : Number gft32 := ⟨364, 16777216, by decide, by decide⟩

theorem three_value : three.value = 3 := by
  norm_num [three, Number.value, Format.value, gft16]

theorem threeHalves_value : threeHalves.value = 3 / 2 := by
  norm_num [threeHalves, Number.value, Format.value, gft32]

theorem gft_mul_rounds_nine :
    (gft16.mantBits ≤ 15 ∧ gft16.smallest ≤ three.value * three.value ∧
      three.value * three.value < gft16.top ∧
      ∃ r : Number gft16, gftMulOffsetFullP 41 256 41 256 40 80 512 = some r.offset ∧
        gftMulMantP 256 256 512 = some r.mant ∧ r.RoundsTowardZero (three.value * three.value)) ∧
    (gft32.mantBits = 25 ∧ gft32.smallest ≤ threeHalves.value * threeHalves.value ∧
      threeHalves.value * threeHalves.value < gft32.top ∧
      ∃ r : Number gft32, gftMulOffsetFullU64 364 16777216 364 16777216 364 728 33554432 = some r.offset ∧
        gftMulMantU64 16777216 16777216 33554432 = some r.mant ∧
        r.RoundsTowardZero (threeHalves.value * threeHalves.value)) := by
  have hlow : gft16.smallest ≤ three.value * three.value := by
    rw [three_value, gft16.smallest_eq]
    norm_num [gft16]
  have hhigh : three.value * three.value < gft16.top := by
    rw [three_value, Format.top]
    norm_num [gft16]
  have hlow' : gft32.smallest ≤ threeHalves.value * threeHalves.value := by
    have hone : (2 : ℚ) ^ (-(gft32.bias : ℤ)) ≤ 2 ^ (0 : ℤ) := zpow_le_zpow_right₀ one_le_two (by decide)
    rw [threeHalves_value, gft32.smallest_eq]
    exact hone.trans (by norm_num)
  have hhigh' : threeHalves.value * threeHalves.value < gft32.top := by
    have hfour : (2 : ℚ) ^ (2 : ℤ) ≤ 2 ^ ((gft32.offsetMax : ℤ) - gft32.bias) :=
      zpow_le_zpow_right₀ one_le_two (by decide)
    rw [threeHalves_value, Format.top]
    exact lt_of_lt_of_le (by norm_num) hfour
  exact ⟨⟨by decide, hlow, hhigh, (gft_mul_rounds gft16).1 (by decide) three three hlow hhigh⟩,
    ⟨rfl, hlow', hhigh', (gft_mul_rounds gft32).2.1 rfl threeHalves threeHalves hlow' hhigh'⟩⟩

end TriNet.Gft
