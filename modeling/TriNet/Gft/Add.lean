import TriNet.Gft.Format

namespace TriNet.Gft

open Lib

def gftAddSbP (mb d mantOne sigBits : Nat) : Option Nat := do
  if sigBits ≤ d then
    return 0
  else
    Checked.shr 32 (← Checked.add 32 mantOne mb) d

def gftAddOffsetP (offsetA offsetB ma mb offsetMax mantOne sigBits : Nat) : Option Nat := do
  let d ← Checked.sub offsetA offsetB
  let sum ← Checked.add 32 (← Checked.add 32 mantOne ma) (← gftAddSbP mb d mantOne sigBits)
  if (← Checked.mul 32 2 mantOne) ≤ sum then
    let e ← Checked.add 32 offsetA 1
    if offsetMax ≤ e then
      return offsetMax
    else
      return e
  else
    return offsetA

def gftAddMantP (offsetA offsetB ma mb mantOne sigBits : Nat) : Option Nat := do
  let d ← Checked.sub offsetA offsetB
  let sum ← Checked.add 32 (← Checked.add 32 mantOne ma) (← gftAddSbP mb d mantOne sigBits)
  if (← Checked.mul 32 2 mantOne) ≤ sum then
    Checked.sub (← Checked.shr 32 sum 1) mantOne
  else
    Checked.sub sum mantOne

def gftAddOffsetCP (oa ob ma mb offsetMax mantOne sigBits : Nat) : Option Nat :=
  if ob ≤ oa then gftAddOffsetP oa ob ma mb offsetMax mantOne sigBits
  else gftAddOffsetP ob oa mb ma offsetMax mantOne sigBits

def gftAddMantCP (oa ob ma mb mantOne sigBits : Nat) : Option Nat :=
  if ob ≤ oa then gftAddMantP oa ob ma mb mantOne sigBits
  else gftAddMantP ob oa mb ma mantOne sigBits

section Sorted

variable {F : Format} (a b : Number F)

/-- The significands added at the larger exponent, the lower bits of the smaller
dropped. -/
def alignedSum : Nat := a.sig + b.sig / 2 ^ (a.offset - b.offset)

def sumCarry : Nat := if 2 ^ (F.mantBits + 1) ≤ alignedSum a b then 1 else 0

theorem alignedSum_lt : alignedSum a b < 2 ^ (F.mantBits + 2) := by
  have ha := a.sig_lt
  have hb := b.sig_lt
  have hshift : b.sig / 2 ^ (a.offset - b.offset) ≤ b.sig := Nat.div_le_self _ _
  rw [Nat.pow_succ] at ha hb
  rw [alignedSum, Nat.pow_add]
  omega

theorem sumCarry_bounds :
    2 ^ (F.mantBits + sumCarry a b) ≤ alignedSum a b ∧
      alignedSum a b < 2 ^ (F.mantBits + 1 + sumCarry a b) := by
  rw [sumCarry]
  split
  · next h => exact ⟨h, alignedSum_lt a b⟩
  · next h => exact ⟨a.mantOne_le_sig.trans (Nat.le_add_right _ _), Nat.not_le.mp h⟩

/-- The shift drops nothing the carry would have needed: the two roundings are
one. -/
theorem sum_truncates (h : b.offset ≤ a.offset) :
    Truncates F.mantBits (a.value + b.value) (F.ulpExp (a.offset + sumCarry a b))
      (alignedSum a b / 2 ^ sumCarry a b) := by
  have hexp : F.ulpExp b.offset + (a.offset - b.offset : ℕ) = F.ulpExp a.offset := by
    simp only [Format.ulpExp]
    omega
  have hfloor := Truncates.floor_le (K := ℚ) b.sig (a.offset - b.offset) (F.ulpExp b.offset)
  have hceil := Truncates.succ_le_floor_succ (K := ℚ) b.sig (a.offset - b.offset) (F.ulpExp b.offset)
  rw [hexp] at hfloor hceil
  have hulp := Truncates.scale_pos (K := ℚ) (F.ulpExp b.offset)
  have hcarried : F.ulpExp (a.offset + sumCarry a b) = F.ulpExp a.offset + sumCarry a b := by
    simp only [Format.ulpExp]
    omega
  obtain ⟨hle, hlt⟩ := sumCarry_bounds a b
  rw [hcarried]
  apply Truncates.shiftRight _ _ hle hlt
  · rw [a.value_eq_sig, b.value_eq_sig, Format.ulp, Format.ulp, alignedSum]
    push_cast
    linarith
  · rw [a.value_eq_sig, b.value_eq_sig, Format.ulp, Format.ulp, alignedSum]
    push_cast
    linarith

theorem gftAddSbP_eq (hm : F.mantBits ≤ 30) (d : Nat) :
    gftAddSbP b.mant d F.mantOne F.sigBits = some (b.sig / 2 ^ d) := by
  have hlt := b.sig_lt
  rw [gftAddSbP]
  split
  · next hd =>
      have hout : b.sig < 2 ^ d := hlt.trans_le (Nat.pow_le_pow_right two_pos hd)
      rw [Nat.div_eq_of_lt hout]
      rfl
  · next hd =>
      rw [Format.sigBits] at hd
      rw [b.checked_sig (by omega), Option.bind_eq_bind, Option.bind_some]
      exact Checked.shr_of_lt (by omega)

theorem checked_alignedSum (hm : F.mantBits ≤ 30) :
    Checked.add 32 a.sig (b.sig / 2 ^ (a.offset - b.offset)) = some (alignedSum a b) :=
  Checked.add_of_lt ((alignedSum_lt a b).trans_le (Nat.pow_le_pow_right two_pos (by omega)))

theorem gftAddOffsetP_clamps {offsetMax : Nat} (hm : F.mantBits ≤ 30) (h : b.offset ≤ a.offset)
    (hmax : a.offset ≤ offsetMax) :
    gftAddOffsetP a.offset b.offset a.mant b.mant offsetMax F.mantOne F.sigBits =
      some (min (a.offset + sumCarry a b) offsetMax) := by
  have hsig := a.checked_sig (show F.mantBits + 1 ≤ 32 by omega)
  have hdouble := F.checked_double (show F.mantBits + 1 < 32 by omega)
  have hfinite := a.finite
  have hnarrow := F.narrow
  simp only [gftAddOffsetP, Checked.sub_of_le h, gftAddSbP_eq b hm, hsig, checked_alignedSum a b hm,
    hdouble, Option.bind_eq_bind, Option.bind_some, sumCarry]
  split
  · rw [Checked.add_of_lt (by omega), Option.bind_some]
    split
    · next hle => exact congrArg some (Nat.min_eq_right hle).symm
    · next hlt => exact congrArg some (Nat.min_eq_left (Nat.not_le.mp hlt).le).symm
  · exact congrArg some (Nat.min_eq_left hmax).symm

theorem sumCarry_le_one : sumCarry a b ≤ 1 := by
  rw [sumCarry]
  split <;> omega

theorem gftAddOffsetP_eq (hm : F.mantBits ≤ 30) (h : b.offset ≤ a.offset) :
    gftAddOffsetP a.offset b.offset a.mant b.mant F.offsetMax F.mantOne F.sigBits =
      some (a.offset + sumCarry a b) := by
  have hfinite := a.finite
  have hcarry := sumCarry_le_one a b
  -- a carry out of the last finite row lands on the special row itself
  rw [gftAddOffsetP_clamps a b hm h hfinite.le, Nat.min_eq_left (by omega)]

theorem gftAddMantP_eq (hm : F.mantBits ≤ 30) (h : b.offset ≤ a.offset) :
    gftAddMantP a.offset b.offset a.mant b.mant F.mantOne F.sigBits =
      some (alignedSum a b / 2 ^ sumCarry a b - F.mantOne) := by
  have hsig := a.checked_sig (show F.mantBits + 1 ≤ 32 by omega)
  have hdouble := F.checked_double (show F.mantBits + 1 < 32 by omega)
  have hnormal : F.mantOne ≤ alignedSum a b / 2 ^ sumCarry a b := (sum_truncates a b h).le_sig
  simp only [gftAddMantP, Checked.sub_of_le h, gftAddSbP_eq b hm, hsig, checked_alignedSum a b hm,
    hdouble, Option.bind_eq_bind, Option.bind_some]
  by_cases hcarry : 2 ^ (F.mantBits + 1) ≤ alignedSum a b
  · have hone : sumCarry a b = 1 := if_pos hcarry
    rw [hone] at hnormal ⊢
    rw [if_pos hcarry, Checked.shr_of_lt (by decide), Option.bind_some]
    exact Checked.sub_of_le hnormal
  · have hzero : sumCarry a b = 0 := if_neg hcarry
    rw [hzero, Nat.pow_zero, Nat.div_one] at hnormal ⊢
    rw [if_neg hcarry]
    exact Checked.sub_of_le hnormal

end Sorted

section Unsorted

variable {F : Format}

theorem add_truncates (hm : F.mantBits ≤ 30) (a b : Number F) :
    ∃ offset v, gftAddOffsetCP a.offset b.offset a.mant b.mant F.offsetMax F.mantOne F.sigBits =
      some offset ∧
      gftAddMantCP a.offset b.offset a.mant b.mant F.mantOne F.sigBits = some (v - F.mantOne) ∧
      Truncates F.mantBits (a.value + b.value) (F.ulpExp offset) v := by
  rw [gftAddOffsetCP, gftAddMantCP]
  by_cases h : b.offset ≤ a.offset
  · rw [if_pos h, if_pos h]
    exact ⟨_, _, gftAddOffsetP_eq a b hm h, gftAddMantP_eq a b hm h, sum_truncates a b h⟩
  · have h' : a.offset ≤ b.offset := by omega
    rw [if_neg h, if_neg h, add_comm]
    exact ⟨_, _, gftAddOffsetP_eq b a hm h', gftAddMantP_eq b a hm h', sum_truncates b a h'⟩

theorem gft_add_rounds (F : Format) (hm : F.mantBits ≤ 15) :
    (∀ a b : Number F, a.value + b.value < F.top → ∃ r : Number F,
      gftAddOffsetCP a.offset b.offset a.mant b.mant F.offsetMax F.mantOne F.sigBits = some r.offset ∧
      gftAddMantCP a.offset b.offset a.mant b.mant F.mantOne F.sigBits = some r.mant ∧
      r.RoundsTowardZero (a.value + b.value)) ∧
    (∀ a b : Number F,
      gftAddOffsetCP a.offset b.offset a.mant b.mant F.offsetMax F.mantOne F.sigBits =
        gftAddOffsetCP b.offset a.offset b.mant a.mant F.offsetMax F.mantOne F.sigBits ∧
      gftAddMantCP a.offset b.offset a.mant b.mant F.mantOne F.sigBits =
        gftAddMantCP b.offset a.offset b.mant a.mant F.mantOne F.sigBits) ∧
    (∀ a a' b b' : Number F, a.value ≤ a'.value → b.value ≤ b'.value → ∃ offset mant offset' mant',
      gftAddOffsetCP a.offset b.offset a.mant b.mant F.offsetMax F.mantOne F.sigBits = some offset ∧
      gftAddMantCP a.offset b.offset a.mant b.mant F.mantOne F.sigBits = some mant ∧
      gftAddOffsetCP a'.offset b'.offset a'.mant b'.mant F.offsetMax F.mantOne F.sigBits = some offset' ∧
      gftAddMantCP a'.offset b'.offset a'.mant b'.mant F.mantOne F.sigBits = some mant' ∧
      F.value offset mant ≤ F.value offset' mant') := by
  have hm' : F.mantBits ≤ 30 := by omega
  refine ⟨?_, ?_, ?_⟩
  · intro a b htop
    obtain ⟨offset, v, hoffset, hmant, htrunc⟩ := add_truncates hm' a b
    obtain ⟨r, rfl, rfl, hrounds⟩ := Number.exists_of_truncates htrunc htop
    refine ⟨r, hoffset, ?_, hrounds⟩
    rw [hmant, Number.sig, Nat.add_sub_cancel_left]
  · intro a b
    obtain ⟨offset, v, hoffset, hmant, htrunc⟩ := add_truncates hm' a b
    obtain ⟨offset', v', hoffset', hmant', htrunc'⟩ := add_truncates hm' b a
    rw [add_comm] at htrunc'
    obtain ⟨hexp, rfl⟩ := htrunc.unique htrunc'
    obtain rfl := F.ulpExp_inj hexp
    rw [hoffset, hoffset', hmant, hmant']
    exact ⟨rfl, rfl⟩
  · intro a a' b b' ha hb
    obtain ⟨offset, v, hoffset, hmant, htrunc⟩ := add_truncates hm' a b
    obtain ⟨offset', v', hoffset', hmant', htrunc'⟩ := add_truncates hm' a' b'
    refine ⟨offset, _, offset', _, hoffset, hmant, hoffset', hmant', ?_⟩
    rw [Format.value_of_truncates htrunc, Format.value_of_truncates htrunc']
    exact htrunc.mono htrunc' (add_le_add ha hb)

end Unsorted

def one : Number gft16 := ⟨40, 0, by decide, by decide⟩

theorem gft_add_rounds_two :
    gft16.mantBits ≤ 15 ∧ one.value + one.value < gft16.top ∧ ∃ r : Number gft16,
      gftAddOffsetCP 40 40 0 0 80 512 10 = some r.offset ∧
      gftAddMantCP 40 40 0 0 512 10 = some r.mant ∧ r.RoundsTowardZero (one.value + one.value) := by
  have htop : one.value + one.value < gft16.top := by
    norm_num [one, Number.value, Format.value, Format.top, gft16]
  exact ⟨by decide, htop, (gft_add_rounds gft16 (by decide)).1 one one htop⟩

end TriNet.Gft
