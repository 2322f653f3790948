import TriNet.Gft.Format

namespace TriNet.Gft

open Lib

/-- A chain of tests from bit `n` down to bit 1, the first one passed answering. -/
def ladder (test : Nat → Bool) : Nat → Nat
  | 0 => 0
  | n + 1 => if test (n + 1) then n + 1 else ladder test n

def hiBit (x : Nat) : Nat := ladder (fun k => 2 ^ k ≤ x) 30

def hiBitU64 (x : Nat) : Nat := ladder (fun k => x >>> k ≠ 0) 63

def normSig (w v hb mantBits : Nat) : Option Nat :=
  if mantBits ≤ hb then Checked.shr w v (hb - mantBits) else Checked.shl w v (mantBits - hb)

/-- The exponent of `a - b` for `b` at most `a`, the aligned difference taken in
words of `w` bits while the offsets are less than `alignCap` apart. -/
def subOffset (w alignCap : Nat) (hiBit : Nat → Nat)
    (offsetA offsetB ma mb mantOne mantBits : Nat) : Option Nat := do
  let d ← Checked.sub offsetA offsetB
  if alignCap ≤ d then
    if 1 ≤ ma then
      return offsetA
    else if 1 ≤ offsetA then
      Checked.sub offsetA 1
    else
      return 0
  else
    let v ← Checked.sub (← Checked.shl w (← Checked.add w mantOne ma) d) (← Checked.add w mantOne mb)
    if v = 0 then
      return 0
    else
      let top ← Checked.add 32 offsetB (hiBit v)
      if top < mantBits then
        return 0
      else
        Checked.sub top mantBits

def subMant (w alignCap : Nat) (hiBit : Nat → Nat) (normSig : (v hb mantBits : Nat) → Option Nat)
    (offsetA offsetB ma mb mantOne mantBits : Nat) : Option Nat := do
  let d ← Checked.sub offsetA offsetB
  if alignCap ≤ d then
    if 1 ≤ ma then
      Checked.sub ma 1
    else
      Checked.sub mantOne 1
  else
    let v ← Checked.sub (← Checked.shl w (← Checked.add w mantOne ma) d) (← Checked.add w mantOne mb)
    if v = 0 then
      return 0
    else
      let hb := hiBit v
      let top ← Checked.add 32 offsetB hb
      if top < mantBits then
        return 0
      else
        Checked.sub (← normSig v hb mantBits) mantOne

def sorted (sub : Nat → Nat → Nat → Nat → Option Nat) (oa ob ma mb : Nat) : Option Nat :=
  if ob < oa then sub oa ob ma mb
  else if oa < ob then sub ob oa mb ma
  else if mb ≤ ma then sub oa ob ma mb
  else sub ob oa mb ma

def alignCap : Nat := 22

def alignCapU64 : Nat := 38

def normSigP (v hb mantBits : Nat) : Option Nat := normSig 32 v hb mantBits

def normSigU64 (v hb mantBits : Nat) : Option Nat := normSig 64 v hb mantBits

def gftSubOffsetP (offsetA offsetB ma mb mantOne mantBits : Nat) : Option Nat :=
  subOffset 32 alignCap hiBit offsetA offsetB ma mb mantOne mantBits

def gftSubMantP (offsetA offsetB ma mb mantOne mantBits : Nat) : Option Nat :=
  subMant 32 alignCap hiBit normSigP offsetA offsetB ma mb mantOne mantBits

def gftSubOffsetCP (oa ob ma mb mantOne mantBits : Nat) : Option Nat :=
  sorted (fun oa ob ma mb => gftSubOffsetP oa ob ma mb mantOne mantBits) oa ob ma mb

def gftSubMantCP (oa ob ma mb mantOne mantBits : Nat) : Option Nat :=
  sorted (fun oa ob ma mb => gftSubMantP oa ob ma mb mantOne mantBits) oa ob ma mb

def gftSubOffsetU64 (offsetA offsetB ma mb mantOne mantBits alignCap : Nat) : Option Nat :=
  subOffset 64 alignCap hiBitU64 offsetA offsetB ma mb mantOne mantBits

def gftSubMantU64 (offsetA offsetB ma mb mantOne mantBits alignCap : Nat) : Option Nat := do
  return (← subMant 64 alignCap hiBitU64 normSigU64 offsetA offsetB ma mb mantOne mantBits) % 2 ^ 32

def gftSubOffsetCU64 (oa ob ma mb mantOne mantBits alignCap : Nat) : Option Nat :=
  sorted (fun oa ob ma mb => gftSubOffsetU64 oa ob ma mb mantOne mantBits alignCap) oa ob ma mb

def gftSubMantCU64 (oa ob ma mb mantOne mantBits alignCap : Nat) : Option Nat :=
  sorted (fun oa ob ma mb => gftSubMantU64 oa ob ma mb mantOne mantBits alignCap) oa ob ma mb

/-- The bit `hb` is the leading one of `v`. -/
def Leads (hb v : Nat) : Prop := 2 ^ hb ≤ v ∧ v < 2 ^ (hb + 1)

theorem ladder_leads {test : Nat → Bool} {v n : Nat} (htest : ∀ k, test k = true ↔ 2 ^ k ≤ v)
    (hpos : 0 < v) (hlt : v < 2 ^ (n + 1)) : Leads (ladder test n) v := by
  induction n with
  | zero => exact ⟨hpos, hlt⟩
  | succ n ih =>
      rw [ladder]
      split
      · next h => exact ⟨(htest _).mp h, hlt⟩
      · next h =>
          rw [htest, Nat.not_le] at h
          exact ih h

theorem hiBit_leads {v : Nat} (hpos : 0 < v) (hlt : v < 2 ^ 31) : Leads (hiBit v) v :=
  ladder_leads (fun _ => decide_eq_true_iff) hpos hlt

theorem hiBitU64_leads {v : Nat} (hpos : 0 < v) (hlt : v < 2 ^ 64) : Leads (hiBitU64 v) v := by
  refine ladder_leads (fun k => ?_) hpos hlt
  rw [decide_eq_true_iff, Nat.shiftRight_eq_div_pow, ne_eq, Nat.div_eq_zero_iff]
  have hpow := Nat.two_pow_pos k
  omega

section Difference

variable {F : Format}

def Dominates (a b : Number F) : Prop := b.offset < a.offset ∨ b.offset = a.offset ∧ b.mant ≤ a.mant

def difference (a b : Number F) : Nat := a.sig * 2 ^ (a.offset - b.offset) - b.sig

variable {a b : Number F}

theorem Dominates.sig_le (h : Dominates a b) : b.sig ≤ a.sig * 2 ^ (a.offset - b.offset) := by
  rcases h with hlt | ⟨heq, hle⟩
  · calc b.sig ≤ 2 ^ (F.mantBits + 1) := b.sig_lt.le
      _ ≤ 2 ^ F.mantBits * 2 ^ (a.offset - b.offset) := by
          rw [← Nat.pow_add]
          exact Nat.pow_le_pow_right two_pos (by omega)
      _ ≤ a.sig * 2 ^ (a.offset - b.offset) := Nat.mul_le_mul_right _ a.mantOne_le_sig
  · rw [heq, Nat.sub_self, Nat.pow_zero, Nat.mul_one]
    exact Nat.add_le_add_left hle _

theorem Dominates.offset_le (h : Dominates a b) : b.offset ≤ a.offset := by
  rcases h with hlt | ⟨heq, -⟩ <;> omega

theorem Dominates.value_sub (h : Dominates a b) :
    a.value - b.value = difference a b * 2 ^ F.ulpExp b.offset := by
  have hexp : F.ulpExp b.offset + (a.offset - b.offset : ℕ) = F.ulpExp a.offset := by
    have hle := h.offset_le
    simp only [Format.ulpExp]
    omega
  have hscale := Truncates.scale_add (K := ℚ) (F.ulpExp b.offset) (a.offset - b.offset)
  rw [hexp] at hscale
  rw [a.value_eq_sig, b.value_eq_sig, Format.ulp, Format.ulp, hscale, difference, Nat.cast_sub h.sig_le]
  push_cast
  ring

theorem Dominates.value_le (h : Dominates a b) : b.value ≤ a.value := by
  rw [← sub_nonneg, h.value_sub]
  exact mul_nonneg (Nat.cast_nonneg _) (Truncates.scale_pos _).le

theorem difference_lt (a b : Number F) :
    difference a b < 2 ^ (F.mantBits + 1 + (a.offset - b.offset)) := by
  have h := Nat.mul_lt_mul_of_pos_right a.sig_lt (Nat.two_pow_pos (a.offset - b.offset))
  rw [← Nat.pow_add] at h
  exact (Nat.sub_le _ _).trans_lt h

/-- What the code answers for an exact difference `x`: its truncation, or zeros
where it is too small for the format. -/
def Answers (F : Format) (x : ℚ) (offset mant : Option Nat) : Prop :=
  (x < F.smallest ∧ offset = some 0 ∧ mant = some 0) ∨
    ∃ o v, offset = some o ∧ mant = some (v - F.mantOne) ∧ Truncates F.mantBits x (F.ulpExp o) v

/-- Every difference of numbers less than `cap` rows apart fits the word, its
leading bit is found, and from `cap` rows on the smaller number is below half a
unit of the larger. -/
structure Spans (F : Format) (w cap : Nat) (hiBit : Nat → Nat) : Prop where
  far : F.mantBits + 2 ≤ cap
  near : F.mantBits + cap ≤ w
  word : w ≤ 64
  leads : ∀ {v}, 0 < v → v < 2 ^ (F.mantBits + cap) → Leads (hiBit v) v

theorem spans_narrow (hm : F.mantBits ≤ 9) : Spans F 32 alignCap hiBit where
  far := by
    rw [alignCap]
    omega
  near := by
    rw [alignCap]
    omega
  word := by decide
  leads hpos hlt := by
    rw [alignCap] at hlt
    exact hiBit_leads hpos (hlt.trans_le (Nat.pow_le_pow_right two_pos (by omega)))

theorem spans_wide (hm : F.mantBits = 25) : Spans F 64 alignCapU64 hiBitU64 where
  far := by
    rw [alignCapU64]
    omega
  near := by
    rw [alignCapU64]
    omega
  word := le_rfl
  leads hpos hlt := by
    rw [alignCapU64] at hlt
    exact hiBitU64_leads hpos (hlt.trans_le (Nat.pow_le_pow_right two_pos (by omega)))

theorem Leads.lt_smallest {hb v offset : Nat} (h : Leads hb v) (hlow : offset + hb < F.mantBits) :
    (v : ℚ) * 2 ^ F.ulpExp offset < F.smallest := by
  have hv : (v : ℚ) < (2 ^ (hb + 1) : ℕ) := Nat.cast_lt.mpr h.2
  push_cast at hv
  have hscale := Truncates.scale_add (K := ℚ) (F.ulpExp offset) (hb + 1)
  calc (v : ℚ) * 2 ^ F.ulpExp offset < 2 ^ (hb + 1) * 2 ^ F.ulpExp offset :=
        mul_lt_mul_of_pos_right hv (Truncates.scale_pos _)
    _ = 2 ^ (F.ulpExp offset + (hb + 1 : ℕ)) := hscale.symm
    _ ≤ 2 ^ (-(F.bias : ℤ)) := by
        apply zpow_le_zpow_right₀ one_le_two
        rw [Format.ulpExp]
        omega
    _ = F.smallest := F.smallest_eq.symm

theorem normSig_truncates {w v hb offset : Nat} {x : ℚ} (hleads : Leads hb v)
    (hx : x = v * 2 ^ F.ulpExp offset)
    (hlow : F.mantBits ≤ offset + hb) (hhb : hb < w) (hm : F.mantBits < w) :
    ∃ norm, normSig w v hb F.mantBits = some norm ∧
      Truncates F.mantBits x (F.ulpExp (offset + hb - F.mantBits)) norm := by
  obtain ⟨hle, hlt⟩ := hleads
  rw [normSig]
  by_cases hnorm : F.mantBits ≤ hb
  · rw [if_pos hnorm]
    refine ⟨_, Checked.shr_of_lt (by omega), ?_⟩
    have hexp : F.ulpExp (offset + hb - F.mantBits) = F.ulpExp offset + (hb - F.mantBits : ℕ) := by
      simp only [Format.ulpExp]
      omega
    rw [hexp]
    apply Truncates.shiftRight
    · exact hx.ge
    · rw [hx]
      exact mul_lt_mul_of_pos_right (lt_add_one _) (Truncates.scale_pos _)
    · rw [Nat.add_sub_cancel' hnorm]
      exact hle
    · rw [Nat.add_right_comm, Nat.add_sub_cancel' hnorm]
      exact hlt
  · rw [if_neg hnorm]
    have hpow : 2 ^ F.mantBits ≤ v * 2 ^ (F.mantBits - hb) := by
      have h := Nat.mul_le_mul_right (2 ^ (F.mantBits - hb)) hle
      rwa [← Nat.pow_add, Nat.add_sub_cancel' (by omega)] at h
    have hpow' : v * 2 ^ (F.mantBits - hb) < 2 ^ (F.mantBits + 1) := by
      have h := Nat.mul_lt_mul_of_pos_right hlt (Nat.two_pow_pos (F.mantBits - hb))
      rwa [← Nat.pow_add, Nat.add_right_comm, Nat.add_sub_cancel' (by omega)] at h
    refine ⟨_, Checked.shl_of_lt (by omega) (hpow'.trans_le (Nat.pow_le_pow_right two_pos hm)), ?_⟩
    apply Truncates.shiftLeft _ hpow hpow'
    rw [hx]
    congr 2
    simp only [Format.ulpExp]
    omega

theorem Spans.checked_difference {w cap : Nat} {hiBit : Nat → Nat} (hspan : Spans F w cap hiBit)
    (h : Dominates a b) (hd : a.offset - b.offset < cap) :
    Checked.shl w a.sig (a.offset - b.offset) = some (a.sig * 2 ^ (a.offset - b.offset)) ∧
      Checked.sub (a.sig * 2 ^ (a.offset - b.offset)) b.sig = some (difference a b) := by
  have hnear := hspan.near
  have hlt := Nat.mul_lt_mul_of_pos_right a.sig_lt (Nat.two_pow_pos (a.offset - b.offset))
  rw [← Nat.pow_add] at hlt
  refine ⟨?_, Checked.sub_of_le h.sig_le⟩
  exact Checked.shl_of_lt (by omega) (hlt.trans_le (Nat.pow_le_pow_right two_pos (by omega)))

theorem Spans.near_answers {w cap : Nat} {hiBit : Nat → Nat} (hspan : Spans F w cap hiBit)
    (h : Dominates a b) (hd : a.offset - b.offset < cap) :
    Answers F (a.value - b.value)
      (subOffset w cap hiBit a.offset b.offset a.mant b.mant F.mantOne F.mantBits)
      (subMant w cap hiBit (normSig w) a.offset b.offset a.mant b.mant F.mantOne F.mantBits) := by
  have hfar := hspan.far
  have hnear := hspan.near
  have hword := hspan.word
  have hsig := Number.checked_sig (show F.mantBits + 1 ≤ w by omega)
  obtain ⟨hshl, hsub⟩ := hspan.checked_difference h hd
  have hvalue := h.value_sub
  simp only [subOffset, subMant, Checked.sub_of_le h.offset_le, if_neg (Nat.not_le.mpr hd), hsig,
    hshl, hsub, Option.bind_eq_bind, Option.bind_some]
  by_cases hzero : difference a b = 0
  · left
    rw [if_pos hzero, if_pos hzero]
    refine ⟨?_, rfl, rfl⟩
    rw [hvalue, hzero, F.smallest_eq, Nat.cast_zero, zero_mul]
    exact Truncates.scale_pos _
  have hdiff : difference a b < 2 ^ (F.mantBits + cap) :=
    (difference_lt a b).trans_le (Nat.pow_le_pow_right two_pos (by omega))
  have hleads := hspan.leads (Nat.pos_of_ne_zero hzero) hdiff
  have hhb : hiBit (difference a b) < F.mantBits + cap :=
    (Nat.pow_lt_pow_iff_right one_lt_two).mp (hleads.1.trans_lt hdiff)
  have hfit : b.offset + hiBit (difference a b) < 2 ^ 32 := by
    have hb := b.finite
    have hnarrow := F.narrow
    omega
  rw [if_neg hzero, if_neg hzero, Checked.add_of_lt hfit, Option.bind_some, Option.bind_some]
  by_cases hlow : b.offset + hiBit (difference a b) < F.mantBits
  · left
    rw [if_pos hlow, if_pos hlow]
    exact ⟨hvalue ▸ hleads.lt_smallest hlow, rfl, rfl⟩
  · right
    rw [if_neg hlow, if_neg hlow]
    obtain ⟨norm, hnorm, htrunc⟩ :=
      normSig_truncates hleads hvalue (by omega) (show _ < w by omega) (by omega)
    rw [hnorm, Option.bind_some]
    exact ⟨_, norm, Checked.sub_of_le (by omega), Checked.sub_of_le htrunc.le_sig, htrunc⟩

theorem borrow_in_row {y : ℚ} (hmant : 1 ≤ a.mant) (hpos : 0 < y) (hy : y ≤ 2 ^ F.ulpExp a.offset) :
    Truncates F.mantBits (a.value - y) (F.ulpExp a.offset) (a.sig - 1) := by
  have hsig : a.sig - 1 + 1 = a.sig := Nat.sub_add_cancel (Nat.one_le_two_pow.trans a.mantOne_le_sig)
  apply Truncates.borrow _ hpos hy
  · rw [Number.sig, Nat.add_sub_assoc hmant]
    exact Nat.le_add_right _ _
  · exact (Nat.sub_le _ _).trans_lt a.sig_lt
  · rw [a.value_eq_sig, Format.ulp, ← Nat.cast_succ, Nat.succ_eq_add_one, hsig]

/-- A power of two has no mantissa to borrow from: the difference falls into the
row below. -/
theorem borrow_from_row {y : ℚ} (hmant : a.mant = 0) (hoffset : 1 ≤ a.offset) (hpos : 0 < y)
    (hy : y ≤ 2 ^ F.ulpExp (a.offset - 1)) :
    Truncates F.mantBits (a.value - y) (F.ulpExp (a.offset - 1)) (2 ^ (F.mantBits + 1) - 1) := by
  have hpow : 2 ^ (F.mantBits + 1) - 1 + 1 = 2 ^ (F.mantBits + 1) := Nat.sub_add_cancel Nat.one_le_two_pow
  have hone : 1 ≤ 2 ^ F.mantBits := Nat.one_le_two_pow
  have hexp : F.ulpExp a.offset = F.ulpExp (a.offset - 1) + (1 : ℕ) := by
    simp only [Format.ulpExp]
    omega
  apply Truncates.borrow _ hpos hy
  · rw [Nat.pow_succ]
    omega
  · omega
  · rw [a.value_eq_sig, Format.ulp, hexp, Truncates.scale_add, ← Nat.cast_succ, Nat.succ_eq_add_one,
      hpow, Number.sig, hmant, Format.mantOne]
    push_cast
    ring

theorem Spans.far_answers {w cap : Nat} {hiBit : Nat → Nat} (hspan : Spans F w cap hiBit)
    (hd : cap ≤ a.offset - b.offset) :
    Answers F (a.value - b.value)
      (subOffset w cap hiBit a.offset b.offset a.mant b.mant F.mantOne F.mantBits)
      (subMant w cap hiBit (normSig w) a.offset b.offset a.mant b.mant F.mantOne F.mantBits) := by
  have hfar := hspan.far
  have hone : 1 ≤ F.mantOne := Nat.one_le_two_pow
  have hsmall : b.value ≤ 2 ^ F.ulpExp (a.offset - 1) := by
    refine (b.rounds_iff.mp b.rounds_self).lt_two_zpow.le.trans (zpow_le_zpow_right₀ one_le_two ?_)
    simp only [Format.ulpExp]
    omega
  right
  simp only [subOffset, subMant, Checked.sub_of_le (show b.offset ≤ a.offset by omega), if_pos hd,
    Option.bind_eq_bind, Option.bind_some]
  by_cases hmant : 1 ≤ a.mant
  · rw [if_pos hmant, if_pos hmant]
    refine ⟨a.offset, a.sig - 1, rfl, ?_, borrow_in_row hmant b.value_pos ?_⟩
    · rw [Checked.sub_of_le hmant, Number.sig, Nat.add_sub_assoc hmant, Nat.add_sub_cancel_left]
    · refine hsmall.trans (zpow_le_zpow_right₀ one_le_two ?_)
      simp only [Format.ulpExp]
      omega
  · rw [if_neg hmant, if_neg hmant, if_pos (show 1 ≤ a.offset by omega)]
    refine ⟨a.offset - 1, 2 ^ (F.mantBits + 1) - 1, Checked.sub_of_le (by omega), ?_,
      borrow_from_row (by omega) (by omega) b.value_pos hsmall⟩
    rw [Checked.sub_of_le hone, Format.mantOne, Nat.pow_succ]
    exact congrArg some (by omega)

theorem Answers.wrap {x : ℚ} {offset mant : Option Nat} (h : Answers F x offset mant)
    (hm : F.mantBits ≤ 32) : Answers F x offset (do return (← mant) % 2 ^ 32) := by
  rcases h with ⟨hx, hoffset, rfl⟩ | ⟨o, v, hoffset, rfl, htrunc⟩
  · exact .inl ⟨hx, hoffset, rfl⟩
  · refine .inr ⟨o, v, hoffset, ?_, htrunc⟩
    have hlt := htrunc.sig_lt
    have hpow : 2 ^ F.mantBits ≤ 2 ^ 32 := Nat.pow_le_pow_right two_pos hm
    rw [Nat.pow_succ] at hlt
    rw [Option.bind_eq_bind, Option.bind_some, Nat.mod_eq_of_lt (by rw [Format.mantOne]; omega)]
    rfl

theorem Spans.answers {w cap : Nat} {hiBit : Nat → Nat} (hspan : Spans F w cap hiBit) (h : Dominates a b) :
    Answers F |a.value -
      b.value| (subOffset w cap hiBit a.offset b.offset a.mant b.mant F.mantOne F.mantBits)
      (subMant w cap hiBit (normSig w) a.offset b.offset a.mant b.mant F.mantOne F.mantBits) := by
  rw [abs_of_nonneg (sub_nonneg.mpr h.value_le)]
  by_cases hd : cap ≤ a.offset - b.offset
  · exact hspan.far_answers hd
  · exact hspan.near_answers h (Nat.not_le.mp hd)

theorem sorted_cases (a b : Number F) :
    (Dominates a b ∧
      ∀ sub, sorted sub a.offset b.offset a.mant b.mant = sub a.offset b.offset a.mant b.mant) ∨
      (Dominates b a ∧ ∀ sub, sorted sub a.offset b.offset a.mant b.mant =
        sub b.offset a.offset b.mant a.mant) := by
  by_cases hlt : b.offset < a.offset
  · exact .inl ⟨.inl hlt, fun sub => if_pos hlt⟩
  by_cases hgt : a.offset < b.offset
  · refine .inr ⟨.inl hgt, fun sub => ?_⟩
    rw [sorted, if_neg hlt, if_pos hgt]
  by_cases hle : b.mant ≤ a.mant
  · refine .inl ⟨.inr ⟨by omega, hle⟩, fun sub => ?_⟩
    rw [sorted, if_neg hlt, if_neg hgt, if_pos hle]
  · refine .inr ⟨.inr ⟨by omega, by omega⟩, fun sub => ?_⟩
    rw [sorted, if_neg hlt, if_neg hgt, if_neg hle]

theorem sorted_comp (wrap : Option Nat → Option Nat) (sub : Nat → Nat → Nat → Nat → Option Nat)
    (oa ob ma mb : Nat) :
    sorted (fun oa ob ma mb => wrap (sub oa ob ma mb)) oa ob ma mb = wrap (sorted sub oa ob ma mb) := by
  rw [sorted, sorted]
  split_ifs <;> rfl

theorem Spans.sorted_answers {w cap : Nat} {hiBit : Nat → Nat}
    (hspan : Spans F w cap hiBit) (a b : Number F) :
    Answers F |a.value - b.value|
      (sorted (fun oa ob ma mb => subOffset w cap hiBit oa ob ma mb F.mantOne F.mantBits) a.offset
        b.offset a.mant b.mant)
      (sorted (fun oa ob ma mb => subMant w cap hiBit (normSig w) oa ob ma mb F.mantOne F.mantBits)
        a.offset b.offset a.mant b.mant) := by
  rcases sorted_cases a b with ⟨h, hsorted⟩ | ⟨h, hsorted⟩
  · rw [hsorted, hsorted]
    exact hspan.answers h
  · rw [hsorted, hsorted, abs_sub_comm]
    exact hspan.answers h

/-- The difference rounded toward zero wherever it reaches the smallest value, and
zeros exactly where it stays below that value's successor: zeros are also how the
smallest value is written. -/
def SubtractsTowardZero (a b : Number F) (offset mant : Option Nat) : Prop :=
  (F.smallest ≤ |a.value - b.value| → ∃ r : Number F, offset = some r.offset ∧ mant = some r.mant ∧
    r.RoundsTowardZero |a.value - b.value|) ∧
  (offset = some 0 ∧ mant = some 0 ↔ |a.value - b.value| < F.smallest + F.ulp 0)

theorem Answers.subtracts {offset mant : Option Nat}
    (h : Answers F |a.value - b.value| offset mant) : SubtractsTowardZero a b offset mant := by
  rcases h with ⟨hx, hoffset, hmant⟩ | ⟨o, v, hoffset, hmant, htrunc⟩
  · refine ⟨fun hge => absurd hx (not_lt.mpr hge), iff_of_true ⟨hoffset, hmant⟩ ?_⟩
    exact hx.trans (lt_add_of_pos_right _ (Truncates.scale_pos _))
  have htop : |a.value - b.value| < F.top :=
    abs_sub_lt_of_nonneg_of_lt a.value_pos.le a.value_lt_top b.value_pos.le b.value_lt_top
  obtain ⟨r, rfl, rfl, hrounds⟩ := Number.exists_of_truncates htrunc htop
  rw [Number.sig, Nat.add_sub_cancel_left] at hmant
  refine ⟨fun _ => ⟨r, hoffset, hmant, hrounds⟩, ?_⟩
  rw [hoffset, hmant, Option.some.injEq, Option.some.injEq]
  constructor
  · rintro ⟨hzero, hzero'⟩
    have hvalue : r.value = F.smallest := by
      rw [Number.value, hzero, hzero', Format.smallest]
    have hlt := hrounds.2
    rwa [hvalue, hzero] at hlt
  · intro hlt
    have hge : F.smallest ≤ |a.value - b.value| := by
      rw [F.smallest_eq, htrunc.le_exp_iff, Format.ulpExp]
      omega
    let zero : Number F := ⟨0, 0, (Nat.zero_le _).trans_lt a.finite, Nat.two_pow_pos _⟩
    have hzero : zero.RoundsTowardZero |a.value - b.value| := ⟨hge, hlt⟩
    obtain ⟨hexp, hsig⟩ := htrunc.unique (zero.rounds_iff.mp hzero)
    exact ⟨F.ulpExp_inj hexp, Nat.add_left_cancel hsig⟩

end Difference

theorem gft_sub_rounds (F : Format) (a b : Number F) :
    (F.mantBits ≤ 9 →
      SubtractsTowardZero a b (gftSubOffsetCP a.offset b.offset a.mant b.mant F.mantOne F.mantBits)
        (gftSubMantCP a.offset b.offset a.mant b.mant F.mantOne F.mantBits)) ∧
    (F.mantBits = 25 →
      SubtractsTowardZero a b
        (gftSubOffsetCU64 a.offset b.offset a.mant b.mant F.mantOne F.mantBits alignCapU64)
        (gftSubMantCU64 a.offset b.offset a.mant b.mant F.mantOne F.mantBits alignCapU64)) := by
  constructor
  · intro hm
    exact ((spans_narrow hm).sorted_answers a b).subtracts
  · intro hm
    have hanswers := ((spans_wide hm).sorted_answers a b).wrap (by omega)
    rw [← sorted_comp (fun mant => do return (← mant) % 2 ^ 32)] at hanswers
    exact hanswers.subtracts

theorem gft_sub_rounds_cancelled :
    gft16.mantBits ≤ 9 ∧ gft32.mantBits = 25 ∧
      (gftSubOffsetCP 40 40 100 100 512 9 = some 0 ∧ gftSubMantCP 40 40 100 100 512 9 = some 0) ∧
      (gftSubOffsetCU64 364 364 100 100 33554432 25 38 = some 0 ∧
        gftSubMantCU64 364 364 100 100 33554432 25 38 = some 0) := by
  have hzero (F : Format) (a : Number F) : |a.value - a.value| < F.smallest + F.ulp 0 := by
    rw [sub_self, abs_zero, F.smallest_eq]
    exact add_pos (Truncates.scale_pos _) (Truncates.scale_pos _)
  have hnarrow := (gft_sub_rounds gft16 ⟨40, 100, by decide, by decide⟩
    ⟨40, 100, by decide, by decide⟩).1 (by decide)
  have hwide :=
    (gft_sub_rounds gft32 ⟨364, 100, by decide, by decide⟩ ⟨364, 100, by decide, by decide⟩).2 rfl
  exact ⟨by decide, rfl, hnarrow.2.mpr (hzero _ _), hwide.2.mpr (hzero _ _)⟩

theorem smallest_difference_reads_zero :
    gftSubOffsetCP 1 0 0 0 512 9 = some 0 ∧ gftSubMantCP 1 0 0 0 512 9 = some 0 ∧
      gft16.value 1 0 - gft16.value 0 0 = gft16.smallest := by
  refine ⟨by decide, by decide, ?_⟩
  norm_num [Format.smallest, Format.value, gft16]

end TriNet.Gft
