import TriNet.Lib.Checked
import TriNet.Lib.Truncation
import Mathlib.Algebra.Order.Field.Rat
import Mathlib.Tactic.FieldSimp

namespace TriNet.Gft

open Lib

def gftPow3 : Nat → Nat
  | 2 => 9
  | 3 => 27
  | 4 => 81
  | 5 => 243
  | 6 => 729
  | 7 => 2187
  | 8 => 6561
  | 9 => 19683
  | 14 => 4782969
  | _ => 0

def gftOffsetMax (expTrits : Nat) : Option Nat := Checked.sub (gftPow3 expTrits) 1

def gftBias (expTrits : Nat) : Option Nat := do
  Checked.div (← Checked.sub (gftPow3 expTrits) 1) 2

def gftMantBits : Nat → Nat
  | 2 => 1
  | 3 => 4
  | 4 => 9
  | 6 => 25
  | 9 => 64
  | 14 => 169
  | 22 => 441
  | 35 => 1156
  | 56 => 3025
  | _ => 0

/-- What the arithmetic is told about a rung. Offsets from `offsetMax` on are
special, and two finite ones can be added in a word of 32 bits. -/
structure Format where
  mantBits : Nat
  bias : Nat
  offsetMax : Nat
  narrow : offsetMax ≤ 2 ^ 31

namespace Format

variable (F : Format)

def mantOne : Nat := 2 ^ F.mantBits

def sigBits : Nat := F.mantBits + 1

def value (offset mant : Nat) : ℚ := (1 + mant / 2 ^ F.mantBits) * 2 ^ ((offset : ℤ) - F.bias)

def ulpExp (offset : Nat) : ℤ := offset - F.bias - F.mantBits

def ulp (offset : Nat) : ℚ := 2 ^ F.ulpExp offset

def smallest : ℚ := F.value 0 0

def top : ℚ := 2 ^ ((F.offsetMax : ℤ) - F.bias)

theorem value_eq (offset mant : Nat) :
    F.value offset mant = (2 ^ F.mantBits + mant : ℕ) * F.ulp offset := by
  have hscale := Truncates.scale_add (K := ℚ) (F.ulpExp offset) F.mantBits
  rw [ulpExp, sub_add_cancel] at hscale
  rw [value, ulp, ulpExp, hscale]
  push_cast
  field_simp

theorem value_of_truncates {F : Format} {x : ℚ} {offset v : Nat}
    (h : Truncates F.mantBits x (F.ulpExp offset) v) :
    F.value offset (v - F.mantOne) = v * 2 ^ F.ulpExp offset := by
  rw [value_eq, mantOne, Nat.add_sub_cancel' h.le_sig, ulp]

theorem checked_double {w : Nat} (h : F.mantBits + 1 < w) :
    Checked.mul w 2 F.mantOne = some (2 ^ (F.mantBits + 1)) := by
  have hdouble : 2 * F.mantOne = 2 ^ (F.mantBits + 1) := by
    rw [mantOne, Nat.pow_succ, Nat.mul_comm]
  rw [← hdouble]
  apply Checked.mul_of_lt
  rw [hdouble]
  exact Nat.pow_lt_pow_right one_lt_two h

theorem ulpExp_inj {offset offset' : Nat} (h : F.ulpExp offset = F.ulpExp offset') : offset = offset' := by
  rw [ulpExp, ulpExp] at h
  omega

theorem smallest_eq : F.smallest = 2 ^ (-(F.bias : ℤ)) := by
  simp [smallest, value]

end Format

theorem gftOffsetMax_le {expTrits offsetMax : Nat} (h : gftOffsetMax expTrits = some offsetMax) :
    offsetMax ≤ 2 ^ 31 := by
  have hpow : gftPow3 expTrits ≤ 2 ^ 31 := by
    unfold gftPow3
    split <;> decide
  rw [gftOffsetMax, Checked.sub] at h
  split at h
  · obtain rfl := Option.some.inj h
    omega
  · cases h

def rung (expTrits : Nat) : Option Format :=
  match h : gftOffsetMax expTrits, gftBias expTrits with
  | some offsetMax, some bias => some ⟨gftMantBits expTrits, bias, offsetMax, gftOffsetMax_le h⟩
  | _, _ => none

def gft16 : Format := ⟨9, 40, 80, by decide⟩

def gft32 : Format := ⟨25, 364, 728, by decide⟩

example : rung 4 = some gft16 ∧ rung 6 = some gft32 := ⟨rfl, rfl⟩

structure Number (F : Format) where
  offset : Nat
  mant : Nat
  finite : offset < F.offsetMax
  mant_lt : mant < 2 ^ F.mantBits

namespace Number

variable {F : Format} {x : ℚ}

def value (a : Number F) : ℚ := F.value a.offset a.mant

def sig (a : Number F) : Nat := F.mantOne + a.mant

/-- The number is `x` cut off after the last mantissa bit. -/
def RoundsTowardZero (x : ℚ) (r : Number F) : Prop := r.value ≤ x ∧ x < r.value + F.ulp r.offset

theorem mantOne_le_sig (a : Number F) : 2 ^ F.mantBits ≤ a.sig := Nat.le_add_right _ _

theorem sig_lt (a : Number F) : a.sig < 2 ^ (F.mantBits + 1) := by
  have h := a.mant_lt
  rw [sig, Format.mantOne, Nat.pow_succ]
  omega

theorem checked_sig {w : Nat} (h : F.mantBits + 1 ≤ w) (a : Number F) :
    Checked.add w F.mantOne a.mant = some a.sig :=
  Checked.add_of_lt (a.sig_lt.trans_le (Nat.pow_le_pow_right two_pos h))

theorem value_eq_sig (a : Number F) : a.value = a.sig * F.ulp a.offset := F.value_eq a.offset a.mant

theorem rounds_iff (r : Number F) :
    RoundsTowardZero x r ↔ Truncates F.mantBits x (F.ulpExp r.offset) r.sig := by
  have hnext : r.value + F.ulp r.offset = (r.sig + 1) * 2 ^ F.ulpExp r.offset := by
    rw [value_eq_sig, Format.ulp]
    ring
  rw [RoundsTowardZero, hnext, value_eq_sig, Format.ulp]
  constructor
  · rintro ⟨hle, hlt⟩
    exact ⟨r.mantOne_le_sig, r.sig_lt, hle, hlt⟩
  · intro h
    exact ⟨h.le, h.lt⟩

theorem rounds_self (a : Number F) : RoundsTowardZero a.value a :=
  ⟨le_rfl, lt_add_of_pos_right _ (Truncates.scale_pos _)⟩

theorem value_pos (a : Number F) : 0 < a.value :=
  (Truncates.scale_pos _).trans_le (a.rounds_iff.mp a.rounds_self).two_zpow_le

theorem value_lt_top (a : Number F) : a.value < F.top := by
  have hlt := (a.rounds_iff.mp a.rounds_self).lt_two_zpow
  have hfinite := a.finite
  refine hlt.trans_le (zpow_le_zpow_right₀ one_le_two ?_)
  rw [Format.ulpExp]
  omega

theorem exists_of_truncates {offset v : Nat} (h : Truncates F.mantBits x (F.ulpExp offset) v)
    (htop : x < F.top) : ∃ r : Number F, r.offset = offset ∧ r.sig = v ∧ RoundsTowardZero x r := by
  have hfinite : offset < F.offsetMax := by
    by_contra hge
    refine htop.not_ge (h.le_exp_iff.mpr ?_)
    rw [Format.ulpExp]
    omega
  have hsig : F.mantOne + (v - F.mantOne) = v := Nat.add_sub_cancel' h.le_sig
  have hmant : v - F.mantOne < 2 ^ F.mantBits := by
    have hlt := h.sig_lt
    rw [Nat.pow_succ] at hlt
    rw [Format.mantOne]
    omega
  refine ⟨⟨offset, v - F.mantOne, hfinite, hmant⟩, rfl, hsig, ?_⟩
  rw [rounds_iff, sig, hsig]
  exact h

end Number

end TriNet.Gft
