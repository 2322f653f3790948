import TriNet.Lib.Checked
import TriNet.Lib.Reordering

namespace TriNet.Radio

open Lib Lib.Reordering

structure Gf16 where
  bits : UInt16
  deriving DecidableEq, Inhabited

structure CGf16 where
  re : Gf16
  im : Gf16
  deriving DecidableEq, Inhabited

/-- What the build makes of an operation whose result does not fit: it traps
with overflow checks, and wraps without them. -/
inductive Arithmetic where
  | trapping
  | wrapping
  deriving DecidableEq

/-- The zeros below the lowest one of a word of `w` bits. -/
def trailingZeros : Nat → Nat → Nat
  | 0, _ => 0
  | w + 1, n => if n % 2 = 1 then 0 else trailingZeros w (n / 2) + 1

/-- `(i as u32).reverse_bits() >> (32 - bits)`. -/
def reversedIndex (bits i : Nat) : Arithmetic → Option Nat
  | .trapping => do Checked.shr 32 (reverseBits 32 i) (← Checked.sub 32 bits)
  | .wrapping => some ((UInt32.ofNat (reverseBits 32 i)) >>> (32 - UInt32.ofNat bits)).toNat

def writeReversed (bits : Nat) (a : Arithmetic) (out : List CGf16) (p : CGf16 × Nat) :
    Option (List CGf16) := do
  let r ← reversedIndex bits p.2 a
  if r < out.length then some (out.set r p.1) else none

/-- `none` is a panic. -/
def bitReverse (a : Arithmetic) (x : List CGf16) : Option (List CGf16) :=
  let n := x.length
  let bits := trailingZeros 64 n
  x.zipIdx.foldlM (writeReversed bits a) (List.replicate n default)

/-- No panic, every element kept once, and the way back is the same. -/
def Reorders (a : Arithmetic) (x : List CGf16) : Prop :=
  ∃ out, bitReverse a x = some out ∧ out.Perm x ∧ bitReverse a out = some x

theorem trailingZeros_two_pow (w k : Nat) : trailingZeros w (2 ^ k) = min w k := by
  induction w generalizing k with
  | zero => rw [trailingZeros, Nat.zero_min]
  | succ w ih =>
      rw [trailingZeros]
      cases k with
      | zero => rfl
      | succ k =>
          have heven : 2 ^ (k + 1) % 2 = 0 := by rw [pow_succ, Nat.mul_mod_left]
          have hhalf : 2 ^ (k + 1) / 2 = 2 ^ k := by rw [pow_succ, Nat.mul_div_cancel _ (by decide)]
          rw [if_neg (by omega), hhalf, ih]
          omega

section Index

variable {k i : Nat}

theorem reversedIndex_trapping (hpos : 1 ≤ k) (hk : k ≤ 32) :
    reversedIndex k i .trapping = some (reverseBits k i) := by
  have hsub : Checked.sub 32 k = some (32 - k) := Checked.sub_of_le hk
  have hshift : 32 - k < 32 := by omega
  simp only [reversedIndex, hsub, Option.bind_eq_bind, Option.bind_some,
    Checked.shr_of_lt hshift, reverseBits_div hk]

/-- Without bits the shift is as wide as the word; beyond its width there is no
shift at all. -/
theorem reversedIndex_eq_none (h : k = 0 ∨ 32 < k) : reversedIndex k i .trapping = none := by
  rcases h with rfl | hk
  · simp [reversedIndex, Checked.sub, Checked.shr]
  · have hsub : Checked.sub 32 k = none := if_neg (by omega)
    simp [reversedIndex, hsub]

theorem reversedIndex_wrapping (hk : k ≤ 32) (hi : i < 2 ^ k) :
    reversedIndex k i .wrapping = some (reverseBits k i) := by
  have hword : (UInt32.ofNat (reverseBits 32 i)).toNat = reverseBits 32 i :=
    UInt32.toNat_ofNat_of_lt' (reverseBits_lt 32 i)
  have hbits : (UInt32.ofNat k).toNat = k := UInt32.toNat_ofNat_of_lt' (by rw [UInt32.size]; omega)
  have hdistance : (32 - UInt32.ofNat k).toNat = 32 - k := by
    rw [UInt32.toNat_sub_of_le _ _ (by rw [UInt32.le_iff_toNat_le, hbits]; exact hk), hbits]
    rfl
  rw [reversedIndex, UInt32.toNat_shiftRight, hword, hdistance, Nat.shiftRight_eq_div_pow]
  by_cases hpos : 1 ≤ k
  · rw [Nat.mod_eq_of_lt (by omega), reverseBits_div hk]
  · -- the one index of a single element is zero, shifted or not
    obtain rfl : k = 0 := by omega
    obtain rfl : i = 0 := by simpa using hi
    rw [reverseBits_zero, reverseBits_zero, Nat.zero_div]

theorem reversedIndex_lt {bits r : Nat} (h : reversedIndex bits i .wrapping = some r) : r < 2 ^ 32 := by
  cases h
  exact UInt32.toNat_lt _

end Index

theorem foldlM_writeReversed {bits n : Nat} {a : Arithmetic} {place : Nat → Nat}
    (hindex : ∀ i < n, reversedIndex bits i a = some (place i)) (hlt : ∀ i < n, place i < n)
    {xs out : List CGf16}
    {start : Nat} (hout : out.length = n) (hxs : start + xs.length ≤ n) :
    (xs.zipIdx start).foldlM (writeReversed bits a) out = some (scatter place xs start out) := by
  induction xs generalizing start out with
  | nil => rfl
  | cons x xs ih =>
      rw [List.length_cons] at hxs
      have hturn : writeReversed bits a out (x, start) = some (out.set (place start) x) := by
        simp only [writeReversed, hindex start (by omega), Option.bind_eq_bind, Option.bind_some]
        rw [if_pos (by rw [hout]; exact hlt start (by omega))]
      rw [List.zipIdx_cons, List.foldlM_cons, hturn, Option.bind_eq_bind, Option.bind_some,
        ih (by rw [List.length_set, hout]) (by omega), scatter_cons]

variable {x : List CGf16} {k : Nat}

theorem bitReverse_eq_scatter {a : Arithmetic} (hx : x.length = 2 ^ k) (hk : k ≤ 32)
    (hindex : ∀ i < 2 ^ k, reversedIndex k i a = some (reverseBits k i)) :
    bitReverse a x = some (scatter (bitSwap k).place x 0 (List.replicate (2 ^ k) default)) := by
  have hbits : trailingZeros 64 (2 ^ k) = k := by rw [trailingZeros_two_pow, Nat.min_eq_right (by omega)]
  rw [bitReverse, hx, hbits]
  exact foldlM_writeReversed hindex (bitSwap k).place_lt List.length_replicate (by rw [hx]; omega)

theorem reorders_of_index {a : Arithmetic} (hx : x.length = 2 ^ k) (hk : k ≤ 32)
    (hindex : ∀ i < 2 ^ k, reversedIndex k i a = some (reverseBits k i)) : Reorders a x := by
  have hblank : (List.replicate (2 ^ k) (default : CGf16)).length = 2 ^ k := List.length_replicate
  have hlength : (scatter (bitSwap k).place x 0 (List.replicate (2 ^ k) default)).length = 2 ^ k := by
    rw [length_scatter, hblank]
  refine ⟨_, bitReverse_eq_scatter hx hk hindex, (bitSwap k).scatter_perm hblank hx, ?_⟩
  rw [bitReverse_eq_scatter hlength hk hindex, (bitSwap k).scatter_scatter hblank hblank hx]

theorem bitReverse_eq_none (hx : x.length = 2 ^ k) (h : k = 0 ∨ 32 < k) :
    bitReverse .trapping x = none := by
  have hbits : trailingZeros 64 (2 ^ k) = 0 ∨ 32 < trailingZeros 64 (2 ^ k) := by
    rw [trailingZeros_two_pow]
    omega
  rw [bitReverse, hx]
  cases x with
  | nil => exact absurd hx.symm (Nat.two_pow_pos k).ne'
  | cons v x => simp [List.zipIdx_cons, writeReversed, reversedIndex_eq_none hbits]

theorem getElem?_foldlM_writeReversed {bits j : Nat} {a : Arithmetic}
    (hne : ∀ i r, reversedIndex bits i a = some r → r ≠ j) {ps : List (CGf16 × Nat)}
    {out out' : List CGf16}
    (h : ps.foldlM (writeReversed bits a) out = some out') : out'[j]? = out[j]? := by
  induction ps generalizing out with
  | nil =>
      cases h
      rfl
  | cons p ps ih =>
      rw [List.foldlM_cons, Option.bind_eq_bind, Option.bind_eq_some_iff] at h
      obtain ⟨next, hturn, hrest⟩ := h
      rw [ih hrest]
      simp only [writeReversed, Option.bind_eq_bind, Option.bind_eq_some_iff] at hturn
      obtain ⟨r, hr, hset⟩ := hturn
      split at hset
      · cases hset
        rw [List.getElem?_set_ne (hne _ r hr)]
      · cases hset

theorem default_mem_of_long {out : List CGf16} (hx : x.length = 2 ^ k) (hk : 32 < k)
    (h : bitReverse .wrapping x = some out) : default ∈ out := by
  have hlong : 2 ^ 33 ≤ 2 ^ k := Nat.pow_le_pow_right (by decide) hk
  rw [bitReverse, hx] at h
  have hkept := getElem?_foldlM_writeReversed (j := 2 ^ k - 1) (fun i r hr heq => by
    have hlt := reversedIndex_lt hr
    omega) h
  rw [List.getElem?_replicate_of_lt (by omega)] at hkept
  exact List.mem_of_getElem? hkept

theorem reorders_trapping_iff (hx : x.length = 2 ^ k) : Reorders .trapping x ↔ 1 ≤ k ∧ k ≤ 32 := by
  constructor
  · rintro ⟨out, hout, -, -⟩
    by_contra hout'
    rw [bitReverse_eq_none hx (by omega)] at hout
    cases hout
  · rintro ⟨hpos, hk⟩
    exact reorders_of_index hx hk (fun i _ => reversedIndex_trapping hpos hk)

theorem forall_reorders_wrapping_iff :
    (∀ x : List CGf16, x.length = 2 ^ k → Reorders .wrapping x) ↔ k ≤ 32 := by
  constructor
  · intro hall
    by_contra hk
    -- a slice without zeros comes back with one
    obtain ⟨out, hout, hperm, -⟩ := hall (List.replicate (2 ^ k) ⟨⟨1⟩, ⟨0⟩⟩) List.length_replicate
    have hmem := hperm.mem_iff.mp (default_mem_of_long List.length_replicate (by omega) hout)
    exact absurd (List.eq_of_mem_replicate hmem) (by decide)
  · intro hk x hx
    exact reorders_of_index hx hk (fun i hi => reversedIndex_wrapping hk hi)

/-- With overflow checks the slices of power-of-two length that are reordered
are those of two to `2 ^ 32` elements; a single element panics. Without checks
a single element is kept, and above `2 ^ 32` elements are lost. -/
theorem bitReverse_reorders_iff (x : List CGf16) (hx : x.length.isPowerOfTwo) :
    (Reorders .trapping x ↔ 2 ≤ x.length ∧ x.length ≤ 2 ^ 32) ∧
      ((∀ y : List CGf16, y.length = x.length → Reorders .wrapping y) ↔ x.length ≤ 2 ^ 32) := by
  obtain ⟨k, hk⟩ := hx
  have hlow : 2 ≤ 2 ^ k ↔ 1 ≤ k := Nat.pow_le_pow_iff_right (a := 2) (n := 1) (by decide)
  have hhigh : 2 ^ k ≤ 2 ^ 32 ↔ k ≤ 32 := Nat.pow_le_pow_iff_right (by decide)
  rw [reorders_trapping_iff hk, hk, forall_reorders_wrapping_iff, hlow, hhigh]
  exact ⟨Iff.rfl, Iff.rfl⟩

def fourPoints : List CGf16 := [⟨⟨0⟩, ⟨0⟩⟩, ⟨⟨1⟩, ⟨0⟩⟩, ⟨⟨2⟩, ⟨0⟩⟩, ⟨⟨3⟩, ⟨0⟩⟩]

theorem fourPoints_reorders :
    fourPoints.length.isPowerOfTwo ∧ Reorders .trapping fourPoints ∧
      bitReverse .trapping fourPoints = some [⟨⟨0⟩, ⟨0⟩⟩, ⟨⟨2⟩, ⟨0⟩⟩, ⟨⟨1⟩, ⟨0⟩⟩, ⟨⟨3⟩, ⟨0⟩⟩] :=
  ⟨⟨2, rfl⟩, (bitReverse_reorders_iff fourPoints ⟨2, rfl⟩).1.mpr (by decide), by decide +kernel⟩

/-- A transform of one point is asked to shift a word by its width. -/
theorem single_point_panics :
    [(⟨⟨1⟩, ⟨0⟩⟩ : CGf16)].length.isPowerOfTwo ∧ bitReverse .trapping [⟨⟨1⟩, ⟨0⟩⟩] = none ∧
      ¬Reorders .trapping [⟨⟨1⟩, ⟨0⟩⟩] := by
  have hpanic : bitReverse .trapping [⟨⟨1⟩, ⟨0⟩⟩] = none := by decide +kernel
  refine ⟨⟨0, rfl⟩, hpanic, ?_⟩
  rintro ⟨out, hout, -, -⟩
  rw [hpanic] at hout
  cases hout

end TriNet.Radio
