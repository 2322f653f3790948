import TriNet.Gft.Multiply
import TriNet.Lib.Mixing
import Mathlib.Logic.Function.Iterate

namespace TriNet.Compute

open Lib.Mixing

def rotl (x k : UInt32) : UInt32 := (x <<< k) ||| (x >>> (32 - k))

def mix32 (x : UInt32) : UInt32 :=
  let a := x ^^^ (x >>> 16)
  let b := a + (a <<< 3)
  let c := b ^^^ (b >>> 11)
  let d := c + (c <<< 15)
  d ^^^ (d >>> 16)

def receiptLeaf (executor task inHash out epoch : UInt32) : UInt32 :=
  let a := mix32 (executor ^^^ rotl task 7)
  let b := mix32 (a ^^^ rotl inHash 13)
  let c := mix32 (b ^^^ rotl out 19)
  mix32 (c ^^^ rotl epoch 5)

def receiptLeafBound (deviceId executor task inHash out epoch : UInt32) : UInt32 :=
  let base := receiptLeaf executor task inHash out epoch
  mix32 (base ^^^ mix32 (deviceId ^^^ rotl executor 3))

def receiptLeafGf (gfWidth gfOp a b gfResult deviceId executor epoch : UInt32) : UInt32 :=
  let opsel := mix32 ((gfWidth <<< 8) ^^^ gfOp)
  let ab := mix32 (a ^^^ rotl b 7)
  receiptLeafBound deviceId executor opsel ab gfResult epoch

def receiptLeafGfFmt (fmtFamily gfWidth gfOp a b gfResult deviceId executor epoch : UInt32) : UInt32 :=
  let base := receiptLeafGf gfWidth gfOp a b gfResult deviceId executor epoch
  mix32 (base ^^^ mix32 (fmtFamily ^^^ rotl gfWidth 9))

def receiptLeafGfRung (fmtFamily gfWidth gfEt gfOp a b gfResult deviceId executor epoch : UInt32) :
    UInt32 :=
  let base := receiptLeafGfFmt fmtFamily gfWidth gfOp a b gfResult deviceId executor epoch
  mix32 (base ^^^ mix32 (gfEt ^^^ rotl fmtFamily 13))

def resolveHonest : UInt32 := 0
def resolveSlash : UInt32 := 1
def resolveMalformed : UInt32 := 2

def resolveBound (settledLeaf disputeLeaf claimedResult recomputedResult : UInt32) : UInt32 :=
  if settledLeaf ≠ disputeLeaf then resolveMalformed
  else if claimedResult = recomputedResult then resolveHonest
  else resolveSlash

/-- The golden unit of the GF-T16 rung on two encoded words. -/
def gft16Mul (a b : UInt32) : Option UInt32 :=
  (Gft.gftMulResult (a >>> 9).toNat (a &&& 0x1FF).toNat (b >>> 9).toNat (b &&& 0x1FF).toNat
    Gft.gft16Bias Gft.gft16OffsetMax).map UInt32.ofNat

theorem xorShift32_injective {k : UInt32} (hk : 0 < k.toNat % 32) :
    Function.Injective (fun x : UInt32 => x ^^^ x >>> k) := by
  intro x y h
  apply UInt32.toBitVec_inj.mp
  apply xorShift_injective hk
  simpa using congrArg UInt32.toBitVec h

theorem addShift32_injective {k : UInt32} (hk : 0 < k.toNat % 32) :
    Function.Injective (fun x : UInt32 => x + x <<< k) := by
  intro x y h
  apply UInt32.toBitVec_inj.mp
  apply addShift_injective hk
  simpa using congrArg UInt32.toBitVec h

theorem rotl_injective {k : UInt32} (hpos : 0 < k.toNat) (hlt : k.toNat < 32) :
    Function.Injective (fun x => rotl x k) := by
  have hback : (32 - k).toNat % 32 = 32 - k.toNat := by
    rw [UInt32.toNat_sub_of_le _ _ (UInt32.le_iff_toNat_le.mpr hlt.le)]
    exact Nat.mod_eq_of_lt (by simp; omega)
  have hbits (x : UInt32) : (rotl x k).toBitVec = x.toBitVec <<< k.toNat |||
      x.toBitVec >>> (32 - k.toNat) := by
    rw [rotl, UInt32.toBitVec_or, UInt32.toBitVec_shiftLeft, UInt32.toBitVec_shiftRight]
    have hk : (k.toBitVec % 32).toNat = k.toNat := Nat.mod_eq_of_lt hlt
    have hr : ((32 - k).toBitVec % 32).toNat = 32 - k.toNat := hback
    rw [BitVec.shiftLeft_eq', BitVec.ushiftRight_eq', hk, hr]
  intro x y h
  apply UInt32.toBitVec_inj.mp
  apply rotate_injective hlt.le
  simpa only [hbits] using congrArg UInt32.toBitVec h

theorem mix32_injective : Function.Injective mix32 := by
  intro x y h
  apply xorShift32_injective (k := 16) (by decide)
  apply addShift32_injective (k := 3) (by decide)
  apply xorShift32_injective (k := 11) (by decide)
  apply addShift32_injective (k := 15) (by decide)
  apply xorShift32_injective (k := 16) (by decide)
  exact h

theorem mix32_xor_inj {x y c : UInt32} : mix32 (x ^^^ c) = mix32 (y ^^^ c) ↔ x = y := by
  rw [mix32_injective.eq_iff, UInt32.xor_left_inj]

theorem mix32_inj_xor {x y c : UInt32} : mix32 (c ^^^ x) = mix32 (c ^^^ y) ↔ x = y := by
  rw [mix32_injective.eq_iff, UInt32.xor_right_inj]

theorem receiptLeafBound_inj (deviceId executor task out epoch : UInt32) {inHash inHash' : UInt32} :
    receiptLeafBound deviceId executor task inHash out epoch =
      receiptLeafBound deviceId executor task inHash' out epoch ↔ inHash = inHash' := by
  simp only [receiptLeafBound, receiptLeaf, mix32_xor_inj, mix32_inj_xor]
  exact (rotl_injective (k := 13) (by decide) (by decide)).eq_iff

theorem receiptLeafGf_inj (gfWidth gfOp gfResult deviceId executor epoch : UInt32) {a b a' b' : UInt32} :
    receiptLeafGf gfWidth gfOp a b gfResult deviceId executor epoch =
      receiptLeafGf gfWidth gfOp a' b' gfResult deviceId executor epoch ↔
      a ^^^ rotl b 7 = a' ^^^ rotl b' 7 := by
  rw [receiptLeafGf, receiptLeafGf, receiptLeafBound_inj, mix32_injective.eq_iff]

/-- A way to commit operands and their result, all other fields given. -/
abbrev Leaf := (a b result : UInt32) → UInt32

def leaves (fmtFamily gfWidth gfEt gfOp deviceId executor epoch : UInt32) : List Leaf :=
  [fun a b result => receiptLeafGf gfWidth gfOp a b result deviceId executor epoch,
    fun a b result => receiptLeafGfFmt fmtFamily gfWidth gfOp a b result deviceId executor epoch,
    fun a b result => receiptLeafGfRung fmtFamily gfWidth gfEt gfOp a b result deviceId executor epoch]

theorem leaf_inj {fmtFamily gfWidth gfEt gfOp deviceId executor epoch : UInt32} {leaf : Leaf}
    (h : leaf ∈ leaves fmtFamily gfWidth gfEt gfOp deviceId executor epoch)
    {a b a' b' : UInt32} (result : UInt32) :
    leaf a b result = leaf a' b' result ↔ a ^^^ rotl b 7 = a' ^^^ rotl b' 7 := by
  simp only [leaves, List.mem_cons, List.not_mem_nil, or_false] at h
  rcases h with rfl | rfl | rfl
  · exact receiptLeafGf_inj ..
  · simp only [receiptLeafGfFmt, mix32_xor_inj]
    exact receiptLeafGf_inj ..
  · simp only [receiptLeafGfRung, receiptLeafGfFmt, mix32_xor_inj]
    exact receiptLeafGf_inj ..

/-- The second operand is rotated by seven bits over the first, so where both
differ their differences can cancel. -/
def Cancel (a b a' b' : UInt16) : Prop := a.toUInt32 ^^^ a'.toUInt32 = (b.toUInt32 ^^^ b'.toUInt32) <<< 7

theorem rotl_seven (b : UInt16) : rotl b.toUInt32 7 = b.toUInt32 <<< 7 := by
  have hhigh : b.toUInt32 >>> (32 - 7) = 0 := by
    apply UInt32.toNat_inj.mp
    have hb := b.toNat_lt
    rw [UInt32.toNat_shiftRight, UInt16.toNat_toUInt32, Nat.shiftRight_eq_div_pow]
    exact Nat.div_eq_of_lt (hb.trans (by decide))
  rw [rotl, hhigh, UInt32.or_zero]

theorem cancel_iff (a b a' b' : UInt16) :
    a.toUInt32 ^^^ rotl b.toUInt32 7 = a'.toUInt32 ^^^ rotl b'.toUInt32 7 ↔ Cancel a b a' b' := by
  have hcross {x y z t : UInt32} (h : x ^^^ y = z ^^^ t) : x ^^^ z = y ^^^ t := by
    calc x ^^^ z = x ^^^ y ^^^ (y ^^^ z) := by
          rw [show x ^^^ y ^^^ (y ^^^ z) = x ^^^ z ^^^ (y ^^^ y) by ac_rfl,
            UInt32.xor_self, UInt32.xor_zero]
      _ = z ^^^ t ^^^ (y ^^^ z) := by rw [h]
      _ = y ^^^ t ^^^ (z ^^^ z) := by ac_rfl
      _ = y ^^^ t := by rw [UInt32.xor_self, UInt32.xor_zero]
  rw [rotl_seven, rotl_seven, Cancel, UInt32.shiftLeft_xor]
  exact ⟨hcross, hcross⟩

/-- What a leaf owes to a pair of operands against another: it tells the two
apart, a dispute that passes the leaf check names the committed pair, and an
executor that computed its pair right is not slashed over the other. -/
def Binds (leaf : Leaf) (a b a' b' : UInt16) : Prop :=
  (∀ result, leaf a.toUInt32 b.toUInt32 result = leaf a'.toUInt32 b'.toUInt32 result →
  (a, b) = (a', b')) ∧ ∀ golden : UInt32 → UInt32 → UInt32,
    let claimed := golden a.toUInt32 b.toUInt32
    let outcome := resolveBound (leaf a.toUInt32 b.toUInt32 claimed) (leaf a'.toUInt32 b'.toUInt32 claimed)
      claimed (golden a'.toUInt32 b'.toUInt32)
    (outcome ≠ resolveMalformed → (a, b) = (a', b')) ∧ outcome ≠ resolveSlash

theorem binds_of_inj {leaf : Leaf} {a b a' b' : UInt16}
    (h : ∀ result, leaf a.toUInt32 b.toUInt32 result = leaf a'.toUInt32 b'.toUInt32 result →
      (a, b) = (a', b')) :
    Binds leaf a b a' b' := by
  refine ⟨h, fun golden => ⟨?_, ?_⟩⟩
  · intro hpass
    by_cases hleaf : leaf a.toUInt32 b.toUInt32 (golden a.toUInt32 b.toUInt32) =
        leaf a'.toUInt32 b'.toUInt32 (golden a.toUInt32 b.toUInt32)
    · exact h _ hleaf
    · simp [resolveBound, hleaf] at hpass
  · intro hslash
    rw [resolveBound] at hslash
    split at hslash
    · exact absurd hslash (by decide)
    · next hleaf =>
        obtain ⟨rfl, rfl⟩ := Prod.mk.inj (h _ (not_not.mp hleaf))
        rw [if_pos rfl] at hslash
        exact absurd hslash (by decide)

/-- The leaves bind a pair of operands against another exactly if the two do
not cancel in the word that commits them. -/
theorem leaves_bind_operands_iff (fmtFamily gfWidth gfEt gfOp deviceId executor epoch : UInt32)
    (a b a' b' : UInt16) :
    (∀ leaf ∈ leaves fmtFamily gfWidth gfEt gfOp deviceId executor epoch, Binds leaf a b a' b') ↔
      (Cancel a b a' b' → b = b') := by
  constructor
  · intro h hcancel
    have hgf := (h _ (List.mem_cons_self ..)).1 0
    have heq := hgf ((receiptLeafGf_inj ..).mpr ((cancel_iff a b a' b').mpr hcancel))
    exact (Prod.mk.inj heq).2
  · intro h leaf hleaf
    apply binds_of_inj
    intro result heq
    have hcancel := (cancel_iff a b a' b').mp ((leaf_inj hleaf result).mp heq)
    obtain rfl := h hcancel
    have ha : a.toUInt32 = a'.toUInt32 := by
      rw [Cancel, UInt32.xor_self, UInt32.zero_shiftLeft] at hcancel
      exact UInt32.xor_eq_zero_iff.mp hcancel
    rw [UInt16.toUInt32_inj.mp ha]

/-- One times one is committed and computed right; a dispute that names one
and a quarter times the next number above one passes the leaf check and slashes
the executor. -/
theorem honest_executor_slashed :
    Gft.gftResultEncode 40 0 = 0x5000 ∧ Gft.gftResultEncode 40 128 = 0x5080 ∧
      Gft.gftResultEncode 40 1 = 0x5001 ∧
      gft16Mul 0x5000 0x5000 = some 0x5000 ∧ gft16Mul 0x5080 0x5001 = some 0x5081 ∧
    (let settled := receiptLeafGfRung 1 16 4 0x11 0x5000 0x5000 0x5000 0xC0FFEE01 0xE0E0 1
     let dispute := receiptLeafGfRung 1 16 4 0x11 0x5080 0x5001 0x5000 0xC0FFEE01 0xE0E0 1
     settled = dispute ∧ resolveBound settled dispute 0x5000 0x5081 = resolveSlash) ∧
    (let settled := receiptLeafGf 16 0x11 0x5000 0x5000 0x5000 0xC0FFEE01 0xE0E0 1
     settled = receiptLeafGf 16 0x11 0x5080 0x5001 0x5000 0xC0FFEE01 0xE0E0 1) := by
  decide

end TriNet.Compute
