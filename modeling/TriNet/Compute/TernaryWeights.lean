import TriNet.Compute.Receipt

namespace TriNet.Compute

def opBitnet : UInt32 := 0x20

def tritCanonical (trit : UInt32) : UInt32 := if trit = 3 then 0 else 1

def weightsCanonical4 (packedW : UInt32) : UInt32 :=
  tritCanonical (packedW &&& 3) + tritCanonical ((packedW >>> 2) &&& 3) +
    tritCanonical ((packedW >>> 4) &&& 3) + tritCanonical ((packedW >>> 6) &&& 3)

def packingIsCanonical (packedW : UInt32) : Bool := weightsCanonical4 packedW == 4

def isPos (trit : UInt32) : UInt32 := if trit = 1 then 1 else 0

def isNeg (trit : UInt32) : UInt32 := if trit = 2 then 1 else 0

def bitnetLeaf (weightCode actHash gfResult device executor epoch : UInt32) : UInt32 :=
  let w := mix32 (weightCode ^^^ rotl opBitnet 5)
  let a := mix32 (w ^^^ rotl actHash 11)
  let r := mix32 (a ^^^ rotl gfResult 17)
  let d := mix32 (r ^^^ rotl device 23)
  let e := mix32 (d ^^^ rotl executor 29)
  mix32 (e ^^^ rotl epoch 13)

def weight (trit : UInt32) : Int := (isPos trit).toNat - (isNeg trit).toNat

def codes (packedW : UInt32) : List UInt32 :=
  [packedW &&& 3, (packedW >>> 2) &&& 3, (packedW >>> 4) &&& 3, (packedW >>> 6) &&& 3]

def weights (packedW : UInt32) : List Int := (codes packedW).map weight

theorem packingIsCanonical_iff (packedW : UInt32) :
    packingIsCanonical packedW = true ↔ ∀ trit ∈ codes packedW, trit ≠ 3 := by
  simp only [packingIsCanonical, weightsCanonical4, tritCanonical, codes, List.forall_mem_cons,
    List.not_mem_nil, false_implies, implies_true, and_true, beq_iff_eq]
  split_ifs <;> simp_all

theorem lt_four_of_mem_codes {packedW trit : UInt32} (h : trit ∈ codes packedW) : trit.toNat < 4 := by
  have hmask (x : UInt32) : (x &&& 3).toNat < 4 := by
    rw [UInt32.toNat_and]
    exact Nat.lt_succ_of_le Nat.and_le_right
  simp only [codes, List.mem_cons, List.not_mem_nil, or_false] at h
  rcases h with rfl | rfl | rfl | rfl <;> exact hmask _

theorem weight_injOn {trit trit' : UInt32} (hlt : trit.toNat < 4) (hlt' : trit'.toNat < 4)
    (hne : trit ≠ 3) (hne' : trit' ≠ 3) (h : weight trit = weight trit') : trit = trit' := by
  have hcases {t : UInt32} (hlt : t.toNat < 4) (hne : t ≠ 3) : t = 0 ∨ t = 1 ∨ t = 2 := by
    have hne3 : t.toNat ≠ 3 := fun h3 => hne (UInt32.toNat_inj.mp h3)
    have hnat : t.toNat = 0 ∨ t.toNat = 1 ∨ t.toNat = 2 := by omega
    rcases hnat with h | h | h
    · exact .inl (UInt32.toNat_inj.mp h)
    · exact .inr (.inl (UInt32.toNat_inj.mp h))
    · exact .inr (.inr (UInt32.toNat_inj.mp h))
  rcases hcases hlt hne with rfl | rfl | rfl <;> rcases hcases hlt' hne' with rfl | rfl | rfl <;>
    first | rfl | exact absurd h (by decide)

theorem eq_of_map_weight {ts ts' : List UInt32} (hts : ∀ t ∈ ts, t.toNat < 4 ∧ t ≠ 3)
    (hts' : ∀ t ∈ ts', t.toNat < 4 ∧ t ≠ 3) (h : ts.map weight = ts'.map weight) : ts = ts' := by
  induction ts generalizing ts' with
  | nil => exact (List.map_eq_nil_iff.mp h.symm).symm
  | cons t ts ih =>
      cases ts' with
      | nil => cases h
      | cons t' ts' =>
          obtain ⟨ht, hts⟩ := List.forall_mem_cons.mp hts
          obtain ⟨ht', hts'⟩ := List.forall_mem_cons.mp hts'
          obtain ⟨hhead, htail⟩ := List.cons.inj h
          rw [weight_injOn ht.1 ht'.1 ht.2 ht'.2 hhead, ih hts hts' htail]

theorem toNat_codes (packedW : UInt32) :
    (codes packedW).map UInt32.toNat =
      [packedW.toNat % 4, packedW.toNat / 4 % 4, packedW.toNat / 16 % 4, packedW.toNat / 64 % 4] := by
  have hmask (x : UInt32) : (x &&& 3).toNat = x.toNat % 4 := by
    rw [UInt32.toNat_and]
    exact Nat.and_two_pow_sub_one_eq_mod _ 2
  simp only [codes, List.map_cons, List.map_nil, hmask, UInt32.toNat_shiftRight, Nat.shiftRight_eq_div_pow]
  rfl

theorem eq_iff_of_codes {w w' : UInt32} (h : codes w = codes w') : w = w' ↔ w >>> 8 = w' >>> 8 := by
  have hdigits := congrArg (List.map UInt32.toNat) h
  simp only [toNat_codes, List.cons.injEq, and_true] at hdigits
  have hshift (x : UInt32) : (x >>> 8).toNat = x.toNat / 256 := by
    rw [UInt32.toNat_shiftRight, Nat.shiftRight_eq_div_pow]
    rfl
  rw [← UInt32.toNat_inj, ← UInt32.toNat_inj, hshift, hshift]
  omega

theorem bitnetLeaf_inj (actHash gfResult device executor epoch : UInt32) {w w' : UInt32} :
    bitnetLeaf w actHash gfResult device executor epoch =
      bitnetLeaf w' actHash gfResult device executor epoch ↔
      w = w' := by
  simp only [bitnetLeaf, mix32_xor_inj]

/-- Two accepted words with the same weights are one word, with one leaf,
exactly if they agree in the 24 bits that no check reads. -/
theorem canonical_unique_iff (w w' : UInt32) (hw : packingIsCanonical w = true)
    (hw' : packingIsCanonical w' = true) (h : weights w = weights w') :
    (w = w' ∧ ∀ actHash gfResult device executor epoch,
      bitnetLeaf w actHash gfResult device executor epoch =
        bitnetLeaf w' actHash gfResult device executor epoch) ↔
      w >>> 8 = w' >>> 8 := by
  rw [packingIsCanonical_iff] at hw hw'
  have hcodes : codes w = codes w' :=
    eq_of_map_weight (fun t ht => ⟨lt_four_of_mem_codes ht, hw t ht⟩)
      (fun t ht => ⟨lt_four_of_mem_codes ht, hw' t ht⟩) h
  simp only [bitnetLeaf_inj, eq_iff_of_codes hcodes, and_self, forall_const]

theorem canonical_unique_byte :
    packingIsCanonical 0x61 = true ∧ weights 0x61 = [1, 0, -1, 1] ∧ (0x61 : UInt32) = 0x61 ∧
      bitnetLeaf 0x61 1 2 3 4 5 = bitnetLeaf 0x61 1 2 3 4 5 := by
  have h := (canonical_unique_iff 0x61 0x61 (by decide) (by decide) rfl).mpr rfl
  exact ⟨by decide, by decide, h.1, h.2 1 2 3 4 5⟩

/-- The weights 1, 0, -1, 1 have another accepted word, with another leaf. -/
theorem high_bits_malleable :
    packingIsCanonical 0x61 = true ∧ packingIsCanonical 0x161 = true ∧
      weights 0x61 = weights 0x161 ∧ bitnetLeaf 0x61 1 2 3 4 5 ≠ bitnetLeaf 0x161 1 2 3 4 5 := by
  decide

end TriNet.Compute
