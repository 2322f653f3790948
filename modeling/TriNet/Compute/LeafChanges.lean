import TriNet.Compute.Merkle

namespace TriNet.Compute

open Lib MerkleTree
open Function (update)

/-- The left node enters the hash twice; both parts change by the same bits. -/
def Cancels (l l' s : UInt32) : Prop :=
  mix32 (l ^^^ mC) ^^^ mix32 (l' ^^^ mC) = rotl (mix32 (s ^^^ rotl l 13)) 7 ^^^
    rotl (mix32 (s ^^^ rotl l' 13)) 7

instance (l l' s : UInt32) : Decidable (Cancels l l' s) := inferInstanceAs (Decidable (_ = _))

theorem xor_eq_xor_iff (a b c d : UInt32) : a ^^^ b = c ^^^ d ↔ a ^^^ c = b ^^^ d := by
  have hleft : a ^^^ b ^^^ (b ^^^ c) = a ^^^ c := by
    rw [UInt32.xor_assoc, ← UInt32.xor_assoc b b c, UInt32.xor_self, UInt32.zero_xor]
  have hright : c ^^^ d ^^^ (b ^^^ c) = b ^^^ d := by
    rw [UInt32.xor_comm b c, UInt32.xor_comm c d, UInt32.xor_assoc, ← UInt32.xor_assoc c c b,
      UInt32.xor_self, UInt32.zero_xor, UInt32.xor_comm]
  rw [← hleft, ← hright, UInt32.xor_left_inj]

theorem hpair_left_eq_iff {l l' s : UInt32} : hpair l s = hpair l' s ↔ Cancels l l' s := by
  rw [hpair, hpair, mix32_injective.eq_iff, xor_eq_xor_iff, Cancels]

theorem hpair_left_collision :
    (3 : UInt32) ≠ 1895725973 ∧ hpair 3 4 = hpair 1895725973 4 := by decide +kernel

namespace Round

def replace (r : Round) (i : Fin 8) (leaf : UInt32) : Round := ⟨update r.leaf i leaf⟩

/-- The node above leaf `i` at height `h` stands on the left, and its change
with that leaf cancels out in the hash. -/
def Absorbs (r : Round) (i : Fin 8) (leaf : UInt32) (h : Nat) : Prop :=
  i.val / 2 ^ h % 2 = 0 ∧ (r.replace i leaf).node h (i.val / 2 ^ h) ≠ r.node h (i.val / 2 ^ h) ∧
    Cancels ((r.replace i leaf).node h (i.val / 2 ^ h)) (r.node h (i.val / 2 ^ h))
      (r.node h (i.val / 2 ^ h + 1))

instance (r : Round) (i : Fin 8) (leaf : UInt32) (h : Nat) : Decidable (r.Absorbs i leaf h) :=
  inferInstanceAs (Decidable (_ ∧ _ ∧ _))

variable {r : Round} {i : Fin 8} {leaf : UInt32} {leaves : Nat → UInt32} {h : Nat}

theorem committed_val (r : Round) (i : Fin 8) : r.leaf i = r.committed i.val := by
  rw [committed]
  congr 1
  exact (Fin.ofNat_val_eq_self i).symm

theorem leaf_replace (hleaves : ∀ k : Fin 8, r.leaf k = leaves k.val) (k : Fin 8) :
    (r.replace i leaf).leaf k = update leaves i.val leaf k.val := by
  simp only [replace]
  by_cases hk : k = i
  · rw [hk, Function.update_self, Function.update_self]
  · rw [Function.update_of_ne hk, Function.update_of_ne (Fin.val_ne_iff.mpr hk), hleaves]

theorem node_eq (hleaves : ∀ k : Fin 8, r.leaf k = leaves k.val) (i : Fin 8) (hh : h ≤ 3) :
    r.node h (i.val / 2 ^ h) = MerkleTree.node hpair leaves h (i.val / 2 ^ h) := by
  apply node_congr
  intro j hj
  have htop : j / 2 ^ 3 = i.val / 2 ^ 3 := by
    rw [← Nat.add_sub_cancel' hh, pow_add, ← Nat.div_div_eq_div_mul, hj, Nat.div_div_eq_div_mul]
  have hlt : j < 8 := by omega
  rw [← hleaves ⟨j, hlt⟩, committed_val]

theorem root_eq_node (hleaves : ∀ k : Fin 8, r.leaf k = leaves k.val) (i : Fin 8) :
    r.root = MerkleTree.node hpair leaves 3 (i.val / 2 ^ 3) := by
  rw [← node_eq hleaves i (Nat.le_refl 3), Nat.div_eq_of_lt (show i.val < 2 ^ 3 from i.2)]
  rfl

theorem absorbs_iff (hh : h < 3) :
    r.Absorbs i leaf h ↔ Absorbed hpair r.committed (update r.committed i.val leaf) i.val h := by
  rw [Absorbs, Absorbed, node_eq (leaf_replace (committed_val r)) i (Nat.le_of_lt hh), ← hpair_left_eq_iff]
  rfl

theorem root_replace_eq_iff (hne : leaf ≠ r.leaf i) :
    (r.replace i leaf).root = r.root ↔ ∃ h < 3, r.Absorbs i leaf h := by
  have hleaf : leaf ≠ r.committed i.val := by rwa [← committed_val]
  have hlevels : (∃ h < 3, r.Absorbs i leaf h) ↔
      ∃ h < 3, Absorbed hpair r.committed (update r.committed i.val leaf) i.val h :=
    exists_congr (fun h => and_congr_right absorbs_iff)
  rw [hlevels, ← node_update_eq_iff (fun l => (hpair_bijective l).injective) hleaf,
    root_eq_node (leaf_replace (committed_val r)) i, root_eq_node (committed_val r) i]

theorem two_pow_three_dvd_iff : 2 ^ 3 ∣ i.val + 1 ↔ i = 7 := by
  rw [Fin.ext_iff]
  omega

theorem exists_root_replace_eq (hi : i ≠ 7) :
    ∃ (r : Round) (leaf : UInt32), leaf ≠ r.leaf i ∧ (r.replace i leaf).root = r.root := by
  obtain ⟨leaves, x, hx, hsame⟩ := exists_node_update_same (fun l => (hpair_bijective l).surjective)
    hpair_left_collision.1 hpair_left_collision.2 (two_pow_three_dvd_iff.not.mpr hi)
  have hleaves (k : Fin 8) : (⟨fun k => leaves k.val⟩ : Round).leaf k = leaves k.val := rfl
  refine ⟨⟨fun k => leaves k.val⟩, x, hx, ?_⟩
  rw [root_eq_node (leaf_replace hleaves) i, hsame, root_eq_node hleaves i]

theorem not_absorbs_last : ¬∃ h < 3, r.Absorbs 7 leaf h := by
  rintro ⟨h, hh, hleft, -⟩
  interval_cases h <;> exact absurd hleft (by decide)

/-- Replacing one leaf changes the root unless the change cancels out at a
level at which the path from the leaf comes from the left. The last leaf is the
only one with no such level, and the only one no change of which is lost. -/
theorem root_replace_ne_iff (r : Round) (i : Fin 8) (leaf : UInt32) (hne : leaf ≠ r.leaf i) :
    ((r.replace i leaf).root ≠ r.root ↔ ∀ h < 3, ¬r.Absorbs i leaf h) ∧
      ((∀ (r' : Round) (leaf' : UInt32), leaf' ≠ r'.leaf i → (r'.replace i leaf').root ≠ r'.root) ↔
        i = 7) := by
  constructor
  · rw [ne_eq, root_replace_eq_iff hne]
    simp only [not_exists, not_and]
  · constructor
    · intro hall
      by_contra hi
      obtain ⟨r', leaf', hne', hsame⟩ := exists_root_replace_eq hi
      exact hall r' leaf' hne' hsame
    · rintro rfl r' leaf' hne' hsame
      exact not_absorbs_last ((root_replace_eq_iff hne').mp hsame)

def eightLeaves : Round := ⟨fun i => UInt32.ofNat (i.val + 1)⟩

theorem eightLeaves_replace_root :
    (99 : UInt32) ≠ eightLeaves.leaf 2 ∧ (eightLeaves.replace 2 99).root ≠ eightLeaves.root ∧
      (9 : UInt32) ≠ eightLeaves.leaf 7 ∧ (eightLeaves.replace 7 9).root ≠ eightLeaves.root := by
  have hmiddle : (99 : UInt32) ≠ eightLeaves.leaf 2 := by decide
  have hlast : (9 : UInt32) ≠ eightLeaves.leaf 7 := by decide
  exact ⟨hmiddle, (root_replace_ne_iff eightLeaves 2 99 hmiddle).1.mpr (by decide +kernel), hlast,
    (root_replace_ne_iff eightLeaves 7 9 hlast).2.mpr rfl _ _ hlast⟩

/-- In the same place another word leaves the root as it is. -/
theorem eightLeaves_same_root :
    (1895725973 : UInt32) ≠ eightLeaves.leaf 2 ∧
      (eightLeaves.replace 2 1895725973).root = eightLeaves.root ∧
      merkleRoot8 1 2 1895725973 4 5 6 7 8 = merkleRoot8 1 2 3 4 5 6 7 8 := by decide +kernel

end Round

end TriNet.Compute
