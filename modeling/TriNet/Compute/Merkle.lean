import TriNet.Lib.MerkleTree
import TriNet.Compute.HashChains
import Mathlib.Tactic.IntervalCases

namespace TriNet.Compute

open Lib

def mC : UInt32 := 0x9E3779B9

def hpair (l r : UInt32) : UInt32 :=
  let a := mix32 (l ^^^ mC)
  let b := mix32 (r ^^^ rotl l 13)
  mix32 (a ^^^ rotl b 7)

def merkleRoot8 (l0 l1 l2 l3 l4 l5 l6 l7 : UInt32) : UInt32 :=
  let p0 := hpair l0 l1
  let p1 := hpair l2 l3
  let p2 := hpair l4 l5
  let p3 := hpair l6 l7
  let q0 := hpair p0 p1
  let q1 := hpair p2 p3
  hpair q0 q1

def merkleStep (node sibling isRight : UInt32) : UInt32 :=
  if isRight = 1 then hpair sibling node else hpair node sibling

def merkleVerify8 (leaf s0 s1 s2 idx root : UInt32) : Bool :=
  let n0 := merkleStep leaf s0 (idx &&& 1)
  let n1 := merkleStep n0 s1 ((idx >>> 1) &&& 1)
  let n2 := merkleStep n1 s2 ((idx >>> 2) &&& 1)
  n2 == root

structure Round where
  leaf : Fin 8 → UInt32

namespace Round

variable (r : Round)

def root : UInt32 :=
  merkleRoot8 (r.leaf 0) (r.leaf 1) (r.leaf 2) (r.leaf 3) (r.leaf 4) (r.leaf 5) (r.leaf 6) (r.leaf 7)

def committed (i : Nat) : UInt32 := r.leaf (Fin.ofNat 8 i)

def node (h i : Nat) : UInt32 := MerkleTree.node hpair r.committed h i

/-- The sibling at height `h` on the way from leaf `i` to the root. -/
def sibling (i h : Nat) : UInt32 := r.node h (MerkleTree.siblingPlace (i / 2 ^ h))

def pairs : List (UInt32 × UInt32) :=
  [(0, 0), (0, 1), (0, 2), (0, 3), (1, 0), (1, 1), (2, 0)].map
    (fun p => (r.node p.1 (2 * p.2), r.node p.1 (2 * p.2 + 1)))

end Round

def proofPairs (leaf s0 s1 s2 idx : UInt32) : List (UInt32 × UInt32) :=
  MerkleTree.climbPairs hpair leaf idx.toNat [s0, s1, s2]

theorem bit_eq_one_iff (idx : UInt32) : idx &&& 1 = 1 ↔ idx.toNat % 2 = 1 := by
  rw [← UInt32.toNat_inj, UInt32.toNat_and, UInt32.toNat_one, Nat.and_one_is_mod]

theorem merkleStep_eq (node sibling idx : UInt32) :
    merkleStep node sibling (idx &&& 1) =
      hpair (MerkleTree.arranged node sibling idx.toNat).1
        (MerkleTree.arranged node sibling idx.toNat).2 := by
  rw [merkleStep, MerkleTree.arranged]
  by_cases h : idx.toNat % 2 = 1
  · rw [if_pos ((bit_eq_one_iff idx).mpr h), if_pos h]
  · rw [if_neg (fun hbit => h ((bit_eq_one_iff idx).mp hbit)), if_neg h]

theorem merkleVerify8_iff {leaf s0 s1 s2 idx root : UInt32} :
    merkleVerify8 leaf s0 s1 s2 idx root = true ↔
      MerkleTree.climb hpair leaf idx.toNat [s0, s1, s2] = root := by
  have h1 : (idx >>> 1).toNat = idx.toNat / 2 := by simp [Nat.shiftRight_eq_div_pow]
  have h2 : (idx >>> 2).toNat = idx.toNat / 2 / 2 := by
    simp [Nat.shiftRight_eq_div_pow, Nat.div_div_eq_div_mul]
  simp only [merkleVerify8, beq_iff_eq, merkleStep_eq, h1, h2, MerkleTree.climb]

theorem hpair_bijective (l : UInt32) : Function.Bijective (hpair l) := by
  have hfinite : Finite UInt32 := Finite.of_injective UInt32.toFin (fun _ _ => UInt32.toFin_inj.mp)
  apply Finite.injective_iff_bijective.mp
  intro r r' h
  have hb := UInt32.xor_right_inj _ |>.mp (mix32_injective h)
  exact mix32_xor_inj.mp ((rotl_inj (by decide) (by decide)).mp hb)

namespace Round

variable {r : Round} {idx : UInt32}

theorem root_eq (hidx : idx < 8) : r.root = r.node (0 + 3) (idx.toNat / 2 ^ 3) := by
  have htop : idx.toNat / 2 ^ 3 = 0 := Nat.div_eq_of_lt (UInt32.lt_iff_toNat_lt.mp hidx)
  rw [htop]
  rfl

theorem siblings_eq (i : Nat) :
    MerkleTree.siblings hpair r.committed 0 i 3 = [r.sibling i 0, r.sibling i 1, r.sibling i 2] := by
  simp [MerkleTree.siblings, sibling, node, Nat.div_div_eq_div_mul]

theorem under_mem_pairs {h i : Nat} (hh : h < 3) (hi : i < 2 ^ (2 - h)) :
    MerkleTree.under hpair r.committed h i ∈ r.pairs := by
  simp only [pairs, List.mem_map]
  refine ⟨(h, i), ?_, rfl⟩
  interval_cases h <;> interval_cases i <;> simp

theorem verify_siblings (hidx : idx < 8) :
    merkleVerify8 (r.committed idx.toNat) (r.sibling idx.toNat 0) (r.sibling idx.toNat 1)
      (r.sibling idx.toNat 2) idx r.root = true := by
  rw [merkleVerify8_iff, ← siblings_eq, root_eq hidx]
  exact MerkleTree.climb_siblings 3

theorem collision_of_forged {leaf s0 s1 s2 : UInt32} (hidx : idx < 8)
    (haccepted : merkleVerify8 leaf s0 s1 s2 idx r.root = true) (hforged : leaf ≠ r.committed idx.toNat) :
    ∃ p ∈ r.pairs, ∃ q ∈ proofPairs leaf s0 s1 s2 idx, p ≠ q ∧ hpair p.1 p.2 = hpair q.1 q.2 := by
  rw [merkleVerify8_iff, root_eq hidx] at haccepted
  obtain ⟨q, hq, k, hk, hne, hhash⟩ := MerkleTree.exists_collision [s0, s1, s2] hforged haccepted
  have hk : k < 3 := hk
  rw [Nat.zero_add] at hne hhash
  have hplace : idx.toNat / 2 ^ (k + 1) < 2 ^ (2 - k) := by
    have hlt : idx.toNat < 8 := UInt32.lt_iff_toNat_lt.mp hidx
    interval_cases k <;> omega
  exact ⟨_, under_mem_pairs hk hplace, q, hq, hne.symm, hhash.symm⟩

/-- The siblings of the tree itself lead every leaf to the root. A proof that
leads another word there hashes, at one level, a pair that is not the pair of
the tree and has the same hash. -/
theorem merkle_inclusion (r : Round) (idx : UInt32) (hidx : idx < 8) :
    merkleVerify8 (r.committed idx.toNat) (r.sibling idx.toNat 0) (r.sibling idx.toNat 1)
        (r.sibling idx.toNat 2) idx r.root = true ∧
      ∀ leaf s0 s1 s2, merkleVerify8 leaf s0 s1 s2 idx r.root = true → leaf ≠ r.committed idx.toNat →
        ∃ p ∈ r.pairs, ∃ q ∈ proofPairs leaf s0 s1 s2 idx, p ≠ q ∧ hpair p.1 p.2 = hpair q.1 q.2 :=
  ⟨verify_siblings hidx, fun _ _ _ _ => collision_of_forged hidx⟩

def countingRound : Round := ⟨fun i => UInt32.ofNat i⟩

/-- With another sibling at the lowest level 9 is proved in the place of 0. -/
theorem countingRound_nine :
    (0 : UInt32) < 8 ∧
      merkleVerify8 9 3360077852 (countingRound.sibling 0 1) (countingRound.sibling 0 2) 0
        countingRound.root = true ∧
      9 ≠ countingRound.committed 0 ∧
      ∃ p ∈ countingRound.pairs,
        ∃ q ∈ proofPairs 9 3360077852 (countingRound.sibling 0 1) (countingRound.sibling 0 2) 0,
        p ≠ q ∧ hpair p.1 p.2 = hpair q.1 q.2 := by
  have haccepted : merkleVerify8 9 3360077852 (countingRound.sibling 0 1) (countingRound.sibling 0 2) 0
      countingRound.root = true := by decide +kernel
  have hforged : 9 ≠ countingRound.committed 0 := by decide +kernel
  exact ⟨by decide, haccepted, hforged,
    (merkle_inclusion countingRound 0 (by decide)).2 _ _ _ _ haccepted hforged⟩

/-- The collisions a forged proof needs are no obstacle with this hash: in every
place but the last any word has a proof. -/
theorem exists_proof (r : Round) (leaf : UInt32) (hidx : idx < 7) :
    ∃ s0 s1 s2, merkleVerify8 leaf s0 s1 s2 idx r.root = true := by
  have hlt : idx.toNat < 7 := UInt32.lt_iff_toNat_lt.mp hidx
  obtain ⟨ss, hlen, htop⟩ := MerkleTree.exists_climb r.committed leaf
    (fun l => (hpair_bijective l).surjective) (h := 0) (i := idx.toNat) (n := 3) (by omega)
  obtain ⟨s0, s1, s2, rfl⟩ := List.length_eq_three.mp hlen
  refine ⟨s0, s1, s2, ?_⟩
  rw [merkleVerify8_iff, htop, root_eq (UInt32.lt_trans hidx (by decide : (7 : UInt32) < 8))]
  rfl

theorem exists_proof_countingRound :
    (6 : UInt32) < 7 ∧ ∃ s0 s1 s2, merkleVerify8 9 s0 s1 s2 6 countingRound.root = true :=
  ⟨by decide, exists_proof countingRound 9 (by decide)⟩

end Round

end TriNet.Compute
