import Mathlib.Algebra.Order.Ring.Nat
import Mathlib.Data.List.FinRange

namespace TriNet.Lib.Reordering

/-- A map of the indices below `n` that is its own inverse. -/
structure Swap (n : Nat) where
  place : Nat → Nat
  place_lt : ∀ i < n, place i < n
  place_place : ∀ i < n, place (place i) = i

/-- The elements of `xs`, the first of which has the index `start`, written one
after the other to the places of their indices. -/
def scatter {α : Type} (place : Nat → Nat) (xs : List α) (start : Nat) (out : List α) : List α :=
  (xs.zipIdx start).foldl (fun out p => out.set (place p.2) p.1) out

theorem scatter_cons {α : Type} (place : Nat → Nat) (x : α) (xs : List α) (start : Nat) (out : List α) :
    scatter place (x :: xs) start out = scatter place xs (start + 1) (out.set (place start) x) := rfl

@[simp] theorem length_scatter {α : Type} (place : Nat → Nat) (xs : List α) (start : Nat)
    (out : List α) : (scatter place xs start out).length = out.length := by
  induction xs generalizing start out with
  | nil => rfl
  | cons x xs ih => rw [scatter_cons, ih, List.length_set]

namespace Swap

variable {α : Type} {n : Nat} (σ : Swap n)

theorem place_eq_iff {i j : Nat} (hi : i < n) (hj : j < n) : σ.place i = j ↔ i = σ.place j := by
  constructor
  · rintro rfl
    exact (σ.place_place i hi).symm
  · rintro rfl
    exact σ.place_place j hj

def toPerm : Equiv.Perm (Fin n) :=
  Function.Involutive.toPerm (fun i => ⟨σ.place i, σ.place_lt i i.2⟩)
    (fun i => Fin.ext (σ.place_place i i.2))

theorem getElem?_scatter {xs out : List α} {start j : Nat} (hout : out.length = n)
    (hxs : start + xs.length ≤ n) (hj : j < n) :
    (scatter σ.place xs start out)[j]? =
      if start ≤ σ.place j ∧ σ.place j < start + xs.length then xs[σ.place j - start]? else out[j]? := by
  induction xs generalizing start out with
  | nil =>
      rw [if_neg (by simp only [List.length_nil]; omega)]
      rfl
  | cons x xs ih =>
      rw [List.length_cons] at hxs ⊢
      have hstart : start < n := by omega
      rw [scatter_cons, ih (by rw [List.length_set, hout]) (by omega)]
      by_cases hfirst : σ.place j = start
      · -- the first element goes here, and no later one does
        have hplace : σ.place start = j := (σ.place_eq_iff hstart hj).mpr hfirst.symm
        rw [if_neg (by omega), if_pos (by omega), hplace, hfirst, Nat.sub_self,
          List.getElem?_set_self (by rw [hout]; exact hj)]
        rfl
      · have hplace : σ.place start ≠ j := fun h => hfirst ((σ.place_eq_iff hstart hj).mp h).symm
        rw [List.getElem?_set_ne hplace]
        by_cases hlater : start + 1 ≤ σ.place j ∧ σ.place j < start + 1 + xs.length
        · have hindex : σ.place j - start = σ.place j - (start + 1) + 1 := by omega
          rw [if_pos hlater, if_pos (by omega), hindex, List.getElem?_cons_succ]
        · rw [if_neg hlater, if_neg (by omega)]

variable {xs out : List α}

theorem getElem?_scatter_zero (hout : out.length = n) (hxs : xs.length = n) {j : Nat} (hj : j < n) :
    (scatter σ.place xs 0 out)[j]? = xs[σ.place j]? := by
  have hlt := σ.place_lt j hj
  rw [σ.getElem?_scatter hout (by omega) hj, if_pos (by omega), Nat.sub_zero]

theorem scatter_scatter {out' : List α} (hout : out.length = n) (hout' : out'.length = n)
    (hxs : xs.length = n) : scatter σ.place (scatter σ.place xs 0 out) 0 out' = xs := by
  apply List.ext_getElem?
  intro j
  by_cases hj : j < n
  · rw [σ.getElem?_scatter_zero hout' (by rw [length_scatter, hout]) hj,
      σ.getElem?_scatter_zero hout hxs (σ.place_lt j hj), σ.place_place j hj]
  · rw [List.getElem?_eq_none (by rw [length_scatter]; omega), List.getElem?_eq_none (by omega)]

theorem scatter_perm (hout : out.length = n) (hxs : xs.length = n) :
    (scatter σ.place xs 0 out).Perm xs := by
  subst hxs
  have hread : scatter σ.place xs 0 out = List.ofFn (xs.get ∘ σ.toPerm) := by
    apply List.ext_getElem?
    intro j
    by_cases hj : j < xs.length
    · rw [σ.getElem?_scatter_zero hout rfl hj, List.getElem?_eq_getElem (σ.place_lt j hj),
        List.getElem?_eq_getElem (by rw [List.length_ofFn]; exact hj), List.getElem_ofFn]
      rfl
    · rw [List.getElem?_eq_none (by rw [length_scatter]; omega),
        List.getElem?_eq_none (by rw [List.length_ofFn]; omega)]
  have hperm := Equiv.Perm.ofFn_comp_perm σ.toPerm xs.get
  rwa [← hread, List.ofFn_get] at hperm

end Swap

section BitReversal

/-- `i` with its `k` low bits in reverse order. -/
def reverseBits (k i : Nat) : Nat := (BitVec.ofNat k i).reverse.toNat

theorem reverseBits_lt (k i : Nat) : reverseBits k i < 2 ^ k := (BitVec.ofNat k i).reverse.isLt

theorem reverseBits_reverseBits {k i : Nat} (h : i < 2 ^ k) : reverseBits k (reverseBits k i) = i := by
  rw [reverseBits, reverseBits, BitVec.ofNat_toNat, BitVec.setWidth_eq, BitVec.reverse_reverse_eq,
    BitVec.toNat_ofNat, Nat.mod_eq_of_lt h]

theorem testBit_reverseBits (k i j : Nat) :
    (reverseBits k i).testBit j = (decide (j < k) && i.testBit (k - 1 - j)) := by
  rw [reverseBits, BitVec.testBit_toNat, BitVec.getLsbD_reverse, BitVec.getMsbD_eq_getLsbD,
    BitVec.getLsbD_ofNat]
  by_cases hj : j < k
  · have hmirror : k - 1 - j < k := by omega
    simp [hj, hmirror]
  · simp [hj]

theorem reverseBits_zero (k : Nat) : reverseBits k 0 = 0 := by
  apply Nat.eq_of_testBit_eq
  simp [testBit_reverseBits]

theorem reverseBits_div {k w i : Nat} (hk : k ≤ w) : reverseBits w i / 2 ^ (w - k) = reverseBits k i := by
  apply Nat.eq_of_testBit_eq
  intro j
  rw [Nat.testBit_div_two_pow, testBit_reverseBits, testBit_reverseBits]
  have hmirror : w - 1 - (w - k + j) = k - 1 - j := by omega
  have hbound : w - k + j < w ↔ j < k := by omega
  rw [Nat.add_comm j, hmirror, decide_eq_decide.mpr hbound]

def bitSwap (k : Nat) : Swap (2 ^ k) where
  place := reverseBits k
  place_lt i _ := reverseBits_lt k i
  place_place _ hi := reverseBits_reverseBits hi

end BitReversal

end TriNet.Lib.Reordering
