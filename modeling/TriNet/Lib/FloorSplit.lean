import Mathlib.Algebra.Order.Ring.Nat
import Mathlib.Algebra.BigOperators.Group.List.Basic

namespace TriNet.Lib.FloorSplit

/-- What a proportional split hands out when every share is rounded down. -/
def issued (pool total : Nat) (ws : List Nat) : Nat := (ws.map (fun w => pool * w / total)).sum

/-- What the roundings of a split withhold, in units of one `total`-th. -/
def dust (pool total : Nat) (ws : List Nat) : Nat := (ws.map (fun w => pool * w % total)).sum

theorem issued_add_dust (pool total : Nat) (ws : List Nat) :
    total * issued pool total ws + dust pool total ws = pool * ws.sum := by
  induction ws with
  | nil => rfl
  | cons w ws ih =>
      have hw := Nat.div_add_mod (pool * w) total
      simp only [issued, dust, List.map_cons, List.sum_cons, Nat.mul_add] at ih ⊢
      rw [← ih]
      omega

theorem issued_le_iff {pool total : Nat} (ht : 0 < total) (ws : List Nat) :
    issued pool total ws ≤ pool ↔ pool * ws.sum ≤ pool * total + dust pool total ws := by
  have hsum := issued_add_dust pool total ws
  constructor
  · intro hle
    have hmul := Nat.mul_le_mul_left total hle
    rw [Nat.mul_comm pool total]
    omega
  · intro hle
    rw [← hsum, Nat.mul_comm pool total] at hle
    exact Nat.le_of_mul_le_mul_left (by omega) ht

theorem issued_le_of_sum_le {pool total : Nat} (ht : 0 < total) {ws : List Nat}
    (h : ws.sum ≤ total) : issued pool total ws ≤ pool := by
  rw [issued_le_iff ht]
  exact Nat.le_trans (Nat.mul_le_mul_left pool h) (Nat.le_add_right _ _)

end TriNet.Lib.FloorSplit
