import Mathlib.Algebra.Order.Ring.Nat
import Mathlib.Data.Nat.Basic

namespace TriNet.Lib.Checked

/-! Arithmetic on words of `w` bits that traps where the exact result does not
fit. A shift traps on its distance only and drops the bits it moves out. -/

variable {w a b k : Nat}

def add (w a b : Nat) : Option Nat := if a + b < 2 ^ w then some (a + b) else none

def sub (a b : Nat) : Option Nat := if b ≤ a then some (a - b) else none

def mul (w a b : Nat) : Option Nat := if a * b < 2 ^ w then some (a * b) else none

def div (a b : Nat) : Option Nat := if b = 0 then none else some (a / b)

def rem (a b : Nat) : Option Nat := if b = 0 then none else some (a % b)

def shl (w a k : Nat) : Option Nat := if k < w then some (a * 2 ^ k % 2 ^ w) else none

def shr (w a k : Nat) : Option Nat := if k < w then some (a / 2 ^ k) else none

def sum (w : Nat) (xs : List Nat) : Option Nat := xs.foldlM (add w) 0

theorem add_of_lt (h : a + b < 2 ^ w) : add w a b = some (a + b) := if_pos h

theorem sub_of_le (h : b ≤ a) : sub a b = some (a - b) := if_pos h

theorem mul_of_lt (h : a * b < 2 ^ w) : mul w a b = some (a * b) := if_pos h

theorem div_of_pos (h : 0 < b) : div a b = some (a / b) := if_neg (Nat.ne_of_gt h)

theorem rem_of_pos (h : 0 < b) : rem a b = some (a % b) := if_neg (Nat.ne_of_gt h)

theorem shl_of_lt (hk : k < w) (h : a * 2 ^ k < 2 ^ w) : shl w a k = some (a * 2 ^ k) := by
  rw [shl, if_pos hk, Nat.mod_eq_of_lt h]

theorem shr_of_lt (hk : k < w) : shr w a k = some (a / 2 ^ k) := if_pos hk

theorem foldlM_add {acc : Nat} (hacc : acc < 2 ^ w) (xs : List Nat) :
    xs.foldlM (add w) acc = if acc + xs.sum < 2 ^ w then some (acc + xs.sum) else none := by
  induction xs generalizing acc with
  | nil => rw [List.sum_nil, Nat.add_zero, if_pos hacc, List.foldlM_nil, Option.pure_def]
  | cons x xs ih =>
      rw [List.foldlM_cons, List.sum_cons, ← Nat.add_assoc]
      by_cases hfits : acc + x < 2 ^ w
      · rw [add_of_lt hfits, Option.bind_eq_bind, Option.bind_some, ih hfits]
      · have hover : ¬acc + x + xs.sum < 2 ^ w :=
          fun h => hfits (Nat.lt_of_le_of_lt (Nat.le_add_right ..) h)
        rw [add, if_neg hfits, if_neg hover]
        rfl

/-- The partial sums grow, so the whole sum decides whether one of them traps. -/
theorem sum_eq (w : Nat) (xs : List Nat) : sum w xs = if xs.sum < 2 ^ w then some xs.sum else none := by
  rw [sum, foldlM_add (Nat.two_pow_pos w), Nat.zero_add]

theorem add_comm (w a b : Nat) : add w a b = add w b a := by
  rw [add, add, Nat.add_comm]

theorem mul_comm (w a b : Nat) : mul w a b = mul w b a := by
  rw [mul, mul, Nat.mul_comm]

theorem exists_mapM {α β : Type} {f : α → Option β} {l : List α} (h : ∀ x ∈ l, ∃ y, f x = some y) :
    ∃ ys, l.mapM f = some ys := by
  induction l with
  | nil => exact ⟨[], rfl⟩
  | cons x l ih =>
      obtain ⟨hx, hl⟩ := List.forall_mem_cons.mp h
      obtain ⟨y, hy⟩ := hx
      obtain ⟨ys, hys⟩ := ih hl
      exact ⟨y :: ys, by rw [List.mapM_cons, hy, hys]; rfl⟩

theorem mapM_eq_map {α β : Type} {f : α → Option β} {g : α → β} {l : List α}
    (h : ∀ x ∈ l, f x = some (g x)) : l.mapM f = some (l.map g) := by
  induction l with
  | nil => rfl
  | cons x l ih =>
      rw [List.mapM_cons, h x (List.mem_cons_self ..), ih (fun y hy => h y (List.mem_cons_of_mem x hy))]
      rfl

section Words

variable {x y : UInt32}

def addWord (x y : UInt32) : Option UInt32 := (add 32 x.toNat y.toNat).map UInt32.ofNat

def mulWord (x y : UInt32) : Option UInt32 := (mul 32 x.toNat y.toNat).map UInt32.ofNat

theorem addWord_of_lt (h : x.toNat + y.toNat < 2 ^ 32) : addWord x y = some (x + y) := by
  have hsum : UInt32.ofNat (x.toNat + y.toNat) = x + y := by
    rw [UInt32.ofNat_add, UInt32.ofNat_toNat, UInt32.ofNat_toNat]
  rw [addWord, add_of_lt h, Option.map_some, hsum]

theorem toNat_add_of_lt (h : x.toNat + y.toNat < 2 ^ 32) : (x + y).toNat = x.toNat + y.toNat := by
  rw [UInt32.toNat_add, Nat.mod_eq_of_lt h]

end Words

end TriNet.Lib.Checked
