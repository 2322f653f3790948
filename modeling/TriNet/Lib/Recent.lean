import Mathlib.Data.List.Basic

namespace TriNet.Lib.Recent

variable {α β : Type}

/-- The last `n` entries of a history. -/
def recent (n : Nat) (l : List α) : List α := l.drop (l.length - n)

def push (n : Nat) (queue : List α) (x : α) : List α :=
  if (queue ++ [x]).length > n then (queue ++ [x]).tail else queue ++ [x]

@[simp] theorem recent_nil (n : Nat) : recent n ([] : List α) = [] := List.drop_nil

theorem push_recent (n : Nat) (l : List α) (x : α) : push n (recent n l) x = recent n (l ++ [x]) := by
  rw [push]
  split
  · next hfull =>
      simp only [recent, List.length_append, List.length_drop, List.length_singleton] at hfull
      rw [recent, recent, List.length_append, List.length_singleton,
        ← List.drop_append_of_le_length (by omega), List.tail_drop]
      congr 1
      omega
  · next hroom =>
      simp only [recent, List.length_append, List.length_drop, List.length_singleton] at hroom
      rw [recent, recent, List.length_append, List.length_singleton]
      have hall : l.length - n = 0 := by omega
      have hall' : l.length + 1 - n = 0 := by omega
      rw [hall, hall', List.drop_zero, List.drop_zero]

theorem recent_map (n : Nat) (f : α → β) (l : List α) : recent n (l.map f) = (recent n l).map f := by
  rw [recent, recent, List.length_map, List.map_drop]

theorem mem_of_mem_recent {n : Nat} {l : List α} {x : α} (h : x ∈ recent n l) :
    x ∈ l := List.mem_of_mem_drop h

end TriNet.Lib.Recent
