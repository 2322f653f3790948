import Mathlib.Data.List.Count

namespace TriNet.Lib

variable {α : Type}

/-- A list that grew at its end. Every entry came in while fewer than `n` of
those before it counted against it. -/
inductive Throttled (n : Nat) (against : α → α → Bool) : List α → Prop
  | nil : Throttled n against []
  | concat {l : List α} {a : α} (h : Throttled n against l) (ha : l.countP (against a) < n) :
      Throttled n against (l ++ [a])

namespace Throttled

variable {n : Nat} {against : α → α → Bool} {l : List α}

theorem map (h : Throttled n against l) {f : α → α}
    (hf : ∀ a ∈ l, ∀ b ∈ l, against (f a) (f b) = true → against a b = true) :
    Throttled n against (l.map f) := by
  induction h with
  | nil => exact .nil
  | @concat l a _ ha ih =>
      rw [List.map_append, List.map_singleton]
      refine .concat (ih ?_) ?_
      · intro b hb c hc
        exact hf b (List.mem_append_left _ hb) c (List.mem_append_left _ hc)
      · rw [List.countP_map]
        refine Nat.lt_of_le_of_lt (List.countP_mono_left ?_) ha
        intro b hb hagainst
        exact hf a (List.mem_append_right _ (List.mem_singleton_self a)) b
          (List.mem_append_left _ hb) hagainst

/-- Entries that all count against each other are at most `n`: the last of them
came in when there were fewer. -/
theorem countP_le (h : Throttled n against l) {p : α → Bool}
    (hp : ∀ a b, p a = true → p b = true → against a b = true) : l.countP p ≤ n := by
  induction h with
  | nil => exact Nat.zero_le n
  | @concat l a _ ha ih =>
      rw [List.countP_append, List.countP_singleton]
      split
      · next hpa =>
          have hle : l.countP p ≤ l.countP (against a) :=
            List.countP_mono_left (fun b _ hpb => hp a b hpa hpb)
          exact Nat.lt_of_le_of_lt hle ha
      · exact ih

end Throttled

end TriNet.Lib
