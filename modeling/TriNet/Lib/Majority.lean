import Mathlib.Data.List.Perm.Basic

namespace TriNet.Lib.Majority

variable {α β : Type} [DecidableEq α] [DecidableEq β] {votes votes' : List α} {x y : α}

def majority (votes : List α) : Option α := votes.find? (fun x => votes.length < 2 * votes.count x)

/-- How many did not vote for `x`. -/
def dissent (x : α) (votes : List α) : Nat := votes.countP (fun y => y ≠ x)

theorem count_add_dissent (x : α) (votes : List α) : votes.count x + dissent x votes = votes.length := by
  have h := List.length_eq_countP_add_countP (· == x) (l := votes)
  rw [h, dissent, List.count]
  congr 2
  funext y
  simp

theorem eq_of_counts (hx : votes.length < 2 * votes.count x)
    (hy : votes.length < 2 * votes.count y) : x = y := by
  by_contra hne
  have hother : votes.count y ≤ dissent x votes := by
    apply List.countP_mono_left
    intro z _ hz
    obtain rfl := beq_iff_eq.mp hz
    exact decide_eq_true (Ne.symm hne)
  have hall := count_add_dissent x votes
  omega

theorem count_of_majority (h : majority votes = some x) : votes.length < 2 * votes.count x := by
  have hfound := List.find?_some h
  exact of_decide_eq_true hfound

theorem majority_eq_some_iff : majority votes = some x ↔ votes.length < 2 * votes.count x := by
  refine ⟨count_of_majority, fun h => ?_⟩
  cases hfound : majority votes with
  | none =>
      have hmem : x ∈ votes := List.count_pos_iff.mp (by omega)
      exact absurd (decide_eq_true h) (List.find?_eq_none.mp hfound x hmem)
  | some y => rw [eq_of_counts h (count_of_majority hfound)]

/-- Fewer than half dissenters cannot keep a vote from winning. -/
theorem majority_of_dissent (h : 2 * dissent x votes < votes.length) : majority votes = some x := by
  have hall := count_add_dissent x votes
  exact majority_eq_some_iff.mpr (by omega)

theorem majority_perm (h : votes.Perm votes') : majority votes = majority votes' := by
  apply Option.ext
  intro x
  rw [majority_eq_some_iff, majority_eq_some_iff, h.length_eq, h.count_eq]

theorem dissent_map_le (f : α → β) (x : α) (votes : List α) :
    dissent (f x) (votes.map f) ≤ dissent x votes := by
  rw [dissent, List.countP_map]
  apply List.countP_mono_left
  intro y _ hy
  have hne : f y ≠ f x := of_decide_eq_true hy
  exact decide_eq_true (fun h => hne (congrArg f h))

theorem majority_of_three_iff {a b c : α} : majority [a, b, c] = some x ↔ 2 ≤ [a, b, c].count x := by
  rw [majority_eq_some_iff, List.length_cons, List.length_cons, List.length_cons, List.length_nil]
  omega

theorem majority_three (a b c : α) :
    majority [a, b, c] = if a = b then some a else if a = c then some a
      else if b = c then some b else none := by
  by_cases hab : a = b
  · subst hab
    rw [if_pos rfl, majority_of_three_iff]
    simp [List.count_cons]
  rw [if_neg hab]
  by_cases hac : a = c
  · subst hac
    rw [if_pos rfl, majority_of_three_iff]
    simp [List.count_cons]
  rw [if_neg hac]
  by_cases hbc : b = c
  · subst hbc
    rw [if_pos rfl, majority_of_three_iff]
    simp [List.count_cons]
  · rw [if_neg hbc, majority]
    simp [List.count_cons, hab, hac, hbc, Ne.symm hab, Ne.symm hac, Ne.symm hbc]

end TriNet.Lib.Majority
