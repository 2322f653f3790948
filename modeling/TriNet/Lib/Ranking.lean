import Mathlib.Data.List.Nodup
import Mathlib.Data.List.Sort
import Mathlib.Order.BoundedOrder.Basic

namespace TriNet.Lib.Ranking

variable {α β : Type} [LinearOrder β] {key : α → β} {l : List α} {x : α}

/-- A list in the order of its keys, equal ones in any order. -/
structure Ranks (key : α → β) (l sorted : List α) : Prop where
  perm : sorted.Perm l
  sorted : sorted.Pairwise (fun a b => key a ≤ key b)

theorem Ranks.mergeSort {order : List α} (h : order.Perm l) :
    Ranks key l (order.mergeSort (fun a b => decide (key a ≤ key b))) where
  perm := (List.mergeSort_perm order _).trans h
  sorted := by
    have hsorted : (order.mergeSort (fun a b => decide (key a ≤ key b))).Pairwise
        (fun a b => decide (key a ≤ key b) = true) :=
      List.pairwise_mergeSort (by simpa using fun a b c => le_trans)
        (by simpa using fun a b => le_total (key a) (key b)) order
    simpa using hsorted

theorem Ranks.mergeSort_self {sorted : List α} (h : Ranks key l sorted) :
    sorted.mergeSort (fun a b => decide (key a ≤ key b)) = sorted :=
  List.mergeSort_of_pairwise (by simpa using h.sorted)

theorem Ranks.not_mem_take_two {sorted : List α} (h : Ranks key l sorted) {a b : α} (ha : a ∈ l)
    (hb : b ∈ l) (hab : a ≠ b) (hax : key a < key x) (hbx : key b < key x) : x ∉ sorted.take 2 := by
  obtain ⟨hperm, hsorted⟩ := h
  have hmem {c : α} (hc : c ∈ l) : c ∈ sorted := hperm.mem_iff.mpr hc
  intro hx
  rcases sorted with _ | ⟨c, _ | ⟨d, rest⟩⟩
  · exact absurd hx (by simp)
  · exact hab ((List.mem_singleton.mp (hmem ha)).trans (List.mem_singleton.mp (hmem hb)).symm)
  · obtain ⟨hc, htail⟩ := List.pairwise_cons.mp hsorted
    obtain ⟨hd, -⟩ := List.pairwise_cons.mp htail
    -- whatever is smaller than one of the first two is the first
    have hfirst {e : α} (he : e ∈ l) (hlt : key e < key x) : e = c := by
      have hx' : x = c ∨ x = d := by simpa using hx
      have he' : e = c ∨ e = d ∨ e ∈ rest := by simpa using hmem he
      rcases hx' with rfl | rfl
      · rcases he' with rfl | rfl | he'
        · rfl
        · exact absurd (hc e List.mem_cons_self) (not_le.mpr hlt)
        · exact absurd (hc e (List.mem_cons_of_mem d he')) (not_le.mpr hlt)
      · rcases he' with rfl | rfl | he'
        · rfl
        · exact absurd hlt (lt_irrefl _)
        · exact absurd (hd e he') (not_le.mpr hlt)
    exact hab ((hfirst ha hax).trans (hfirst hb hbx).symm)

/-- Otherwise it is among them in some ranking, if its key is the greatest
there is. -/
theorem exists_ranks_mem_take_two [OrderTop β] [DecidableEq α] (hnodup : l.Nodup) (hx : x ∈ l)
    (htop : key x = ⊤) (hone : ∀ a ∈ l, ∀ b ∈ l, key a ≠ ⊤ → key b ≠ ⊤ → a = b) :
    ∃ sorted, Ranks key l sorted ∧ x ∈ sorted.take 2 := by
  have hsorted {m : List α} (hall : ∀ b ∈ m, key b = ⊤) : m.Pairwise (fun a b => key a ≤ key b) :=
    List.pairwise_of_forall_mem_list (fun a _ b hb => (hall b hb).symm ▸ le_top)
  by_cases hfin : ∃ a ∈ l, key a ≠ ⊤
  · obtain ⟨a, ha, hakey⟩ := hfin
    have hxa : x ≠ a := fun h => hakey (h ▸ htop)
    have hx' : x ∈ l.erase a := (List.mem_erase_of_ne hxa).mpr hx
    have hrest : ∀ b ∈ x :: (l.erase a).erase x, key b = ⊤ := by
      intro b hb
      have hb' : b ∈ l.erase a := (List.perm_cons_erase hx').mem_iff.mpr hb
      by_contra hbkey
      have hab := hone a ha b (List.mem_of_mem_erase hb') hakey hbkey
      exact hnodup.not_mem_erase (hab ▸ hb')
    refine ⟨a :: x :: (l.erase a).erase x, ⟨?_, ?_⟩, by simp⟩
    · exact ((List.perm_cons_erase hx').symm.cons a).trans (List.perm_cons_erase ha).symm
    · exact List.pairwise_cons.mpr ⟨fun b hb => (hrest b hb).symm ▸ le_top, hsorted hrest⟩
  · refine ⟨x :: l.erase x, ⟨(List.perm_cons_erase hx).symm, hsorted ?_⟩, by simp⟩
    intro b hb
    by_contra hbkey
    exact hfin ⟨b, (List.perm_cons_erase hx).mem_iff.mpr hb, hbkey⟩

end TriNet.Lib.Ranking
