import Mathlib.Algebra.Order.Ring.Nat
import Mathlib.Data.List.Basic

namespace TriNet.Lib.Lines

variable {s t : String} {fs gs : List String}

def join (fields : List String) : String := "\n".intercalate fields

def SingleLine (s : String) : Prop := '\n' ∉ s.toList

instance (s : String) : Decidable (SingleLine s) := inferInstanceAs (Decidable ('\n' ∉ s.toList))

theorem toList_join_cons (hfs : fs ≠ []) :
    (join (s :: fs)).toList = s.toList ++ '\n' :: (join fs).toList := by
  obtain ⟨f, fs, rfl⟩ := List.exists_cons_of_ne_nil hfs
  simp only [join, String.toList_intercalate, List.map_cons]
  rfl

theorem join_cons_congr (s : String) (hfs : fs ≠ []) (hgs : gs ≠ []) (h : join fs = join gs) :
    join (s :: fs) = join (s :: gs) := by
  apply String.toList_inj.mp
  rw [toList_join_cons hfs, toList_join_cons hgs, h]

theorem toList_join_concat (hfs : fs ≠ []) :
    (join (fs ++ [s])).toList = (join fs).toList ++ '\n' :: s.toList := by
  induction fs with
  | nil => exact absurd rfl hfs
  | cons f fs ih =>
      rw [List.cons_append, toList_join_cons (List.concat_ne_nil s fs)]
      cases fs with
      | nil => simp [join]
      | cons g fs =>
          have hne : g :: fs ≠ [] := List.cons_ne_nil g fs
          rw [ih hne, toList_join_cons hne, List.append_assoc, List.cons_append]

theorem append_sep_inj {α : Type} {a : α} {x y u v : List α} (hx : a ∉ x) (hy : a ∉ y)
    (h : x ++ a :: u = y ++ a :: v) : x = y ∧ u = v := by
  induction x generalizing y with
  | nil =>
      cases y with
      | nil => exact ⟨rfl, (List.cons.inj h).2⟩
      | cons b y => exact absurd (List.mem_cons.mpr (.inl (List.cons.inj h).1)) hy
  | cons b x ih =>
      cases y with
      | nil => exact absurd (List.mem_cons.mpr (.inl (List.cons.inj h).1.symm)) hx
      | cons c y =>
          obtain ⟨rfl, htail⟩ := List.cons.inj h
          obtain ⟨rfl, huv⟩ := ih (fun hm => hx (List.mem_cons_of_mem b hm))
            (fun hm => hy (List.mem_cons_of_mem b hm)) htail
          exact ⟨rfl, huv⟩

theorem join_cons_inj (hs : SingleLine s) (ht : SingleLine t) (hfs : fs ≠ []) (hgs : gs ≠ [])
    (h : join (s :: fs) = join (t :: gs)) : s = t ∧ join fs = join gs := by
  have hlist := congrArg String.toList h
  rw [toList_join_cons hfs, toList_join_cons hgs] at hlist
  obtain ⟨hst, hrest⟩ := append_sep_inj hs ht hlist
  exact ⟨String.toList_inj.mp hst, String.toList_inj.mp hrest⟩

theorem join_concat_inj (hs : SingleLine s) (ht : SingleLine t) (hfs : fs ≠ []) (hgs : gs ≠ [])
    (h : join (fs ++ [s]) = join (gs ++ [t])) : s = t ∧ join fs = join gs := by
  have hlist := congrArg (fun x => x.toList.reverse) h
  simp only [toList_join_concat hfs, toList_join_concat hgs, List.reverse_append, List.reverse_cons,
    List.append_assoc, List.cons_append, List.nil_append] at hlist
  obtain ⟨hst, hrest⟩ :=
    append_sep_inj (by simpa [SingleLine] using hs) (by simpa [SingleLine] using ht) hlist
  exact ⟨String.toList_inj.mp (List.reverse_injective hst),
    String.toList_inj.mp (List.reverse_injective hrest)⟩

section Count

def newlines (s : String) : Nat := s.toList.count '\n'

theorem newlines_eq_zero : newlines s = 0 ↔ SingleLine s := List.count_eq_zero

theorem newlines_join (hfs : fs ≠ []) : newlines (join fs) + 1 = (fs.map newlines).sum + fs.length := by
  induction fs with
  | nil => exact absurd rfl hfs
  | cons f fs ih =>
      cases fs with
      | nil => simp [join]
      | cons g fs =>
          have hne : g :: fs ≠ [] := List.cons_ne_nil g fs
          have hjoin : newlines (join (f :: g :: fs)) = newlines f + (newlines (join (g :: fs)) + 1) := by
            rw [newlines, toList_join_cons hne, List.count_append, List.count_cons_self]
            rfl
          have hsum := ih hne
          rw [hjoin, List.map_cons, List.sum_cons, List.length_cons]
          omega

theorem sum_newlines_eq_zero : (fs.map newlines).sum = 0 ↔ ∀ f ∈ fs, SingleLine f := by
  rw [List.sum_eq_zero_iff_forall_eq_nat, List.forall_mem_map]
  exact forall₂_congr (fun f _ => newlines_eq_zero)

/-- Fields without newlines are the only ones of their number with their text. -/
theorem join_inj (hlen : fs.length = gs.length) (hfs : ∀ f ∈ fs, SingleLine f)
    (h : join fs = join gs) : fs = gs := by
  have hgs : ∀ g ∈ gs, SingleLine g := by
    by_cases hne : gs = []
    · rw [hne]
      exact fun g hg => absurd hg List.not_mem_nil
    · have hne' : fs ≠ [] := by
        rw [← List.length_pos_iff, hlen]
        exact List.length_pos_iff.mpr hne
      have hcount := newlines_join hne
      rw [← h, newlines_join hne', sum_newlines_eq_zero.mpr hfs, hlen] at hcount
      exact sum_newlines_eq_zero.mp (by omega)
  induction fs generalizing gs with
  | nil => exact (List.length_eq_zero_iff.mp hlen.symm).symm
  | cons f fs ih =>
      cases gs with
      | nil => cases hlen
      | cons g gs =>
          rw [List.length_cons, List.length_cons, Nat.succ.injEq] at hlen
          rw [List.forall_mem_cons] at hfs hgs
          cases fs with
          | nil =>
              have hnil : gs = [] := List.length_eq_zero_iff.mp hlen.symm
              subst hnil
              simpa [join] using h
          | cons f' fs =>
              have hne : gs ≠ [] := by
                rw [← List.length_pos_iff, ← hlen]
                exact Nat.succ_pos _
              obtain ⟨rfl, hrest⟩ := join_cons_inj hfs.1 hgs.1 (List.cons_ne_nil f' fs) hne h
              rw [ih hlen hfs.2 hrest hgs.2]

end Count

theorem eq_of_repr_eq {m n : Nat} (h : m.repr = n.repr) : m = n := by
  have hdigits : Nat.toDigits 10 m = Nat.toDigits 10 n := by
    rw [← Nat.toList_repr, ← Nat.toList_repr, h]
  rw [← Nat.ofDigitChars_toDigits (b := 10) (n := m) (by decide) (Nat.le_refl 10), hdigits,
    Nat.ofDigitChars_toDigits (by decide) (Nat.le_refl 10)]

theorem notMem_repr {c : Char} (h : c.isDigit = false) (n : Nat) : c ∉ n.repr.toList := by
  intro hc
  rw [Nat.toList_repr] at hc
  rw [Nat.isDigit_of_mem_toDigits (by decide) (Nat.le_refl 10) hc] at h
  cases h

theorem eq_of_toString_int_eq {m n : Int} (h : toString m = toString n) : m = n := by
  simp only [Int.toString_eq_repr, Int.repr] at h
  have hminus (a b : Nat) : a.repr ≠ "-" ++ b.repr := by
    intro heq
    refine notMem_repr (c := '-') rfl a ?_
    rw [heq, String.toList_append]
    exact List.mem_cons_self
  cases m with
  | ofNat a =>
      cases n with
      | ofNat b => exact congrArg Int.ofNat (eq_of_repr_eq h)
      | negSucc b => exact absurd h (hminus _ _)
  | negSucc a =>
      cases n with
      | ofNat b => exact absurd h.symm (hminus _ _)
      | negSucc b =>
          have htail : a.succ.repr = b.succ.repr := by
            have hlist := congrArg String.toList h
            rw [String.toList_append, String.toList_append] at hlist
            exact String.toList_inj.mp (List.append_cancel_left hlist)
          exact congrArg Int.negSucc (Nat.succ.inj (eq_of_repr_eq htail))

theorem singleLine_toString (n : Int) : SingleLine (toString n) := by
  rw [SingleLine, Int.toString_eq_repr]
  cases n with
  | ofNat a => exact notMem_repr rfl a
  | negSucc a =>
      simp only [Int.repr, String.toList_append, List.mem_append, not_or]
      exact ⟨by decide, notMem_repr rfl _⟩

end TriNet.Lib.Lines
