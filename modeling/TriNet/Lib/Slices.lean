import Mathlib.Data.List.Basic

namespace TriNet.Lib.Slices

variable {α β : Type}

/-- `bs[i..j]` of a list that reaches so far. -/
def slice (bs : List α) (i j : Nat) : List α := (bs.drop i).take (j - i)

section Slice

variable {bs a b c : List α} {i j k : Nat}

theorem length_slice (h : j ≤ bs.length) : (slice bs i j).length = j - i := by
  rw [slice, List.length_take, List.length_drop]
  omega

theorem slice_zero (bs : List α) (j : Nat) : slice bs 0 j = bs.take j := rfl

theorem slice_middle (a : List α) (h : bs = a ++ (b ++ c)) (ha : a.length = i)
    (hb : i + b.length = j) : slice bs i j = b := by
  rw [h, slice, List.drop_left' ha, List.take_left' (by omega)]

theorem slice_append_drop (h : i ≤ j) : slice bs i j ++ bs.drop j = bs.drop i := by
  have hdrop : bs.drop j = (bs.drop i).drop (j - i) := by rw [List.drop_drop, Nat.add_sub_cancel' h]
  rw [slice, hdrop, List.take_append_drop]

theorem slice_append_slice (hij : i ≤ j) (hjk : j ≤ k) : slice bs i j ++ slice bs j k = slice bs i k := by
  have hdrop : bs.drop j = (bs.drop i).drop (j - i) := by rw [List.drop_drop, Nat.add_sub_cancel' hij]
  have hsum : k - i = j - i + (k - j) := by omega
  rw [slice, slice, slice, hdrop, hsum, List.take_add]

theorem slice_single (h : i < bs.length) : slice bs i (i + 1) = [bs[i]] := by
  rw [slice, Nat.add_sub_cancel_left, List.drop_eq_getElem_cons h]
  rfl

theorem getD_slice (h : i + k < j) (d : α) : (slice bs i j).getD k d = bs.getD (i + k) d := by
  have hk : k < j - i := by omega
  rw [slice, List.getD_eq_getElem?_getD, List.getD_eq_getElem?_getD, List.getElem?_take,
    if_pos hk, List.getElem?_drop]

end Slice

section Records

variable {enc : α → List β} {w : Nat}

theorem drop_flatMap (hw : ∀ x, (enc x).length = w) (xs : List α) (i : Nat) :
    (xs.flatMap enc).drop (i * w) = (xs.drop i).flatMap enc := by
  induction i generalizing xs with
  | zero => rw [Nat.zero_mul, List.drop_zero, List.drop_zero]
  | succ i ih =>
      cases xs with
      | nil => rw [List.flatMap_nil, List.drop_nil, List.drop_nil, List.flatMap_nil]
      | cons x xs =>
          rw [List.flatMap_cons, Nat.succ_mul, Nat.add_comm, ← List.drop_drop,
            List.drop_left' (hw x), ih, List.drop_succ_cons]

theorem slice_flatMap (hw : ∀ x, (enc x).length = w) {a c : List β} (xs : List α) {i : Nat}
    (hi : i < xs.length) :
    slice (a ++ (xs.flatMap enc ++ c)) (a.length + i * w) (a.length + i * w + w) = enc xs[i] := by
  have hlen : i * w ≤ (xs.flatMap enc).length := by
    rw [List.length_flatMap, List.map_congr_left (fun x _ => hw x), List.map_const',
      List.sum_replicate_nat]
    exact Nat.mul_le_mul_right w (Nat.le_of_lt hi)
  rw [slice, ← List.drop_drop, List.drop_left, List.drop_append_of_le_length hlen, drop_flatMap hw,
    List.drop_eq_getElem_cons hi, List.flatMap_cons, List.append_assoc, Nat.add_sub_cancel_left,
    List.take_left' (hw _)]

theorem map_slice_flatMap (hw : ∀ x, (enc x).length = w) {a c : List β} (xs : List α) {off : Nat}
    (ha : a.length = off) :
    (List.range xs.length).map (fun i =>
      slice (a ++ (xs.flatMap enc ++ c)) (off + i * w) (off + i * w + w)) = xs.map enc := by
  subst ha
  apply List.ext_getElem
  · rw [List.length_map, List.length_map, List.length_range]
  · intro i hi hi'
    rw [List.getElem_map, List.getElem_map, List.getElem_range, slice_flatMap hw]

theorem flatten_map_slice (bs : List α) (off w n : Nat) :
    ((List.range n).map (fun i => slice bs (off + i * w) (off + i * w + w))).flatten =
      slice bs off (off + n * w) := by
  induction n with
  | zero => simp [slice]
  | succ n ih =>
      have hend : off + n * w + w = off + (n + 1) * w := by rw [Nat.succ_mul, Nat.add_assoc]
      rw [List.range_succ, List.map_append, List.flatten_append, ih, List.map_singleton,
        List.flatten_singleton, hend, slice_append_slice (Nat.le_add_right _ _) (by omega)]

end Records

end TriNet.Lib.Slices
