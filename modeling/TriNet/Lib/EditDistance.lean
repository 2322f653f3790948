import Mathlib.Data.List.Basic
import Mathlib.Order.Bounds.Defs
import Mathlib.Order.MinMax
import Mathlib.Tactic.Common

namespace TriNet.Lib.EditDistance

variable {α : Type} [DecidableEq α]

/-- The least number of insertions, deletions and replacements between two
words, read from their last letters on. -/
def distance : List α → List α → Nat
  | [], ys => ys.length
  | x :: xs, [] => (x :: xs).length
  | x :: xs, y :: ys =>
      min (min (distance (x :: xs) ys + 1) (distance xs (y :: ys) + 1))
        (distance xs ys + if x = y then 0 else 1)

@[simp] theorem distance_nil_left (ys : List α) : distance [] ys = ys.length := by rw [distance]

@[simp] theorem distance_nil_right (xs : List α) :
    distance xs [] = xs.length := by cases xs <;> rw [distance]

theorem distance_comm (xs ys : List α) : distance xs ys = distance ys xs := by
  induction xs generalizing ys with
  | nil => simp
  | cons x xs ihx =>
      induction ys with
      | nil => simp
      | cons y ys ihy =>
          have hletters : (if x = y then 0 else 1) = if y = x then 0 else 1 := by simp only [eq_comm]
          rw [distance, distance, ihy, ihx ys, ihx (y :: ys), hletters,
            Nat.min_comm (distance (y :: ys) xs + 1)]

theorem distance_map {β : Type} [DecidableEq β] {f : α → β} {xs ys : List α}
    (hf : ∀ x ∈ xs, ∀ y ∈ ys, f x = f y → x = y) : distance (xs.map f) (ys.map f) = distance xs ys := by
  induction xs, ys using distance.induct with
  | case1 ys => simp
  | case2 x xs => simp
  | case3 x xs y ys ihright ihleft ihboth =>
      have hletter : f x = f y ↔ x = y := ⟨hf x (by simp) y (by simp), congrArg f⟩
      simp only [List.map_cons] at ihright ihleft ⊢
      rw [distance, distance, ihright (fun a ha b hb => hf a ha b (List.mem_cons_of_mem _ hb)),
        ihleft (fun a ha b hb => hf a (List.mem_cons_of_mem _ ha) b hb),
        ihboth (fun a ha b hb => hf a (List.mem_cons_of_mem _ ha) b (List.mem_cons_of_mem _ hb))]
      simp only [hletter]

section Rows

/-- The distances of a word to the words that `zs` makes out of `ys`, one
letter more each time. -/
def row (xs : List α) : List α → List α → List Nat
  | ys, [] => [distance xs ys]
  | ys, z :: zs => distance xs ys :: row xs (z :: ys) zs

theorem row_eq_cons (xs ys zs : List α) : row xs ys zs = distance xs ys :: (row xs ys zs).tail := by
  cases zs <;> rfl

theorem row_nil (ys zs : List α) : row [] ys zs = List.range' ys.length (zs.length + 1) := by
  induction zs generalizing ys with
  | nil => simp [row]
  | cons z zs ih => simp [row, ih, List.range'_succ]

theorem row_concat (xs ys zs : List α) (z : α) :
    row xs ys (zs ++ [z]) = row xs ys zs ++ [distance xs (z :: (zs.reverse ++ ys))] := by
  induction zs generalizing ys with
  | nil => rfl
  | cons y zs ih => rw [List.cons_append, row, ih, row, List.cons_append, List.reverse_cons,
      List.append_assoc]; rfl

theorem getD_row_append (xs ys zs rest : List α) :
    (row xs ys (zs ++ rest)).getD zs.length 0 = distance xs (zs.reverse ++ ys) := by
  induction zs generalizing ys with
  | nil =>
      rw [List.nil_append, row_eq_cons]
      rfl
  | cons z zs ih =>
      rw [List.cons_append, row, List.length_cons, List.getD_cons_succ, ih,
        List.reverse_cons, List.append_assoc]
      rfl

theorem row_getD (xs ys zs : List α) :
    (row xs ys zs).getD zs.length 0 = distance xs (zs.reverse ++ ys) := by
  have h := getD_row_append xs ys zs []
  rwa [List.append_nil] at h

variable {right : List α} {next : List Nat → α × Nat → List Nat}

theorem foldl_rows (hnext : ∀ a xs, next (row xs [] right) (a, xs.length) = row (a :: xs) [] right)
    (left xs : List α) :
    (left.zipIdx xs.length).foldl next (row xs [] right) = row (left.reverse ++ xs) [] right := by
  induction left generalizing xs with
  | nil => rfl
  | cons a left ih =>
      have hrest := ih (a :: xs)
      rw [List.zipIdx_cons, List.foldl_cons, hnext, List.reverse_cons, List.append_assoc]
      exact hrest

/-- A program that goes row by row over the starts of both words computes their
distance, however it makes a row of the one above. -/
theorem distance_of_rows (hnext : ∀ a xs, next (row xs [] right) (a, xs.length) = row (a :: xs) [] right)
    (left : List α) :
    (if left.isEmpty then right.length
      else if right.isEmpty then left.length
      else (left.zipIdx.foldl next (List.range (right.length + 1))).getD right.length 0) =
      distance left.reverse right.reverse := by
  split
  · next h => simp [List.isEmpty_iff.mp h]
  · split
    · next h => simp [List.isEmpty_iff.mp h]
    · have hstart : List.range (right.length + 1) = row [] [] right := by
        rw [row_nil, List.range_eq_range', List.length_nil]
      have hrows := foldl_rows hnext left []
      rw [List.length_nil, List.append_nil] at hrows
      rw [hstart, hrows, row_getD, List.append_nil]

end Rows

section Scripts

omit [DecidableEq α]

/-- One letter inserted, deleted or replaced, at any place. -/
inductive Edit : List α → List α → Prop
  | insertion (front back : List α) (a : α) : Edit (front ++ back) (front ++ a :: back)
  | deletion (front back : List α) (a : α) : Edit (front ++ a :: back) (front ++ back)
  | substitution (front back : List α) (a b : α) : Edit (front ++ a :: back) (front ++ b :: back)

/-- `n` edits, one after the other, make one word of the other. -/
inductive Edits : Nat → List α → List α → Prop
  | refl (xs : List α) : Edits 0 xs xs
  | step {n : Nat} {xs ys zs : List α} (hfirst : Edit xs ys) (hrest : Edits n ys zs) : Edits (n + 1) xs zs

variable {n : Nat} {xs ys : List α}

theorem Edit.cons (h : Edit xs ys) (c : α) : Edit (c :: xs) (c :: ys) := by
  cases h with
  | insertion front back a => exact .insertion (c :: front) back a
  | deletion front back a => exact .deletion (c :: front) back a
  | substitution front back a b => exact .substitution (c :: front) back a b

theorem Edits.cons (h : Edits n xs ys) (c : α) : Edits n (c :: xs) (c :: ys) := by
  induction h with
  | refl xs => exact .refl (c :: xs)
  | step hfirst _ ih => exact .step (hfirst.cons c) ih

theorem Edit.reverse (h : Edit xs ys) : Edit xs.reverse ys.reverse := by
  cases h with
  | insertion front back a =>
      simpa using Edit.insertion back.reverse front.reverse a
  | deletion front back a =>
      simpa using Edit.deletion back.reverse front.reverse a
  | substitution front back a b =>
      simpa using Edit.substitution back.reverse front.reverse a b

theorem Edits.reverse (h : Edits n xs ys) : Edits n xs.reverse ys.reverse := by
  induction h with
  | refl xs => exact .refl xs.reverse
  | step hfirst _ ih => exact .step hfirst.reverse ih

theorem edits_insert_all (ys : List α) : Edits ys.length [] ys := by
  induction ys with
  | nil => exact .refl []
  | cons y ys ih => exact .step (.insertion [] [] y) (ih.cons y)

theorem edits_delete_all (xs : List α) : Edits xs.length xs [] := by
  induction xs with
  | nil => exact .refl []
  | cons x xs ih => exact .step (.deletion [] xs x) ih

end Scripts

section Optimal

variable {n : Nat} {us vs xs ys : List α}

theorem edits_distance (xs ys : List α) : Edits (distance xs ys) xs ys := by
  induction xs, ys using distance.induct with
  | case1 ys =>
      rw [distance_nil_left]
      exact edits_insert_all ys
  | case2 x xs =>
      rw [distance_nil_right]
      exact edits_delete_all (x :: xs)
  | case3 x xs y ys ihright ihleft ihboth =>
      have hinsert : Edits (distance (x :: xs) ys + 1) (x :: xs) (y :: ys) :=
        .step (.insertion [] (x :: xs) y) (ihright.cons y)
      have hdelete : Edits (distance xs (y :: ys) + 1) (x :: xs) (y :: ys) :=
        .step (.deletion [] xs x) ihleft
      have hletter : Edits (distance xs ys + if x = y then 0 else 1) (x :: xs) (y :: ys) := by
        split
        · next heq =>
            subst heq
            exact ihboth.cons x
        · exact .step (.substitution [] xs x y) (ihboth.cons y)
      rw [distance]
      have hboth := min_rec' (Edits · (x :: xs) (y :: ys)) hinsert hdelete
      exact min_rec' (Edits · (x :: xs) (y :: ys)) hboth hletter

theorem distance_cons_right_le (xs ys : List α) (y : α) : distance xs (y :: ys) ≤ distance xs ys + 1 := by
  cases xs with
  | nil => simp
  | cons x xs =>
      rw [distance]
      omega

theorem distance_cons_left_le (x : α) (xs ys : List α) : distance (x :: xs) ys ≤ distance xs ys + 1 := by
  rw [distance_comm, distance_comm xs]
  exact distance_cons_right_le ys xs x

/-- From no word is the first farther than the second by more than one. -/
def Near (us vs : List α) : Prop := ∀ ys, distance us ys ≤ distance vs ys + 1

theorem near_deletion (a : α) (xs : List α) : Near (a :: xs) xs := fun ys => distance_cons_left_le a xs ys

theorem near_insertion (a : α) (xs : List α) : Near xs (a :: xs) := by
  intro ys
  induction ys with
  | nil =>
      simp only [distance_nil_right, List.length_cons]
      omega
  | cons y ys ih =>
      have hright := distance_cons_right_le xs ys y
      rw [distance]
      omega

theorem near_substitution (a b : α) (xs : List α) : Near (a :: xs) (b :: xs) := by
  intro ys
  induction ys with
  | nil => simp
  | cons y ys ih =>
      rw [distance, distance]
      split <;> split <;> omega

theorem Near.cons (h : Near us vs) (c : α) : Near (c :: us) (c :: vs) := by
  intro ys
  induction ys with
  | nil =>
      have hlength := h []
      simp only [distance_nil_right, List.length_cons] at hlength ⊢
      omega
  | cons y ys ih =>
      have hwhole := h (y :: ys)
      have hrest := h ys
      rw [distance, distance]
      omega

theorem Near.append (h : Near us vs) (front : List α) : Near (front ++ us) (front ++ vs) := by
  induction front with
  | nil => exact h
  | cons c front ih => exact ih.cons c

theorem Edit.near (h : Edit us vs) : Near us vs := by
  cases h with
  | insertion front back a => exact (near_insertion a back).append front
  | deletion front back a => exact (near_deletion a back).append front
  | substitution front back a b => exact (near_substitution a b back).append front

theorem distance_self (xs : List α) : distance xs xs = 0 := by
  induction xs with
  | nil => rw [distance_nil_left, List.length_nil]
  | cons x xs ih =>
      rw [distance, ih]
      simp

theorem distance_le_of_edits (h : Edits n xs ys) : distance xs ys ≤ n := by
  induction h with
  | refl xs => exact Nat.le_of_eq (distance_self xs)
  | step hfirst _ ih => exact Nat.le_trans (hfirst.near _) (Nat.succ_le_succ ih)

/-- Read from either end, the distance is the length of a shortest script. -/
theorem isLeast_distance_reverse (xs ys : List α) :
    IsLeast {n | Edits n xs ys} (distance xs.reverse ys.reverse) := by
  constructor
  · have h := (edits_distance xs.reverse ys.reverse).reverse
    rwa [List.reverse_reverse, List.reverse_reverse] at h
  · exact fun n hn => distance_le_of_edits (Edits.reverse hn)

end Optimal

section Shared

/-- The number of letters that two words have in common at their start. -/
def sharedLength (xs ys : List α) : Nat := ((xs.zip ys).takeWhile (fun p => p.1 == p.2)).length

theorem sharedLength_map {β : Type} [DecidableEq β] {f : α → β} {xs ys : List α}
    (hf : ∀ x ∈ xs, ∀ y ∈ ys, f x = f y → x = y) :
    sharedLength (xs.map f) (ys.map f) = sharedLength xs ys := by
  induction xs generalizing ys with
  | nil => simp [sharedLength]
  | cons x xs ih =>
      cases ys with
      | nil => simp [sharedLength]
      | cons y ys =>
          have hletter : f x = f y ↔ x = y := ⟨hf x (by simp) y (by simp), congrArg f⟩
          have hrest :=
            ih (fun a ha b hb => hf a (List.mem_cons_of_mem _ ha) b (List.mem_cons_of_mem _ hb))
          simp only [sharedLength, List.map_cons, List.zip_cons_cons, List.takeWhile_cons,
            beq_iff_eq, hletter] at hrest ⊢
          split
          · rw [List.length_cons, List.length_cons, hrest]
          · rfl

end Shared

end TriNet.Lib.EditDistance
