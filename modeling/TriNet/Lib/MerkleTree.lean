import Mathlib.Algebra.Order.Ring.Nat

namespace TriNet.Lib.MerkleTree

variable {α : Type} (hash : α → α → α)

/-- The node at height `h` and place `i` of the perfect tree over `leaves`. -/
def node (leaves : Nat → α) : Nat → Nat → α
  | 0, i => leaves i
  | h + 1, i => hash (node leaves h (2 * i)) (node leaves h (2 * i + 1))

/-- The two nodes under the parent at height `h + 1` and place `i`. -/
def under (leaves : Nat → α) (h i : Nat) : α × α :=
  (node hash leaves h (2 * i), node hash leaves h (2 * i + 1))

def siblingPlace (i : Nat) : Nat := if i % 2 = 1 then i - 1 else i + 1

/-- What is hashed when `x` at place `i` meets the sibling `s`. -/
def arranged (x s : α) (i : Nat) : α × α := if i % 2 = 1 then (s, x) else (x, s)

def climb (x : α) (i : Nat) : List α → α
  | [] => x
  | s :: ss => climb (hash (arranged x s i).1 (arranged x s i).2) (i / 2) ss

def climbPairs (x : α) (i : Nat) : List α → List (α × α)
  | [] => []
  | s :: ss => arranged x s i :: climbPairs (hash (arranged x s i).1 (arranged x s i).2) (i / 2) ss

/-- The siblings of the way from height `h` and place `i` up `n` levels. -/
def siblings (leaves : Nat → α) (h i : Nat) : Nat → List α
  | 0 => []
  | n + 1 => node hash leaves h (siblingPlace i) :: siblings leaves (h + 1) (i / 2) n

variable {hash} {leaves : Nat → α} {h i : Nat} {x s : α}

theorem hash_under (hash : α → α → α) (leaves : Nat → α) (h i : Nat) :
    hash (under hash leaves h i).1 (under hash leaves h i).2 = node hash leaves (h + 1) i := rfl

theorem half_div (i n : Nat) : i / 2 / 2 ^ n = i / 2 ^ (n + 1) := by
  rw [Nat.div_div_eq_div_mul, ← pow_succ']

theorem arranged_node :
    arranged (node hash leaves h i) (node hash leaves h (siblingPlace i)) i =
      under hash leaves h (i / 2) := by
  rw [arranged, siblingPlace, under]
  split
  · have hl : 2 * (i / 2) = i - 1 := by omega
    have hr : 2 * (i / 2) + 1 = i := by omega
    rw [hr, hl]
  · have hl : 2 * (i / 2) = i := by omega
    rw [hl]

theorem arranged_ne_under (hne : x ≠ node hash leaves h i) :
    arranged x s i ≠ under hash leaves h (i / 2) := by
  intro heq
  apply hne
  rw [arranged, under] at heq
  split at heq
  · have hr : 2 * (i / 2) + 1 = i := by omega
    rw [hr] at heq
    exact (Prod.mk.inj heq).2
  · have hl : 2 * (i / 2) = i := by omega
    rw [hl] at heq
    exact (Prod.mk.inj heq).1

@[simp] theorem length_siblings (n : Nat) : (siblings hash leaves h i n).length = n := by
  induction n generalizing h i with
  | zero => rfl
  | succ n ih => rw [siblings, List.length_cons, ih]

theorem climb_siblings (n : Nat) :
    climb hash (node hash leaves h i) i (siblings hash leaves h i n) =
      node hash leaves (h + n) (i / 2 ^ n) := by
  induction n generalizing h i with
  | zero => simp [siblings, climb]
  | succ n ih =>
      rw [siblings, climb, arranged_node, hash_under hash, ih, half_div]
      congr 1
      omega

/-- A climb that reaches a node of the tree from something else than the leaf
it starts at meets two pairs with one hash: of the first level at which it is
back on the tree, the pair of the climb and the pair of the tree. -/
theorem exists_collision (ss : List α) (hne : x ≠ node hash leaves h i)
    (htop : climb hash x i ss = node hash leaves (h + ss.length) (i / 2 ^ ss.length)) :
    ∃ q ∈ climbPairs hash x i ss, ∃ k < ss.length, q ≠ under hash leaves (h + k) (i / 2 ^ (k + 1)) ∧
      hash q.1 q.2 = node hash leaves (h + k + 1) (i / 2 ^ (k + 1)) := by
  induction ss generalizing h i x with
  | nil => exact absurd (by simpa [climb] using htop) hne
  | cons s ss ih =>
      rw [climbPairs]
      by_cases hback : hash (arranged x s i).1 (arranged x s i).2 = node hash leaves (h + 1) (i / 2)
      · refine ⟨_, List.mem_cons_self, 0, by simp, ?_, ?_⟩
        · simpa using arranged_ne_under hne
        · simpa using hback
      · have hheight (n : Nat) : h + (n + 1) = h + 1 + n := by omega
        rw [climb, List.length_cons, ← half_div, hheight] at htop
        obtain ⟨q, hq, k, hk, hpair, hhash⟩ := ih hback htop
        rw [half_div, ← hheight] at hpair hhash
        exact ⟨q, List.mem_cons_of_mem _ hq, k + 1, Nat.succ_lt_succ hk, hpair, hhash⟩

/-- Where a hash takes every value on the right of any left node, a climb from
anything reaches the top, unless all its steps are from the right. -/
theorem exists_climb (leaves : Nat → α) (x : α) (hsurj : ∀ l, Function.Surjective (hash l))
    {n : Nat} (hleft : (i + 1) % 2 ^ n ≠ 0) :
    ∃ ss : List α, ss.length = n ∧ climb hash x i ss = node hash leaves (h + n) (i / 2 ^ n) := by
  induction n generalizing h i x with
  | zero => exact absurd (by simp [Nat.mod_one]) hleft
  | succ n ih =>
      have hheight : h + (n + 1) = h + 1 + n := by omega
      rw [← half_div, hheight]
      by_cases hodd : i % 2 = 1
      · have hup : (i / 2 + 1) % 2 ^ n ≠ 0 := by
          intro hzero
          apply hleft
          have hi : i + 1 = 2 * (i / 2 + 1) := by omega
          rw [hi, pow_succ', Nat.mul_mod_mul_left, hzero]
        obtain ⟨ss, hlen, htop⟩ := ih (h := h + 1) (x := hash x x) hup
        exact ⟨x :: ss, by simp [hlen], by simpa [climb, arranged] using htop⟩
      · obtain ⟨s, hs⟩ := hsurj x (node hash leaves (h + 1) (i / 2))
        refine ⟨s :: siblings hash leaves (h + 1) (i / 2) n, by simp [length_siblings], ?_⟩
        rw [climb, arranged, if_neg hodd, hs, climb_siblings]

section Changes

/-! What becomes of the nodes above a leaf when that leaf alone is replaced. -/

open Function (update)

variable {p n : Nat}

theorem node_congr {leaves leaves' : Nat → α} (heq : ∀ i, i / 2 ^ h = p → leaves i = leaves' i) :
    node hash leaves h p = node hash leaves' h p := by
  induction h generalizing p with
  | zero => exact heq p (by simp)
  | succ h ih =>
      have hbelow (q : Nat) (hq : q / 2 = p) : node hash leaves h q = node hash leaves' h q := by
        apply ih
        intro i hi
        apply heq
        rw [pow_succ, ← Nat.div_div_eq_div_mul, hi, hq]
      rw [node, node, hbelow (2 * p) (by omega), hbelow (2 * p + 1) (by omega)]

theorem node_update_of_ne (hne : i / 2 ^ h ≠ p) :
    node hash (update leaves i x) h p = node hash leaves h p := by
  apply node_congr
  intro j hj
  rw [Function.update_of_ne]
  rintro rfl
  exact hne hj

theorem node_succ_of_even (heven : i / 2 ^ h % 2 = 0) :
    node hash leaves (h + 1) (i / 2 ^ (h + 1)) =
      hash (node hash leaves h (i / 2 ^ h)) (node hash leaves h (i / 2 ^ h + 1)) := by
  have hplace : 2 * (i / 2 ^ (h + 1)) = i / 2 ^ h := by
    rw [pow_succ, ← Nat.div_div_eq_div_mul]
    omega
  rw [node, hplace]

theorem pos_of_odd (hodd : p % 2 = 1) : 0 < p := by omega

theorem node_succ_of_odd (hodd : i / 2 ^ h % 2 = 1) :
    node hash leaves (h + 1) (i / 2 ^ (h + 1)) =
      hash (node hash leaves h (i / 2 ^ h - 1)) (node hash leaves h (i / 2 ^ h)) := by
  have hplace : 2 * (i / 2 ^ (h + 1)) = i / 2 ^ h - 1 := by
    rw [pow_succ, ← Nat.div_div_eq_div_mul]
    omega
  rw [node, hplace, Nat.sub_add_cancel (pos_of_odd hodd)]

theorem node_update_succ_of_even (heven : i / 2 ^ h % 2 = 0) :
    node hash (update leaves i x) (h + 1) (i / 2 ^ (h + 1)) =
      hash (node hash (update leaves i x) h (i / 2 ^ h)) (node hash leaves h (i / 2 ^ h + 1)) := by
  rw [node_succ_of_even heven, node_update_of_ne (p := i / 2 ^ h + 1) (by omega)]

theorem node_update_succ_of_odd (hodd : i / 2 ^ h % 2 = 1) :
    node hash (update leaves i x) (h + 1) (i / 2 ^ (h + 1)) =
      hash (node hash leaves h (i / 2 ^ h - 1)) (node hash (update leaves i x) h (i / 2 ^ h)) := by
  rw [node_succ_of_odd hodd, node_update_of_ne (Nat.ne_of_gt (Nat.sub_lt (pos_of_odd hodd) Nat.one_pos))]

theorem node_update_succ
    (heq : node hash (update leaves i x) h (i / 2 ^ h) = node hash leaves h (i / 2 ^ h)) :
    node hash (update leaves i x) (h + 1) (i / 2 ^ (h + 1)) =
      node hash leaves (h + 1) (i / 2 ^ (h + 1)) := by
  rcases Nat.mod_two_eq_zero_or_one (i / 2 ^ h) with heven | hodd
  · rw [node_update_succ_of_even heven, heq, node_succ_of_even heven]
  · rw [node_update_succ_of_odd hodd, heq, node_succ_of_odd hodd]

/-- The node above leaf `i` at height `h` stands on the left, and its change to
that of other leaves does not show in the hash with its sibling. -/
def Absorbed (hash : α → α → α) (leaves leaves' : Nat → α) (i h : Nat) : Prop :=
  i / 2 ^ h % 2 = 0 ∧ node hash leaves' h (i / 2 ^ h) ≠ node hash leaves h (i / 2 ^ h) ∧
    hash (node hash leaves' h (i / 2 ^ h)) (node hash leaves h (i / 2 ^ h + 1)) =
      hash (node hash leaves h (i / 2 ^ h)) (node hash leaves h (i / 2 ^ h + 1))

/-- With a hash that tells its right arguments apart, a changed leaf is lost on
the left of some level or not at all. -/
theorem node_update_eq_iff (hinj : ∀ l, Function.Injective (hash l)) (hne : x ≠ leaves i) :
    node hash (update leaves i x) n (i / 2 ^ n) = node hash leaves n (i / 2 ^ n) ↔
      ∃ h < n, Absorbed hash leaves (update leaves i x) i h := by
  induction n with
  | zero => simpa [node] using hne
  | succ n ih =>
      by_cases hsame : node hash (update leaves i x) n (i / 2 ^ n) = node hash leaves n (i / 2 ^ n)
      · obtain ⟨h, hh, habsorbed⟩ := ih.mp hsame
        exact iff_of_true (node_update_succ hsame) ⟨h, Nat.lt_succ_of_lt hh, habsorbed⟩
      · -- it has come up to here, so only this level can lose it
        have hlevel : (∃ h < n + 1, Absorbed hash leaves (update leaves i x) i h) ↔
            Absorbed hash leaves (update leaves i x) i n := by
          constructor
          · rintro ⟨h, hh, habsorbed⟩
            rcases Nat.lt_succ_iff_lt_or_eq.mp hh with hlower | rfl
            · exact absurd (ih.mpr ⟨h, hlower, habsorbed⟩) hsame
            · exact habsorbed
          · exact fun habsorbed => ⟨n, Nat.lt_succ_self n, habsorbed⟩
        rw [hlevel, Absorbed]
        rcases Nat.mod_two_eq_zero_or_one (i / 2 ^ n) with heven | hodd
        · rw [node_update_succ_of_even heven, node_succ_of_even heven]
          exact ⟨fun heq => ⟨heven, hsame, heq⟩, fun habsorbed => habsorbed.2.2⟩
        · rw [node_update_succ_of_odd hodd, node_succ_of_odd hodd, (hinj _).eq_iff]
          exact iff_of_false hsame (fun habsorbed => by omega)

theorem two_pow_succ_dvd_iff (hdvd : 2 ^ n ∣ i + 1) : 2 ^ (n + 1) ∣ i + 1 ↔ i / 2 ^ n % 2 = 1 := by
  rw [pow_succ, ← Nat.dvd_div_iff_mul_dvd hdvd, Nat.succ_div_of_dvd hdvd]
  omega

theorem exists_last_leaf (n p : Nat) : ∃ j, 2 ^ n ∣ j + 1 ∧ j / 2 ^ n = p := by
  have hpos : 0 < 2 ^ n := Nat.two_pow_pos n
  obtain ⟨j, hj⟩ := Nat.exists_eq_add_one_of_ne_zero (Nat.mul_pos hpos (Nat.succ_pos p)).ne'
  have hdvd : 2 ^ n ∣ j + 1 := ⟨p + 1, hj.symm⟩
  have hdiv : (j + 1) / 2 ^ n = p + 1 := by rw [← hj, Nat.mul_div_cancel_left _ hpos]
  rw [Nat.succ_div_of_dvd hdvd] at hdiv
  exact ⟨j, hdvd, Nat.succ.inj hdiv⟩

theorem exists_node_update_eq (hsurj : ∀ l, Function.Surjective (hash l)) (leaves : Nat → α) (v : α)
    (hlast : 2 ^ n ∣ i + 1) : ∃ x, node hash (update leaves i x) n (i / 2 ^ n) = v := by
  induction n generalizing v with
  | zero => exact ⟨v, by simp [node]⟩
  | succ n ih =>
      have hdvd : 2 ^ n ∣ i + 1 := Nat.dvd_trans (pow_dvd_pow 2 (Nat.le_succ n)) hlast
      obtain ⟨w, hw⟩ := hsurj (node hash leaves n (i / 2 ^ n - 1)) v
      obtain ⟨x, hx⟩ := ih w hdvd
      exact ⟨x, by rw [node_update_succ_of_odd ((two_pow_succ_dvd_iff hdvd).mp hlast), hx, hw]⟩

theorem exists_node_update_same (hsurj : ∀ l, Function.Surjective (hash l)) {l l' s : α}
    (hne : l ≠ l') (hcollision : hash l s = hash l' s) (hlast : ¬2 ^ n ∣ i + 1) :
    ∃ (leaves : Nat → α) (x : α), x ≠ leaves i ∧
      node hash (update leaves i x) n (i / 2 ^ n) = node hash leaves n (i / 2 ^ n) := by
  induction n with
  | zero => exact absurd (Nat.one_dvd _) hlast
  | succ n ih =>
      by_cases hdvd : 2 ^ n ∣ i + 1
      · -- the node of this level takes both colliding values, and its sibling the third
        have heven : i / 2 ^ n % 2 = 0 := by
          have hodd := (two_pow_succ_dvd_iff hdvd).not.mp hlast
          omega
        obtain ⟨j, hjlast, hj⟩ := exists_last_leaf n (i / 2 ^ n + 1)
        obtain ⟨y, hy⟩ := exists_node_update_eq hsurj (fun _ => l) s hjlast
        rw [hj] at hy
        obtain ⟨x, hx⟩ := exists_node_update_eq hsurj (update (fun _ => l) j y) l hdvd
        obtain ⟨x', hx'⟩ := exists_node_update_eq hsurj (update (fun _ => l) j y) l' hdvd
        refine ⟨update (update (fun _ => l) j y) i x, x', ?_, ?_⟩
        · rw [Function.update_self]
          rintro rfl
          exact hne (hx.symm.trans hx')
        · rw [Function.update_idem, node_update_succ_of_even heven, node_update_succ_of_even heven,
            hx, hx', hy, hcollision]
      · obtain ⟨leaves, x, hx, hsame⟩ := ih hdvd
        exact ⟨leaves, x, hx, node_update_succ hsame⟩

end Changes

end TriNet.Lib.MerkleTree
