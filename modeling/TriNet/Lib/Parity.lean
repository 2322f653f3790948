import TriNet.Lib.BigEndian

namespace TriNet.Lib.Parity

open BigEndian

variable {ι : Type}

/-- Xor a cell into an accumulator, byte by byte, as far as the cell goes. -/
def xorInto : Bytes → Bytes → Bytes
  | [], _ => []
  | acc, [] => acc
  | a :: acc, c :: cell => (a ^^^ c) :: xorInto acc cell

/-- One parity cell over a group of cells, the shorter ones padded with zeros. -/
def parity (size : Nat) (cells : List Bytes) : Bytes := cells.foldl xorInto (List.replicate size 0)

/-- A payload is cut into cells of one size; the last may be shorter. -/
def cell (size : Nat) (d : Bytes) (i : Nat) : Bytes := (d.drop (i * size)).take size

@[simp] theorem length_cell (size : Nat) (d : Bytes) (i : Nat) :
    (cell size d i).length = min size (d.length - i * size) := by
  simp [cell]

theorem getD_cell {size b : Nat} (hb : b < size) (d : Bytes) (i : Nat) :
    (cell size d i).getD b 0 = d.getD (i * size + b) 0 := by
  simp [cell, List.getD_eq_getElem?_getD, hb]

theorem flatten_cells (size : Nat) (d : Bytes) (n : Nat) :
    ((List.range n).map (cell size d)).flatten = d.take (n * size) := by
  induction n with
  | zero => simp
  | succ n ih =>
      rw [List.range_succ, List.map_append, List.flatten_append, ih, Nat.succ_mul, List.take_add]
      simp [cell]

def column (k : Nat) : List Bytes → UInt8
  | [] => 0
  | c :: cells => c.getD k 0 ^^^ column k cells

@[simp] theorem length_xorInto (acc cell : Bytes) : (xorInto acc cell).length = acc.length := by
  induction acc generalizing cell with
  | nil => simp [xorInto]
  | cons a acc ih => cases cell <;> simp [xorInto, ih]

theorem getD_xorInto {acc : Bytes} {k : Nat} (hk : k < acc.length) (cell : Bytes) :
    (xorInto acc cell).getD k 0 = acc.getD k 0 ^^^ cell.getD k 0 := by
  induction acc generalizing cell k with
  | nil => exact absurd hk (Nat.not_lt_zero k)
  | cons a acc ih =>
      cases cell with
      | nil => simp [xorInto]
      | cons c cell =>
          cases k with
          | zero => simp [xorInto]
          | succ k => simpa [xorInto] using ih (Nat.lt_of_succ_lt_succ hk) cell

@[simp] theorem length_foldl_xorInto (cells : List Bytes) (acc : Bytes) :
    (cells.foldl xorInto acc).length = acc.length := by
  induction cells generalizing acc with
  | nil => rfl
  | cons c cells ih => rw [List.foldl_cons, ih, length_xorInto]

theorem getD_foldl_xorInto (cells : List Bytes) {acc : Bytes} {k : Nat} (hk : k < acc.length) :
    (cells.foldl xorInto acc).getD k 0 = acc.getD k 0 ^^^ column k cells := by
  induction cells generalizing acc with
  | nil => simp [column]
  | cons c cells ih =>
      rw [List.foldl_cons, ih (by rwa [length_xorInto]), getD_xorInto hk, column, UInt8.xor_assoc]

@[simp] theorem length_parity (size : Nat) (cells : List Bytes) : (parity size cells).length = size := by
  simp [parity]

theorem getD_parity {size k : Nat} (hk : k < size) (cells : List Bytes) :
    (parity size cells).getD k 0 = column k cells := by
  rw [parity, getD_foldl_xorInto cells (by simpa using hk)]
  simp [hk]

theorem column_congr {k : Nat} {l : List ι} {f g : ι → Bytes}
    (h : ∀ i ∈ l, (f i).getD k 0 = (g i).getD k 0) : column k (l.map f) = column k (l.map g) := by
  induction l with
  | nil => rfl
  | cons i l ih =>
      simp only [List.map_cons, column]
      rw [h i (List.mem_cons_self ..), ih (fun j hj => h j (List.mem_cons_of_mem i hj))]

variable [DecidableEq ι]

theorem column_split (k : Nat) {l : List ι} (hl : l.Nodup) {lost : ι} (hlost : lost ∈ l) (f : ι → Bytes) :
    column k (l.map f) = (f lost).getD k 0 ^^^ column k ((l.filter (· ≠ lost)).map f) := by
  induction l with
  | nil => exact absurd hlost (List.not_mem_nil)
  | cons i l ih =>
      obtain ⟨hi, hl⟩ := List.nodup_cons.mp hl
      by_cases h : i = lost
      · subst h
        have hkeep : l.filter (· ≠ i) = l := by
          rw [List.filter_eq_self]
          intro j hj
          exact decide_eq_true (fun he => hi (he ▸ hj))
        simp only [List.map_cons, column, List.filter_cons, ne_eq, not_true_eq_false, decide_false]
        exact congrArg _ (congrArg (fun m => column k (m.map f)) hkeep.symm)
      · have hmem : lost ∈ l := (List.mem_cons.mp hlost).resolve_left (fun he => h he.symm)
        have hrest : (i :: l).filter (· ≠ lost) = i :: l.filter (· ≠ lost) := by simp [h]
        rw [hrest]
        simp only [List.map_cons, column]
        rw [ih hl hmem]
        ac_rfl

/-- Xor the cells that are present into the parity of a group, and what is left
is the one that is missing. -/
theorem getD_recover {size k : Nat} (hk : k < size) {l : List ι} (hl : l.Nodup) {lost : ι}
    (hlost : lost ∈ l) {f g : ι → Bytes} (h : ∀ i ∈ l, i ≠ lost → (g i).getD k 0 = (f i).getD k 0) :
    (((l.filter (· ≠ lost)).map g).foldl xorInto (parity size (l.map f))).getD k 0 =
      (f lost).getD k 0 := by
  have hpresent : column k ((l.filter (· ≠ lost)).map g) = column k ((l.filter (· ≠ lost)).map f) := by
    apply column_congr
    intro i hi
    obtain ⟨hi, hne⟩ := List.mem_filter.mp hi
    exact h i hi (of_decide_eq_true hne)
  rw [getD_foldl_xorInto _ (by simpa using hk), getD_parity hk, hpresent, column_split k hl hlost f,
    UInt8.xor_assoc, UInt8.xor_self, UInt8.xor_zero]

theorem take_recover {size : Nat} {l : List ι} (hl : l.Nodup) {lost : ι} (hlost : lost ∈ l)
    {f g : ι → Bytes} (hsize : (f lost).length ≤ size) (h : ∀ i ∈ l, i ≠ lost → g i = f i) :
    (((l.filter (· ≠ lost)).map g).foldl xorInto (parity size (l.map f))).take (f lost).length =
      f lost := by
  have hlen : (((l.filter (· ≠ lost)).map g).foldl xorInto (parity size (l.map f))).length = size := by
    rw [length_foldl_xorInto, length_parity]
  apply List.ext_getElem
  · rw [List.length_take, hlen, min_eq_left hsize]
  · intro k _ hk
    have hget := getD_recover (hk.trans_le hsize) hl hlost (f := f) (g := g)
      (fun i hi hne => by rw [h i hi hne])
    rw [List.getD_eq_getElem?_getD, List.getElem?_eq_getElem (hlen.symm ▸ hk.trans_le hsize),
      Option.getD_some,
      List.getD_eq_getElem?_getD, List.getElem?_eq_getElem hk, Option.getD_some] at hget
    rw [List.getElem_take, hget]

end TriNet.Lib.Parity
