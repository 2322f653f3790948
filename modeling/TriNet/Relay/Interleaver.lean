import TriNet.Lib.Checked
import Mathlib.Algebra.Order.Ring.Nat
import Mathlib.Data.Finset.Card
import Mathlib.Data.Int.ModEq
import Mathlib.Tactic.IntervalCases

namespace TriNet.Relay

open Lib

def depthCap : Nat := 64

/-- The element `x` of a grid with rows of `n` is read by columns of `m`. -/
def gridSwap (n m x : Nat) : Option Nat := do
  Checked.add 32 (← Checked.mul 32 (← Checked.rem x n) m) (← Checked.div x n)

def ilvTxPos (o depth width : Nat) : Option Nat := gridSwap width depth o

def ilvOrig (t depth width : Nat) : Option Nat := gridSwap depth width t

def ilvCodeword (o width : Nat) : Option Nat := Checked.div o width

def chooseDepth (maxBurst : Nat) : Nat :=
  if maxBurst = 0 then 1
  else if depthCap ≤ maxBurst then depthCap
  else maxBurst

def depthSurvives (depth burst : Nat) : Bool := burst ≤ depth

def fecParity4 (a b c d : UInt32) : UInt32 := ((a ^^^ b) ^^^ c) ^^^ d

def fecXor (a b : UInt32) : UInt32 := a ^^^ b

def fecRecover (parity survivorsXor : UInt32) : UInt32 := parity ^^^ survivorsXor

/-- A group of four words; its parity goes with it as a fifth symbol. -/
structure Codeword where
  a : UInt32
  b : UInt32
  c : UInt32
  d : UInt32
  deriving DecidableEq

namespace Codeword

def symbol (w : Codeword) : Nat → UInt32
  | 0 => w.a
  | 1 => w.b
  | 2 => w.c
  | 3 => w.d
  | _ => fecParity4 w.a w.b w.c w.d

end Codeword

abbrev Arrived := Nat → Option UInt32

namespace Arrived

def missing (a : Arrived) : List Nat := (List.range 5).filter (fun column => (a column).isNone)

def survivorsXor (a : Arrived) (lost : Nat) : UInt32 :=
  (List.range 4).foldl (fun acc column => if column ≠ lost then fecXor acc ((a column).getD 0) else acc) 0

def word (a : Arrived) (column : Nat) : UInt32 :=
  (a column).getD (fecRecover ((a 4).getD 0) (a.survivorsXor column))

/-- A lost word is recovered from the parity; two lost symbols are too many. -/
def recover (a : Arrived) : Option Codeword :=
  if a.missing.length ≤ 1 then some ⟨a.word 0, a.word 1, a.word 2, a.word 3⟩ else none

end Arrived

/-- A block of codewords goes out in the order of the transmit positions. -/
def sent (depth : Nat) (block : Nat → Codeword) (t : Nat) : Option UInt32 := do
  let o ← ilvOrig t depth 5
  let row ← ilvCodeword o 5
  return (block row).symbol (o % 5)

/-- The channel loses `burst` consecutive symbols. -/
def faded (start burst : Nat) (signal : Nat → Option UInt32) (t : Nat) : Option UInt32 :=
  if start ≤ t ∧ t < start + burst then none else signal t

def arrived (depth : Nat) (received : Nat → Option UInt32) (row column : Nat) : Option UInt32 := do
  received (← ilvTxPos (row * 5 + column) depth 5)

def recoverRow (depth : Nat) (received : Nat → Option UInt32) (row : Nat) : Option Codeword :=
  Arrived.recover (arrived depth received row)

section Positions

def transposed (n m x : Nat) : Nat := x % n * m + x / n

variable {n m x depth width o t : Nat}

theorem transposed_lt (hx : x < n * m) : transposed n m x < n * m := by
  have hn : 0 < n := Nat.pos_of_mul_pos_right (Nat.zero_lt_of_lt hx)
  have hcol : x % n + 1 ≤ n := Nat.mod_lt x hn
  have hrow : x / n < m := Nat.div_lt_of_lt_mul hx
  calc transposed n m x < x % n * m + m := Nat.add_lt_add_left hrow _
    _ = (x % n + 1) * m := (Nat.succ_mul _ _).symm
    _ ≤ n * m := Nat.mul_le_mul_right m hcol

theorem transposed_mod (hx : x < n * m) : transposed n m x % m = x / n := by
  rw [transposed, Nat.mul_add_mod_of_lt (Nat.div_lt_of_lt_mul hx)]

theorem transposed_div (hx : x < n * m) : transposed n m x / m = x % n := by
  have hrow : x / n < m := Nat.div_lt_of_lt_mul hx
  rw [transposed, Nat.mul_comm, Nat.mul_add_div (Nat.zero_lt_of_lt hrow),
    Nat.div_eq_of_lt hrow, Nat.add_zero]

theorem transposed_transposed (hx : x < n * m) : transposed m n (transposed n m x) = x := by
  rw [transposed, transposed_mod hx, transposed_div hx, Nat.mul_comm, Nat.div_add_mod]

theorem gridSwap_eq (hfit : n * m < 2 ^ 32) (hx : x < n * m) :
    gridSwap n m x = some (transposed n m x) := by
  have hn : 0 < n := Nat.pos_of_mul_pos_right (Nat.zero_lt_of_lt hx)
  have hlt : x % n * m + x / n < 2 ^ 32 := (transposed_lt hx).trans hfit
  rw [gridSwap, Checked.rem_of_pos hn, Checked.div_of_pos hn]
  simp only [Option.bind_eq_bind, Option.bind_some]
  rw [Checked.mul_of_lt (Nat.lt_of_le_of_lt (Nat.le_add_right _ _) hlt), Option.bind_some,
    Checked.add_of_lt hlt]
  rfl

theorem gridSwap_gridSwap (hfit : n * m < 2 ^ 32) (hx : x < n * m) :
    ∃ y < n * m, gridSwap n m x = some y ∧ gridSwap m n y = some x := by
  have hlt := transposed_lt hx
  refine ⟨transposed n m x, hlt, gridSwap_eq hfit hx, ?_⟩
  rw [Nat.mul_comm] at hfit hlt
  rw [gridSwap_eq hfit hlt, transposed_transposed hx]

theorem ilvTxPos_eq (hfit : depth * width < 2 ^ 32) (ho : o < depth * width) :
    ilvTxPos o depth width = some (transposed width depth o) := by
  rw [Nat.mul_comm] at hfit ho
  exact gridSwap_eq hfit ho

theorem ilvOrig_eq (hfit : depth * width < 2 ^ 32) (ht : t < depth * width) :
    ilvOrig t depth width = some (transposed depth width t) :=
  gridSwap_eq hfit ht

def codewordAt (t depth width : Nat) : Option Nat := do
  ilvCodeword (← ilvOrig t depth width) width

theorem codewordAt_eq (hfit : depth * width < 2 ^ 32) (ht : t < depth * width) :
    codewordAt t depth width = some (t % depth) := by
  have hw : 0 < width := Nat.pos_of_mul_pos_left (Nat.zero_lt_of_lt ht)
  rw [codewordAt, ilvOrig_eq hfit ht, Option.bind_eq_bind, Option.bind_some, ilvCodeword,
    Checked.div_of_pos hw, transposed_div ht]

theorem eq_of_mod_eq {start t t' : Nat} (ht : start ≤ t ∧ t < start + depth)
    (ht' : start ≤ t' ∧ t' < start + depth) (hmod : t % depth = t' % depth) : t = t' := by
  wlog hle : t ≤ t' generalizing t t'
  · exact (this ht' ht hmod.symm (Nat.le_of_not_le hle)).symm
  have hdvd : depth ∣ t' - t := (Nat.modEq_iff_dvd' hle).mp hmod
  have hzero := Nat.eq_zero_of_dvd_of_lt hdvd (by omega)
  omega

end Positions

section Recovery

variable {a : Arrived} {w : Codeword}

theorem length_missing_le_one (h : ∀ c c', c < 5 → c' < 5 → a c = none → a c' = none → c = c') :
    a.missing.length ≤ 1 := by
  have hnodup : a.missing.Nodup := List.nodup_range.filter _
  rw [← List.toFinset_card_of_nodup hnodup, Finset.card_le_one]
  intro c hc c' hc'
  simp only [Arrived.missing, List.mem_toFinset, List.mem_filter, List.mem_range,
    Option.isNone_iff_eq_none] at hc hc'
  exact h c c' hc.1 hc'.1 hc.2 hc'.2

theorem xor_of_eq_xor {p x y : UInt32} (h : p = x ^^^ y) : p ^^^ y = x := by
  rw [h, UInt32.xor_assoc, UInt32.xor_self, UInt32.xor_zero]

theorem fecRecover_survivors {lost : Nat} (hlost : lost < 4)
    (h : ∀ c, c < 5 → c ≠ lost → a c = some (w.symbol c)) :
    fecRecover ((a 4).getD 0) (a.survivorsXor lost) = w.symbol lost := by
  have hsymbol (c : Nat) (hlt : c < 5) (hc : c ≠ lost) : (a c).getD 0 = w.symbol c := by
    rw [h c hlt hc, Option.getD_some]
  apply xor_of_eq_xor
  interval_cases lost <;>
    simp [Arrived.survivorsXor, List.range_succ, fecXor, fecParity4, hsymbol, Codeword.symbol] <;> ac_rfl

theorem word_eq (hsome : ∀ c < 5, a c = none ∨ a c = some (w.symbol c))
    (hone : ∀ c c', c < 5 → c' < 5 → a c = none → a c' = none → c = c') {column : Nat}
    (hcolumn : column < 4) : a.word column = w.symbol column := by
  rw [Arrived.word]
  obtain hnone | hsymbol := hsome column (by omega)
  · rw [hnone, Option.getD_none]
    apply fecRecover_survivors hcolumn
    intro c hc hne
    obtain hnone' | hsymbol := hsome c hc
    · exact absurd (hone c column hc (by omega) hnone' hnone) hne
    · exact hsymbol
  · rw [hsymbol, Option.getD_some]

theorem recover_eq_some (hsome : ∀ c < 5, a c = none ∨ a c = some (w.symbol c))
    (hone : ∀ c c', c < 5 → c' < 5 → a c = none → a c' = none → c = c') : a.recover = some w := by
  rw [Arrived.recover, if_pos (length_missing_le_one hone)]
  simp [word_eq hsome hone, Codeword.symbol]

end Recovery

section Block

variable {depth row column start burst : Nat} {block : Nat → Codeword} {received : Nat → Option UInt32}

theorem index_lt (hrow : row < depth) (hcolumn : column < 5) : row * 5 + column < depth * 5 := by omega

theorem sent_txPos (hfit : depth * 5 < 2 ^ 32) (hrow : row < depth) (hcolumn : column < 5) :
    sent depth block (transposed 5 depth (row * 5 + column)) = some ((block row).symbol column) := by
  have ho : row * 5 + column < 5 * depth := by omega
  have ht : transposed 5 depth (row * 5 + column) < depth * 5 := Nat.mul_comm 5 depth ▸ transposed_lt ho
  rw [sent, ilvOrig_eq hfit ht, transposed_transposed ho]
  have hcodeword : (row * 5 + column) / 5 = row := by omega
  have hplace : (row * 5 + column) % 5 = column := by omega
  simp [ilvCodeword, Checked.div_of_pos, hcodeword, hplace]

theorem arrived_eq (hfit : depth * 5 < 2 ^ 32) (hrow : row < depth) (hcolumn : column < 5) :
    arrived depth received row column = received (transposed 5 depth (row * 5 + column)) := by
  rw [arrived, ilvTxPos_eq hfit (index_lt hrow hcolumn)]
  rfl

/-- A burst of at most `depth` symbols leaves every codeword of the block with
at most one symbol to recover. -/
theorem recoverRow_faded (hfit : depth * 5 < 2 ^ 32) (hburst : burst ≤ depth) (hrow : row < depth) :
    recoverRow depth (faded start burst (sent depth block)) row = some (block row) := by
  apply recover_eq_some
  · intro c hc
    rw [arrived_eq hfit hrow hc, faded, sent_txPos hfit hrow hc]
    split
    · exact .inl rfl
    · exact .inr rfl
  · intro c c' hc hc' hnone hnone'
    have hin {c : Nat} (hc : c < 5)
    (hnone : arrived depth (faded start burst (sent depth block)) row c = none) :
        start ≤ transposed 5 depth (row * 5 + c) ∧ transposed 5 depth (row * 5 + c) < start + depth := by
      rw [arrived_eq hfit hrow hc, faded, sent_txPos hfit hrow hc] at hnone
      split at hnone
      · omega
      · cases hnone
    have hmod {c : Nat} (hc : c < 5) : transposed 5 depth (row * 5 + c) % depth = row := by
      rw [transposed_mod (by omega)]
      omega
    have hpos := eq_of_mod_eq (hin hc hnone) (hin hc' hnone') ((hmod hc).trans (hmod hc').symm)
    have hback := congrArg (transposed depth 5) hpos
    rw [transposed_transposed (by omega), transposed_transposed (by omega)] at hback
    omega

end Block

theorem chooseDepth_eq (burst : Nat) : chooseDepth burst = min (max burst 1) depthCap := by
  rw [chooseDepth, depthCap]
  split
  · omega
  · split <;> omega

theorem depthSurvives_chooseDepth {burst : Nat} (h : burst ≤ depthCap) :
    depthSurvives (chooseDepth burst) burst = true := by
  rw [depthSurvives, chooseDepth_eq, decide_eq_true_iff]
  omega

/-- The maps between original and transmit order are inverse to each other, a
run of at most `depth` transmit positions has no two symbols of one codeword,
and a block of codewords with their parities survives the loss of such a run;
the depth chosen for a burst of up to 64 is enough for it. -/
theorem bursts_recovered (depth width : Nat) (hfit : depth * width < 2 ^ 32) :
    (∀ o < depth * width, ∃ t < depth * width, ilvTxPos o depth width = some t ∧
      ilvOrig t depth width = some o) ∧
    (∀ t < depth * width, ∃ o < depth * width, ilvOrig t depth width = some o ∧
      ilvTxPos o depth width = some t) ∧
    (∀ start t t', start ≤ t ∧ t < start + depth → start ≤ t' ∧ t' < start + depth → t < depth * width →
      t' < depth * width → codewordAt t depth width = codewordAt t' depth width → t = t') ∧
    (width = 5 → ∀ (block : Nat → Codeword) (start burst : Nat), burst ≤ depth →
      start + burst ≤ depth * width →
      ∀ row < depth, recoverRow depth (faded start burst (sent depth block)) row = some (block row)) ∧
    ∀ burst ≤ 64, 1 ≤ chooseDepth burst ∧ burst ≤ chooseDepth burst ∧
      ∀ (block : Nat → Codeword) (start : Nat), start + burst ≤ chooseDepth burst * 5 →
        ∀ row < chooseDepth burst,
        recoverRow (chooseDepth burst) (faded start burst (sent (chooseDepth burst) block)) row =
          some (block row) := by
  refine ⟨fun o ho => ?_, fun t ht => gridSwap_gridSwap hfit ht, ?_, ?_, ?_⟩
  · rw [Nat.mul_comm] at hfit ho ⊢
    exact gridSwap_gridSwap hfit ho
  · intro start t t' hrun hrun' ht ht' hcodeword
    rw [codewordAt_eq hfit ht, codewordAt_eq hfit ht'] at hcodeword
    exact eq_of_mod_eq hrun hrun' (Option.some.inj hcodeword)
  · rintro rfl block start burst hburst - row hrow
    exact recoverRow_faded hfit hburst hrow
  · intro burst hburst
    have hcap : chooseDepth burst ≤ 64 := by
      rw [chooseDepth_eq, depthCap]
      omega
    have hpos : 1 ≤ chooseDepth burst := by
      rw [chooseDepth_eq, depthCap]
      omega
    have hle : burst ≤ chooseDepth burst := of_decide_eq_true (depthSurvives_chooseDepth hburst)
    exact ⟨hpos, hle, fun block start _ row hrow => recoverRow_faded (by omega) hle hrow⟩

theorem bursts_recovered_eight :
    8 * 5 < 2 ^ 32 ∧
      ∀ row < 8, recoverRow 8 (faded 3 8 (sent 8 (fun row => ⟨UInt32.ofNat row, 1, 2, 3⟩))) row =
        some ⟨UInt32.ofNat row, 1, 2, 3⟩ :=
  ⟨by decide, (bursts_recovered 8 5 (by decide)).2.2.2.1 rfl _ 3 8 (by decide) (by decide)⟩

end TriNet.Relay
