import TriNet.Lib.CappedCounter
import TriNet.Lib.Runs
import TriNet.Compute.Payout
import Mathlib.Algebra.BigOperators.Group.List.Lemmas

namespace TriNet.Compute

open Lib.CappedCounter Lib.Runs

/-- The saturating addition of the accounting code: the probe wraps, and a sum
below its first operand gives the wrap away. -/
def addOrMax (total amount : UInt32) : UInt32 :=
  let sum := total + amount
  if sum < total then 0xFFFFFFFF else sum

def outstandingAfterEscrow (outstanding reward : UInt32) : UInt32 := addOrMax outstanding reward

def pendingAfterSettle (pending reward : UInt32) : UInt32 := addOrMax pending reward

def riskAfterOpen (risk reward : UInt32) : UInt32 := addOrMax risk reward

def subOrZero (total amount : UInt32) : UInt32 := if amount ≤ total then total - amount else 0

def outstandingAfterRelease (outstanding reward : UInt32) : UInt32 := subOrZero outstanding reward

def pendingAfterRelease (pending reward : UInt32) : UInt32 := subOrZero pending reward

def riskAfterClose (risk reward : UInt32) : UInt32 := if reward ≥ risk then 0 else risk - reward

theorem toNat_addOrMax (total amount : UInt32) :
    (addOrMax total amount).toNat = min (total.toNat + amount.toNat) u32Max := by
  have ht := total.toNat_lt
  have ha := amount.toNat_lt
  have hsum : (total + amount).toNat = (total.toNat + amount.toNat) % 2 ^ 32 :=
    UInt32.toNat_add total amount
  rw [addOrMax, u32Max]
  split
  · next h =>
      rw [UInt32.lt_iff_toNat_lt, hsum] at h
      rw [show (0xFFFFFFFF : UInt32).toNat = 4294967295 from rfl]
      omega
  · next h =>
      rw [UInt32.lt_iff_toNat_lt, hsum] at h
      rw [hsum]
      omega

theorem toNat_subOrZero (total amount : UInt32) :
    (subOrZero total amount).toNat = total.toNat - amount.toNat := by
  rw [subOrZero]
  split
  · next h => exact UInt32.toNat_sub_of_le _ _ h
  · next h =>
      rw [UInt32.le_iff_toNat_le] at h
      rw [UInt32.toNat_zero]
      omega

theorem toNat_riskAfterClose (risk reward : UInt32) :
    (riskAfterClose risk reward).toNat = risk.toNat - reward.toNat := by
  rw [riskAfterClose]
  split
  · next h =>
      rw [ge_iff_le, UInt32.le_iff_toNat_le] at h
      rw [UInt32.toNat_zero]
      omega
  · next h =>
      rw [ge_iff_le, UInt32.le_iff_toNat_le] at h
      exact UInt32.toNat_sub_of_le _ _ (UInt32.le_iff_toNat_le.mpr (by omega))

inductive Counter
  | outstanding
  | pending
  | risk
  deriving DecidableEq

namespace Counter

def afterOpen : Counter → UInt32 → UInt32 → UInt32
  | outstanding => outstandingAfterEscrow
  | pending => pendingAfterSettle
  | risk => riskAfterOpen

def afterClose : Counter → UInt32 → UInt32 → UInt32
  | outstanding => outstandingAfterRelease
  | pending => pendingAfterRelease
  | risk => riskAfterClose

theorem toNat_afterOpen (c : Counter) (total amount : UInt32) :
    (c.afterOpen total amount).toNat = min (total.toNat + amount.toNat) u32Max := by
  cases c <;> exact toNat_addOrMax total amount

theorem toNat_afterClose (c : Counter) (total amount : UInt32) :
    (c.afterClose total amount).toNat = total.toNat - amount.toNat := by
  cases c with
  | outstanding => exact toNat_subOrZero total amount
  | pending => exact toNat_subOrZero total amount
  | risk => exact toNat_riskAfterClose total amount

end Counter

/-- What a node has in flight, beside the counters that track it. The code
keeps the counters only. -/
structure Exposure where
  counter : Counter → UInt32
  inFlight : Counter → List UInt32

/-- Items enter and leave in any order. An item leaves once, and only after it
entered. -/
inductive Move
  | opened (c : Counter) (amount : UInt32)
  | closed (c : Counter) (amount : UInt32)

namespace Exposure

def none : Exposure := ⟨fun _ => 0, fun _ => []⟩

def step (s : Exposure) : Move → Exposure
  | .opened c amount =>
      ⟨Function.update s.counter c (c.afterOpen (s.counter c) amount),
        Function.update s.inFlight c (amount :: s.inFlight c)⟩
  | .closed c amount =>
      if amount ∈ s.inFlight c then
        ⟨Function.update s.counter c (c.afterClose (s.counter c) amount),
          Function.update s.inFlight c ((s.inFlight c).erase amount)⟩
      else s

def atRisk (s : Exposure) (c : Counter) : Nat := ((s.inFlight c).map UInt32.toNat).sum

def NeverUnder (s : Exposure) : Prop := ∀ c, min (s.atRisk c) u32Max ≤ (s.counter c).toNat

/-- Nothing of value leaves a counter while more is in flight than it can show. -/
def ClosesUncapped (s : Exposure) : Move → Prop
  | .opened _ _ => True
  | .closed c amount => amount ∈ s.inFlight c → amount = 0 ∨ s.atRisk c ≤ u32Max

theorem atRisk_opened (s : Exposure) (c : Counter) (amount : UInt32) :
    (s.step (.opened c amount)).atRisk c = s.atRisk c + amount.toNat := by
  simp [step, atRisk, Nat.add_comm]

theorem atRisk_closed {s : Exposure} {c : Counter} {amount : UInt32} (h : amount ∈ s.inFlight c) :
    (s.step (.closed c amount)).atRisk c = s.atRisk c - amount.toNat := by
  have hsum := List.sum_map_erase UInt32.toNat h
  simp only [step, if_pos h, atRisk, Function.update_self]
  omega

theorem step_of_ne {s : Exposure} {c d : Counter} (hne : d ≠ c) (amount : UInt32) :
    (s.step (.opened c amount)).atRisk d = s.atRisk d ∧
      (s.step (.opened c amount)).counter d = s.counter d ∧
      (s.step (.closed c amount)).atRisk d = s.atRisk d ∧
      (s.step (.closed c amount)).counter d = s.counter d := by
  simp only [step, atRisk]
  split <;> simp [hne]

theorem neverUnder_opened {s : Exposure} (h : s.NeverUnder) (c : Counter) (amount : UInt32) :
    (s.step (.opened c amount)).NeverUnder := by
  intro d
  by_cases hd : d = c
  · subst hd
    rw [atRisk_opened]
    simp only [step, Function.update_self]
    rw [Counter.toNat_afterOpen]
    exact Shows.add (h d) amount.toNat
  · rw [(step_of_ne hd amount).1, (step_of_ne hd amount).2.1]
    exact h d

theorem neverUnder_closed_iff {s : Exposure} (h : s.NeverUnder) {c : Counter} {amount : UInt32}
    (hmem : amount ∈ s.inFlight c) :
    (s.step (.closed c amount)).NeverUnder ↔ amount = 0 ∨ s.atRisk c ≤ u32Max := by
  have hle : amount.toNat ≤ s.atRisk c := Nat.le.intro (List.sum_map_erase UInt32.toNat hmem)
  have hcap (w : UInt32) : w.toNat ≤ u32Max := Nat.le_of_lt_succ w.toNat_lt
  have hshows := Shows.sub_iff (h c) (hcap _) hle (hcap _)
  have hcounter : ((s.step (.closed c amount)).counter c).toNat = (s.counter c).toNat - amount.toNat := by
    simp only [step, if_pos hmem, Function.update_self]
    exact Counter.toNat_afterClose c _ _
  have hzero : amount = 0 ↔ amount.toNat = 0 := by rw [← UInt32.toNat_inj, UInt32.toNat_zero]
  rw [hzero, ← hshows]
  constructor
  · intro hall
    have hc := hall c
    rw [atRisk_closed hmem, hcounter] at hc
    exact hc
  · intro hc d
    by_cases hd : d = c
    · subst hd
      rw [atRisk_closed hmem, hcounter]
      exact hc
    · rw [(step_of_ne hd amount).2.2.1, (step_of_ne hd amount).2.2.2]
      exact h d

theorem neverUnder_step_iff {s : Exposure} (h : s.NeverUnder) (m : Move) :
    (s.step m).NeverUnder ↔ s.ClosesUncapped m := by
  cases m with
  | opened c amount => exact iff_of_true (neverUnder_opened h c amount) trivial
  | closed c amount =>
      by_cases hmem : amount ∈ s.inFlight c
      · rw [neverUnder_closed_iff h hmem, ClosesUncapped]
        simp [hmem]
      · have hstep : s.step (.closed c amount) = s := by simp [step, hmem]
        rw [hstep]
        exact iff_of_true h (fun hin => absurd hin hmem)

/-- From a state whose counters are right, they stay right throughout a history
exactly as long as no item leaves a counter that is over its cap. -/
theorem counters_never_under_count_iff (s : Exposure) (hs : s.NeverUnder) (moves : List Move) :
    (∀ past, past <+: moves → (run step s past).NeverUnder) ↔ Along step ClosesUncapped s moves :=
  forall_prefix_iff_along step ClosesUncapped (fun _ => True) NeverUnder (fun _ _ _ => trivial)
    (fun _ m _ h => neverUnder_step_iff h m) s moves trivial hs

theorem neverUnder_none : none.NeverUnder := by
  intro c
  exact Nat.zero_le _

theorem counters_right_over_a_round :
    none.NeverUnder ∧
      ∀ past, past <+: [.opened .outstanding 16, .opened .risk 40, .closed .outstanding 16] →
        (run step none past).NeverUnder :=
  ⟨neverUnder_none, (counters_never_under_count_iff none neverUnder_none
    [.opened .outstanding 16, .opened .risk 40, .closed .outstanding 16]).mpr
    ⟨trivial, trivial, fun _ => Or.inr (by decide), trivial⟩⟩

/-- Two escrows of which the larger one leaves: the counter shows nothing at
risk while the smaller one still is. -/
theorem capped_counter_under_counts :
    ¬ (run step none [.opened .outstanding 4294967295, .opened .outstanding 1,
      .closed .outstanding 4294967295]).NeverUnder := by
  intro h
  exact absurd (h .outstanding) (by decide)

end Exposure

end TriNet.Compute
