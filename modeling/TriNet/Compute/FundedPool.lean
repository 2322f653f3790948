import TriNet.Compute.Exposure
import Mathlib.Data.List.Infix

namespace TriNet.Compute

open Lib.Runs

def poolAfterDeposit (pool amount : UInt32) : UInt32 := addOrMax pool amount

def payoutCapped (pool requested : UInt32) : UInt32 := if requested ≤ pool then requested else pool

def poolAfterPayout (pool requested : UInt32) : UInt32 := subOrZero pool requested

def balanceAfterPoolSettle (prevBalance pool reward : UInt32) : UInt32 :=
  addOrMax prevBalance (payoutCapped pool reward)

theorem toNat_payoutCapped (pool requested : UInt32) :
    (payoutCapped pool requested).toNat = min requested.toNat pool.toNat := by
  rw [payoutCapped]
  split
  · next h => rw [min_eq_left (UInt32.le_iff_toNat_le.mp h)]
  · next h =>
      rw [UInt32.le_iff_toNat_le, not_le] at h
      rw [min_eq_right h.le]

structure FundedPool (ι : Type) where
  pool : UInt32
  balance : ι → UInt32

inductive PoolOp (ι : Type)
  | deposit (amount : UInt32)
  | settle (executor : ι) (reward : UInt32)

def PoolOp.deposited {ι : Type} : PoolOp ι → Nat
  | deposit amount => amount.toNat
  | settle .. => 0

namespace FundedPool

variable {ι : Type} [DecidableEq ι]

def step (s : FundedPool ι) : PoolOp ι → FundedPool ι
  | .deposit amount => { s with pool := poolAfterDeposit s.pool amount }
  | .settle executor reward =>
      { pool := poolAfterPayout s.pool reward
        balance := Function.update s.balance executor
          (balanceAfterPoolSettle (s.balance executor) s.pool reward) }

def payout (s : FundedPool ι) : PoolOp ι → Nat
  | .deposit _ => 0
  | .settle _ reward => (payoutCapped s.pool reward).toNat

def credit (s : FundedPool ι) : PoolOp ι → Nat
  | .deposit _ => 0
  | .settle executor reward =>
      ((s.step (.settle executor reward)).balance executor).toNat - (s.balance executor).toNat

def paidOut (s : FundedPool ι) (ops : List (PoolOp ι)) : Nat :=
  ((trace step s ops).map (fun (s, op) => s.payout op)).sum

def credited (s : FundedPool ι) (ops : List (PoolOp ι)) : Nat :=
  ((trace step s ops).map (fun (s, op) => s.credit op)).sum

def deposits (ops : List (PoolOp ι)) : Nat := (ops.map PoolOp.deposited).sum

def BelowCeiling (s : FundedPool ι) : Prop :=
  s.pool.toNat < u32Max ∧ ∀ executor, (s.balance executor).toNat < u32Max

theorem balance_settle (s : FundedPool ι) (executor : ι) (reward : UInt32) :
    ((s.step (.settle executor reward)).balance executor).toNat =
      min ((s.balance executor).toNat + min reward.toNat s.pool.toNat) u32Max := by
  simp only [step, Function.update_self]
  rw [balanceAfterPoolSettle, toNat_addOrMax, toNat_payoutCapped]

theorem credit_le (s : FundedPool ι) (op : PoolOp ι) :
    s.credit op ≤ s.payout op ∧ s.payout op ≤ s.pool.toNat := by
  cases op with
  | deposit amount => exact ⟨le_refl 0, Nat.zero_le _⟩
  | settle executor reward =>
      rw [credit, balance_settle, payout, toNat_payoutCapped]
      omega

theorem payout_step (s : FundedPool ι) (op : PoolOp ι) :
    s.payout op + (s.step op).pool.toNat ≤ s.pool.toNat + op.deposited ∧
      ((s.step op).BelowCeiling →
        s.payout op + (s.step op).pool.toNat = s.pool.toNat + op.deposited ∧
          s.credit op = s.payout op) := by
  cases op with
  | deposit amount =>
      have hpool : (s.step (.deposit amount)).pool.toNat = min (s.pool.toNat + amount.toNat) u32Max :=
        toNat_addOrMax s.pool amount
      rw [hpool, payout, PoolOp.deposited]
      refine ⟨by omega, fun hbelow => ?_⟩
      have hlt := hbelow.1
      rw [hpool] at hlt
      exact ⟨by omega, rfl⟩
  | settle executor reward =>
      have hpool : (s.step (.settle executor reward)).pool.toNat = s.pool.toNat - reward.toNat :=
        toNat_subOrZero s.pool reward
      rw [hpool, credit, balance_settle, payout, toNat_payoutCapped, PoolOp.deposited]
      refine ⟨by omega, fun hbelow => ?_⟩
      have hlt := hbelow.2 executor
      rw [balance_settle] at hlt
      omega

/-- Over any history the pool pays out no more than was funded. Below the
ceilings nothing is lost either. -/
theorem pool_funded (s : FundedPool ι) (ops : List (PoolOp ι)) :
    s.credited ops + (run step s ops).pool.toNat ≤ s.pool.toNat + deposits ops ∧
    s.paidOut ops + (run step s ops).pool.toNat ≤ s.pool.toNat + deposits ops ∧
    ((∀ past, past <+: ops → (run step s past).BelowCeiling) →
      s.credited ops + (run step s ops).pool.toNat = s.pool.toNat + deposits ops ∧
        s.credited ops = s.paidOut ops) ∧
    ∀ before ∈ trace step s ops, before.1.credit before.2 ≤ before.1.pool.toNat := by
  induction ops generalizing s with
  | nil => simp [credited, paidOut, deposits, trace, run]
  | cons op ops ih =>
      obtain ⟨hcredited, hpaid, hexact, hsteps⟩ := ih (s.step op)
      obtain ⟨hle, heq⟩ := payout_step s op
      obtain ⟨hcredit, hpool⟩ := credit_le s op
      have hrun : run step s (op :: ops) = run step (s.step op) ops := rfl
      have hcreditedCons : s.credited (op :: ops) = s.credit op + (s.step op).credited ops := by
        simp [credited, trace]
      have hpaidCons : s.paidOut (op :: ops) = s.payout op + (s.step op).paidOut ops := by
        simp [paidOut, trace]
      have hdeposits : deposits (op :: ops) = op.deposited + deposits ops := by simp [deposits]
      rw [hrun, hcreditedCons, hpaidCons, hdeposits]
      refine ⟨by omega, by omega, ?_, ?_⟩
      · intro hbelow
        obtain ⟨hstep, hsame⟩ := heq (hbelow [op] (List.cons_prefix_cons.mpr ⟨rfl, List.nil_prefix ..⟩))
        have htail :=
          hexact (fun past hpast => hbelow (op :: past) (List.cons_prefix_cons.mpr ⟨rfl, hpast⟩))
        omega
      · intro before hbefore
        rcases List.mem_cons.mp hbefore with rfl | hbefore
        · exact hcredit.trans hpool
        · exact hsteps before hbefore

example :
    let s : FundedPool (Fin 2) := ⟨100, fun _ => 0⟩
    let ops := [.settle 0 70, .settle 1 70, .deposit 5]
    s.credited ops = 100 ∧ (run step s ops).pool = 5 := by decide

end FundedPool

end TriNet.Compute
