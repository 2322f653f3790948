import TriNet.Lib.Runs

namespace TriNet.Lib.Budget

open Runs

/-- A budget that is renewed window by window: what is spent of it, how many
windows it has had, and all it has let through. -/
structure Account where
  spent : Nat
  windows : Nat
  sent : Nat

inductive Event
  | close
  | charge (amount : Nat)

variable {rate most : Nat} {b : Account} {e : Event}

/-- Whatever finds the budget open is let through whole. What it takes too much
is carried over as a debt, but never more than one window of it. -/
def step (rate : Nat) (b : Account) : Event → Account
  | .close => { b with spent := min (b.spent - rate) rate, windows := b.windows + 1 }
  | .charge amount => if b.spent ≥ rate then b
      else { b with spent := b.spent + amount, sent := b.sent + amount }

/-- No debt is forgiven, and nothing takes more than a given amount at once. -/
def Fair (rate most : Nat) (b : Account) : Event → Prop
  | .close => b.spent ≤ 2 * rate
  | .charge amount => amount ≤ most

/-- All that was let through is paid for by the windows so far, but for what is
still owed. -/
structure Covered (rate most : Nat) (b : Account) : Prop where
  spent : b.spent < rate + most
  sent : b.sent + rate ≤ b.windows * rate + b.spent

theorem Covered.step (h : Covered rate most b) (he : Fair rate most b e) :
    Covered rate most (step rate b e) := by
  have hspent := h.spent
  have hsent := h.sent
  cases e with
  | close =>
      have hdebt : b.spent ≤ 2 * rate := he
      refine ⟨?_, ?_⟩
      · simp only [Budget.step]
        omega
      · simp only [Budget.step, Nat.succ_mul]
        omega
  | charge amount =>
      have hle : amount ≤ most := he
      simp only [Budget.step]
      split
      · exact h
      · exact ⟨by dsimp only; omega, by dsimp only; omega⟩

theorem Covered.run (h : Covered rate most b) {es : List Event}
    (hes : Along (Budget.step rate) (Fair rate most) b es) :
    Covered rate most (run (Budget.step rate) b es) :=
  run_along (Budget.step rate) (Fair rate most) (Covered rate most)
    (fun _ _ hb he => hb.step he) b es h hes

theorem Covered.sent_lt (h : Covered rate most b) : b.sent < b.windows * rate + most := by
  have := h.spent
  have := h.sent
  omega

end TriNet.Lib.Budget
