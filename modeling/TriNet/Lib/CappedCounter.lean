import Mathlib.Order.Lattice
import Mathlib.Data.Nat.Basic

namespace TriNet.Lib.CappedCounter

variable {cap counter sum amount : Nat}

/-- A counter that stops at a cap still shows a sum: the sum itself, or the cap
if the sum has passed it. -/
def Shows (cap counter sum : Nat) : Prop := min sum cap ≤ counter

theorem Shows.add (h : Shows cap counter sum) (amount : Nat) :
    Shows cap (min (counter + amount) cap) (sum + amount) := by
  rw [Shows] at h ⊢
  omega

/-- A capped counter has forgotten what lies above its cap, so taking an amount
off is right only while the sum is below it. -/
theorem Shows.sub_iff (h : Shows cap counter sum) (hcap : counter ≤ cap) (hle : amount ≤ sum)
    (hamount : amount ≤ cap) : Shows cap (counter - amount) (sum - amount) ↔ amount = 0 ∨ sum ≤ cap := by
  rw [Shows] at h ⊢
  omega

end TriNet.Lib.CappedCounter
