import TriNet.Compute.Collateral
import TriNet.Lib.Checked

namespace TriNet.Compute

open Lib

/-! The dispute layer: when a challenge may be opened, and how long it may stay
open without being resolved. -/

def resolveTimeout : UInt32 := 27

def challengeAdmissible (nowEpoch receiptEpoch window : UInt32) : Bool :=
  if nowEpoch < receiptEpoch then decide (nowEpoch > nowEpoch)
  else decide (nowEpoch - receiptEpoch < window)

def disputeExpired (openedEpoch nowEpoch : UInt32) : Bool :=
  if nowEpoch < openedEpoch then decide (openedEpoch < openedEpoch)
  else decide (nowEpoch - openedEpoch > resolveTimeout)

def chBaseWindow : UInt32 := 64
def chWindowPerTrit : UInt32 := 16

def challengeWindowForRung (gfEt : UInt32) : Option UInt32 :=
  if gfEt ≤ chGft16Et then some chBaseWindow
  else do Checked.addWord chBaseWindow (← Checked.mulWord (gfEt - chGft16Et) chWindowPerTrit)

def challengeAdmissibleRung (nowEpoch receiptEpoch gfEt : UInt32) : Option Bool :=
  (challengeWindowForRung gfEt).map (challengeAdmissible nowEpoch receiptEpoch)

/-! The finality layer, with its own copy of the window ladder. -/

def pending : UInt32 := 0
def finalized : UInt32 := 1
def reversed : UInt32 := 2

def windowOpen (nowEpoch settledAt window : UInt32) : Option Bool :=
  (Checked.addWord settledAt window).map (fun windowEnd => decide (nowEpoch < windowEnd))

def optimisticGft16Et : UInt32 := 4
def baseWindow : UInt32 := 64
def windowPerTrit : UInt32 := 16

def windowForRung (gfEt : UInt32) : Option UInt32 :=
  if gfEt ≤ optimisticGft16Et then some baseWindow
  else do Checked.addWord baseWindow (← Checked.mulWord (gfEt - optimisticGft16Et) windowPerTrit)

def windowOpenRung (nowEpoch settledAt gfEt : UInt32) : Option Bool :=
  (windowForRung gfEt).bind (windowOpen nowEpoch settledAt)

def settleState (windowIsOpen slashed : UInt32) : UInt32 :=
  if slashed = 1 then reversed
  else if windowIsOpen = 1 then pending
  else finalized

def canFinalize (state : UInt32) : Bool := state == finalized

def unslashedState (nowEpoch settledAt gfEt : UInt32) : Option UInt32 :=
  (windowOpenRung nowEpoch settledAt gfEt).map (fun isOpen => settleState (if isOpen then 1 else 0) 0)

theorem challengeWindowForRung_eq (gfEt : UInt32) : challengeWindowForRung gfEt = windowForRung gfEt := rfl

theorem challengeAdmissible_iff (nowEpoch receiptEpoch window : UInt32) :
    challengeAdmissible nowEpoch receiptEpoch window = true ↔
      receiptEpoch.toNat ≤ nowEpoch.toNat ∧ nowEpoch.toNat < receiptEpoch.toNat + window.toNat := by
  rw [challengeAdmissible]
  split
  · next h =>
      rw [UInt32.lt_iff_toNat_lt] at h
      simp only [gt_iff_lt, UInt32.lt_irrefl, decide_false, Bool.false_eq_true, false_iff]
      omega
  · next h =>
      rw [UInt32.lt_iff_toNat_lt, Nat.not_lt] at h
      rw [decide_eq_true_iff, UInt32.lt_iff_toNat_lt,
        UInt32.toNat_sub_of_le _ _ (UInt32.le_iff_toNat_le.mpr h)]
      omega

theorem disputeExpired_eq_false_iff (openedEpoch nowEpoch : UInt32) :
    disputeExpired openedEpoch nowEpoch = false ↔
      nowEpoch.toNat ≤ openedEpoch.toNat + resolveTimeout.toNat := by
  rw [disputeExpired]
  split
  · next h =>
      rw [UInt32.lt_iff_toNat_lt] at h
      simp only [UInt32.lt_irrefl, decide_false, true_iff]
      omega
  · next h =>
      rw [UInt32.lt_iff_toNat_lt, Nat.not_lt] at h
      rw [decide_eq_false_iff_not, gt_iff_lt, UInt32.lt_iff_toNat_lt,
        UInt32.toNat_sub_of_le _ _ (UInt32.le_iff_toNat_le.mpr h)]
      omega

section Rung

variable {settledAt gfEt window : UInt32}

theorem windowOpenRung_eq (hwindow : windowForRung gfEt = some window)
    (hend : settledAt.toNat + window.toNat < 2 ^ 32) (nowEpoch : UInt32) :
    windowOpenRung nowEpoch settledAt gfEt =
      some (decide (nowEpoch.toNat < settledAt.toNat + window.toNat)) := by
  rw [windowOpenRung, hwindow, Option.bind_some, windowOpen, Checked.addWord_of_lt hend,
    Option.map_some, ← Checked.toNat_add_of_lt hend]
  rfl

theorem unslashedState_eq_pending_iff (hwindow : windowForRung gfEt = some window)
    (hend : settledAt.toNat + window.toNat < 2 ^ 32) (nowEpoch : UInt32) :
    unslashedState nowEpoch settledAt gfEt = some pending ↔
      nowEpoch.toNat < settledAt.toNat + window.toNat := by
  rw [unslashedState, windowOpenRung_eq hwindow hend, Option.map_some, Option.some_inj]
  by_cases h : nowEpoch.toNat < settledAt.toNat + window.toNat
  · exact iff_of_true (by rw [decide_eq_true h]; rfl) h
  · exact iff_of_false (by rw [decide_eq_false h]; decide) h

theorem canFinalize_unslashedState (hwindow : windowForRung gfEt = some window)
    (hend : settledAt.toNat + window.toNat < 2 ^ 32) (nowEpoch : UInt32) :
    (unslashedState nowEpoch settledAt gfEt).map canFinalize = some false ↔
      nowEpoch.toNat < settledAt.toNat + window.toNat := by
  rw [unslashedState, windowOpenRung_eq hwindow hend, Option.map_some, Option.map_some, Option.some_inj]
  by_cases h : nowEpoch.toNat < settledAt.toNat + window.toNat
  · exact iff_of_true (by rw [decide_eq_true h]; rfl) h
  · exact iff_of_false (by rw [decide_eq_false h]; decide) h

/-- Below the end of the 32-bit epochs the two layers agree on when a challenge
may be opened; an open challenge holds finality back for its whole life exactly
when it was opened more than the resolution timeout before the window ends. -/
theorem finality_waits_iff (settledAt gfEt window : UInt32)
    (hwindow : windowForRung gfEt = some window) (hend : settledAt.toNat + window.toNat < 2 ^ 32) :
    (∀ nowEpoch, settledAt ≤ nowEpoch →
      (challengeAdmissibleRung nowEpoch settledAt gfEt = some true ↔
        unslashedState nowEpoch settledAt gfEt = some pending)) ∧
    ∀ openedEpoch, challengeAdmissibleRung openedEpoch settledAt gfEt = some true →
      ((∀ nowEpoch, disputeExpired openedEpoch nowEpoch = false →
          (unslashedState nowEpoch settledAt gfEt).map canFinalize = some false) ↔
        openedEpoch.toNat + resolveTimeout.toNat < settledAt.toNat + window.toNat) := by
  constructor
  · intro nowEpoch hlater
    rw [UInt32.le_iff_toNat_le] at hlater
    rw [unslashedState_eq_pending_iff hwindow hend, challengeAdmissibleRung,
      challengeWindowForRung_eq, hwindow, Option.map_some, Option.some_inj, challengeAdmissible_iff]
    exact and_iff_right hlater
  · intro openedEpoch _
    simp only [canFinalize_unslashedState hwindow hend, disputeExpired_eq_false_iff]
    constructor
    · intro h
      by_contra hlate
      -- the first epoch after the window still finds the dispute open
      have hclosed := h (UInt32.ofNat (settledAt.toNat + window.toNat))
      rw [UInt32.toNat_ofNat_of_lt' hend] at hclosed
      exact Nat.lt_irrefl _ (hclosed (Nat.le_of_not_lt hlate))
    · intro h nowEpoch hopen
      exact Nat.lt_of_le_of_lt hopen h

end Rung

theorem finality_waits_iff_flagship :
    windowForRung 4 = some 64 ∧ (0 : UInt32).toNat + (64 : UInt32).toNat < 2 ^ 32 ∧
      challengeAdmissibleRung 36 0 4 = some true ∧
      ∀ nowEpoch, disputeExpired 36 nowEpoch = false →
        (unslashedState nowEpoch 0 4).map canFinalize = some false :=
  ⟨by decide, by decide, by decide,
    ((finality_waits_iff 0 4 64 rfl (by decide)).2 36 (by decide)).mpr (by decide)⟩

/-- A challenge opened in the last admissible epoch is open for 27 epochs more,
but the receipt finalizes in the next one. -/
theorem finalized_under_open_dispute :
    challengeAdmissibleRung 63 0 4 = some true ∧ disputeExpired 63 64 = false ∧
      (unslashedState 64 0 4).map canFinalize = some true := by
  decide

/-! The credit that goes with the states. -/

def provisionalBalance (prevBalance reward bondOk : UInt32) : Option UInt32 :=
  if bondOk = 1 then Checked.addWord prevBalance reward else some prevBalance

def balanceAfterSettle (provisionalBal reward state : UInt32) : UInt32 :=
  if state = reversed then
    if provisionalBal < reward then 0 else provisionalBal - reward
  else provisionalBal

/-- A settlement end to end: credited, judged, and kept or clawed back. -/
def settledBalance (prevBalance reward bondOk windowIsOpen slashed : UInt32) : Option UInt32 :=
  (provisionalBalance prevBalance reward bondOk).map (fun provisionalBal =>
    balanceAfterSettle provisionalBal reward (settleState windowIsOpen slashed))

theorem settleState_eq_reversed_iff (windowIsOpen slashed : UInt32) :
    settleState windowIsOpen slashed = reversed ↔ slashed = 1 := by
  rw [settleState]
  split_ifs with hslashed hopen
  · exact iff_of_true rfl hslashed
  · exact iff_of_false (by decide) hslashed
  · exact iff_of_false (by decide) hslashed

section Settlement

variable {prevBalance reward : UInt32} (bondOk : UInt32)

theorem provisionalBalance_eq (hfits : prevBalance.toNat + reward.toNat < 2 ^ 32) :
    ∃ credited, provisionalBalance prevBalance reward bondOk = some credited ∧
      credited.toNat = if bondOk = 1 then prevBalance.toNat + reward.toNat else prevBalance.toNat := by
  rw [provisionalBalance]
  split
  · exact ⟨_, Checked.addWord_of_lt hfits, Checked.toNat_add_of_lt hfits⟩
  · exact ⟨_, rfl, rfl⟩

theorem clawback_eq_iff {credited : UInt32}
    (hcredited : credited.toNat = if bondOk = 1 then prevBalance.toNat + reward.toNat
      else prevBalance.toNat) :
    balanceAfterSettle credited reward reversed = prevBalance ↔ bondOk = 1 ∨ reward = 0 ∨
      prevBalance = 0 := by
  have hreward : reward = 0 ↔ reward.toNat = 0 := UInt32.toNat_inj.symm
  have hprev : prevBalance = 0 ↔ prevBalance.toNat = 0 := UInt32.toNat_inj.symm
  rw [hreward, hprev, ← UInt32.toNat_inj, balanceAfterSettle, if_pos rfl]
  by_cases hbond : bondOk = 1
  · rw [if_pos hbond] at hcredited
    have hle : reward ≤ credited := by
      rw [UInt32.le_iff_toNat_le]
      omega
    rw [if_neg (UInt32.not_lt.mpr hle), UInt32.toNat_sub_of_le _ _ hle]
    exact iff_of_true (by omega) (.inl hbond)
  · rw [if_neg hbond] at hcredited
    rw [or_iff_right hbond]
    split
    · next hlt =>
        rw [UInt32.lt_iff_toNat_lt] at hlt
        rw [UInt32.toNat_zero]
        omega
    · next hge =>
        rw [UInt32.toNat_sub_of_le _ _ (UInt32.not_lt.mp hge)]
        rw [UInt32.lt_iff_toNat_lt] at hge
        omega

/-- A reversed settlement restores the balance and any other one keeps what the
bond entitled to, exactly if no settlement without a bond is reversed (or
nothing is at stake in it). -/
theorem settlement_exact_iff (prevBalance reward bondOk windowIsOpen slashed : UInt32)
    (hfits : prevBalance.toNat + reward.toNat < 2 ^ 32) :
    ((settleState windowIsOpen slashed = reversed →
        settledBalance prevBalance reward bondOk windowIsOpen slashed = some prevBalance) ∧
      (settleState windowIsOpen slashed = pending ∨ settleState windowIsOpen slashed = finalized →
        (settledBalance prevBalance reward bondOk windowIsOpen slashed).map UInt32.toNat =
          some (if bondOk = 1 then prevBalance.toNat + reward.toNat else prevBalance.toNat))) ↔
      (slashed = 1 → bondOk = 1 ∨ reward = 0 ∨ prevBalance = 0) := by
  obtain ⟨credited, heq, hcredited⟩ := provisionalBalance_eq bondOk hfits
  have hreversed := settleState_eq_reversed_iff windowIsOpen slashed
  rw [settledBalance, heq, Option.map_some, Option.map_some, Option.some_inj, Option.some_inj]
  constructor
  · rintro ⟨hback, -⟩ hslashed
    have hstate := hreversed.mpr hslashed
    rw [hstate] at hback
    exact (clawback_eq_iff bondOk hcredited).mp (hback rfl)
  · intro h
    constructor
    · intro hstate
      rw [hstate]
      exact (clawback_eq_iff bondOk hcredited).mpr (h (hreversed.mp hstate))
    · intro hstate
      have hkept : settleState windowIsOpen slashed ≠ reversed := by
        rcases hstate with hstate | hstate <;> rw [hstate] <;> decide
      rw [balanceAfterSettle, if_neg hkept]
      exact hcredited

end Settlement

theorem settlement_exact_bonded :
    (1000 : UInt32).toNat + (16 : UInt32).toNat < 2 ^ 32 ∧ settleState 0 1 = reversed ∧
      settledBalance 1000 16 1 0 1 = some 1000 :=
  ⟨by decide, by decide,
    ((settlement_exact_iff 1000 16 1 0 1 (by decide)).mpr (fun _ => .inl rfl)).1 (by decide)⟩

/-- Without a bond nothing is credited, but a slash takes the reward. -/
theorem unbonded_reversal_takes_reward :
    windowOpen 5 3 10 = some true ∧ settleState 1 1 = reversed ∧
      provisionalBalance 1000 16 0 = some 1000 ∧ settledBalance 1000 16 0 1 1 = some 984 := by
  decide

end TriNet.Compute
