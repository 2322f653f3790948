import TriNet.Lib.Checked
import TriNet.Lib.Majority
import Mathlib.Tactic.Ring

namespace TriNet.Compute.SealDispute

open Lib Lib.Majority

def defenderHonest : UInt32 := 1

def defenderLied : UInt32 := 2

def verdictNone : UInt32 := 0

def resolve (defenderSeal truthSeal : UInt32) : UInt32 :=
  if defenderSeal = truthSeal then defenderHonest else defenderLied

def defenderBondAfter (verdict : UInt32) (defenderBond challengerBond : Nat) : Option Nat :=
  if verdict = defenderHonest then Checked.add 32 defenderBond challengerBond else some 0

def challengerBondAfter (verdict : UInt32) (defenderBond challengerBond : Nat) : Option Nat :=
  if verdict = defenderHonest then some 0 else Checked.add 32 challengerBond defenderBond

def witnessMajority (s0 s1 s2 : UInt32) : UInt32 :=
  if s0 = s1 then s0
  else if s0 = s2 then s0
  else if s1 = s2 then s1
  else 0

def witnessVerdict (defenderSeal s0 s1 s2 : UInt32) : UInt32 :=
  let truth := witnessMajority s0 s1 s2
  if truth = 0 then verdictNone else resolve defenderSeal truth

def witnessIsMajority (voted majority : UInt32) : Bool := majority ≠ 0 && voted == majority

def ifSeal (voted majority : UInt32) : Nat := if witnessIsMajority voted majority then 1 else 0

def majorityCount3 (s0 s1 s2 majority : UInt32) : Option Nat := do
  let c0 := ifSeal s0 majority
  let c1 := ifSeal s1 majority
  let c2 := ifSeal s2 majority
  Checked.add 32 (← Checked.add 32 c0 c1) c2

def minorityPot3 (s0 s1 s2 majority : UInt32) (stake : Nat) : Option Nat := do
  let minority ← Checked.sub 3 (← majorityCount3 s0 s1 s2 majority)
  Checked.mul 32 minority stake

def witnessPayout (voted s0 s1 s2 : UInt32) (stake : Nat) : Option Nat := do
  let majority := witnessMajority s0 s1 s2
  if majority = 0 then
    return stake
  if witnessIsMajority voted majority then
    let pot ← minorityPot3 s0 s1 s2 majority stake
    let share ← Checked.div pot (← majorityCount3 s0 s1 s2 majority)
    Checked.add 32 stake share
  else
    return 0

section Verdict

variable {s0 s1 s2 t : UInt32}

theorem witnessMajority_eq (s0 s1 s2 : UInt32) :
    witnessMajority s0 s1 s2 = (majority [s0, s1, s2]).getD 0 := by
  rw [majority_three, witnessMajority]
  split
  · rfl
  split
  · rfl
  split <;> rfl

theorem verdict_of_none (h : majority [s0, s1, s2] = none) (defenderSeal : UInt32) :
    witnessVerdict defenderSeal s0 s1 s2 = verdictNone := by
  simp [witnessVerdict, witnessMajority_eq, h]

theorem verdict_of_some (h : majority [s0, s1, s2] = some t) (defenderSeal : UInt32) :
    witnessVerdict defenderSeal s0 s1 s2 = if t = 0 then verdictNone else resolve defenderSeal t := by
  simp [witnessVerdict, witnessMajority_eq, h]

theorem resolve_ne_verdictNone (defenderSeal truthSeal : UInt32) :
    resolve defenderSeal truthSeal ≠ verdictNone := by
  rw [resolve]
  split <;> decide

/-- The seal that stands for having no majority is itself a seal the witnesses
can agree on, and the only one whose majority decides nothing. -/
theorem witness_quorum_iff (defenderSeal s0 s1 s2 : UInt32) :
    ((∀ t, 2 ≤ [s0, s1, s2].count t → witnessVerdict defenderSeal s0 s1 s2 = resolve defenderSeal t) ∧
      ((∀ t, [s0, s1, s2].count t < 2) → witnessVerdict defenderSeal s0 s1 s2 = verdictNone)) ↔
      [s0, s1, s2].count 0 < 2 := by
  constructor
  · rintro ⟨hquorum, -⟩
    by_contra hzero
    rw [Nat.not_lt] at hzero
    have hverdict := verdict_of_some (majority_of_three_iff.mpr hzero) defenderSeal
    rw [if_pos rfl, hquorum 0 hzero] at hverdict
    exact resolve_ne_verdictNone defenderSeal 0 hverdict
  · intro hzero
    constructor
    · intro t ht
      have hne : t ≠ 0 := by
        rintro rfl
        omega
      rw [verdict_of_some (majority_of_three_iff.mpr ht), if_neg hne]
    · intro hsplit
      apply verdict_of_none
      apply Option.eq_none_iff_forall_ne_some.mpr
      intro t ht
      exact Nat.not_le.mpr (hsplit t) (majority_of_three_iff.mp ht)

theorem zero_majority_decides_nothing :
    [0, 0, 5].count (0 : UInt32) = 2 ∧ witnessVerdict 7 0 0 5 = verdictNone ∧
      resolve 7 0 = defenderLied := by
  decide

end Verdict

section Money

variable {voted s0 s1 s2 t : UInt32} {stake : Nat}

/-- What a majority witness is paid when `count` of the three are in the
majority. -/
def majorityShare (count stake : Nat) : Nat := stake + (3 - count) * stake / count

theorem majorityCount3_eq (ht : t ≠ 0) (s0 s1 s2 : UInt32) :
    majorityCount3 s0 s1 s2 t = some ([s0, s1, s2].count t) := by
  have hone (voted : UInt32) : ifSeal voted t = if voted = t then 1 else 0 := by
    simp [ifSeal, witnessIsMajority, ht]
  have hle (voted : UInt32) : ifSeal voted t ≤ 1 := by
    rw [hone]
    split <;> omega
  have h0 := hle s0
  have h1 := hle s1
  have h2 := hle s2
  have hsum : [s0, s1, s2].count t = ifSeal s0 t + ifSeal s1 t + ifSeal s2 t := by
    simp only [hone, List.count_cons, List.count_nil, beq_iff_eq]
    omega
  rw [hsum, majorityCount3, Checked.add_of_lt (by omega)]
  exact Checked.add_of_lt (by omega)

theorem minorityPot3_eq (ht : t ≠ 0) (hfit : 3 * stake < 2 ^ 32) (s0 s1 s2 : UInt32) :
    minorityPot3 s0 s1 s2 t stake = some ((3 - [s0, s1, s2].count t) * stake) := by
  have hcount : [s0, s1, s2].count t ≤ 3 := List.count_le_length
  have hpot : (3 - [s0, s1, s2].count t) * stake ≤ 3 * stake := Nat.mul_le_mul_right stake (Nat.sub_le _ _)
  rw [minorityPot3, majorityCount3_eq ht, Option.bind_eq_bind, Option.bind_some, Checked.sub_of_le hcount]
  exact Checked.mul_of_lt (by omega)

theorem payout_of_refund (h : (majority [s0, s1, s2]).getD 0 = 0) :
    witnessPayout voted s0 s1 s2 stake = some stake := by
  simp [witnessPayout, witnessMajority_eq, h]

theorem payout_of_majority (h : majority [s0, s1, s2] = some t) (ht : t ≠ 0) (hfit : 3 * stake < 2 ^ 32) :
    witnessPayout voted s0 s1 s2 stake =
      some (if voted = t then majorityShare ([s0, s1, s2].count t) stake else 0) := by
  have hcount : 2 ≤ [s0, s1, s2].count t := majority_of_three_iff.mp h
  have hshare : (3 - [s0, s1, s2].count t) * stake / [s0, s1, s2].count t ≤ stake := by
    apply Nat.div_le_of_le_mul
    exact Nat.mul_le_mul_right stake (by omega)
  have hmajority : witnessMajority s0 s1 s2 = t := by
    rw [witnessMajority_eq, h, Option.getD_some]
  rw [witnessPayout, hmajority, if_neg ht]
  by_cases hvoted : voted = t
  · rw [if_pos hvoted, if_pos (by simp [witnessIsMajority, ht, hvoted]), minorityPot3_eq ht hfit,
      majorityCount3_eq ht, Option.bind_eq_bind, Option.bind_some, Option.bind_some,
      Checked.div_of_pos (by omega)]
    exact Checked.add_of_lt (by omega)
  · rw [if_neg hvoted, if_neg (by simp [witnessIsMajority, hvoted])]
    rfl

theorem sum_shares (t s0 s1 s2 : UInt32) (share : Nat) :
    (if s0 = t then share else 0) + (if s1 = t then share else 0) + (if s2 = t then share else 0) =
      [s0, s1, s2].count t * share := by
  have hone (s : UInt32) : (if s = t then share else 0) = (if s = t then 1 else 0) * share := by
    rw [ite_mul, Nat.one_mul, Nat.zero_mul]
  simp only [hone, List.count_cons, List.count_nil, beq_iff_eq]
  ring

theorem count_mul_majorityShare {count : Nat} (hle : count ≤ 3) (stake : Nat) :
    count * majorityShare count stake + (3 - count) * stake % count = 3 * stake := by
  have hpot := Nat.div_add_mod ((3 - count) * stake) count
  have hall : count * stake + (3 - count) * stake = 3 * stake := by
    rw [← Nat.add_mul, Nat.add_sub_cancel' hle]
  rw [majorityShare, Nat.mul_add]
  omega

/-- The dust is smaller than the majority: nothing is minted and, with no
majority, nothing is lost. -/
theorem payouts_conserve (hfit : 3 * stake < 2 ^ 32) (s0 s1 s2 : UInt32) :
    ∃ p0 p1 p2, witnessPayout s0 s0 s1 s2 stake = some p0 ∧ witnessPayout s1 s0 s1 s2 stake = some p1 ∧
      witnessPayout s2 s0 s1 s2 stake = some p2 ∧ p0 + p1 + p2 ≤ 3 * stake ∧
      (∀ t, 2 ≤ [s0, s1, s2].count t → 3 * stake < p0 + p1 + p2 + [s0, s1, s2].count t) ∧
      ((∀ t, [s0, s1, s2].count t < 2) → p0 + p1 + p2 = 3 * stake) := by
  by_cases hrefund : (majority [s0, s1, s2]).getD 0 = 0
  · refine ⟨stake, stake, stake, payout_of_refund hrefund, payout_of_refund hrefund,
      payout_of_refund hrefund, ?_⟩
    refine ⟨by omega, fun t ht => by omega, fun _ => by omega⟩
  obtain ⟨t, hmajority⟩ : ∃ t, majority [s0, s1, s2] = some t := by
    cases hm : majority [s0, s1, s2] with
    | none => exact absurd (by rw [hm]; rfl) hrefund
    | some t => exact ⟨t, rfl⟩
  have ht : t ≠ 0 := by
    rw [hmajority] at hrefund
    exact hrefund
  have hcount : 2 ≤ [s0, s1, s2].count t := majority_of_three_iff.mp hmajority
  have hsum := count_mul_majorityShare (List.count_le_length (a := t) (l := [s0, s1, s2])) stake
  have hdust := Nat.mod_lt ((3 - [s0, s1, s2].count t) * stake) (show 0 < [s0, s1, s2].count t by omega)
  rw [← sum_shares] at hsum
  refine ⟨_, _, _, payout_of_majority hmajority ht hfit, payout_of_majority hmajority ht hfit,
    payout_of_majority hmajority ht hfit, by omega, ?_, ?_⟩
  · intro t' ht'
    have hsame : some t' = some t := by
      rw [← majority_of_three_iff.mpr ht', hmajority]
    obtain rfl := Option.some.inj hsame
    omega
  · intro hsplit
    exact absurd (hsplit t) (by omega)

theorem bonds_conserved {defenderBond challengerBond : Nat}
    (hfit : defenderBond + challengerBond < 2 ^ 32) (verdict : UInt32) :
    ∃ defenderAfter challengerAfter, defenderBondAfter verdict defenderBond challengerBond =
      some defenderAfter ∧
      challengerBondAfter verdict defenderBond challengerBond = some challengerAfter ∧
      defenderAfter + challengerAfter = defenderBond + challengerBond := by
  rw [defenderBondAfter, challengerBondAfter]
  by_cases hverdict : verdict = defenderHonest
  · rw [if_pos hverdict, if_pos hverdict]
    exact ⟨_, _, Checked.add_of_lt hfit, rfl, rfl⟩
  · rw [if_neg hverdict, if_neg hverdict]
    exact ⟨_, _, rfl, Checked.add_of_lt (by omega), by omega⟩

theorem dissenter_forfeits_iff (hfit : 3 * stake < 2 ^ 32) (s0 s1 s2 : UInt32) :
    (∀ t, 2 ≤ [s0, s1, s2].count t → ∀ voted ∈ [s0, s1, s2], voted ≠ t →
      witnessPayout voted s0 s1 s2 stake = some 0) ↔ stake = 0 ∨ [s0, s1, s2].count 0 ≠ 2 := by
  constructor
  · intro hforfeit
    by_contra hcond
    obtain ⟨hstake, hzero⟩ := not_or.mp hcond
    rw [not_not] at hzero
    have hmajority := majority_of_three_iff.mpr (Nat.le_of_eq hzero.symm)
    obtain ⟨voted, hmem, hne⟩ : ∃ voted ∈ [s0, s1, s2], voted ≠ 0 := by
      by_contra hall
      have hunanimous : [s0, s1, s2].count 0 = [s0, s1, s2].length := by
        apply List.count_eq_length.mpr
        intro voted hmem
        by_contra hne
        exact hall ⟨voted, hmem, Ne.symm hne⟩
      rw [hzero] at hunanimous
      exact absurd hunanimous (show 2 ≠ 3 by decide)
    have hpaid := hforfeit 0 (Nat.le_of_eq hzero.symm) voted hmem hne
    rw [payout_of_refund (by rw [hmajority]; rfl)] at hpaid
    exact hstake (Option.some.inj hpaid)
  · intro hcond t ht voted hmem hne
    have hmajority := majority_of_three_iff.mpr ht
    by_cases hzero : t = 0
    · subst hzero
      rw [payout_of_refund (by rw [hmajority]; rfl)]
      refine congrArg some (hcond.resolve_right (fun hcount => hne ?_))
      have hle : [s0, s1, s2].count 0 ≤ 3 := List.count_le_length
      have hunanimous : [s0, s1, s2].count 0 = [s0, s1, s2].length := by
        rw [List.length_cons, List.length_cons, List.length_cons, List.length_nil]
        omega
      exact (List.count_eq_length.mp hunanimous voted hmem).symm
    · rw [payout_of_majority hmajority hzero hfit, if_neg hne]

theorem dispute_money_iff (s0 s1 s2 : UInt32) {stake defenderBond challengerBond : Nat}
    (hstake : 3 * stake < 2 ^ 32) (hbonds : defenderBond + challengerBond < 2 ^ 32) :
    (∃ p0 p1 p2, witnessPayout s0 s0 s1 s2 stake = some p0 ∧ witnessPayout s1 s0 s1 s2 stake = some p1 ∧
      witnessPayout s2 s0 s1 s2 stake = some p2 ∧ p0 + p1 + p2 ≤ 3 * stake ∧
      (∀ t, 2 ≤ [s0, s1, s2].count t → 3 * stake < p0 + p1 + p2 + [s0, s1, s2].count t) ∧
      ((∀ t, [s0, s1, s2].count t < 2) → p0 + p1 + p2 = 3 * stake)) ∧
    (∀ verdict, ∃ defenderAfter challengerAfter,
      defenderBondAfter verdict defenderBond challengerBond = some defenderAfter ∧
      challengerBondAfter verdict defenderBond challengerBond = some challengerAfter ∧
      defenderAfter + challengerAfter = defenderBond + challengerBond) ∧
    ((∀ t, 2 ≤ [s0, s1, s2].count t → ∀ voted ∈ [s0, s1, s2], voted ≠ t →
      witnessPayout voted s0 s1 s2 stake = some 0) ↔ stake = 0 ∨ [s0, s1, s2].count 0 ≠ 2) := by
  exact ⟨payouts_conserve hstake s0 s1 s2, bonds_conserved hbonds, dissenter_forfeits_iff hstake s0 s1 s2⟩

theorem dispute_money_split :
    (3 * 100 < 2 ^ 32 ∧ 150 + 100 < 2 ^ 32) ∧
      ∃ p0 p1 p2, witnessPayout 9 9 9 5 100 = some p0 ∧ witnessPayout 9 9 9 5 100 = some p1 ∧
        witnessPayout 5 9 9 5 100 = some p2 ∧ p0 + p1 + p2 ≤ 3 * 100 := by
  have hstake : 3 * 100 < 2 ^ 32 := by decide
  have hbonds : 150 + 100 < 2 ^ 32 := by decide
  obtain ⟨⟨p0, p1, p2, h0, h1, h2, hsum, -⟩, -⟩ := dispute_money_iff 9 9 5 hstake hbonds
  exact ⟨⟨hstake, hbonds⟩, p0, p1, p2, h0, h1, h2, hsum⟩

theorem zero_majority_spares_dissenter :
    [0, 0, 5].count (0 : UInt32) = 2 ∧ witnessPayout 5 0 0 5 100 = some 100 ∧
      witnessPayout 0 0 0 5 100 = some 100 := by
  decide

end Money

end TriNet.Compute.SealDispute
