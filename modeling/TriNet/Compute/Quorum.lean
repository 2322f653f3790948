import TriNet.Compute.DisputeGame
import TriNet.Compute.Payout
import TriNet.Lib.Majority

namespace TriNet.Compute

open Lib Lib.Majority

def resolveBitnetQuorum (settledLeaf disputeLeaf claimedResult v0 v1 v2 t0 t1 t2 : UInt32) :
    Option UInt32 :=
  if verifierQuorum3 v0 v1 v2 = 1 then
    (majorityFlag3 t0 t1 t2).map
      (resolveBitnet settledLeaf disputeLeaf claimedResult (quorumResult3 v0 v1 v2))
  else some resolveIndeterminate

def resolveBitnetQuorum5 (settledLeaf disputeLeaf claimedResult v0 v1 v2 v3 v4 t0 t1 t2 t3 t4 : UInt32) :
    Option UInt32 :=
  if hasQuorumK (maxAgree5 v0 v1 v2 v3 v4) (quorumThreshold 5) = 1 then
    (majorityFlag5 t0 t1 t2 t3 t4).map
      (resolveBitnet settledLeaf disputeLeaf claimedResult
        (quorumValue5 v0 v1 v2 v3 v4 (quorumThreshold 5)))
  else some resolveIndeterminate

def verifierReward (burnedTotal honestCount : UInt32) : UInt32 :=
  if honestCount = 0 then 0 else (burnedTotal.toUInt64 / honestCount.toUInt64).toUInt32

def dissenterCount5 (v0 v1 v2 v3 v4 : UInt32) : UInt32 := 5 - maxAgree5 v0 v1 v2 v3 v4

def burnedTotal5 (v0 v1 v2 v3 v4 stake : UInt32) : UInt32 :=
  saturate ((dissenterCount5 v0 v1 v2 v3 v4).toUInt64 * stake.toUInt64)

def honestShare5 (v0 v1 v2 v3 v4 stake : UInt32) : UInt32 :=
  verifierReward (burnedTotal5 v0 v1 v2 v3 v4 stake) (maxAgree5 v0 v1 v2 v3 v4)

theorem toNat_eq1 (x v : UInt32) : (eq1 x v).toNat = if v = x then 1 else 0 := by
  rw [eq1]
  by_cases h : x = v
  · rw [if_pos h, if_pos h.symm]
    rfl
  · rw [if_neg h, if_neg (Ne.symm h)]
    rfl

theorem toNat_max2 (a b : UInt32) : (max2 a b).toNat = max a.toNat b.toNat := by
  rw [max2]
  split
  · next h => rw [Nat.max_eq_left (UInt32.le_iff_toNat_le.mp h)]
  · next h =>
      rw [ge_iff_le, UInt32.le_iff_toNat_le, Nat.not_le] at h
      rw [Nat.max_eq_right h.le]

theorem hasQuorumK_eq_one_iff (agreeCount k : UInt32) :
    hasQuorumK agreeCount k = 1 ↔ k.toNat ≤ agreeCount.toNat := by
  rw [hasQuorumK, ← UInt32.le_iff_toNat_le]
  split
  · next h => exact iff_of_true rfl h
  · next h => exact iff_of_false (by decide) h

theorem quorum3_eq {β : Type} (resolution : UInt32 → β) (split : β) (v0 v1 v2 : UInt32) :
    (if verifierQuorum3 v0 v1 v2 = 1 then resolution (quorumResult3 v0 v1 v2) else split) =
      (majority [v0, v1, v2]).elim split resolution := by
  rw [majority_three, verifierQuorum3, quorumResult3]
  by_cases h01 : v0 = v1
  · simp [h01]
  by_cases h02 : v0 = v2
  · simp [h02]
  by_cases h12 : v1 = v2
  · simp [h02, h12]
  · simp [h01, h02, h12]

section Five

variable (v0 v1 v2 v3 v4 : UInt32)

theorem toNat_count5 (x : UInt32) : (count5 x v0 v1 v2 v3 v4).toNat = [v0, v1, v2, v3, v4].count x := by
  have hle (v : UInt32) : (eq1 x v).toNat ≤ 1 := by
    rw [toNat_eq1]
    split <;> omega
  have h0 := hle v0
  have h1 := hle v1
  have h2 := hle v2
  have h3 := hle v3
  have h4 := hle v4
  have hsum : (count5 x v0 v1 v2 v3 v4).toNat =
      (eq1 x v0).toNat + (eq1 x v1).toNat + (eq1 x v2).toNat + (eq1 x v3).toNat + (eq1 x v4).toNat := by
    simp only [count5, UInt32.toNat_add]
    omega
  rw [hsum]
  simp only [toNat_eq1, List.count_cons, List.count_nil, beq_iff_eq]
  omega

theorem toNat_maxAgree5 {x : UInt32}
    (h : ∀ y, [v0, v1, v2, v3, v4].count y ≤ [v0, v1, v2, v3, v4].count x) :
    (maxAgree5 v0 v1 v2 v3 v4).toNat = [v0, v1, v2, v3, v4].count x := by
  have hpos : 0 < [v0, v1, v2, v3, v4].count x := by
    have h0 := h v0
    rw [List.count_cons_self] at h0
    omega
  have hmem := List.count_pos_iff.mp hpos
  have h0 := h v0
  have h1 := h v1
  have h2 := h v2
  have h3 := h v3
  have h4 := h v4
  simp only [maxAgree5, toNat_max2, toNat_count5]
  simp only [List.mem_cons, List.not_mem_nil, or_false] at hmem
  rcases hmem with rfl | rfl | rfl | rfl | rfl <;> omega

theorem quorumThreshold_five : (quorumThreshold 5).toNat = 3 := rfl

theorem three_le_count5_iff (x : UInt32) :
    count5 x v0 v1 v2 v3 v4 ≥ quorumThreshold 5 ↔
      [v0, v1, v2, v3, v4].length < 2 * [v0, v1, v2, v3, v4].count x := by
  rw [ge_iff_le, UInt32.le_iff_toNat_le, toNat_count5, quorumThreshold_five]
  simp only [List.length_cons, List.length_nil]
  omega

theorem hasQuorumK_iff :
    hasQuorumK (maxAgree5 v0 v1 v2 v3 v4) (quorumThreshold 5) = 1 ↔
      ∃ x, majority [v0, v1, v2, v3, v4] = some x := by
  simp only [hasQuorumK_eq_one_iff, quorumThreshold_five, majority_eq_some_iff,
    ← three_le_count5_iff, ge_iff_le, UInt32.le_iff_toNat_le, maxAgree5, toNat_max2, le_max_iff]
  constructor
  · rintro (((h | h) | h | h) | h)
    · exact ⟨v0, h⟩
    · exact ⟨v1, h⟩
    · exact ⟨v2, h⟩
    · exact ⟨v3, h⟩
    · exact ⟨v4, h⟩
  · rintro ⟨x, h⟩
    have hmem : x ∈ [v0, v1, v2, v3, v4] := by
      rw [toNat_count5] at h
      exact List.count_pos_iff.mp (by omega)
    simp only [List.mem_cons, List.not_mem_nil, or_false] at hmem
    rcases hmem with rfl | rfl | rfl | rfl | rfl
    · exact .inl (.inl (.inl h))
    · exact .inl (.inl (.inr h))
    · exact .inl (.inr (.inl h))
    · exact .inl (.inr (.inr h))
    · exact .inr h

theorem quorumValue5_eq {x : UInt32} (h : majority [v0, v1, v2, v3, v4] = some x) :
    quorumValue5 v0 v1 v2 v3 v4 (quorumThreshold 5) = x := by
  have hx := majority_eq_some_iff.mp h
  have hmem : x ∈ [v0, v1, v2, v3, v4] := List.count_pos_iff.mp (by omega)
  have hunique {y : UInt32} (hy : count5 y v0 v1 v2 v3 v4 ≥ quorumThreshold 5) : y = x :=
    eq_of_counts ((three_le_count5_iff v0 v1 v2 v3 v4 y).mp hy) hx
  have hfound : count5 x v0 v1 v2 v3 v4 ≥ quorumThreshold 5 :=
    (three_le_count5_iff v0 v1 v2 v3 v4 x).mpr hx
  rw [quorumValue5]
  split_ifs with h0 h1 h2 h3 h4
  · exact hunique h0
  · exact hunique h1
  · exact hunique h2
  · exact hunique h3
  · exact hunique h4
  · -- the value is one of the five votes
    simp only [List.mem_cons, List.not_mem_nil, or_false] at hmem
    rcases hmem with rfl | rfl | rfl | rfl | rfl
    · exact absurd hfound h0
    · exact absurd hfound h1
    · exact absurd hfound h2
    · exact absurd hfound h3
    · exact absurd hfound h4

theorem quorum5_eq {β : Type} (resolution : UInt32 → β) (split : β) :
    (if hasQuorumK (maxAgree5 v0 v1 v2 v3 v4) (quorumThreshold 5) = 1 then
        resolution (quorumValue5 v0 v1 v2 v3 v4 (quorumThreshold 5))
      else split) =
      (majority [v0, v1, v2, v3, v4]).elim split resolution := by
  cases h : majority [v0, v1, v2, v3, v4] with
  | none =>
      have hno : ¬hasQuorumK (maxAgree5 v0 v1 v2 v3 v4) (quorumThreshold 5) = 1 := by
        rw [hasQuorumK_iff, h]
        simp
      rw [if_neg hno, Option.elim_none]
  | some x => rw [if_pos ((hasQuorumK_iff ..).mpr ⟨x, h⟩), quorumValue5_eq v0 v1 v2 v3 v4 h,
      Option.elim_some]

theorem honestShare5_le {agreed : UInt32}
    (h : ∀ y, [v0, v1, v2, v3, v4].count y ≤ [v0, v1, v2, v3, v4].count agreed) (stake : UInt32) :
    [v0, v1, v2, v3, v4].count agreed * (honestShare5 v0 v1 v2 v3 v4 stake).toNat ≤
        (burnedTotal5 v0 v1 v2 v3 v4 stake).toNat ∧
      (burnedTotal5 v0 v1 v2 v3 v4 stake).toNat ≤ dissent agreed [v0, v1, v2, v3, v4] * stake.toNat := by
  have hagree := toNat_maxAgree5 v0 v1 v2 v3 v4 h
  have hall := count_add_dissent agreed [v0, v1, v2, v3, v4]
  have hlength : [v0, v1, v2, v3, v4].length = 5 := rfl
  have hle : maxAgree5 v0 v1 v2 v3 v4 ≤ 5 := by
    rw [UInt32.le_iff_toNat_le, hagree]
    exact (Nat.le_add_right _ _).trans (hall.trans hlength).le
  have hdissent : (dissenterCount5 v0 v1 v2 v3 v4).toNat = dissent agreed [v0, v1, v2, v3, v4] := by
    rw [dissenterCount5, UInt32.toNat_sub_of_le _ _ hle, hagree]
    have hfive : (5 : UInt32).toNat = 5 := rfl
    omega
  constructor
  · rw [honestShare5, verifierReward]
    split
    · exact Nat.zero_le _
    · rw [← hagree, UInt64.toNat_toUInt32, UInt64.toNat_div, UInt32.toNat_toUInt64, UInt32.toNat_toUInt64]
      exact (Nat.mul_le_mul_left _ (Nat.mod_le _ _)).trans (Nat.mul_div_le _ _)
  · rw [burnedTotal5, toNat_saturate, toNat_mul_widened, hdissent]
    exact Nat.min_le_left _ _

end Five

/-- The compute dispute under a quorum: a minority of the verifiers changes
nothing, nor does their order, and the agreeing verifiers of five share at most
what the others lost. -/
theorem quorum_outvotes_minority
    (lastEpoch disputeEpoch settledFamily disputeFamily settledLeaf disputeLeaf
      claimedResult honest : UInt32) :
    (∀ v0 v1 v2, dissent honest [v0, v1, v2] ≤ 1 →
      resolveQuorum3 lastEpoch disputeEpoch settledFamily disputeFamily settledLeaf disputeLeaf
        claimedResult v0 v1 v2 =
        resolveFull lastEpoch disputeEpoch settledFamily disputeFamily settledLeaf disputeLeaf
          claimedResult honest) ∧
    (∀ v0 v1 v2 v3 v4, dissent honest [v0, v1, v2, v3, v4] ≤ 2 →
      resolveQuorum5 lastEpoch disputeEpoch settledFamily disputeFamily settledLeaf disputeLeaf
          claimedResult v0 v1 v2 v3 v4 =
        resolveFull lastEpoch disputeEpoch settledFamily disputeFamily settledLeaf disputeLeaf
          claimedResult honest) ∧
    (∀ v0 v1 v2 w0 w1 w2, [v0, v1, v2].Perm [w0, w1, w2] →
      resolveQuorum3 lastEpoch disputeEpoch settledFamily disputeFamily settledLeaf disputeLeaf
        claimedResult v0 v1 v2 =
        resolveQuorum3 lastEpoch disputeEpoch settledFamily disputeFamily settledLeaf disputeLeaf
          claimedResult w0 w1 w2) ∧
    (∀ v0 v1 v2 v3 v4 w0 w1 w2 w3 w4, [v0, v1, v2, v3, v4].Perm [w0, w1, w2, w3, w4] →
      resolveQuorum5 lastEpoch disputeEpoch settledFamily disputeFamily settledLeaf disputeLeaf
          claimedResult v0 v1 v2 v3 v4 =
        resolveQuorum5 lastEpoch disputeEpoch settledFamily disputeFamily settledLeaf disputeLeaf
          claimedResult w0 w1 w2 w3 w4) ∧
    ∀ v0 v1 v2 v3 v4 agreed stake,
      (∀ y, [v0, v1, v2, v3, v4].count y ≤ [v0, v1, v2, v3, v4].count agreed) →
        [v0, v1, v2, v3, v4].count agreed * (honestShare5 v0 v1 v2 v3 v4 stake).toNat ≤
            (burnedTotal5 v0 v1 v2 v3 v4 stake).toNat ∧
          (burnedTotal5 v0 v1 v2 v3 v4 stake).toNat ≤
            dissent agreed [v0, v1, v2, v3, v4] * stake.toNat := by
  refine ⟨?_, ?_, ?_, ?_, ?_⟩
  · intro v0 v1 v2 h
    rw [resolveQuorum3, quorum3_eq, majority_of_dissent (x := honest), Option.elim_some]
    simp only [List.length_cons, List.length_nil]
    omega
  · intro v0 v1 v2 v3 v4 h
    rw [resolveQuorum5, quorum5_eq, majority_of_dissent (x := honest), Option.elim_some]
    simp only [List.length_cons, List.length_nil]
    omega
  · intro v0 v1 v2 w0 w1 w2 h
    rw [resolveQuorum3, quorum3_eq, majority_perm h, ← quorum3_eq, ← resolveQuorum3]
  · intro v0 v1 v2 v3 v4 w0 w1 w2 w3 w4 h
    rw [resolveQuorum5, quorum5_eq, majority_perm h, ← quorum5_eq, ← resolveQuorum5]
  · intro v0 v1 v2 v3 v4 agreed stake h
    exact honestShare5_le v0 v1 v2 v3 v4 h stake

/-- Two of five lie, in different ways, and their stakes of 100 are shared by
the other three. -/
theorem quorum_outvotes_minority_twoLiars :
    dissent 7 [7, 9, 7, 8, (7 : UInt32)] ≤ 2 ∧
      resolveQuorum5 0 1 0 0 5 5 7 7 9 7 8 7 = resolveFull 0 1 0 0 5 5 7 7 ∧
      3 * (honestShare5 7 9 7 8 7 100).toNat ≤ (burnedTotal5 7 9 7 8 7 100).toNat ∧
        honestShare5 7 9 7 8 7 100 = 66 := by
  have hmost (y : UInt32) : [7, 9, 7, 8, 7].count y ≤ [7, 9, 7, 8, (7 : UInt32)].count 7 := by
    have hall := count_add_dissent 7 [7, 9, 7, 8, (7 : UInt32)]
    by_cases hy : y = 7
    · rw [hy]
    · have hother : [7, 9, 7, 8, 7].count y ≤ [7, 9, 7, 8, (7 : UInt32)].countP (fun z => z ≠ 7) := by
        apply List.countP_mono_left
        intro z _ hz
        obtain rfl := beq_iff_eq.mp hz
        exact decide_eq_true hy
      exact hother.trans (by decide)
  have h := quorum_outvotes_minority 0 1 0 0 5 5 7 7
  exact ⟨by decide, h.2.1 7 9 7 8 7 (by decide), (h.2.2.2.2 7 9 7 8 7 7 100 hmost).1, by decide⟩

structure Report where
  value : UInt32
  ternaryOk : UInt32
  deriving DecidableEq

/-- The flags add up to the threshold or more exactly if the honest one is set. -/
def FlagsAgree (threshold : Nat) (honest : UInt32) (flags : List UInt32) : Prop :=
  threshold ≤ (flags.map UInt32.toNat).sum ↔ honest = 1

instance (threshold : Nat) (honest : UInt32) (flags : List UInt32) :
    Decidable (FlagsAgree threshold honest flags) :=
  inferInstanceAs (Decidable (_ ↔ _))

theorem map_majorityFlag_eq_some_iff {α : Type} (threshold : Nat) (flags : List UInt32)
    (resolution : UInt32 → α) (outcome : α) :
    (majorityFlag threshold flags).map resolution = some outcome ↔
      (flags.map UInt32.toNat).sum < 2 ^ 32 ∧
        resolution (if threshold ≤ (flags.map UInt32.toNat).sum then 1 else 0) = outcome := by
  rw [majorityFlag, Checked.sum_eq]
  by_cases hfits : (flags.map UInt32.toNat).sum < 2 ^ 32
  · rw [if_pos hfits, Option.map_some, Option.map_some, Option.some_inj, and_iff_right hfits]
  · rw [if_neg hfits]
    exact iff_of_false (Option.some_ne_none _).symm (fun h => hfits h.1)

theorem ite_eq_one_iff (p : Prop) [Decidable p] : (if p then (1 : UInt32) else 0) = 1 ↔ p := by
  split
  · next h => exact iff_of_true rfl h
  · next h => exact iff_of_false (by decide) h

theorem resolveBitnet_eq_iff (settledLeaf disputeLeaf claimedResult value flag flag' : UInt32) :
    resolveBitnet settledLeaf disputeLeaf claimedResult value flag =
        resolveBitnet settledLeaf disputeLeaf claimedResult value flag' ↔
      (settledLeaf = disputeLeaf → claimedResult = value → (flag = 1 ↔ flag' = 1)) := by
  rw [resolveBitnet, resolveBitnet]
  by_cases hleaf : settledLeaf = disputeLeaf
  · by_cases hvalue : claimedResult = value
    · by_cases hflag : flag = 1 <;> by_cases hflag' : flag' = 1 <;>
        simp [resolveBound, hleaf, hvalue, hflag, hflag', resolveHonest, resolveSlash]
    · by_cases hflag : flag = 1 <;> by_cases hflag' : flag' = 1 <;>
        simp [resolveBound, hleaf, hvalue, hflag, hflag']
  · simp [hleaf]

theorem guarded_eq_iff (lastEpoch disputeEpoch settledFamily disputeFamily outcome outcome' : UInt32) :
    guarded lastEpoch disputeEpoch settledFamily disputeFamily outcome =
        guarded lastEpoch disputeEpoch settledFamily disputeFamily outcome' ↔
      (lastEpoch < disputeEpoch → settledFamily = disputeFamily → outcome = outcome') := by
  rw [guarded, guarded]
  by_cases hfresh : lastEpoch < disputeEpoch
  · by_cases hfamily : settledFamily = disputeFamily <;> simp [hfresh, hfamily]
  · simp [hfresh]

/-! The four BitNet resolvers on whole reports. -/

namespace Report

variable (lastEpoch disputeEpoch settledFamily disputeFamily settledLeaf disputeLeaf
  claimedResult : UInt32)

def quorum (r0 r1 r2 : Report) : Option UInt32 :=
  resolveBitnetQuorum settledLeaf disputeLeaf claimedResult r0.value r1.value r2.value r0.ternaryOk
    r1.ternaryOk r2.ternaryOk

def quorumFull (r0 r1 r2 : Report) : Option UInt32 :=
  resolveBitnetQuorumFull lastEpoch disputeEpoch settledFamily disputeFamily settledLeaf disputeLeaf
    claimedResult r0.value r1.value r2.value r0.ternaryOk r1.ternaryOk r2.ternaryOk

def quorum5 (r0 r1 r2 r3 r4 : Report) : Option UInt32 :=
  resolveBitnetQuorum5 settledLeaf disputeLeaf claimedResult r0.value r1.value r2.value r3.value
    r4.value r0.ternaryOk r1.ternaryOk r2.ternaryOk r3.ternaryOk r4.ternaryOk

def quorum5Full (r0 r1 r2 r3 r4 : Report) : Option UInt32 :=
  resolveBitnetQuorum5Full lastEpoch disputeEpoch settledFamily disputeFamily settledLeaf
    disputeLeaf claimedResult
    r0.value r1.value r2.value r3.value r4.value r0.ternaryOk r1.ternaryOk r2.ternaryOk
      r3.ternaryOk r4.ternaryOk

variable {honest r0 r1 r2 r3 r4 : Report}

theorem majority_values (reports : List Report) (h : 2 * dissent honest reports < reports.length) :
    majority (reports.map value) = some honest.value := by
  have hle := dissent_map_le value honest reports
  apply majority_of_dissent
  rw [List.length_map]
  omega

theorem quorum_eq (h : dissent honest [r0, r1, r2] ≤ 1) :
    quorum settledLeaf disputeLeaf claimedResult r0 r1 r2 =
        (majorityFlag 2 [r0.ternaryOk, r1.ternaryOk, r2.ternaryOk]).map
          (resolveBitnet settledLeaf disputeLeaf claimedResult honest.value) ∧
      quorumFull lastEpoch disputeEpoch settledFamily disputeFamily settledLeaf disputeLeaf
        claimedResult r0 r1 r2 =
        (majorityFlag 2 [r0.ternaryOk, r1.ternaryOk, r2.ternaryOk]).map
          (resolveBitnetFull lastEpoch disputeEpoch settledFamily disputeFamily settledLeaf
            disputeLeaf claimedResult honest.value) := by
  have hvalue : majority [r0.value, r1.value, r2.value] = some honest.value := by
    apply majority_values [r0, r1, r2]
    simp only [List.length_cons, List.length_nil]
    omega
  constructor
  · rw [quorum, resolveBitnetQuorum,
      quorum3_eq (fun v => Option.map (resolveBitnet settledLeaf disputeLeaf claimedResult v) _),
      hvalue, Option.elim_some, majorityFlag3]
  · rw [quorumFull, resolveBitnetQuorumFull,
      quorum3_eq (fun v =>
        Option.map (resolveBitnetFull _ _ _ _ settledLeaf disputeLeaf claimedResult v) _), hvalue,
      Option.elim_some, majorityFlag3]

theorem quorum5_eq (h : dissent honest [r0, r1, r2, r3, r4] ≤ 2) :
    quorum5 settledLeaf disputeLeaf claimedResult r0 r1 r2 r3 r4 =
        (majorityFlag 3 [r0.ternaryOk, r1.ternaryOk, r2.ternaryOk, r3.ternaryOk, r4.ternaryOk]).map
          (resolveBitnet settledLeaf disputeLeaf claimedResult honest.value) ∧
      quorum5Full lastEpoch disputeEpoch settledFamily disputeFamily settledLeaf disputeLeaf
          claimedResult r0 r1 r2 r3 r4 =
        (majorityFlag 3 [r0.ternaryOk, r1.ternaryOk, r2.ternaryOk, r3.ternaryOk, r4.ternaryOk]).map
          (resolveBitnetFull lastEpoch disputeEpoch settledFamily disputeFamily settledLeaf
            disputeLeaf claimedResult honest.value) := by
  have hvalue : majority [r0.value, r1.value, r2.value, r3.value, r4.value] = some honest.value := by
    apply majority_values [r0, r1, r2, r3, r4]
    simp only [List.length_cons, List.length_nil]
    omega
  constructor
  · rw [quorum5, resolveBitnetQuorum5,
      Compute.quorum5_eq
        _ _ _ _ _ (fun v => Option.map (resolveBitnet settledLeaf disputeLeaf claimedResult v) _),
      hvalue, Option.elim_some, majorityFlag5]
  · rw [quorum5Full, resolveBitnetQuorum5Full,
      Compute.quorum5_eq _ _ _ _ _
        (fun v => Option.map (resolveBitnetFull _ _ _ _ settledLeaf disputeLeaf claimedResult v) _),
      hvalue, Option.elim_some, majorityFlag5]

/-- The resolution on the flags of a set against the one on the honest flag. -/
theorem map_majorityFlag_resolveBitnet_iff (threshold : Nat) (flags : List UInt32) (value flag : UInt32) :
    (majorityFlag threshold flags).map (resolveBitnet settledLeaf disputeLeaf claimedResult value) =
        some (resolveBitnet settledLeaf disputeLeaf claimedResult value flag) ↔
      (flags.map UInt32.toNat).sum < 2 ^ 32 ∧
        (settledLeaf = disputeLeaf → claimedResult = value → FlagsAgree threshold flag flags) := by
  rw [map_majorityFlag_eq_some_iff, resolveBitnet_eq_iff, ite_eq_one_iff, FlagsAgree]

theorem map_majorityFlag_resolveBitnetFull_iff (threshold : Nat) (flags : List UInt32)
    (value flag : UInt32) :
    (majorityFlag threshold flags).map
      (resolveBitnetFull lastEpoch disputeEpoch settledFamily disputeFamily
          settledLeaf disputeLeaf claimedResult value) =
        some (resolveBitnetFull lastEpoch disputeEpoch settledFamily disputeFamily settledLeaf
          disputeLeaf claimedResult value flag) ↔
      (flags.map UInt32.toNat).sum < 2 ^ 32 ∧
        (lastEpoch < disputeEpoch → settledFamily = disputeFamily → settledLeaf = disputeLeaf →
          claimedResult = value → FlagsAgree threshold flag flags) := by
  rw [map_majorityFlag_eq_some_iff, resolveBitnetFull, resolveBitnetFull, guarded_eq_iff,
    resolveBitnet_eq_iff, ite_eq_one_iff, FlagsAgree]

theorem dissent_unanimous (honest : Report) :
    dissent honest [honest, honest, honest] ≤ 1 ∧
      dissent honest [honest, honest, honest, honest, honest] ≤ 2 := by
  simp [dissent]

/-- A lone liar of three, or two of five, cannot change a BitNet dispute exactly
if the flags add up without a trap and the dispute does not turn on the ternary
flag or their sum still tells the honest one. -/
theorem quorum_robust_iff (honest : Report) (hflag : honest.ternaryOk = 0 ∨ honest.ternaryOk = 1) :
    (∀ r0 r1 r2, dissent honest [r0, r1, r2] ≤ 1 →
      (quorum settledLeaf disputeLeaf claimedResult r0 r1 r2 =
          quorum settledLeaf disputeLeaf claimedResult honest honest honest ↔
        ([r0.ternaryOk, r1.ternaryOk, r2.ternaryOk].map UInt32.toNat).sum < 2 ^ 32 ∧
          (settledLeaf = disputeLeaf → claimedResult = honest.value →
            FlagsAgree 2 honest.ternaryOk [r0.ternaryOk, r1.ternaryOk, r2.ternaryOk])) ∧
      (quorumFull lastEpoch disputeEpoch settledFamily disputeFamily settledLeaf disputeLeaf
        claimedResult r0 r1 r2 =
          quorumFull lastEpoch disputeEpoch settledFamily disputeFamily settledLeaf disputeLeaf
            claimedResult honest honest honest ↔
        ([r0.ternaryOk, r1.ternaryOk, r2.ternaryOk].map UInt32.toNat).sum < 2 ^ 32 ∧
          (lastEpoch < disputeEpoch → settledFamily = disputeFamily → settledLeaf = disputeLeaf →
            claimedResult = honest.value →
              FlagsAgree 2 honest.ternaryOk [r0.ternaryOk, r1.ternaryOk, r2.ternaryOk]))) ∧
    ∀ r0 r1 r2 r3 r4, dissent honest [r0, r1, r2, r3, r4] ≤ 2 →
      (quorum5 settledLeaf disputeLeaf claimedResult r0 r1 r2 r3 r4 =
          quorum5 settledLeaf disputeLeaf claimedResult honest honest honest honest honest ↔
        ([r0.ternaryOk, r1.ternaryOk, r2.ternaryOk, r3.ternaryOk, r4.ternaryOk].map
          UInt32.toNat).sum < 2 ^ 32 ∧
          (settledLeaf = disputeLeaf → claimedResult = honest.value →
            FlagsAgree 3 honest.ternaryOk
              [r0.ternaryOk, r1.ternaryOk, r2.ternaryOk, r3.ternaryOk, r4.ternaryOk])) ∧
      (quorum5Full lastEpoch disputeEpoch settledFamily disputeFamily settledLeaf disputeLeaf
            claimedResult r0 r1 r2 r3 r4 =
          quorum5Full lastEpoch disputeEpoch settledFamily disputeFamily settledLeaf disputeLeaf
            claimedResult honest honest honest honest honest ↔
        ([r0.ternaryOk, r1.ternaryOk, r2.ternaryOk, r3.ternaryOk, r4.ternaryOk].map
          UInt32.toNat).sum < 2 ^ 32 ∧
          (lastEpoch < disputeEpoch → settledFamily = disputeFamily → settledLeaf = disputeLeaf →
            claimedResult = honest.value →
              FlagsAgree 3 honest.ternaryOk
                [r0.ternaryOk, r1.ternaryOk, r2.ternaryOk, r3.ternaryOk, r4.ternaryOk])) := by
  obtain ⟨hthree, hfive⟩ := dissent_unanimous honest
  have hflag3 : majorityFlag 2 [honest.ternaryOk, honest.ternaryOk, honest.ternaryOk] =
      some honest.ternaryOk := by
    rcases hflag with h | h <;> rw [h] <;> decide
  have hflag5 : majorityFlag 3 [honest.ternaryOk, honest.ternaryOk, honest.ternaryOk, honest.ternaryOk,
      honest.ternaryOk] = some honest.ternaryOk := by
    rcases hflag with h | h <;> rw [h] <;> decide
  constructor
  · intro r0 r1 r2 h
    obtain ⟨hbare, hfull⟩ :=
      quorum_eq lastEpoch disputeEpoch settledFamily disputeFamily settledLeaf disputeLeaf claimedResult h
    obtain ⟨hbare', hfull'⟩ :=
      quorum_eq lastEpoch disputeEpoch settledFamily disputeFamily settledLeaf disputeLeaf
        claimedResult hthree
    rw [hfull, hfull', hbare, hbare', hflag3, Option.map_some, Option.map_some]
    exact ⟨map_majorityFlag_resolveBitnet_iff .., map_majorityFlag_resolveBitnetFull_iff ..⟩
  · intro r0 r1 r2 r3 r4 h
    obtain ⟨hbare, hfull⟩ :=
      quorum5_eq lastEpoch disputeEpoch settledFamily disputeFamily settledLeaf disputeLeaf claimedResult h
    obtain ⟨hbare', hfull'⟩ :=
      quorum5_eq lastEpoch disputeEpoch settledFamily disputeFamily settledLeaf
        disputeLeaf claimedResult hfive
    rw [hfull, hfull', hbare, hbare', hflag5, Option.map_some, Option.map_some]
    exact ⟨map_majorityFlag_resolveBitnet_iff .., map_majorityFlag_resolveBitnetFull_iff ..⟩

/-- A lone verifier that reports another value and the other flag is outvoted. -/
theorem quorum_robust_lone :
    dissent ⟨7, 0⟩ [⟨7, 0⟩, ⟨9, 1⟩, (⟨7, 0⟩ : Report)] ≤ 1 ∧
      quorumFull 0 1 0 0 5 5 7 ⟨7, 0⟩ ⟨9, 1⟩ ⟨7, 0⟩ = quorumFull 0 1 0 0 5 5 7 ⟨7, 0⟩ ⟨7, 0⟩ ⟨7, 0⟩ := by
  have h := (quorum_robust_iff 0 1 0 0 5 5 7 ⟨7, 0⟩ (.inl rfl)).1 ⟨7, 0⟩ ⟨9, 1⟩ ⟨7, 0⟩ (by decide)
  exact ⟨by decide, h.2.mpr ⟨by decide, fun _ _ _ _ => by decide⟩⟩

/-- A flag of two counts for two, so one liar clears a layer whose ternary part
failed; a flag of all ones, or two of `0x80000000`, trap the resolver. -/
theorem oversized_flag_decides :
    dissent ⟨7, 0⟩ [⟨7, 0⟩, ⟨7, 0⟩, (⟨7, 2⟩ : Report)] ≤ 1 ∧
      quorum 5 5 7 ⟨7, 0⟩ ⟨7, 0⟩ ⟨7, 2⟩ = some resolveHonest ∧
      quorum 5 5 7 ⟨7, 0⟩ ⟨7, 0⟩ ⟨7, 0⟩ = some resolveSlash ∧
      dissent ⟨7, 1⟩ [⟨7, 1⟩, ⟨7, 1⟩, (⟨7, 0xFFFFFFFF⟩ : Report)] ≤ 1 ∧
      quorum 5 5 7 ⟨7, 1⟩ ⟨7, 1⟩ ⟨7, 0xFFFFFFFF⟩ = none ∧
      quorum 5 5 7 ⟨7, 1⟩ ⟨7, 1⟩ ⟨7, 1⟩ = some resolveHonest ∧
      dissent ⟨7, 1⟩ [⟨7, 1⟩, ⟨7, 1⟩, ⟨7, 1⟩, ⟨7, 0x80000000⟩, (⟨7, 0x80000000⟩ : Report)] ≤ 2 ∧
      quorum5 5 5 7 ⟨7, 1⟩ ⟨7, 1⟩ ⟨7, 1⟩ ⟨7, 0x80000000⟩ ⟨7, 0x80000000⟩ = none ∧
      quorum5 5 5 7 ⟨7, 1⟩ ⟨7, 1⟩ ⟨7, 1⟩ ⟨7, 1⟩ ⟨7, 1⟩ = some resolveHonest ∧
      quorum5 5 5 7 ⟨7, 0⟩ ⟨7, 0⟩ ⟨7, 0⟩ ⟨7, 0⟩ ⟨7, 3⟩ = some resolveHonest ∧
      quorum5 5 5 7 ⟨7, 0⟩ ⟨7, 0⟩ ⟨7, 0⟩ ⟨7, 0⟩ ⟨7, 0⟩ = some resolveSlash := by
  decide

end Report

end TriNet.Compute
