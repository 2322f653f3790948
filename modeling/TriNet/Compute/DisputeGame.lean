import TriNet.Compute.Receipt
import TriNet.Lib.Checked
import TriNet.Lib.Runs
import Mathlib.Data.List.Nodup

namespace TriNet.Compute

open Lib Lib.Runs

def resolveStale : UInt32 := 3
def resolveFamilyMismatch : UInt32 := 4
def resolveIndeterminate : UInt32 := 5
def resolveRungMismatch : UInt32 := 6

def executorBondAfter (prevBond outcome : UInt32) : UInt32 :=
  if outcome = resolveSlash then 0 else prevBond

def challengerStakeAfterBound (stake outcome : UInt32) : UInt32 :=
  if outcome = resolveSlash then stake
  else if outcome = resolveStale then stake
  else if outcome = resolveIndeterminate then stake
  else 0

def resolverEpochAfter (lastEpoch disputeEpoch outcome : UInt32) : UInt32 :=
  if outcome = resolveHonest then disputeEpoch
  else if outcome = resolveSlash then disputeEpoch
  else lastEpoch

/-- The order all full resolvers share: freshness, then family, then what the
dispute is about. -/
def guarded (lastEpoch disputeEpoch settledFamily disputeFamily outcome : UInt32) : UInt32 :=
  if disputeEpoch > lastEpoch then
    if settledFamily = disputeFamily then outcome else resolveFamilyMismatch
  else resolveStale

def resolveFull (lastEpoch disputeEpoch settledFamily disputeFamily settledLeaf disputeLeaf claimedResult
    recomputedResult : UInt32) : UInt32 :=
  guarded lastEpoch disputeEpoch settledFamily disputeFamily
    (resolveBound settledLeaf disputeLeaf claimedResult recomputedResult)

def resolveFullRung
    (lastEpoch disputeEpoch settledFamily disputeFamily settledEt disputeEt settledLeaf disputeLeaf
    claimedResult recomputedResult : UInt32) : UInt32 :=
  guarded lastEpoch disputeEpoch settledFamily disputeFamily
    (if settledEt = disputeEt then resolveBound settledLeaf disputeLeaf claimedResult
     recomputedResult else resolveRungMismatch)

def resolveBoundD256 (leafMatch claimedResult recomputedResult : UInt32) : UInt32 :=
  if leafMatch = 1 then
    if claimedResult = recomputedResult then resolveHonest else resolveSlash
  else resolveMalformed

def resolveFullD256 (lastEpoch disputeEpoch settledFamily disputeFamily leafMatch claimedResult
    recomputedResult : UInt32) : UInt32 :=
  guarded lastEpoch disputeEpoch settledFamily disputeFamily
    (resolveBoundD256 leafMatch claimedResult recomputedResult)

def resolveBitnet (settledLeaf disputeLeaf claimedResult recomputedResult ternaryOk : UInt32) : UInt32 :=
  if settledLeaf = disputeLeaf then
    if ternaryOk = 1 then resolveBound settledLeaf disputeLeaf claimedResult recomputedResult
    else resolveSlash
  else resolveMalformed

def resolveBitnetFull
    (lastEpoch disputeEpoch settledFamily disputeFamily settledLeaf disputeLeaf claimedResult
    recomputedResult ternaryOk : UInt32) : UInt32 :=
  guarded lastEpoch disputeEpoch settledFamily disputeFamily
    (resolveBitnet settledLeaf disputeLeaf claimedResult recomputedResult ternaryOk)

def resolveBitnetD256 (leafMatch claimedResult recomputedResult ternaryOk : UInt32) : UInt32 :=
  if leafMatch = 1 then
    if ternaryOk = 1 then
      if claimedResult = recomputedResult then resolveHonest else resolveSlash
    else resolveSlash
  else resolveMalformed

def resolveBitnetD256Full
    (lastEpoch disputeEpoch settledFamily disputeFamily leafMatch claimedResult recomputedResult
    ternaryOk : UInt32) : UInt32 :=
  guarded lastEpoch disputeEpoch settledFamily disputeFamily
    (resolveBitnetD256 leafMatch claimedResult recomputedResult ternaryOk)

/-- The flags are added with plain `+`, which traps on overflow. -/
def majorityFlag (threshold : Nat) (flags : List UInt32) : Option UInt32 :=
  (Checked.sum 32 (flags.map UInt32.toNat)).map (fun sum => if sum ≥ threshold then 1 else 0)

def majorityFlag3 (a b c : UInt32) : Option UInt32 := majorityFlag 2 [a, b, c]

def majorityFlag5 (a b c d e : UInt32) : Option UInt32 := majorityFlag 3 [a, b, c, d, e]

def verifierQuorum3 (v0 v1 v2 : UInt32) : UInt32 :=
  if v0 = v1 then 1
  else if v0 = v2 then 1
  else if v1 = v2 then 1
  else 0

def quorumResult3 (v0 v1 v2 : UInt32) : UInt32 :=
  if v0 = v1 then v0
  else if v0 = v2 then v0
  else if v1 = v2 then v1
  else v0

def resolveQuorum3
    (lastEpoch disputeEpoch settledFamily disputeFamily settledLeaf disputeLeaf claimedResult
    v0 v1 v2 : UInt32) : UInt32 :=
  if verifierQuorum3 v0 v1 v2 = 1 then
    resolveFull lastEpoch disputeEpoch settledFamily disputeFamily settledLeaf disputeLeaf
      claimedResult (quorumResult3 v0 v1 v2)
  else resolveIndeterminate

def resolveBitnetQuorumFull
    (lastEpoch disputeEpoch settledFamily disputeFamily settledLeaf disputeLeaf claimedResult
    v0 v1 v2 t0 t1 t2 : UInt32) : Option UInt32 :=
  if verifierQuorum3 v0 v1 v2 = 1 then
    (majorityFlag3 t0 t1 t2).map
      (resolveBitnetFull lastEpoch disputeEpoch settledFamily disputeFamily settledLeaf
      disputeLeaf claimedResult (quorumResult3 v0 v1 v2))
  else some resolveIndeterminate

def quorumThreshold (n : UInt32) : UInt32 := (n >>> 1) + 1

def hasQuorumK (agreeCount k : UInt32) : UInt32 := if agreeCount ≥ k then 1 else 0

def eq1 (a b : UInt32) : UInt32 := if a = b then 1 else 0

def max2 (a b : UInt32) : UInt32 := if a ≥ b then a else b

def count5 (x v0 v1 v2 v3 v4 : UInt32) : UInt32 := eq1 x v0 + eq1 x v1 + eq1 x v2 + eq1 x v3 + eq1 x v4

def maxAgree5 (v0 v1 v2 v3 v4 : UInt32) : UInt32 :=
  let c0 := count5 v0 v0 v1 v2 v3 v4
  let c1 := count5 v1 v0 v1 v2 v3 v4
  let c2 := count5 v2 v0 v1 v2 v3 v4
  let c3 := count5 v3 v0 v1 v2 v3 v4
  let c4 := count5 v4 v0 v1 v2 v3 v4
  max2 (max2 (max2 c0 c1) (max2 c2 c3)) c4

def quorumValue5 (v0 v1 v2 v3 v4 k : UInt32) : UInt32 :=
  if count5 v0 v0 v1 v2 v3 v4 ≥ k then v0
  else if count5 v1 v0 v1 v2 v3 v4 ≥ k then v1
  else if count5 v2 v0 v1 v2 v3 v4 ≥ k then v2
  else if count5 v3 v0 v1 v2 v3 v4 ≥ k then v3
  else if count5 v4 v0 v1 v2 v3 v4 ≥ k then v4
  else v0

def resolveQuorum5
    (lastEpoch disputeEpoch settledFamily disputeFamily settledLeaf disputeLeaf claimedResult
    v0 v1 v2 v3 v4 : UInt32) : UInt32 :=
  if hasQuorumK (maxAgree5 v0 v1 v2 v3 v4) (quorumThreshold 5) = 1 then
    resolveFull lastEpoch disputeEpoch settledFamily disputeFamily settledLeaf disputeLeaf
      claimedResult (quorumValue5 v0 v1 v2 v3 v4 (quorumThreshold 5))
  else resolveIndeterminate

def resolveBitnetQuorum5Full
    (lastEpoch disputeEpoch settledFamily disputeFamily settledLeaf disputeLeaf claimedResult
    v0 v1 v2 v3 v4 t0 t1 t2 t3 t4 : UInt32) : Option UInt32 :=
  if hasQuorumK (maxAgree5 v0 v1 v2 v3 v4) (quorumThreshold 5) = 1 then
    (majorityFlag5 t0 t1 t2 t3 t4).map
      (resolveBitnetFull lastEpoch disputeEpoch settledFamily disputeFamily
      settledLeaf disputeLeaf claimedResult (quorumValue5 v0 v1 v2 v3 v4 (quorumThreshold 5)))
  else some resolveIndeterminate

/-- What a dispute brings beside its epoch: the families, and the fields of the
resolver it is submitted to. -/
inductive Evidence
  | full (settledLeaf disputeLeaf claimedResult recomputedResult : UInt32)
  | rung (settledEt disputeEt settledLeaf disputeLeaf claimedResult recomputedResult : UInt32)
  | d256 (leafMatch claimedResult recomputedResult : UInt32)
  | bitnet (settledLeaf disputeLeaf claimedResult recomputedResult ternaryOk : UInt32)
  | bitnetD256 (leafMatch claimedResult recomputedResult ternaryOk : UInt32)
  | quorum3 (settledLeaf disputeLeaf claimedResult v0 v1 v2 : UInt32)
  | quorum5 (settledLeaf disputeLeaf claimedResult v0 v1 v2 v3 v4 : UInt32)
  | bitnetQuorum (settledLeaf disputeLeaf claimedResult v0 v1 v2 t0 t1 t2 : UInt32)
  | bitnetQuorum5 (settledLeaf disputeLeaf claimedResult v0 v1 v2 v3 v4 t0 t1 t2 t3 t4 : UInt32)

/-- The outcome, or a trap. -/
def Evidence.resolve (lastEpoch disputeEpoch settledFamily disputeFamily : UInt32) :
    Evidence → Option UInt32
  | full settledLeaf disputeLeaf claimed recomputed =>
      some (resolveFull lastEpoch disputeEpoch settledFamily disputeFamily settledLeaf
        disputeLeaf claimed recomputed)
  | rung settledEt disputeEt settledLeaf disputeLeaf claimed recomputed =>
      some (resolveFullRung lastEpoch disputeEpoch settledFamily disputeFamily settledEt disputeEt
        settledLeaf disputeLeaf claimed recomputed)
  | d256 leafMatch claimed recomputed =>
      some (resolveFullD256 lastEpoch disputeEpoch settledFamily disputeFamily
        leafMatch claimed recomputed)
  | bitnet settledLeaf disputeLeaf claimed recomputed ternaryOk =>
      some (resolveBitnetFull lastEpoch disputeEpoch settledFamily disputeFamily settledLeaf
        disputeLeaf claimed recomputed ternaryOk)
  | bitnetD256 leafMatch claimed recomputed ternaryOk =>
      some (resolveBitnetD256Full lastEpoch disputeEpoch settledFamily disputeFamily leafMatch
        claimed recomputed ternaryOk)
  | quorum3 settledLeaf disputeLeaf claimed v0 v1 v2 =>
      some (resolveQuorum3 lastEpoch disputeEpoch settledFamily disputeFamily settledLeaf
        disputeLeaf claimed v0 v1 v2)
  | quorum5 settledLeaf disputeLeaf claimed v0 v1 v2 v3 v4 =>
      some (resolveQuorum5 lastEpoch disputeEpoch settledFamily disputeFamily settledLeaf
        disputeLeaf claimed v0 v1 v2 v3 v4)
  | bitnetQuorum settledLeaf disputeLeaf claimed v0 v1 v2 t0 t1 t2 =>
      resolveBitnetQuorumFull lastEpoch disputeEpoch settledFamily disputeFamily settledLeaf
        disputeLeaf claimed v0 v1 v2 t0 t1 t2
  | bitnetQuorum5 settledLeaf disputeLeaf claimed v0 v1 v2 v3 v4 t0 t1 t2 t3 t4 =>
      resolveBitnetQuorum5Full lastEpoch disputeEpoch settledFamily disputeFamily settledLeaf
        disputeLeaf claimed v0 v1 v2 v3 v4 t0 t1 t2 t3 t4

structure Dispute where
  challenger : Nat
  epoch : UInt32
  settledFamily : UInt32
  disputeFamily : UInt32
  evidence : Evidence

/-- The books of one executor: the resolver's watermark, the executor's bond
and the stake of every challenger. -/
structure Game where
  lastEpoch : UInt32
  bond : UInt32
  stake : Nat → UInt32

namespace Game

def outcome (g : Game) (d : Dispute) : Option UInt32 :=
  d.evidence.resolve g.lastEpoch d.epoch d.settledFamily d.disputeFamily

/-- A dispute whose resolver traps leaves the books as they are. -/
def step (g : Game) (d : Dispute) : Game :=
  match g.outcome d with
  | none => g
  | some outcome =>
      { lastEpoch := resolverEpochAfter g.lastEpoch d.epoch outcome
        bond := executorBondAfter g.bond outcome
        stake := Function.update g.stake d.challenger
          (challengerStakeAfterBound (g.stake d.challenger) outcome) }

end Game

def Terminal (outcome : Option UInt32) : Prop := outcome = some resolveHonest ∨ outcome = some resolveSlash

instance (outcome : Option UInt32) : Decidable (Terminal outcome) :=
  inferInstanceAs (Decidable (outcome = some resolveHonest ∨ outcome = some resolveSlash))

theorem resolverEpochAfter_eq (lastEpoch disputeEpoch outcome : UInt32) :
    resolverEpochAfter lastEpoch disputeEpoch outcome =
      if Terminal (some outcome) then disputeEpoch else lastEpoch := by
  by_cases h : outcome = resolveHonest <;> simp [resolverEpochAfter, Terminal, h]

theorem resolveBound_ne_stale {settledLeaf disputeLeaf claimedResult recomputedResult : UInt32} :
    resolveBound settledLeaf disputeLeaf claimedResult recomputedResult ≠ resolveStale := by
  rw [resolveBound]
  split_ifs <;> decide

theorem resolveBitnet_ne_stale
    {settledLeaf disputeLeaf claimedResult recomputedResult ternaryOk : UInt32} :
    resolveBitnet settledLeaf disputeLeaf claimedResult recomputedResult ternaryOk ≠ resolveStale := by
  rw [resolveBitnet]
  split_ifs
  · exact resolveBound_ne_stale
  · decide
  · decide

namespace Evidence

variable {lastEpoch disputeEpoch settledFamily disputeFamily : UInt32}

theorem map_resolveBitnetFull_cases
    (lastEpoch disputeEpoch settledFamily disputeFamily settledLeaf disputeLeaf claimedResult
    recomputedResult : UInt32) (flag : Option UInt32) :
    flag.map (resolveBitnetFull lastEpoch disputeEpoch settledFamily disputeFamily settledLeaf
        disputeLeaf claimedResult recomputedResult) = none ∨
      ∃ outcome ≠ resolveStale,
        flag.map (resolveBitnetFull lastEpoch disputeEpoch settledFamily disputeFamily settledLeaf
          disputeLeaf claimedResult recomputedResult) =
            some (guarded lastEpoch disputeEpoch settledFamily disputeFamily outcome) := by
  cases flag with
  | none => exact .inl rfl
  | some flag => exact .inr ⟨_, resolveBitnet_ne_stale, rfl⟩

/-- A resolver traps on its flags, finds no quorum whatever the epoch is, or
judges behind the guards. -/
theorem resolve_cases (lastEpoch disputeEpoch settledFamily disputeFamily : UInt32) (e : Evidence) :
    e.resolve lastEpoch disputeEpoch settledFamily disputeFamily = none ∨
      e.resolve lastEpoch disputeEpoch settledFamily disputeFamily = some resolveIndeterminate ∨
      ∃ outcome ≠ resolveStale, e.resolve lastEpoch disputeEpoch settledFamily disputeFamily =
        some (guarded lastEpoch disputeEpoch settledFamily disputeFamily outcome) := by
  cases e with
  | full => exact .inr (.inr ⟨_, resolveBound_ne_stale, rfl⟩)
  | rung =>
      refine .inr (.inr ⟨_, ?_, rfl⟩)
      split
      · exact resolveBound_ne_stale
      · decide
  | d256 =>
      refine .inr (.inr ⟨_, ?_, rfl⟩)
      rw [resolveBoundD256]
      split_ifs <;> decide
  | bitnet => exact .inr (.inr ⟨_, resolveBitnet_ne_stale, rfl⟩)
  | bitnetD256 =>
      refine .inr (.inr ⟨_, ?_, rfl⟩)
      rw [resolveBitnetD256]
      split_ifs <;> decide
  | quorum3 | quorum5 =>
      simp only [resolve, resolveQuorum3, resolveQuorum5]
      split
      · exact .inr (.inr ⟨_, resolveBound_ne_stale, rfl⟩)
      · exact .inr (.inl rfl)
  | bitnetQuorum settledLeaf disputeLeaf claimed v0 v1 v2 t0 t1 t2 =>
      rw [resolve, resolveBitnetQuorumFull]
      split
      · exact (map_resolveBitnetFull_cases ..).imp_right .inr
      · exact .inr (.inl rfl)
  | bitnetQuorum5 settledLeaf disputeLeaf claimed v0 v1 v2 v3 v4 t0 t1 t2 t3 t4 =>
      rw [resolve, resolveBitnetQuorum5Full]
      split
      · exact (map_resolveBitnetFull_cases ..).imp_right .inr
      · exact .inr (.inl rfl)

theorem fresh_of_terminal (e : Evidence)
    (h : Terminal (e.resolve lastEpoch disputeEpoch settledFamily disputeFamily)) :
    lastEpoch < disputeEpoch := by
  by_contra hstale
  obtain heq | heq | ⟨outcome, -, heq⟩ :=
    e.resolve_cases lastEpoch disputeEpoch settledFamily disputeFamily
  · rw [heq] at h
    exact absurd h (by decide)
  · rw [heq] at h
    exact absurd h (by decide)
  · rw [heq, guarded, if_neg hstale] at h
    exact absurd h (by decide)

theorem ne_stale_of_fresh (e : Evidence) (h : lastEpoch < disputeEpoch) :
    e.resolve lastEpoch disputeEpoch settledFamily disputeFamily ≠ some resolveStale := by
  obtain heq | heq | ⟨outcome, hne, heq⟩ :=
    e.resolve_cases lastEpoch disputeEpoch settledFamily disputeFamily
  · rw [heq]
    decide
  · rw [heq]
    decide
  · rw [heq, guarded, if_pos h, ne_eq, Option.some_inj]
    split
    · exact hne
    · decide

end Evidence

namespace Game

theorem step_lastEpoch (g : Game) (d : Dispute) :
    (g.step d).lastEpoch = if Terminal (g.outcome d) then d.epoch else g.lastEpoch := by
  rw [step]
  cases g.outcome d with
  | none => rfl
  | some outcome => exact resolverEpochAfter_eq ..

theorem lt_of_terminal {g : Game} {d : Dispute} (h : Terminal (g.outcome d)) : g.lastEpoch < d.epoch :=
  d.evidence.fresh_of_terminal h

theorem moves_iff (g : Game) (d : Dispute) :
    (g.step d).lastEpoch ≠ g.lastEpoch ↔ Terminal (g.outcome d) := by
  rw [step_lastEpoch]
  split
  · next h => exact iff_of_true (UInt32.ne_of_lt (lt_of_terminal h)).symm h
  · next h => exact iff_of_false (fun hne => hne rfl) h

theorem step_books {g : Game} {d : Dispute}
    (h : g.outcome d = some resolveStale ∨ g.outcome d = some resolveIndeterminate) :
    (g.step d).bond = g.bond ∧ (g.step d).stake = g.stake := by
  rcases h with h | h <;>
    exact ⟨by simp [step, h, executorBondAfter, resolveStale, resolveIndeterminate, resolveSlash],
      by simp [step, h, challengerStakeAfterBound, resolveStale, resolveIndeterminate, resolveSlash]⟩

theorem slash_of_bond_lt {g : Game} {d : Dispute} (h : (g.step d).bond < g.bond) :
    g.outcome d = some resolveSlash := by
  rw [step] at h
  cases hout : g.outcome d with
  | none =>
      rw [hout] at h
      exact absurd h (UInt32.lt_irrefl _)
  | some outcome =>
      rw [hout] at h
      by_contra hne
      rw [Option.some_inj] at hne
      simp only [executorBondAfter, if_neg hne] at h
      exact absurd h (UInt32.lt_irrefl _)

/-- The epochs the resolver takes over as its watermark in a run, in order. -/
def accepted (g : Game) (ds : List Dispute) : List UInt32 :=
  ((trace step g ds).filter (fun p => (p.1.step p.2).lastEpoch ≠ p.1.lastEpoch)).map (fun p => p.2.epoch)

def terminal (g : Game) (ds : List Dispute) : List UInt32 :=
  ((trace step g ds).filter (fun p => Terminal (p.1.outcome p.2))).map (fun p => p.2.epoch)

theorem accepted_eq_terminal (g : Game) (ds : List Dispute) : g.accepted ds = g.terminal ds := by
  rw [accepted, terminal]
  congr 2
  funext p
  exact decide_eq_decide.mpr (moves_iff p.1 p.2)

/-- Every epoch that ends a dispute is above the watermark before the run, so
above all that ended earlier. -/
theorem terminal_increasing (g : Game) (ds : List Dispute) :
    (∀ e ∈ g.terminal ds, g.lastEpoch < e) ∧ (g.terminal ds).Pairwise (· < ·) := by
  induction ds generalizing g with
  | nil => simp [terminal, trace]
  | cons d ds ih =>
      obtain ⟨habove, hpairwise⟩ := ih (g.step d)
      rw [step_lastEpoch] at habove
      by_cases h : Terminal (g.outcome d)
      · have hcons : g.terminal (d :: ds) = d.epoch :: (g.step d).terminal ds := by
          simp [terminal, trace, h]
        rw [if_pos h] at habove
        rw [hcons]
        refine ⟨?_, List.pairwise_cons.mpr ⟨habove, hpairwise⟩⟩
        intro e he
        rcases List.mem_cons.mp he with rfl | he
        · exact lt_of_terminal h
        · exact UInt32.lt_trans (lt_of_terminal h) (habove e he)
      · have hskip : g.terminal (d :: ds) = (g.step d).terminal ds := by simp [terminal, trace, h]
        rw [if_neg h] at habove
        rw [hskip]
        exact ⟨habove, hpairwise⟩

/-- The dispute game on one executor, over any sequence of disputes from any
books. -/
theorem dispute_game (g : Game) (ds : List Dispute) :
    (g.accepted ds).Pairwise (· < ·) ∧ (∀ e, (g.terminal ds).count e ≤ 1) ∧
      ∀ p ∈ trace step g ds,
        (p.1.outcome p.2 = some resolveStale ∨ p.1.outcome p.2 = some resolveIndeterminate →
          (p.1.step p.2).bond = p.1.bond ∧ (p.1.step p.2).stake = p.1.stake) ∧
        ((p.1.step p.2).bond < p.1.bond → p.1.outcome p.2 = some resolveSlash) := by
  have hincreasing := (terminal_increasing g ds).2
  refine ⟨?_, ?_, ?_⟩
  · rw [accepted_eq_terminal]
    exact hincreasing
  · apply List.nodup_iff_count_le_one.mp
    apply hincreasing.imp
    intro a b hab
    exact UInt32.ne_of_lt hab
  · intro p _
    exact ⟨step_books, slash_of_bond_lt⟩

theorem lastEpoch_run_lt_iff (g : Game) (ds : List Dispute)
    (h : ∀ p ∈ trace step g ds, p.1.outcome p.2 ≠ some resolveSlash) (epoch : UInt32) :
    (run step g ds).lastEpoch < epoch ↔
      g.lastEpoch < epoch ∧ ∀ p ∈ trace step g ds, p.1.outcome p.2 = some resolveHonest →
        p.2.epoch < epoch := by
  induction ds generalizing g with
  | nil => simp [run, trace]
  | cons d ds ih =>
      obtain ⟨hd, hds⟩ := List.forall_mem_cons.mp h
      have hrest := ih (g.step d) hds
      rw [step_lastEpoch] at hrest
      rw [run, List.foldl_cons, ← run, hrest, trace, List.forall_mem_cons]
      by_cases hhonest : g.outcome d = some resolveHonest
      · have habove : g.lastEpoch < d.epoch := lt_of_terminal (.inl hhonest)
        rw [if_pos (.inl hhonest)]
        constructor
        · rintro ⟨hlt, hlater⟩
          exact ⟨UInt32.lt_trans habove hlt, fun _ => hlt, hlater⟩
        · rintro ⟨_, hlt, hlater⟩
          exact ⟨hlt hhonest, hlater⟩
      · have hopen : ¬Terminal (g.outcome d) := fun hend => hend.elim hhonest hd
        rw [if_neg hopen]
        constructor
        · rintro ⟨hlt, hlater⟩
          exact ⟨hlt, fun hyes => absurd hyes hhonest, hlater⟩
        · rintro ⟨hlt, _, hlater⟩
          exact ⟨hlt, hlater⟩

/-- A later dispute is fresh unless a dispute before it was resolved for the
executor at its epoch or above. -/
theorem unslashed_run_stale_iff (g : Game) (ds : List Dispute)
    (hslash : ∀ p ∈ trace step g ds, p.1.outcome p.2 ≠ some resolveSlash) (d : Dispute)
    (hnew : g.lastEpoch < d.epoch) :
    ((∀ p ∈ trace step g ds, p.1.outcome p.2 = some resolveHonest → p.2.epoch < d.epoch) →
      (run step g ds).outcome d ≠ some resolveStale) ∧
    ∀ settledLeaf disputeLeaf claimed recomputed,
      d.evidence = .full settledLeaf disputeLeaf claimed recomputed →
      ((run step g ds).outcome d = some resolveStale ↔
        ∃ p ∈ trace step g ds, p.1.outcome p.2 = some resolveHonest ∧ d.epoch ≤ p.2.epoch) := by
  have hfresh := lastEpoch_run_lt_iff g ds hslash d.epoch
  rw [and_iff_right hnew] at hfresh
  refine ⟨fun h => d.evidence.ne_stale_of_fresh (hfresh.mpr h), ?_⟩
  intro settledLeaf disputeLeaf claimed recomputed hfull
  have hstale : (run step g ds).outcome d = some resolveStale ↔ ¬(run step g ds).lastEpoch < d.epoch := by
    constructor
    · intro h hlt
      exact d.evidence.ne_stale_of_fresh hlt h
    · intro h
      rw [outcome, hfull]
      exact congrArg some (if_neg h)
  rw [hstale, hfresh]
  simp only [not_forall, UInt32.not_lt, exists_prop]

def frivolous (epoch : UInt32) : Dispute := ⟨0, epoch, 1, 1, .full 5 5 7 7⟩

def legitimate (epoch : UInt32) : Dispute := ⟨1, epoch, 1, 1, .full 6 6 9 7⟩

def opening : Game := ⟨5, 1000, fun _ => 50⟩

theorem unslashed_run_stale_between :
    (∀ p ∈ trace step opening [frivolous 6], p.1.outcome p.2 ≠ some resolveSlash) ∧
      opening.lastEpoch < (legitimate 7).epoch ∧
      (run step opening [frivolous 6]).outcome (legitimate 7) ≠ some resolveStale :=
  have hslash : ∀ p ∈ trace step opening [frivolous 6], p.1.outcome p.2 ≠ some resolveSlash := by
    simp only [trace, List.forall_mem_singleton]
    decide
  ⟨hslash, by decide,
    (unslashed_run_stale_iff opening [frivolous 6] hslash (legitimate 7) (by decide)).1 (by
    simp only [trace, List.forall_mem_singleton]
    decide)⟩

/-- A challenger that loses one dispute at the last epoch locks out every other. -/
theorem frivolous_dispute_locks_out :
    opening.outcome (frivolous 0xFFFFFFFF) = some resolveHonest ∧
      opening.lastEpoch < (legitimate 6).epoch ∧
      opening.outcome (legitimate 6) = some resolveSlash ∧
      (run step opening [frivolous 0xFFFFFFFF]).outcome (legitimate 6) = some resolveStale := by
  decide

end Game

end TriNet.Compute
