import TriNet.Compute.Exposure

namespace TriNet.Compute

/-- A fraction of a value in basis points: widened to 64 bits to multiply, cut
back to 32 bits at the end. -/
def bpsFraction (unit value bps : UInt32) : UInt32 :=
  let need := value.toUInt64 * bps.toUInt64
  (need / unit.toUInt64).toUInt32

def bondBpsUnit : UInt32 := 10000

def requiredBond (outstanding minBps : UInt32) : UInt32 := bpsFraction bondBpsUnit outstanding minBps

def bondCovers (bond outstanding minBps : UInt32) : Bool := bond ≥ requiredBond outstanding minBps

def premiumBps (flagshipEt bpsPerTrit minBps gfEt : UInt32) : UInt32 :=
  if gfEt ≤ flagshipEt then minBps else minBps + (gfEt - flagshipEt) * bpsPerTrit

def gft16Et : UInt32 := 4

def bondBpsPerTrit : UInt32 := 500

def rungMinBps (minBps gfEt : UInt32) : UInt32 := premiumBps gft16Et bondBpsPerTrit minBps gfEt

def requiredBondRung (outstanding minBps gfEt : UInt32) : UInt32 :=
  requiredBond outstanding (rungMinBps minBps gfEt)

def bondCoversRung (bond outstanding minBps gfEt : UInt32) : Bool :=
  bond ≥ requiredBondRung outstanding minBps gfEt

namespace A2A

def skillGf16Mul : UInt32 := 0x1611
def skillGf16Add : UInt32 := 0x1610

/-- The ternary skills: GF-T16, GF-T8, GF-T4, GF-T32, GF-T64 and GF-T128, each
with its multiplication and its addition. -/
def gftSkills : List UInt32 :=
  [0xA611, 0xA610, 0xA811, 0xA810, 0xA411, 0xA410, 0xA511, 0xA510, 0xA311, 0xA310, 0xA211, 0xA210]

def fmtGfBinary : UInt32 := 0
def fmtGft : UInt32 := 1

def skillFamily (skill : UInt32) : UInt32 := if skill ∈ gftSkills then fmtGft else fmtGfBinary

def isHostedSkill (skill : UInt32) : UInt32 :=
  if skill = skillGf16Mul then 1
  else if skill = skillGf16Add then 1
  else if skill ∈ gftSkills then 1
  else 0

def skillOp (skill : UInt32) : UInt32 := skill &&& 0xFF

/-- What a task result says of itself and of the task it answers. -/
structure Result where
  assignTaskId : UInt32
  resultTaskId : UInt32
  receiptTask : UInt32
  assignedSkill : UInt32
  receiptFamily : UInt32
  receiptOp : UInt32

def resultBindsAssign (r : Result) : Bool :=
  isHostedSkill r.assignedSkill = 1 && r.assignTaskId = r.resultTaskId && r.resultTaskId = r.receiptTask &&
    skillFamily r.assignedSkill = r.receiptFamily && skillOp r.assignedSkill = r.receiptOp

def admitResult (r : Result) (lastSettled execRep minRep : UInt32) : Bool :=
  r.resultTaskId > lastSettled && execRep ≥ minRep && resultBindsAssign r

def a2aBondBpsUnit : UInt32 := 10000

def admitResultBonded (r : Result) (lastSettled execRep minRep bond outstanding minBps : UInt32) : Bool :=
  bond ≥ bpsFraction a2aBondBpsUnit outstanding minBps && admitResult r lastSettled execRep minRep

end A2A

def maxOpenDisputes : UInt32 := 3
def chBpsUnit : UInt32 := 10000

def disputeSlotsOk (openCount : UInt32) : Bool := openCount < maxOpenDisputes

def disputeRequiredBond (outstanding minBps : UInt32) : UInt32 := bpsFraction chBpsUnit outstanding minBps

def mayOpenDispute (openCount risk reward bond minBps : UInt32) : Bool :=
  if disputeSlotsOk openCount = false then false
  else bond ≥ disputeRequiredBond (riskAfterOpen risk reward) minBps

def chGft16Et : UInt32 := 4
def chBondBpsPerTrit : UInt32 := 500

def disputeRungMinBps (minBps gfEt : UInt32) : UInt32 := premiumBps chGft16Et chBondBpsPerTrit minBps gfEt

def mayOpenDisputeRung (openCount risk reward bond minBps gfEt : UInt32) : Bool :=
  mayOpenDispute openCount risk reward bond (disputeRungMinBps minBps gfEt)

theorem toNat_bpsFraction (value bps : UInt32) :
    (bpsFraction 10000 value bps).toNat = value.toNat * bps.toNat / 10000 % 2 ^ 32 := by
  rw [bpsFraction]
  simp only [UInt64.toNat_toUInt32, UInt64.toNat_div, toNat_mul_widened, UInt32.toNat_toUInt64]
  rfl

def rungRate (minBps gfEt : UInt32) : Nat := minBps.toNat + (gfEt.toNat - 4) * 500

theorem toNat_premiumBps {minBps gfEt : UInt32} (h : rungRate minBps gfEt < 2 ^ 32) :
    (premiumBps 4 500 minBps gfEt).toNat = rungRate minBps gfEt := by
  rw [rungRate] at h ⊢
  have hfour : (4 : UInt32).toNat = 4 := rfl
  have hrate : (500 : UInt32).toNat = 500 := rfl
  rw [premiumBps]
  split
  · next hle =>
      rw [UInt32.le_iff_toNat_le, hfour] at hle
      omega
  · next hgt =>
      rw [UInt32.le_iff_toNat_le, hfour] at hgt
      have hsub : (gfEt - 4).toNat = gfEt.toNat - 4 :=
        UInt32.toNat_sub_of_le _ _ (UInt32.le_iff_toNat_le.mpr (by rw [hfour]; omega))
      rw [UInt32.toNat_add, UInt32.toNat_mul, hsub, hrate]
      omega

/-- The bond is worth the required fraction of the value at risk, rounded down. -/
def Collateralized (bond value bps : Nat) : Prop := value * bps ≤ 10000 * bond + 9999

instance (bond value bps : Nat) : Decidable (Collateralized bond value bps) :=
  inferInstanceAs (Decidable (_ ≤ _))

theorem collateralized_iff {bond value bps : Nat} :
    Collateralized bond value bps ↔ value * bps / 10000 ≤ bond := by
  rw [Collateralized]
  omega

/-- The required bond fits its 32 bits, and capping the value at risk does not
lower it. -/
def Uncut (value bps : Nat) : Prop :=
  value * bps / 10000 < 2 ^ 32 ∧ min value u32Max * bps / 10000 = value * bps / 10000

instance (value bps : Nat) : Decidable (Uncut value bps) := inferInstanceAs (Decidable (_ ∧ _))

/-- The value a gate computes with, and the bond it asks for: the value capped
at 32 bits, the bond cut to 32 bits. -/
def Asks (value bps asked : Nat) : Prop := asked = min value u32Max * bps / 10000 % 2 ^ 32

theorem asks_requiredBond (outstanding minBps : UInt32) :
    Asks outstanding.toNat minBps.toNat (bpsFraction 10000 outstanding minBps).toNat := by
  have hle : outstanding.toNat ≤ u32Max := Nat.le_of_lt_succ outstanding.toNat_lt
  rw [Asks, min_eq_left hle, toNat_bpsFraction]

theorem asks_dispute (risk reward minBps : UInt32) :
    Asks (risk.toNat + reward.toNat) minBps.toNat
      (disputeRequiredBond (riskAfterOpen risk reward) minBps).toNat := by
  rw [Asks, disputeRequiredBond, chBpsUnit, toNat_bpsFraction, riskAfterOpen, toNat_addOrMax]

theorem uncut_of_collateralized {value bps asked : Nat} (h : Asks value bps asked)
    (hcol : Collateralized asked value bps) : Uncut value bps := by
  rw [collateralized_iff, h] at hcol
  have hmin : min value u32Max * bps / 10000 ≤ value * bps / 10000 :=
    Nat.div_le_div_right (Nat.mul_le_mul_right _ (min_le_left _ _))
  have hmod := Nat.mod_le (min value u32Max * bps / 10000) (2 ^ 32)
  have hlt := Nat.mod_lt (min value u32Max * bps / 10000) (Nat.two_pow_pos 32)
  exact ⟨hcol.trans_lt hlt, by omega⟩

theorem Uncut.asked {value bps asked : Nat} (hcut : Uncut value bps) (h : Asks value bps asked) :
    asked = value * bps / 10000 := by
  rw [h, hcut.2]
  exact Nat.mod_eq_of_lt hcut.1

theorem Uncut.anti {value value' bps asked asked' : Nat} (hcut : Uncut value bps) (hle : value' ≤ value)
    (h : Asks value bps asked) (h' : Asks value' bps asked') : asked' ≤ asked := by
  have hmin : min value' u32Max * bps / 10000 ≤ value * bps / 10000 :=
    Nat.div_le_div_right (Nat.mul_le_mul_right _ ((min_le_left _ _).trans hle))
  rw [hcut.asked h, h']
  exact (Nat.mod_le _ _).trans hmin

/-- A gate that admits a bond when it is at least what the gate asks for admits
covered values only, and every smaller value with them, exactly if nothing it
computes with is cut. -/
theorem gate_sound_iff {ι : Type} (value : ι → Nat) (asked : ι → UInt32) (bps : Nat)
    (hasks : ∀ i, Asks (value i) bps (asked i).toNat) (i : ι) :
    (∀ bond : UInt32, bond ≥ asked i →
      Collateralized bond.toNat (value i) bps ∧ ∀ j, value j ≤ value i → bond ≥ asked j) ↔
      Uncut (value i) bps := by
  constructor
  · intro h
    exact uncut_of_collateralized (hasks i) (h (asked i) (UInt32.le_refl _)).1
  · intro hcut bond hbond
    rw [ge_iff_le, UInt32.le_iff_toNat_le] at hbond
    constructor
    · rw [collateralized_iff, ← hcut.asked (hasks i)]
      exact hbond
    · intro j hj
      rw [ge_iff_le, UInt32.le_iff_toNat_le]
      exact (hcut.anti hj (hasks i) (hasks j)).trans hbond

theorem bondCovers_sound_iff (outstanding minBps : UInt32) :
    (∀ bond, bondCovers bond outstanding minBps →
      Collateralized bond.toNat outstanding.toNat minBps.toNat ∧
        ∀ less, less ≤ outstanding → bondCovers bond less minBps) ↔
      Uncut outstanding.toNat minBps.toNat := by
  rw [← gate_sound_iff UInt32.toNat (fun v => requiredBond v minBps) minBps.toNat
    (fun v => asks_requiredBond v minBps) outstanding]
  simp only [bondCovers, decide_eq_true_eq, UInt32.le_iff_toNat_le]

theorem bondCoversRung_sound_iff (outstanding : UInt32) {minBps gfEt : UInt32}
    (h : rungRate minBps gfEt < 2 ^ 32) :
    (∀ bond, bondCoversRung bond outstanding minBps gfEt →
      Collateralized bond.toNat outstanding.toNat (rungRate minBps gfEt) ∧
        ∀ less, less ≤ outstanding → bondCoversRung bond less minBps gfEt) ↔
      Uncut outstanding.toNat (rungRate minBps gfEt) := by
  rw [← toNat_premiumBps h]
  exact bondCovers_sound_iff outstanding (rungMinBps minBps gfEt)

theorem admitResultBonded_sound_iff (outstanding minBps : UInt32) :
    (∀ r lastSettled execRep minRep bond,
      A2A.admitResultBonded r lastSettled execRep minRep bond outstanding minBps →
        Collateralized bond.toNat outstanding.toNat minBps.toNat ∧
          ∀ less, less ≤ outstanding →
            A2A.admitResultBonded r lastSettled execRep minRep bond less minBps) ↔
      Uncut outstanding.toNat minBps.toNat := by
  rw [← bondCovers_sound_iff outstanding minBps]
  simp only [A2A.admitResultBonded, Bool.and_eq_true]
  constructor
  · intro h bond hbond
    -- a result that passes every other check of the gate
    obtain ⟨hcol, hanti⟩ :=
      h ⟨1, 1, 1, A2A.skillGf16Mul, A2A.fmtGfBinary, 0x11⟩ 0 0 0 bond ⟨hbond, by decide⟩
    exact ⟨hcol, fun less hless => (hanti less hless).1⟩
  · rintro h r lastSettled execRep minRep bond ⟨hbond, hadmit⟩
    obtain ⟨hcol, hanti⟩ := h bond hbond
    exact ⟨hcol, fun less hless => ⟨hanti less hless, hadmit⟩⟩

theorem mayOpenDispute_sound_iff (risk reward minBps : UInt32) :
    (∀ openCount bond, mayOpenDispute openCount risk reward bond minBps →
      Collateralized bond.toNat (risk.toNat + reward.toNat) minBps.toNat ∧
        ∀ risk' reward' : UInt32, risk'.toNat + reward'.toNat ≤ risk.toNat + reward.toNat →
          mayOpenDispute openCount risk' reward' bond minBps) ↔
      Uncut (risk.toNat + reward.toNat) minBps.toNat := by
  rw [← gate_sound_iff (fun v : UInt32 × UInt32 => v.1.toNat + v.2.toNat)
    (fun v => disputeRequiredBond (riskAfterOpen v.1 v.2) minBps) minBps.toNat
    (fun v => asks_dispute v.1 v.2 minBps) (risk, reward)]
  simp only [mayOpenDispute, Prod.forall]
  constructor
  · intro h bond hbond
    obtain ⟨hcol, hanti⟩ := h 0 bond (by simpa [disputeSlotsOk, maxOpenDisputes] using hbond)
    exact ⟨hcol, by simpa [disputeSlotsOk, maxOpenDisputes] using hanti⟩
  · intro h openCount bond hadmit
    split at hadmit
    · cases hadmit
    · next hslot =>
        obtain ⟨hcol, hanti⟩ := h bond (by simpa using hadmit)
        exact ⟨hcol, by simpa [hslot] using hanti⟩

theorem mayOpenDisputeRung_sound_iff (risk reward : UInt32) {minBps gfEt : UInt32}
    (h : rungRate minBps gfEt < 2 ^ 32) :
    (∀ openCount bond, mayOpenDisputeRung openCount risk reward bond minBps gfEt →
      Collateralized bond.toNat (risk.toNat + reward.toNat) (rungRate minBps gfEt) ∧
        ∀ risk' reward' : UInt32, risk'.toNat + reward'.toNat ≤ risk.toNat + reward.toNat →
          mayOpenDisputeRung openCount risk' reward' bond minBps gfEt) ↔
      Uncut (risk.toNat + reward.toNat) (rungRate minBps gfEt) := by
  rw [← toNat_premiumBps h]
  exact mayOpenDispute_sound_iff risk reward (disputeRungMinBps minBps gfEt)

/-- Every collateral gate admits covered values only, and every smaller value
with them, exactly as long as the value at risk and the bond it requires are
not cut to 32 bits. -/
theorem collateral_gates_sound_iff (outstanding risk reward minBps gfEt : UInt32)
    (hfit : rungRate minBps gfEt < 2 ^ 32) :
    ((∀ bond, bondCovers bond outstanding minBps →
        Collateralized bond.toNat outstanding.toNat minBps.toNat ∧
          ∀ less, less ≤ outstanding → bondCovers bond less minBps) ↔
      Uncut outstanding.toNat minBps.toNat) ∧
    ((∀ bond, bondCoversRung bond outstanding minBps gfEt →
        Collateralized bond.toNat outstanding.toNat (rungRate minBps gfEt) ∧
          ∀ less, less ≤ outstanding → bondCoversRung bond less minBps gfEt) ↔
      Uncut outstanding.toNat (rungRate minBps gfEt)) ∧
    ((∀ r lastSettled execRep minRep bond,
        A2A.admitResultBonded r lastSettled execRep minRep bond outstanding minBps →
          Collateralized bond.toNat outstanding.toNat minBps.toNat ∧
            ∀ less, less ≤ outstanding →
              A2A.admitResultBonded r lastSettled execRep minRep bond less minBps) ↔
      Uncut outstanding.toNat minBps.toNat) ∧
    ((∀ openCount bond, mayOpenDispute openCount risk reward bond minBps →
        Collateralized bond.toNat (risk.toNat + reward.toNat) minBps.toNat ∧
          ∀ risk' reward' : UInt32, risk'.toNat + reward'.toNat ≤ risk.toNat + reward.toNat →
            mayOpenDispute openCount risk' reward' bond minBps) ↔
      Uncut (risk.toNat + reward.toNat) minBps.toNat) ∧
    ((∀ openCount bond, mayOpenDisputeRung openCount risk reward bond minBps gfEt →
        Collateralized bond.toNat (risk.toNat + reward.toNat) (rungRate minBps gfEt) ∧
          ∀ risk' reward' : UInt32, risk'.toNat + reward'.toNat ≤ risk.toNat + reward.toNat →
            mayOpenDisputeRung openCount risk' reward' bond minBps gfEt) ↔
      Uncut (risk.toNat + reward.toNat) (rungRate minBps gfEt)) :=
  ⟨bondCovers_sound_iff outstanding minBps, bondCoversRung_sound_iff outstanding hfit,
    admitResultBonded_sound_iff outstanding minBps, mayOpenDispute_sound_iff risk reward minBps,
    mayOpenDisputeRung_sound_iff risk reward hfit⟩

/-- At a fifth of a thousand, the policy of the node, nothing is cut. -/
theorem collateral_gates_sound_at_policy :
    rungRate 2000 9 < 2 ^ 32 ∧ ∀ openCount bond, mayOpenDisputeRung openCount 900 100 bond 2000 9 →
      Collateralized bond.toNat 1000 4500 :=
  ⟨by decide, fun openCount bond h =>
    ((collateral_gates_sound_iff 1000 900 100 2000 9 (by decide)).2.2.2.2.mpr (by decide)
      openCount bond h).1⟩

/-- One and a half times a large enough escrow asks for no bond at all, and a
pair of disputes beyond the ledger's range is admitted on half their cover. -/
theorem cut_gates_admit_uncovered :
    (bondCovers 0 2863311531 15000 ∧ ¬ Collateralized 0 2863311531 15000 ∧
    ¬ bondCovers 0 1000 15000) ∧ (mayOpenDispute 0 4294967295 4294967295 858993459 2000 ∧
      ¬ Collateralized 858993459 (4294967295 + 4294967295) 2000) := by
  decide

end TriNet.Compute
