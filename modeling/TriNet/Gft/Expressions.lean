import TriNet.Gft.Add
import TriNet.Gft.Multiply

namespace TriNet.Gft

open Lib

/-- A format with its special row, which two operands may both be on. -/
structure RowFormat extends Format where
  row_pos : 0 < offsetMax
  row_lt : offsetMax < 2 ^ 31

def RowFormat.full (R : RowFormat) : Format := ⟨R.mantBits, R.bias, R.offsetMax + 1, R.row_lt⟩

@[simp] theorem RowFormat.full_mantBits (R : RowFormat) : R.full.mantBits = R.mantBits := rfl

@[simp] theorem RowFormat.full_bias (R : RowFormat) : R.full.bias = R.bias := rfl

/-- Every rung with a narrow geometry has such a row. -/
theorem exists_rowFormat {expTrits : Nat} {F : Format} (h : rung expTrits = some F) :
    ∃ R : RowFormat, R.toFormat = F := by
  unfold rung at h
  split at h
  · next offsetMax bias hmax hbias =>
      have hpow : gftPow3 expTrits = 0 ∨ 9 ≤ gftPow3 expTrits ∧ gftPow3 expTrits ≤ 2 ^ 31 := by
        unfold gftPow3
        split <;> decide
      rw [gftOffsetMax, Checked.sub] at hmax
      split at hmax
      · obtain rfl := Option.some.inj hmax
        obtain rfl := Option.some.inj h
        refine ⟨⟨⟨gftMantBits expTrits, bias, _, _⟩, ?_, ?_⟩, rfl⟩
        · change 0 < gftPow3 expTrits - 1
          omega
        · change gftPow3 expTrits - 1 < 2 ^ 31
          omega
      · cases hmax
  · cases h

/-- What the functions take and return: a number or something on the special
row, whose offset and mantissa they treat like those of a number. -/
abbrev Pair (R : RowFormat) := Number R.full

def OnRow {R : RowFormat} (a : Pair R) : Prop := a.offset = R.offsetMax

/-- The multiply of a rung is on words of 32 bits or, for 25 mantissa bits, of
64. -/
structure Multiplier where
  offset : (offsetA ma offsetB mb bias offsetMax mantOne : Nat) → Option Nat
  mant : (ma mb mantOne : Nat) → Option Nat

def Multiplier.p : Multiplier := ⟨gftMulOffsetFullP, gftMulMantP⟩

def Multiplier.u64 : Multiplier := ⟨gftMulOffsetFullU64, gftMulMantU64⟩

inductive Multiplier.Suits (R : RowFormat) : Multiplier → Prop
  | p (hm : R.mantBits ≤ 15) : Suits R .p
  | u64 (hm : R.mantBits = 25) : Suits R .u64

inductive Expr (R : RowFormat)
  | leaf (a : Pair R)
  | mul (x y : Expr R)
  | add (x y : Expr R)

namespace Expr

variable {R : RowFormat} (M : Multiplier)

def eval : Expr R → Option (Nat × Nat)
  | leaf a => some (a.offset, a.mant)
  | mul x y => do
      let a ← x.eval
      let b ← y.eval
      return (← M.offset a.1 a.2 b.1 b.2 R.bias R.offsetMax R.mantOne, ← M.mant a.2 b.2 R.mantOne)
  | add x y => do
      let a ← x.eval
      let b ← y.eval
      return (← gftAddOffsetCP a.1 b.1 a.2 b.2 R.offsetMax R.mantOne R.sigBits,
        ← gftAddMantCP a.1 b.1 a.2 b.2 R.mantOne R.sigBits)

def exact : Expr R → ℚ
  | leaf a => a.value
  | mul x y => x.exact * y.exact
  | add x y => x.exact + y.exact

def Evaluates (e : Expr R) (r : Pair R) : Prop := e.eval M = some (r.offset, r.mant)

/-- A leaf, the result or an intermediate result is on the special row. -/
def HitsRow : Expr R → Prop
  | leaf a => OnRow a
  | mul x y => x.HitsRow ∨ y.HitsRow ∨ ∃ r, (mul x y).Evaluates M r ∧ OnRow r
  | add x y => x.HitsRow ∨ y.HitsRow ∨ ∃ r, (add x y).Evaluates M r ∧ OnRow r

/-- The special row is never left, and off it nothing is larger than exact. -/
def Propagates (e : Expr R) : Prop :=
  ∃ r, e.Evaluates M r ∧ (e.HitsRow M → OnRow r) ∧ (¬ e.HitsRow M → r.value ≤ e.exact)

/-- A factor on the special row needs another that leaves the product there,
and two others a product that is not below the smallest number. -/
def Holds (a b : Pair R) : Prop :=
  (OnRow a ∨ OnRow b → R.top ≤ a.value * b.value) ∧
    (¬ OnRow a → ¬ OnRow b → R.smallest ≤ a.value * b.value)

def AllHold : Expr R → Prop
  | leaf _ => True
  | mul x y => x.AllHold ∧ y.AllHold ∧ ∀ a b, x.Evaluates M a → y.Evaluates M b → Holds a b
  | add x y => x.AllHold ∧ y.AllHold

end Expr

section Steps

variable {R : RowFormat} {w : Nat} (a b : Pair R)

theorem exists_pair {x : ℚ} {e : ℤ} {v offset : Nat} (h : Truncates R.mantBits x e v)
    (hoffset : offset ≤ R.offsetMax) :
    ∃ r : Pair R, r.offset = offset ∧ r.mant = v - R.mantOne ∧ r.value = v * 2 ^ R.ulpExp offset := by
  have hlt := h.sig_lt
  have hle := h.le_sig
  rw [Nat.pow_succ] at hlt
  have hmant : v - R.mantOne < 2 ^ R.mantBits := by
    rw [Format.mantOne]
    omega
  refine ⟨⟨offset, v - R.mantOne, Nat.lt_succ_of_le hoffset, hmant⟩, rfl, rfl, ?_⟩
  have hsig : (2 ^ R.mantBits + (v - R.mantOne) : ℕ) = v := Nat.add_sub_cancel' hle
  exact (R.full.value_eq _ _).trans (congrArg (fun n : ℕ => (n : ℚ) * _) hsig)

theorem two_zpow_le_product_iff (n : ℤ) :
    2 ^ n ≤ a.value * b.value ↔ n ≤ a.offset + b.offset + carry a b - 2 * R.bias := by
  have hexp : R.full.ulpExp a.offset + R.full.ulpExp b.offset + (R.full.mantBits + carry a b : ℕ) +
      R.full.mantBits = a.offset + b.offset + carry a b - 2 * R.bias := by
    simp only [Format.ulpExp, RowFormat.full_mantBits, RowFormat.full_bias]
    omega
  rw [(product_truncates a b).le_exp_iff, hexp]

theorem top_le_product_iff :
    R.top ≤ a.value * b.value ↔ R.offsetMax + R.bias ≤ a.offset + b.offset + carry a b := by
  rw [Format.top, two_zpow_le_product_iff]
  omega

theorem smallest_le_product_iff :
    R.smallest ≤ a.value * b.value ↔ R.bias ≤ a.offset + b.offset + carry a b := by
  rw [Format.smallest_eq, two_zpow_le_product_iff]
  omega

/-- The product is on the special row exactly when it is too large for a number,
and otherwise rounded down unless it is too small for one. -/
theorem mul_pair (hw : 2 * R.mantBits + 2 ≤ w) :
    ∃ r : Pair R,
      mulOffset (mulCarry w a.mant b.mant R.mantOne) a.offset b.offset R.bias R.offsetMax = some r.offset ∧
      mulMant w a.mant b.mant R.mantOne = some r.mant ∧ (OnRow r ↔ R.top ≤ a.value * b.value) ∧
      (¬ OnRow r → (r.value ≤ a.value * b.value ↔ R.smallest ≤ a.value * b.value)) := by
  have hpos := R.row_pos
  have htrunc : Truncates R.mantBits (a.value * b.value) _ _ := product_truncates a b
  have hcarry : mulCarry w a.mant b.mant R.mantOne = some (carry a b) := mulCarry_eq a b hw
  have hmant : mulMant w a.mant b.mant R.mantOne = some _ := mulMant_eq a b hw
  rw [hcarry, hmant, mulOffset_clamps (mul_offsets_fit a b), top_le_product_iff, smallest_le_product_iff]
  by_cases hlow : a.offset + b.offset + carry a b < R.bias
  · -- saturated to the smallest row, above the product
    obtain ⟨r, hoffset, hr, hvalue⟩ := exists_pair htrunc (Nat.zero_le _)
    refine ⟨r, by rw [if_pos hlow, hoffset], congrArg some hr.symm, ?_, fun _ => ?_⟩
    · rw [OnRow, hoffset]
      omega
    · have hsmall : R.smallest ≤ r.value := by
        have hsig : ((2 ^ R.mantBits : ℕ) : ℚ) ≤ _ := Nat.cast_le.mpr htrunc.le_sig
        rw [hvalue, Format.smallest, Format.value_eq, Format.ulp]
        exact mul_le_mul_of_nonneg_right hsig (Truncates.scale_pos _).le
      rw [← smallest_le_product_iff]
      exact ⟨hsmall.trans, fun h => absurd ((smallest_le_product_iff a b).mp h) (Nat.not_le.mpr hlow)⟩
  · obtain ⟨r, hoffset, hr, hvalue⟩ :=
      exists_pair htrunc (Nat.min_le_right (a.offset + b.offset + carry a b - R.bias) R.offsetMax)
    refine ⟨r, by rw [if_neg hlow, hoffset], congrArg some hr.symm, ?_, fun hrow => ?_⟩
    · rw [OnRow, hoffset]
      omega
    · rw [OnRow, hoffset] at hrow
      have hexp : R.full.ulpExp a.offset + R.full.ulpExp b.offset + (R.full.mantBits + carry a b : ℕ) =
          R.ulpExp (min (a.offset + b.offset + carry a b - R.bias) R.offsetMax) := by
        simp only [Format.ulpExp, RowFormat.full_mantBits, RowFormat.full_bias]
        omega
      rw [hvalue, ← hexp]
      exact iff_of_true htrunc.le (Nat.not_lt.mp hlow)

theorem add_pair_sorted (hm : R.mantBits ≤ 30) (h : b.offset ≤ a.offset) :
    ∃ r : Pair R,
      gftAddOffsetP a.offset b.offset a.mant b.mant R.offsetMax R.mantOne R.sigBits = some r.offset ∧
      gftAddMantP a.offset b.offset a.mant b.mant R.mantOne R.sigBits = some r.mant ∧
      (OnRow a ∨ OnRow b → OnRow r) ∧ (¬ OnRow r → r.value ≤ a.value + b.value) := by
  have ha : a.offset ≤ R.offsetMax := Nat.le_of_lt_succ a.finite
  have htrunc : Truncates R.mantBits (a.value + b.value) _ _ := sum_truncates a b h
  have hadd : gftAddOffsetP a.offset b.offset a.mant b.mant R.offsetMax R.mantOne R.sigBits = some _ :=
    gftAddOffsetP_clamps a b hm h ha
  have hmant : gftAddMantP a.offset b.offset a.mant b.mant R.mantOne R.sigBits = some _ :=
    gftAddMantP_eq a b hm h
  obtain ⟨r, hoffset, hr, hvalue⟩ :=
    exists_pair htrunc (Nat.min_le_right (a.offset + sumCarry a b) R.offsetMax)
  refine ⟨r, by rw [hadd, hoffset], by rw [hmant, hr]; rfl, fun hrow => ?_, fun hrow => ?_⟩
  · rw [OnRow, OnRow] at hrow
    rw [OnRow, hoffset]
    omega
  · rw [OnRow, hoffset] at hrow
    have hfinite : min (a.offset + sumCarry a b) R.offsetMax = a.offset + sumCarry a b := by omega
    rw [hvalue, hfinite]
    exact htrunc.le

theorem add_pair (hm : R.mantBits ≤ 30) :
    ∃ r : Pair R,
      gftAddOffsetCP a.offset b.offset a.mant b.mant R.offsetMax R.mantOne R.sigBits = some r.offset ∧
      gftAddMantCP a.offset b.offset a.mant b.mant R.mantOne R.sigBits = some r.mant ∧
      (OnRow a ∨ OnRow b → OnRow r) ∧ (¬ OnRow r → r.value ≤ a.value + b.value) := by
  rw [gftAddOffsetCP, gftAddMantCP]
  by_cases h : b.offset ≤ a.offset
  · rw [if_pos h, if_pos h]
    exact add_pair_sorted a b hm h
  · rw [if_neg h, if_neg h, or_comm, add_comm a.value]
    exact add_pair_sorted b a hm (Nat.le_of_not_le h)

variable {M : Multiplier}

theorem Multiplier.Suits.mantBits_le (h : M.Suits R) : R.mantBits ≤ 30 := by
  cases h <;> omega

theorem Multiplier.Suits.mul_pair (h : M.Suits R) :
    ∃ r : Pair R, M.offset a.offset a.mant b.offset b.mant R.bias R.offsetMax R.mantOne = some r.offset ∧
      M.mant a.mant b.mant R.mantOne = some r.mant ∧ (OnRow r ↔ R.top ≤ a.value * b.value) ∧
      (¬ OnRow r → (r.value ≤ a.value * b.value ↔ R.smallest ≤ a.value * b.value)) := by
  cases h with
  | p hm => exact Gft.mul_pair (w := 32) a b (by omega)
  | u64 hm =>
      obtain ⟨r, hoffset, hmant, hrow, hvalue⟩ := Gft.mul_pair (w := 64) a b (by omega)
      refine ⟨r, hoffset, ?_, hrow, hvalue⟩
      have hlt : r.mant < 2 ^ R.mantBits := r.mant_lt
      rw [hm] at hlt
      change gftMulMantU64 _ _ _ = _
      rw [gftMulMantU64, hmant, Option.bind_eq_bind, Option.bind_some, Nat.mod_eq_of_lt (by omega)]
      rfl

end Steps

namespace Expr

variable {R : RowFormat} {M : Multiplier} {x y : Expr R} {a b r r' : Pair R}

theorem Evaluates.unique {e : Expr R} (h : e.Evaluates M r) (h' : e.Evaluates M r') : r = r' := by
  obtain ⟨hoffset, hmant⟩ := Prod.mk.inj (Option.some.inj (h.symm.trans h'))
  cases r
  cases r'
  simp_all

theorem evaluates_mul (hx : x.Evaluates M a) (hy : y.Evaluates M b) (hM : M.Suits R) :
    ∃ r, (mul x y).Evaluates M r ∧ (OnRow r ↔ R.top ≤ a.value * b.value) ∧
      (¬ OnRow r → (r.value ≤ a.value * b.value ↔ R.smallest ≤ a.value * b.value)) := by
  obtain ⟨r, hoffset, hmant, hr⟩ := hM.mul_pair a b
  rw [Evaluates] at hx hy
  refine ⟨r, ?_, hr⟩
  simp only [Evaluates, eval, hx, hy, hoffset, hmant, Option.bind_eq_bind,
    Option.bind_some, Option.pure_def]

theorem evaluates_add (hx : x.Evaluates M a) (hy : y.Evaluates M b) (hM : M.Suits R) :
    ∃ r, (add x y).Evaluates M r ∧ (OnRow a ∨ OnRow b → OnRow r) ∧
      (¬ OnRow r → r.value ≤ a.value + b.value) := by
  obtain ⟨r, hoffset, hmant, hr⟩ := add_pair a b hM.mantBits_le
  rw [Evaluates] at hx hy
  refine ⟨r, ?_, hr⟩
  simp only [Evaluates, eval, hx, hy, hoffset, hmant, Option.bind_eq_bind,
    Option.bind_some, Option.pure_def]

theorem Propagates.node {e : Expr R} (he : e.Evaluates M r)
    (hhits : e.HitsRow M ↔ x.HitsRow M ∨ y.HitsRow M ∨ ∃ r, e.Evaluates M r ∧ OnRow r)
    (ha : x.HitsRow M → OnRow a) (hb : y.HitsRow M → OnRow b) (hrow : OnRow a ∨ OnRow b → OnRow r)
    (hvalue : ¬ x.HitsRow M → ¬ y.HitsRow M → ¬ OnRow r → r.value ≤ e.exact) : e.Propagates M := by
  refine ⟨r, he, fun h => ?_, fun h => ?_⟩
  · obtain hx | hy | ⟨r', he', hr'⟩ := hhits.mp h
    · exact hrow (.inl (ha hx))
    · exact hrow (.inr (hb hy))
    · rw [he.unique he']
      exact hr'
  · rw [hhits, not_or, not_or] at h
    exact hvalue h.1 h.2.1 (fun hr => h.2.2 ⟨r, he, hr⟩)

theorem hitsRow_of_onRow {e : Expr R} (he : e.Evaluates M r) (hr : OnRow r) : e.HitsRow M := by
  cases e with
  | leaf a =>
      rw [show a = r from Evaluates.unique (e := leaf a) rfl he]
      exact hr
  | mul x y => exact .inr (.inr ⟨r, he, hr⟩)
  | add x y => exact .inr (.inr ⟨r, he, hr⟩)

theorem propagates_of_allHold (hM : M.Suits R) {e : Expr R} (h : e.AllHold M) : e.Propagates M := by
  induction e with
  | leaf a => exact ⟨a, rfl, id, fun _ => le_rfl⟩
  | mul x y ihx ihy =>
      obtain ⟨hx, hy, hholds⟩ := h
      obtain ⟨a, hxa, harow, havalue⟩ := ihx hx
      obtain ⟨b, hyb, hbrow, hbvalue⟩ := ihy hy
      obtain ⟨hspecial, hlow⟩ := hholds a b hxa hyb
      obtain ⟨r, hr, hrow, hvalue⟩ := evaluates_mul hxa hyb hM
      refine Propagates.node hr Iff.rfl harow hbrow (fun h => hrow.mpr (hspecial h))
        (fun hxn hyn hrn => ?_)
      have hproduct : r.value ≤ a.value * b.value := by
        rw [hvalue hrn]
        exact hlow (fun ha => hxn (hitsRow_of_onRow hxa ha)) (fun hb => hyn (hitsRow_of_onRow hyb hb))
      have hle := mul_le_mul (havalue hxn) (hbvalue hyn) b.value_pos.le
        (a.value_pos.le.trans (havalue hxn))
      exact hproduct.trans hle
  | add x y ihx ihy =>
      obtain ⟨hx, hy⟩ := h
      obtain ⟨a, hxa, harow, havalue⟩ := ihx hx
      obtain ⟨b, hyb, hbrow, hbvalue⟩ := ihy hy
      obtain ⟨r, hr, hrow, hvalue⟩ := evaluates_add hxa hyb hM
      refine Propagates.node hr Iff.rfl harow hbrow hrow (fun hxn hyn hrn => ?_)
      exact (hvalue hrn).trans (add_le_add (havalue hxn) (hbvalue hyn))

/-- For one multiplication of two leaves the condition is exact. -/
theorem propagates_mul_leaf_iff (hM : M.Suits R) : (mul (leaf a) (leaf b)).Propagates M ↔ Holds a b := by
  constructor
  · rintro ⟨r, hr, hrow, hvalue⟩
    obtain ⟨r', hr', hrow', hvalue'⟩ := evaluates_mul (x := leaf a) (y := leaf b) rfl rfl hM
    obtain rfl := hr.unique hr'
    constructor
    · intro hspecial
      exact hrow'.mp (hrow (hspecial.elim .inl (fun hb => .inr (.inl hb))))
    · intro ha hb
      by_cases hrn : OnRow r
      · rw [hrow', top_le_product_iff] at hrn
        rw [smallest_le_product_iff]
        omega
      · rw [← hvalue' hrn]
        apply hvalue
        rintro (ha' | hb' | ⟨r', hr', hr'row⟩)
        · exact ha ha'
        · exact hb hb'
        · exact hrn (hr.unique hr' ▸ hr'row)
  · intro h
    exact propagates_of_allHold hM ⟨trivial, trivial, fun a' b' ha' hb' => by
      rw [← Evaluates.unique (e := leaf a) rfl ha', ← Evaluates.unique (e := leaf b) rfl hb']
      exact h⟩

end Expr

theorem overflow_propagates (R : RowFormat) (M : Multiplier) (hM : M.Suits R) :
    (∀ e : Expr R, e.AllHold M → e.Propagates M) ∧
      ∀ a b : Pair R, (Expr.mul (.leaf a) (.leaf b)).Propagates M ↔ Expr.Holds a b :=
  ⟨fun _ => Expr.propagates_of_allHold hM, fun _ _ => Expr.propagates_mul_leaf_iff hM⟩

def gft16Row : RowFormat := { gft16 with row_pos := by decide, row_lt := by decide }

def infinite : Pair gft16Row := ⟨80, 0, by decide, by decide⟩

def unit : Pair gft16Row := ⟨40, 0, by decide, by decide⟩

def least : Pair gft16Row := ⟨0, 0, by decide, by decide⟩

theorem overflow_propagates_sum :
    Multiplier.p.Suits gft16Row ∧ (Expr.add (.mul (.leaf unit) (.leaf unit)) (.leaf infinite)).AllHold .p ∧
      (Expr.add (.mul (.leaf unit) (.leaf unit)) (.leaf infinite)).Propagates .p := by
  have hM : Multiplier.p.Suits gft16Row := .p (by decide)
  have hunit : Expr.Holds unit unit :=
    ⟨fun h => absurd h (by unfold OnRow; decide), fun _ _ =>
      (smallest_le_product_iff unit unit).mpr (by decide)⟩
  have hall : (Expr.add (.mul (.leaf unit) (.leaf unit)) (.leaf infinite)).AllHold .p := by
    refine ⟨⟨trivial, trivial, fun a b ha hb => ?_⟩, trivial⟩
    rw [← Expr.Evaluates.unique (e := .leaf unit) rfl ha, ← Expr.Evaluates.unique (e := .leaf unit) rfl hb]
    exact hunit
  exact ⟨hM, hall, (overflow_propagates gft16Row .p hM).1 _ hall⟩

/-- Times the least number, what is on the special row is one again. The square
of the least number is larger than exact. -/
theorem infinite_mul_least :
    ¬ (Expr.mul (.leaf infinite) (.leaf least)).Propagates .p ∧ (Expr.leaf infinite).HitsRow .p ∧
      (Expr.mul (.leaf infinite) (.leaf least)).Evaluates .p unit ∧
      ¬ (Expr.mul (.leaf least) (.leaf least)).Propagates .p ∧
      (Expr.mul (.leaf least) (.leaf least)).Evaluates .p least := by
  have hM : Multiplier.p.Suits gft16Row := .p (by decide)
  have hleft : ¬ Expr.Holds infinite least :=
    fun h => absurd ((top_le_product_iff infinite least).mp (h.1 (.inl rfl))) (by decide)
  have hsquare : ¬ Expr.Holds least least := by
    have hoff : ¬ OnRow least := by unfold OnRow; decide
    exact fun h => absurd ((smallest_le_product_iff least least).mp (h.2 hoff hoff)) (by decide)
  rw [Expr.propagates_mul_leaf_iff hM, Expr.propagates_mul_leaf_iff hM]
  exact ⟨hleft, rfl, rfl, hsquare, rfl⟩

end TriNet.Gft
