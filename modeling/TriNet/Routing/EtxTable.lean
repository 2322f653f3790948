import TriNet.Lib.Rounding
import Mathlib.Data.List.AList
import Mathlib.Order.WithBot
import Mathlib.Tactic.NormNum

namespace TriNet.Routing

open Lib

abbrev NodeId := UInt32

variable (R : Rounding)

structure DeliveryRatio where
  alpha : ℚ
  est : ℚ

namespace DeliveryRatio

def optimistic : ℚ := R.round (9 / 10)

def new (window : Nat) : DeliveryRatio where
  alpha := max (R.round (3 / 10))
    (min (R.round (2 / R.round (R.round (max window 1 : Nat) + 1))) (R.round (6 / 10)))
  est := optimistic R

def record (r : DeliveryRatio) (gotHello : Bool) : DeliveryRatio :=
  let sample : ℚ := if gotHello then 1 else 0
  { r with est := R.round (R.round (r.alpha * sample) + R.round (R.round (1 - r.alpha) * r.est)) }

def kill (r : DeliveryRatio) : DeliveryRatio := { r with est := 0 }

end DeliveryRatio

structure LinkStats where
  forward : DeliveryRatio
  reverse : DeliveryRatio

namespace LinkStats

def deadEps : ℚ := R.round (15 / 100)

def new (window : Nat) : LinkStats := ⟨.new R window, .new R window⟩

def etx (l : LinkStats) : WithTop ℚ :=
  if l.forward.est < deadEps R ∨ l.reverse.est < deadEps R then ⊤
  else (R.round (1 / R.round (l.forward.est * l.reverse.est)) : ℚ)

def kill (l : LinkStats) : LinkStats := ⟨l.forward.kill, l.reverse.kill⟩

end LinkStats

structure PathRoute where
  nextHop : NodeId
  pathEtx : WithTop ℚ
  deriving DecidableEq

structure EtxTable where
  window : Nat
  links : AList (fun _ : NodeId => LinkStats)
  pathRoutes : AList (fun _ : NodeId => PathRoute)

namespace EtxTable

def new (window : Nat) : EtxTable := ⟨max window 1, ∅, ∅⟩

def record (t : EtxTable) (neighbor : NodeId) (weHeardThem theyHeardUs : Bool) : EtxTable :=
  let link := (t.links.lookup neighbor).getD (.new R t.window)
  { t with links := t.links.insert neighbor
            ⟨link.forward.record R theyHeardUs, link.reverse.record R weHeardThem⟩ }

def forceDead (t : EtxTable) (neighbor : NodeId) : EtxTable :=
  match t.links.lookup neighbor with
  | some link => { t with links := t.links.insert neighbor link.kill }
  | none => t

def etx (t : EtxTable) (neighbor : NodeId) : Option (WithTop ℚ) :=
  (t.links.lookup neighbor).map (LinkStats.etx R)

/-- The first neighbour of least finite metric, in the order of the table. -/
def bestNextHop (t : EtxTable) : Option (NodeId × ℚ) :=
  let finite := t.links.entries.filterMap (fun e =>
    match LinkStats.etx R e.2 with
    | (etx : ℚ) => some (e.1, etx)
    | ⊤ => none)
  finite.foldl (fun best x =>
    match best with
    | some b => if x.2 < b.2 then some x else some b
    | none => some x) none

def pathRoute (t : EtxTable) (dst : NodeId) : Option PathRoute := t.pathRoutes.lookup dst

def isFeasible (t : EtxTable) (dst : NodeId) (newPathEtx : WithTop ℚ) : Bool :=
  match t.pathRoute dst with
  | none => true
  | some existing => newPathEtx < existing.pathEtx && newPathEtx ≠ ⊤

def learnRoute (t : EtxTable) (dst nextHop : NodeId) (pathEtx : WithTop ℚ) : EtxTable × Bool :=
  if dst = nextHop then (t, false)
  else if !t.isFeasible dst pathEtx then (t, false)
  else ({ t with pathRoutes := t.pathRoutes.insert dst ⟨nextHop, pathEtx⟩ }, true)

def computePathEtx (t : EtxTable) (nextHop : NodeId) (advertisedPathEtx : WithTop ℚ) : WithTop ℚ :=
  match (t.etx R nextHop).getD ⊤, advertisedPathEtx with
  | (link : ℚ), (advertised : ℚ) =>
      let sum := R.round (link + advertised)
      if sum > 1000000 then ⊤ else sum
  | _, _ => ⊤

end EtxTable

/-- What every estimate keeps however the arithmetic rounds. -/
structure DeliveryRatio.Bounded (r : DeliveryRatio) : Prop where
  alpha : r.alpha ∈ Set.Icc (1 / 4) (5 / 8)
  est : r.est ∈ Set.Icc 0 (5 / 2)

theorem dyadic24_zero : Dyadic24 0 := ⟨0, 0, by norm_num, by norm_num, by norm_num⟩
theorem dyadic24_eighth : Dyadic24 (1 / 8) := ⟨1, 3, by norm_num, by norm_num, by norm_num⟩
theorem dyadic24_quarter : Dyadic24 (1 / 4) := ⟨1, 2, by norm_num, by norm_num, by norm_num⟩
theorem dyadic24_fiveEighths : Dyadic24 (5 / 8) := ⟨5, 3, by norm_num, by norm_num, by norm_num⟩
theorem dyadic24_fiveHalves : Dyadic24 (5 / 2) := ⟨5, 1, by norm_num, by norm_num, by norm_num⟩

namespace DeliveryRatio

theorem new_bounded (window : Nat) : (new R window).Bounded where
  alpha := by
    have hlo := R.round_mem_Icc (x := 3 / 10) dyadic24_quarter dyadic24_fiveEighths (by norm_num)
    have hhi := R.round_le (x := 6 / 10) dyadic24_fiveEighths (by norm_num)
    exact ⟨hlo.1.trans (le_max_left _ _), max_le hlo.2 ((min_le_right _ _).trans hhi)⟩
  est := R.round_mem_Icc dyadic24_zero dyadic24_fiveHalves (by norm_num)

variable {R}

theorem Bounded.record {r : DeliveryRatio} (h : r.Bounded) (gotHello : Bool) :
    (r.record R gotHello).Bounded := by
  obtain ⟨⟨hlo, hhi⟩, h0, h1⟩ := h
  have hfresh : R.round (r.alpha * if gotHello then 1 else 0) ∈ Set.Icc 0 (5 / 8) := by
    apply R.round_mem_Icc dyadic24_zero dyadic24_fiveEighths
    cases gotHello <;> constructor <;> norm_num <;> linarith
  have hkeep : R.round (1 - r.alpha) ∈ Set.Icc 0 (3 / 4) := by
    refine R.round_mem_Icc dyadic24_zero ⟨3, 2, by norm_num, by norm_num, by norm_num⟩
      ⟨?_, ?_⟩ <;> linarith
  have hold : R.round (R.round (1 - r.alpha) * r.est) ∈ Set.Icc 0 (15 / 8) := by
    refine R.round_mem_Icc dyadic24_zero ⟨15, 3, by norm_num, by norm_num, by norm_num⟩
      ⟨mul_nonneg hkeep.1 h0, ?_⟩
    calc R.round (1 - r.alpha) * r.est ≤ 3 / 4 * (5 / 2) := mul_le_mul hkeep.2 h1 h0 (by norm_num)
      _ = 15 / 8 := by norm_num
  refine ⟨⟨hlo, hhi⟩, R.round_mem_Icc dyadic24_zero dyadic24_fiveHalves ⟨add_nonneg hfresh.1 hold.1, ?_⟩⟩
  calc _ ≤ (5 / 8 + 15 / 8 : ℚ) := add_le_add hfresh.2 hold.2
    _ = 5 / 2 := by norm_num

theorem Bounded.kill {r : DeliveryRatio} (h : r.Bounded) :
    r.kill.Bounded := ⟨h.alpha, by norm_num [DeliveryRatio.kill]⟩

end DeliveryRatio

structure LinkStats.Bounded (l : LinkStats) : Prop where
  forward : l.forward.Bounded
  reverse : l.reverse.Bounded

variable {R}

theorem LinkStats.Bounded.le_etx {l : LinkStats} (h : l.Bounded) {q : ℚ} (hq : l.etx R = q) :
    1 / 8 ≤ q := by
  rw [LinkStats.etx] at hq
  split at hq
  · exact absurd hq (WithTop.top_ne_coe)
  · next halive =>
      obtain ⟨hf, hr⟩ := not_or.mp halive
      have heps : 1 / 8 ≤ LinkStats.deadEps R := R.le_round dyadic24_eighth (by norm_num)
      have hf' : 1 / 8 ≤ l.forward.est := heps.trans (not_lt.mp hf)
      have hr' : 1 / 8 ≤ l.reverse.est := heps.trans (not_lt.mp hr)
      have hprod : R.round (l.forward.est * l.reverse.est) ∈ Set.Icc (1 / 64) (25 / 4) := by
        refine R.round_mem_Icc ⟨1, 6, by norm_num, by norm_num, by norm_num⟩
          ⟨25, 2, by norm_num, by norm_num, by norm_num⟩ ⟨?_, ?_⟩
        · calc (1 / 64 : ℚ) = 1 / 8 * (1 / 8) := by norm_num
            _ ≤ _ := mul_le_mul hf' hr' (by norm_num) h.forward.est.1
        · calc _ ≤ (5 / 2 * (5 / 2) : ℚ) :=
            mul_le_mul h.forward.est.2 h.reverse.est.2 h.reverse.est.1 (by norm_num)
            _ = 25 / 4 := by norm_num
      rw [← WithTop.coe_injective hq]
      apply R.le_round dyadic24_eighth
      rw [le_div_iff₀ (lt_of_lt_of_le (by norm_num) hprod.1)]
      linarith [hprod.2]

namespace EtxTable

def LinksBounded (t : EtxTable) : Prop := ∀ n l, t.links.lookup n = some l → l.Bounded

theorem LinksBounded.record {t : EtxTable} (h : t.LinksBounded) (n : NodeId)
    (weHeardThem theyHeardUs : Bool) : (t.record R n weHeardThem theyHeardUs).LinksBounded := by
  have hold : ((t.links.lookup n).getD (.new R t.window)).Bounded := by
    cases hn : t.links.lookup n with
    | none => exact ⟨DeliveryRatio.new_bounded R t.window, DeliveryRatio.new_bounded R t.window⟩
    | some l => exact h n l hn
  intro m l hl
  by_cases hm : m = n
  · subst hm
    rw [EtxTable.record, AList.lookup_insert] at hl
    rw [← Option.some.inj hl]
    exact ⟨hold.forward.record theyHeardUs, hold.reverse.record weHeardThem⟩
  · rw [EtxTable.record, AList.lookup_insert_ne hm] at hl
    exact h m l hl

theorem LinksBounded.forceDead {t : EtxTable} (h : t.LinksBounded) (n : NodeId) :
    (t.forceDead n).LinksBounded := by
  rw [EtxTable.forceDead]
  cases hn : t.links.lookup n with
  | none => exact h
  | some link =>
      intro m l hl
      by_cases hm : m = n
      · subst hm
        rw [AList.lookup_insert] at hl
        rw [← Option.some.inj hl]
        exact ⟨(h m link hn).forward.kill, (h m link hn).reverse.kill⟩
      · rw [AList.lookup_insert_ne hm] at hl
        exact h m l hl

theorem pathRoute_record (t : EtxTable) (n dst : NodeId) (weHeardThem theyHeardUs : Bool) :
    (t.record R n weHeardThem theyHeardUs).pathRoute dst = t.pathRoute dst := rfl

theorem pathRoute_forceDead (t : EtxTable) (n dst : NodeId) :
    (t.forceDead n).pathRoute dst = t.pathRoute dst := by
  rw [forceDead]
  split <;> rfl

/-- A metric that is neither negative nor beyond the cap of the path sums. -/
def InRange (m : WithTop ℚ) : Prop := ∀ q : ℚ, m = q → q ∈ Set.Icc 0 1000000

theorem LinksBounded.computePathEtx_spec {t : EtxTable} (h : t.LinksBounded) {n : NodeId}
    {adv : WithTop ℚ} (hadv : InRange adv) :
    InRange (t.computePathEtx R n adv) ∧
      (t.computePathEtx R n adv ≠ ⊤ → adv < t.computePathEtx R n adv) := by
  simp only [computePathEtx]
  split
  · next link a hlink =>
      obtain ⟨h0, h1⟩ := hadv a rfl
      have heighth : 1 / 8 ≤ link := by
        rw [etx] at hlink
        cases hl : t.links.lookup n with
        | none => simp [hl] at hlink
        | some l =>
            rw [hl] at hlink
            exact (h n l hl).le_etx hlink
      have hlt := R.lt_round_add h0 h1 heighth
      split
      · exact ⟨fun q hq => absurd hq WithTop.top_ne_coe, fun hne => absurd rfl hne⟩
      · next hcap =>
          refine ⟨fun q hq => ?_, fun _ => WithTop.coe_lt_coe.mpr hlt⟩
          rw [← WithTop.coe_injective hq]
          exact ⟨h0.trans hlt.le, not_lt.mp hcap⟩
  · exact ⟨fun q hq => absurd hq WithTop.top_ne_coe, fun hne => absurd rfl hne⟩

theorem learnRoute_cases (t : EtxTable) (dst nextHop : NodeId) (pathEtx : WithTop ℚ) :
    (t.learnRoute dst nextHop pathEtx).1 = t ∨
      dst ≠ nextHop ∧ (∀ r, t.pathRoute dst = some r → pathEtx < r.pathEtx ∧ pathEtx ≠ ⊤) ∧
        (t.learnRoute dst nextHop pathEtx).1 =
          { t with pathRoutes := t.pathRoutes.insert dst ⟨nextHop, pathEtx⟩ } := by
  rw [learnRoute]
  split
  · exact Or.inl rfl
  · next hne =>
      split
      · exact Or.inl rfl
      · next hfeas =>
          refine Or.inr ⟨hne, fun r hr => ?_, rfl⟩
          simpa [isFeasible, hr] using hfeas

end EtxTable

end TriNet.Routing
