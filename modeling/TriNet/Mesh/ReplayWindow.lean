import Mathlib.Data.Finset.Max
import Mathlib.Data.Finset.Insert

namespace TriNet.Mesh

structure ReplayWindow where
  highest : Nat
  bitmap : BitVec 64
  seenAny : Bool
  deriving DecidableEq

namespace ReplayWindow

def width : Nat := 64

def new : ReplayWindow := ⟨0, 0#64, false⟩

def checkAndSet (w : ReplayWindow) (ctr : Nat) : ReplayWindow × Bool :=
  if !w.seenAny then (⟨ctr, 1#64, true⟩, true)
  else if ctr > w.highest then
    let shift := ctr - w.highest
    let bitmap := if shift ≥ width then 1#64 else (w.bitmap <<< shift) ||| 1#64
    (⟨ctr, bitmap, w.seenAny⟩, true)
  else
    let diff := w.highest - ctr
    if diff ≥ width then (w, false)
    else
      let mask := 1#64 <<< diff
      if w.bitmap &&& mask ≠ 0#64 then (w, false)
      else ({ w with bitmap := w.bitmap ||| mask }, true)

/-- The counters a window must take: unseen and fewer than 64 below the
largest seen one. -/
def Fresh (seen : Finset Nat) (ctr : Nat) : Prop := ctr ∉ seen ∧ ∀ c ∈ seen, c < ctr + width

/-- What the window stores about the set of counters it has accepted. -/
structure Represents (w : ReplayWindow) (seen : Finset Nat) : Prop where
  seenAny : w.seenAny = true ↔ seen.Nonempty
  highest : w.seenAny = true → w.highest ∈ seen
  bounded : ∀ c ∈ seen, c ≤ w.highest
  bits : w.seenAny = true → ∀ i < width, w.bitmap.getLsbD i = true ↔ i ≤ w.highest ∧ w.highest - i ∈ seen

theorem new_represents : Represents new ∅ where
  seenAny := by simp [new]
  highest h := by simp [new] at h
  bounded c h := by simp at h
  bits h := by simp [new] at h

theorem shifted_one (i : Nat) : 1#64 <<< i = BitVec.twoPow 64 i := rfl

theorem mask_hit (b : BitVec 64) {i : Nat} (hi : i < width) :
    b &&& 1#64 <<< i ≠ 0#64 ↔ b.getLsbD i = true := by
  have hne : BitVec.twoPow 64 i ≠ 0#64 := by
    intro h
    have hbit := congrArg (fun x => x.getLsbD i) h
    simp [width] at hi
    simp [hi] at hbit
  rw [shifted_one, BitVec.and_twoPow]
  cases b.getLsbD i <;> simp [hne]

theorem getLsbD_one (i : Nat) : (1#64).getLsbD i = true ↔ i = 0 := by
  have h : 1#64 = BitVec.twoPow 64 0 := rfl
  rw [h, BitVec.getLsbD_twoPow]
  simp [eq_comm]

theorem getLsbD_mask {i j : Nat} (hi : i < width) :
    (1#64 <<< j).getLsbD i = true ↔ i = j := by
  simp only [width] at hi
  rw [shifted_one, BitVec.getLsbD_twoPow]
  simp only [Bool.and_eq_true, decide_eq_true_eq]
  omega

theorem first_spec {w : ReplayWindow} {seen : Finset Nat} (h : Represents w seen)
    (hany : w.seenAny = false) (ctr : Nat) :
    Fresh seen ctr ∧ checkAndSet w ctr = (⟨ctr, 1#64, true⟩, true) ∧
      Represents ⟨ctr, 1#64, true⟩ (insert ctr seen) := by
  have hempty : seen = ∅ := by
    rw [← Finset.not_nonempty_iff_eq_empty, ← h.seenAny, hany]
    simp
  subst hempty
  refine ⟨⟨by simp, by simp⟩, by simp [checkAndSet, hany], ?_⟩
  constructor
  · simp
  · simp
  · simp
  · intro _ i _
    simp only [getLsbD_one, insert_empty_eq, Finset.mem_singleton]
    omega

theorem Represents.advance {w : ReplayWindow} {seen : Finset Nat} (h : Represents w seen)
    (hany : w.seenAny = true) {ctr : Nat} (hctr : ctr > w.highest) :
    Represents ⟨ctr, if ctr - w.highest ≥ width then 1#64 else (w.bitmap <<< (ctr - w.highest)) |||
      1#64, true⟩ (insert ctr seen) := by
  constructor
  · simp
  · simp
  · intro c hc
    rcases Finset.mem_insert.mp hc with rfl | hc
    · exact le_rfl
    · exact (h.bounded c hc).trans hctr.le
  · intro _ i hi
    simp only [Finset.mem_insert]
    split
    · next hfar =>
        rw [getLsbD_one]
        constructor
        · rintro rfl
          simp
        · rintro ⟨hle, hc | hc⟩
          · omega
          · have := h.bounded _ hc
            omega
    · next hnear =>
        have hbits := h.bits hany (i - (ctr - w.highest)) (by omega)
        simp only [width] at hi
        rw [BitVec.getLsbD_or, Bool.or_eq_true, getLsbD_one, BitVec.getLsbD_shiftLeft]
        simp only [Bool.and_eq_true, decide_eq_true_eq, Bool.not_eq_true', decide_eq_false_iff_not, hbits]
        constructor
        · rintro (⟨⟨_, hge⟩, hle, hc⟩ | rfl)
          · refine ⟨by omega, Or.inr ?_⟩
            rwa [show ctr - i = w.highest - (i - (ctr - w.highest)) by omega]
          · simp
        · rintro ⟨hle, hc | hc⟩
          · exact Or.inr (by omega)
          · have hb := h.bounded _ hc
            refine Or.inl ⟨⟨hi, by omega⟩, by omega, ?_⟩
            rwa [show w.highest - (i - (ctr - w.highest)) = ctr - i by omega]

theorem Represents.record {w : ReplayWindow} {seen : Finset Nat} (h : Represents w seen)
    (hany : w.seenAny = true) {ctr : Nat} (hctr : ctr ≤ w.highest) :
    Represents { w with bitmap := w.bitmap ||| 1#64 <<< (w.highest - ctr) } (insert ctr seen) := by
  constructor
  · simp [hany]
  · intro _
    exact Finset.mem_insert_of_mem (h.highest hany)
  · intro c hc
    rcases Finset.mem_insert.mp hc with rfl | hc
    · exact hctr
    · exact h.bounded c hc
  · intro _ i hi
    dsimp only
    rw [BitVec.getLsbD_or, Bool.or_eq_true, getLsbD_mask hi, h.bits hany i hi, Finset.mem_insert]
    constructor
    · rintro (⟨hle, hc⟩ | rfl)
      · exact ⟨hle, Or.inr hc⟩
      · exact ⟨by omega, Or.inl (by omega)⟩
    · rintro ⟨hle, hc | hc⟩
      · exact Or.inr (by omega)
      · exact Or.inl ⟨hle, hc⟩

theorem ahead_spec {w : ReplayWindow} {seen : Finset Nat} (h : Represents w seen)
    (hany : w.seenAny = true) {ctr : Nat} (hctr : ctr > w.highest) :
    Fresh seen ctr ∧ (checkAndSet w ctr).2 = true ∧
      Represents (checkAndSet w ctr).1 (insert ctr seen) := by
  have hstep : checkAndSet w ctr =
      (⟨ctr, if ctr - w.highest ≥ width then 1#64 else (w.bitmap <<< (ctr - w.highest)) |||
        1#64, true⟩, true) := by
    simp [checkAndSet, hany, hctr]
  rw [hstep]
  refine ⟨⟨fun hmem => ?_, fun c hc => ?_⟩, rfl, h.advance hany hctr⟩
  · have := h.bounded ctr hmem
    omega
  · have := h.bounded c hc
    omega

theorem behind_spec {w : ReplayWindow} {seen : Finset Nat} (h : Represents w seen)
    (hany : w.seenAny = true) {ctr : Nat} (hctr : ¬ ctr > w.highest) :
    (Fresh seen ctr → (checkAndSet w ctr).2 = true ∧ Represents (checkAndSet w ctr).1 (insert ctr seen)) ∧
      (¬ Fresh seen ctr → checkAndSet w ctr = (w, false)) := by
  by_cases hold : w.highest - ctr ≥ width
  · have hstale : ¬ Fresh seen ctr := by
      intro hf
      have := hf.2 _ (h.highest hany)
      omega
    exact ⟨fun hf => absurd hf hstale, fun _ => by simp [checkAndSet, hany, hctr, hold]⟩
  · have hdiff : w.highest - ctr < width := by omega
    have hbit := h.bits hany (w.highest - ctr) hdiff
    rw [show w.highest - (w.highest - ctr) = ctr by omega] at hbit
    have hmask := mask_hit w.bitmap hdiff
    by_cases hseen : ctr ∈ seen
    · have hset : w.bitmap &&& 1#64 <<< (w.highest - ctr) ≠ 0#64 :=
        hmask.mpr (hbit.mpr ⟨by omega, hseen⟩)
      exact ⟨fun hf => absurd hseen hf.1, fun _ => by simp [checkAndSet, hany, hctr, hold, hset]⟩
    · have hclear : w.bitmap &&& 1#64 <<< (w.highest - ctr) = 0#64 := by
        by_contra hset
        exact hseen (hbit.mp (hmask.mp hset)).2
      have hfresh : Fresh seen ctr := by
        refine ⟨hseen, fun c hc => ?_⟩
        have := h.bounded c hc
        omega
      have hstep : checkAndSet w ctr =
          ({ w with bitmap := w.bitmap ||| 1#64 <<< (w.highest - ctr) }, true) := by
        simp [checkAndSet, hany, hctr, hold, hclear]
      refine ⟨fun _ => ?_, fun hf => absurd hfresh hf⟩
      rw [hstep]
      exact ⟨rfl, h.record hany (Nat.not_lt.mp hctr)⟩

/-- The bitmap window refines the set of accepted counters: it accepts exactly
the fresh ones, records what it accepts, and is left alone by a refusal. -/
theorem checkAndSet_spec {w : ReplayWindow} {seen : Finset Nat} (h : Represents w seen) (ctr : Nat) :
    (Fresh seen ctr → (checkAndSet w ctr).2 = true ∧ Represents (checkAndSet w ctr).1 (insert ctr seen)) ∧
      (¬ Fresh seen ctr → checkAndSet w ctr = (w, false)) := by
  cases hany : w.seenAny with
  | false =>
      obtain ⟨hf, hs, hr⟩ := first_spec h hany ctr
      exact ⟨fun _ => by rw [hs]; exact ⟨rfl, hr⟩, fun hn => absurd hf hn⟩
  | true =>
      by_cases hctr : ctr > w.highest
      · obtain ⟨hf, hs⟩ := ahead_spec h hany hctr
        exact ⟨fun _ => hs, fun hn => absurd hf hn⟩
      · exact behind_spec h hany hctr

theorem accepts_iff_fresh {w : ReplayWindow} {seen : Finset Nat} (h : Represents w seen)
    (ctr : Nat) : (checkAndSet w ctr).2 = true ↔ Fresh seen ctr := by
  obtain ⟨ha, hr⟩ := checkAndSet_spec h ctr
  refine ⟨fun hacc => ?_, fun hf => (ha hf).1⟩
  by_contra hf
  rw [hr hf] at hacc
  exact Bool.false_ne_true hacc

end ReplayWindow

end TriNet.Mesh
