import TriNet.Video.Downlink

namespace TriNet.Video

open Lib.BigEndian Lib.Parity Lib.Runs

namespace Reassembly

variable {st st' : Reassembly} {g : Nat}

def rebuilt (st : Reassembly) (g : Nat) (par : Bytes) (lost : Nat) : Bytes :=
  (((groupIndices st.expectedFrags g).filter (· ≠ lost)).map st.cell).foldl xorInto par

def restore (st : Reassembly) (lost : Nat) (bytes : Bytes) : Reassembly :=
  { st with data := write st.data (lost * 70) bytes, received := Function.update st.received lost true }

theorem repairGroup_cases (h : st.repairGroup g = some st') :
    (st' = st ∧ (st.parity g = none ∨ (st.missing g).length ≠ 1)) ∨
      ∃ par lost, st.parity g = some par ∧ st.missing g = [lost] ∧ par.length = 70 ∧
        st' = st.restore lost (st.rebuilt g par lost) := by
  rw [repairGroup] at h
  split at h
  · next hpar => exact Or.inl ⟨(Option.some.inj h).symm, Or.inl hpar⟩
  · next par hpar =>
      dsimp only at h
      split at h
      · cases h
      · split at h
        · next hone =>
            obtain ⟨lost, hlost⟩ := List.length_eq_one_iff.mp (beq_iff_eq.mp hone)
            simp only [hlost] at h
            split at h
            · next hlen =>
                refine Or.inr ⟨par, lost, hpar, hlost, ?_, (Option.some.inj h).symm⟩
                simpa using hlen
            · cases h
        · next hone => exact Or.inl ⟨(Option.some.inj h).symm, Or.inr (fun he => hone (beq_iff_eq.mpr he))⟩

/-- What the repair of a group relies on: its fragments are in the buffer, and
the parity that rebuilds one of them is a cell long. -/
def Sound (st : Reassembly) (g : Nat) : Prop :=
  ∀ par, st.parity g = some par →
    (∀ i ∈ groupIndices st.expectedFrags g, i < st.frags) ∧ ((st.missing g).length = 1 → par.length = 70)

theorem exists_repairGroup_iff : (∃ st', st.repairGroup g = some st') ↔ st.Sound g := by
  rw [repairGroup, Sound]
  cases hpar : st.parity g with
  | none => simp
  | some par =>
      simp only [Option.some.injEq, forall_eq']
      by_cases hin : (groupIndices st.expectedFrags g).any (fun i => decide (st.frags ≤ i)) = true
      · obtain ⟨i, hi, hle⟩ := List.any_eq_true.mp hin
        simp only [hin, if_true, reduceCtorEq, exists_false, false_iff, not_and]
        intro hall
        exact absurd (hall i hi) (Nat.not_lt.mpr (of_decide_eq_true hle))
      · have hall : ∀ i ∈ groupIndices st.expectedFrags g, i < st.frags := by
          intro i hi
          by_contra hlt
          exact hin (List.any_eq_true.mpr ⟨i, hi, decide_eq_true (Nat.not_lt.mp hlt)⟩)
        rw [and_iff_right hall]
        simp only [hin]
        by_cases hone : (st.missing g).length = 1
        · obtain ⟨lost, hlost⟩ := List.length_eq_one_iff.mp hone
          simp [fecCanRecover, hlost]
        · simp [fecCanRecover, hone]

/-- An entry whose bounds are those of its packets: nothing it does panics. -/
structure Sane (st : Reassembly) : Prop where
  pos : 0 < st.frags
  frags : st.frags = st.expectedFrags
  parity : ∀ g par, st.parity g = some par → par.length = 70
  lastLen : ∀ l, st.lastLen = some l → l ≤ 70

theorem Sane.exists_repairGroup (h : st.Sane) (hg : g < fecGroupCount st.expectedFrags) :
    ∃ st', st.repairGroup g = some st' := by
  apply exists_repairGroup_iff.mpr
  intro par hpar
  refine ⟨?_, fun _ => h.parity g par hpar⟩
  intro i hi
  rw [h.frags]
  exact ((mem_groupIndices hg).mp hi).1

theorem Sane.repairGroup (h : st.Sane) (hst : st.repairGroup g = some st') : st'.Sane := by
  rcases repairGroup_cases hst with ⟨rfl, _⟩ | ⟨par, lost, _, _, _, rfl⟩
  · exact h
  · exact ⟨h.pos, h.frags, h.parity, h.lastLen⟩

structure Extends (st st' : Reassembly) : Prop where
  expectedFrags : st'.expectedFrags = st.expectedFrags
  frags : st'.frags = st.frags
  parity : st'.parity = st.parity
  lastLen : st'.lastLen = st.lastLen
  done : st'.done = st.done
  lastUpdate : st'.lastUpdate = st.lastUpdate
  received : ∀ i, st.received i → st'.received i

theorem Extends.refl (st : Reassembly) : Extends st st := ⟨rfl, rfl, rfl, rfl, rfl, rfl, fun _ h => h⟩

theorem Extends.trans {st'' : Reassembly} (h : Extends st st') (h' : Extends st' st'') :
    Extends st st'' where
  expectedFrags := h'.expectedFrags.trans h.expectedFrags
  frags := h'.frags.trans h.frags
  parity := h'.parity.trans h.parity
  lastLen := h'.lastLen.trans h.lastLen
  done := h'.done.trans h.done
  lastUpdate := h'.lastUpdate.trans h.lastUpdate
  received i hi := h'.received i (h.received i hi)

theorem extends_repairGroup (h : st.repairGroup g = some st') : Extends st st' := by
  rcases repairGroup_cases h with ⟨rfl, _⟩ | ⟨par, lost, _, _, _, rfl⟩
  · exact Extends.refl _
  · refine ⟨rfl, rfl, rfl, rfl, rfl, rfl, fun i hi => ?_⟩
    by_cases hl : i = lost
    · simp [restore, hl]
    · simpa [restore, hl] using hi

/-- Nothing left to do for a group: its parity is not there, or not one
fragment is missing but none or several. -/
def Settled (st : Reassembly) (g : Nat) : Prop := st.parity g = none ∨ (st.missing g).length ≠ 1

theorem settled_repairGroup (h : st.repairGroup g = some st') : st'.Settled g := by
  rcases repairGroup_cases h with ⟨rfl, hset⟩ | ⟨par, lost, _, hmiss, _, rfl⟩
  · exact hset
  · have hnone : (st.restore lost (st.rebuilt g par lost)).missing g = [] := by
      have hrest : (st.missing g).filter (fun i => !(Function.update st.received lost true) i) = [] := by
        simp [hmiss]
      rw [missing, List.filter_filter] at hrest
      rw [missing, ← hrest]
      apply List.filter_congr
      intro i _
      by_cases hl : i = lost <;> simp [restore, hl]
    exact Or.inr (by simp [hnone])

theorem missing_repairGroup {g' : Nat} (h : st.repairGroup g = some st')
    (hg : g < fecGroupCount st.expectedFrags)
    (hg' : g' < fecGroupCount st.expectedFrags) (hne : g' ≠ g) : st'.missing g' = st.missing g' := by
  rcases repairGroup_cases h with ⟨rfl, _⟩ | ⟨par, lost, _, hmiss, _, rfl⟩
  · rfl
  · have hlost : lost ∈ groupIndices st.expectedFrags g :=
      List.mem_of_mem_filter (hmiss ▸ List.mem_singleton_self lost : lost ∈ st.missing g)
    apply List.filter_congr
    intro i hi
    have hil : i ≠ lost := by
      rintro rfl
      exact hne (((mem_groupIndices hg').mp hi).2.symm.trans ((mem_groupIndices hg).mp hlost).2)
    simp [restore, hil]

theorem Settled.repairGroup {g' : Nat} (hset : st.Settled g') (h : st.repairGroup g = some st')
    (hg : g < fecGroupCount st.expectedFrags) (hg' : g' < fecGroupCount st.expectedFrags) :
    st'.Settled g' := by
  by_cases hgg : g' = g
  · subst hgg
    exact settled_repairGroup h
  · rw [Settled, missing_repairGroup h hg hg' hgg, (extends_repairGroup h).parity]
    exact hset

variable {gs : List Nat}

theorem Sane.exists_repairAll (h : st.Sane) (hgs : ∀ g ∈ gs, g < fecGroupCount st.expectedFrags) :
    ∃ st', gs.foldlM Reassembly.repairGroup st = some st' ∧ st'.Sane ∧ Extends st st' := by
  induction gs generalizing st with
  | nil => exact ⟨st, rfl, h, Extends.refl st⟩
  | cons g gs ih =>
      obtain ⟨st₁, hst₁⟩ := h.exists_repairGroup (hgs g (List.mem_cons_self ..))
      have hext := extends_repairGroup hst₁
      obtain ⟨st', hst', hsane, hext'⟩ := ih (h.repairGroup hst₁) (fun g' hg' => by
        rw [hext.expectedFrags]
        exact hgs g' (List.mem_cons_of_mem g hg'))
      refine ⟨st', ?_, hsane, hext.trans hext'⟩
      rw [List.foldlM_cons, hst₁]
      exact hst'

/-- The rule for the repair loop: what one group's repair keeps, the loop
keeps, and it leaves every group of it settled. -/
theorem repairAll_rule (P : Reassembly → Prop)
    (hP : ∀ st st' g, g < fecGroupCount st.expectedFrags → P st → st.repairGroup g = some st' → P st')
    (hgs : ∀ g ∈ gs, g < fecGroupCount st.expectedFrags)
    (h : gs.foldlM Reassembly.repairGroup st = some st')
    (hst : P st) : P st' ∧ ∀ g ∈ gs, st'.Settled g := by
  induction gs generalizing st P with
  | nil =>
      obtain rfl := Option.some.inj h
      exact ⟨hst, fun g hg => absurd hg List.not_mem_nil⟩
  | cons g gs ih =>
      rw [List.foldlM_cons] at h
      obtain ⟨st₁, hst₁, h⟩ := Option.bind_eq_some_iff.mp h
      have hext := extends_repairGroup hst₁
      have hg := hgs g (List.mem_cons_self ..)
      have hgs₁ (g' : Nat) (hg' : g' ∈ gs) : g' < fecGroupCount st₁.expectedFrags := by
        rw [hext.expectedFrags]
        exact hgs g' (List.mem_cons_of_mem g hg')
      -- once settled, the group stays settled through the rest of the loop
      have hkeep := ih (fun s => P s ∧ s.Settled g ∧ g < fecGroupCount s.expectedFrags)
        (fun s s' k hk hs hs' => by
          refine ⟨hP s s' k hk hs.1 hs', hs.2.1.repairGroup hs' hk hs.2.2, ?_⟩
          rw [(extends_repairGroup hs').expectedFrags]
          exact hs.2.2)
        hgs₁ h ⟨hP st st₁ g hg hst hst₁, settled_repairGroup hst₁, by rw [hext.expectedFrags]; exact hg⟩
      refine ⟨hkeep.1.1, fun k hk => ?_⟩
      rcases List.mem_cons.mp hk with rfl | hk
      · exact hkeep.1.2.1
      · exact hkeep.2 k hk

theorem take_of_done {f : Frame} {now : Nat} {attached : Bool} (hdone : st.done = true) :
    st.take f now attached = some (some { st with lastUpdate := now }, none) := by
  rw [take, if_pos hdone]

theorem extends_repairGroups (h : st.repairGroups = some st') : Extends st st' :=
  (repairAll_rule (Extends st) (fun _ _ _ _ hs hs' => hs.trans (extends_repairGroup hs'))
    (fun _ hg => List.mem_range.mp hg) h (Extends.refl st)).1

end Reassembly

end TriNet.Video
