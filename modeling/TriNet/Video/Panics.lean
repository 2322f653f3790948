import TriNet.Video.Repair

namespace TriNet.Video

open Lib.BigEndian

def Frame.Fits (f : Frame) (frags : Nat) : Prop :=
  f.idx < frags ∧ f.idx * 70 + f.payload.length ≤ frags * 70

instance (f : Frame) (frags : Nat) : Decidable (f.Fits frags) := inferInstanceAs (Decidable (_ ∧ _))

namespace Reassembly

variable {st st' : Reassembly} {f : Frame} {g g' i : Nat} {gs : List Nat}

theorem sound_repairGroup_iff (h : st.repairGroup g = some st') (hg : g < fecGroupCount st.expectedFrags)
    (hg' : g' < fecGroupCount st.expectedFrags) (hne : g' ≠ g) : st'.Sound g' ↔ st.Sound g' := by
  have hext := extends_repairGroup h
  rw [Sound, Sound, missing_repairGroup h hg hg' hne, hext.parity, hext.expectedFrags, hext.frags]

/-- The repair of one group decides nothing for another, so the loop panics
exactly where one of its groups would panic by itself. -/
theorem exists_repairAll_iff (hnodup : gs.Nodup) (hgs : ∀ g ∈ gs, g < fecGroupCount st.expectedFrags) :
    (∃ st', gs.foldlM repairGroup st = some st') ↔ ∀ g ∈ gs, st.Sound g := by
  induction gs generalizing st with
  | nil => exact iff_of_true ⟨st, rfl⟩ (fun g hg => absurd hg List.not_mem_nil)
  | cons g gs ih =>
      obtain ⟨hnew, hnodup⟩ := List.nodup_cons.mp hnodup
      obtain ⟨hg, hgs⟩ := List.forall_mem_cons.mp hgs
      rw [List.forall_mem_cons, ← exists_repairGroup_iff, List.foldlM_cons]
      cases hst : st.repairGroup g with
      | none => simp
      | some st₁ =>
          have hgs₁ : ∀ g' ∈ gs, g' < fecGroupCount st₁.expectedFrags := by
            rw [(extends_repairGroup hst).expectedFrags]
            exact hgs
          have hrest : (∀ g' ∈ gs, st₁.Sound g') ↔ ∀ g' ∈ gs, st.Sound g' := by
            refine forall₂_congr (fun g' hg' => sound_repairGroup_iff hst hg (hgs g' hg') ?_)
            rintro rfl
            exact hnew hg'
          rw [← hrest, ← ih hnodup hgs₁]
          simp

theorem exists_repairGroups_iff :
    (∃ st', st.repairGroups = some st') ↔ ∀ g < fecGroupCount st.expectedFrags, st.Sound g := by
  rw [repairGroups, exists_repairAll_iff List.nodup_range (fun g hg => List.mem_range.mp hg)]
  simp only [List.mem_range]

theorem received_repairGroup (h : st.repairGroup g = some st') (i : Nat) :
    st'.received i = true ↔ st.received i = true ∨ st.parity g ≠ none ∧ st.missing g = [i] := by
  rcases repairGroup_cases h with ⟨rfl, hset⟩ | ⟨par, lost, hpar, hmiss, _, rfl⟩
  · refine ⟨Or.inl, ?_⟩
    rintro (hi | ⟨hpar, hmiss⟩)
    · exact hi
    · rcases hset with hnone | hlen
      · exact absurd hnone hpar
      · exact absurd (by rw [hmiss, List.length_singleton]) hlen
  · by_cases hi : i = lost
    · simp [restore, hpar, hmiss, hi]
    · simp [restore, hmiss, hi, Ne.symm hi]

theorem received_repairAll (hnodup : gs.Nodup) (hgs : ∀ g ∈ gs, g < fecGroupCount st.expectedFrags)
    (h : gs.foldlM repairGroup st = some st') (i : Nat) :
    st'.received i = true ↔ st.received i = true ∨ ∃ g ∈ gs, st.parity g ≠ none ∧ st.missing g = [i] := by
  induction gs generalizing st with
  | nil =>
      obtain rfl := Option.some.inj h
      simp
  | cons g gs ih =>
      obtain ⟨hnew, hnodup⟩ := List.nodup_cons.mp hnodup
      obtain ⟨hg, hgs⟩ := List.forall_mem_cons.mp hgs
      rw [List.foldlM_cons] at h
      obtain ⟨st₁, hst, h⟩ := Option.bind_eq_some_iff.mp h
      have hext := extends_repairGroup hst
      have hgs₁ : ∀ g' ∈ gs, g' < fecGroupCount st₁.expectedFrags := by
        rw [hext.expectedFrags]
        exact hgs
      have hrest : (∃ g' ∈ gs, st₁.parity g' ≠ none ∧ st₁.missing g' = [i]) ↔
          ∃ g' ∈ gs, st.parity g' ≠ none ∧ st.missing g' = [i] := by
        refine exists_congr (fun g' => and_congr_right (fun hg' => ?_))
        rw [hext.parity, missing_repairGroup hst hg (hgs g' hg') (fun he => hnew (he ▸ hg'))]
      rw [ih hnodup hgs₁ h, hrest, received_repairGroup hst, or_assoc]
      simp only [List.mem_cons, exists_eq_or_imp]

def receivedWith (st : Reassembly) (f : Frame) (i : Nat) : Bool :=
  st.received i || !f.isParity && decide (f.Fits st.frags) && f.idx == i

def parityWith (st : Reassembly) (f : Frame) (g : Nat) : Option Bytes :=
  if f.isParity ∧ f.idx = g then some f.payload else st.parity g

def lastLenWith (st : Reassembly) (f : Frame) : Option Nat :=
  if f.isParity then some f.lastLen
  else if f.Fits st.frags ∧ isLastFragment f.idx f.count then some f.payload.length
  else st.lastLen

/-- What a group misses if the payload has as many fragments as the frame says. -/
def missingWith (st : Reassembly) (f : Frame) (g : Nat) : List Nat :=
  (groupIndices f.count g).filter (fun i => !st.receivedWith f i)

def Repairable (st : Reassembly) (f : Frame) (i : Nat) : Prop :=
  ∃ g < fecGroupCount f.count, st.parityWith f g ≠ none ∧ st.missingWith f g = [i]

/-- A frame that agrees with what its entry has: the groups it tells of are in
the buffer, a parity that is used is a cell long, and a complete payload is not
longer than the buffer. -/
structure Accepts (st : Reassembly) (f : Frame) (attached : Bool) : Prop where
  index : ∀ g < fecGroupCount f.count, st.parityWith f g ≠ none →
    ∀ i ∈ groupIndices f.count g, i < st.frags
  cell : ∀ g < fecGroupCount f.count, ∀ par, st.parityWith f g = some par →
    (st.missingWith f g).length = 1 → par.length = 70
  slice : attached = true → (∀ i < st.frags, st.receivedWith f i = true ∨ st.Repairable f i) →
    ∀ last, st.lastLenWith f = some last → (f.count - 1) * 70 + last ≤ st.frags * 70

def stored (st : Reassembly) (f : Frame) (now : Nat) : Reassembly :=
  store { st with lastUpdate := now, expectedFrags := f.count } f

variable {now : Nat} {attached : Bool}

@[simp] theorem expectedFrags_stored : (st.stored f now).expectedFrags = f.count := by
  rw [stored, store]
  split
  · rfl
  · split <;> rfl

@[simp] theorem frags_stored : (st.stored f now).frags = st.frags := by
  rw [stored, store]
  split
  · rfl
  · split <;> rfl

@[simp] theorem received_stored : (st.stored f now).received = st.receivedWith f := by
  funext i
  rw [stored, store, receivedWith]
  split
  · next hpar => simp [hpar]
  · next hpar =>
      split
      · next hfits =>
          have hfits : f.Fits st.frags := hfits
          by_cases hi : i = f.idx
          · simp [hpar, hfits, hi]
          · simp [hi, Ne.symm hi]
      · next hfits =>
          have hfits : ¬f.Fits st.frags := hfits
          simp [hfits]

@[simp] theorem parity_stored : (st.stored f now).parity = st.parityWith f := by
  funext g
  rw [stored, store, parityWith]
  split
  · next hpar =>
      by_cases hg : g = f.idx
      · simp [hpar, hg]
      · simp [hg, Ne.symm hg]
  · next hpar => split <;> simp [hpar]

@[simp] theorem lastLen_stored : (st.stored f now).lastLen = st.lastLenWith f := by
  rw [stored, store, lastLenWith]
  split
  · rfl
  · split
    · next hfits =>
        have hfits : f.Fits st.frags := hfits
        simp [hfits]
    · next hfits =>
        have hfits : ¬f.Fits st.frags := hfits
        simp [hfits]

@[simp] theorem missing_stored : (st.stored f now).missing g = st.missingWith f g := by
  rw [missing, missingWith, expectedFrags_stored, received_stored]

theorem take_eq (hdone : st.done = false) :
    st.take f now attached = (st.stored f now).repairGroups.bind (fun st' => st'.finish attached) := by
  have hopen : ¬st.done = true := by simp [hdone]
  rw [take, if_neg hopen, stored]
  cases repairGroups (store { st with lastUpdate := now, expectedFrags := f.count } f) <;> rfl

theorem exists_finish_iff :
    (∃ r, st.finish attached = some r) ↔
      (attached = true → st.allReceived = true → ∀ last, st.lastLen = some last →
        (st.expectedFrags - 1) * 70 + last ≤ st.frags * 70) := by
  rw [finish]
  cases hall : st.allReceived with
  | false => simp
  | true =>
      cases hlast : st.lastLen with
      | none => simp
      | some last =>
          cases attached with
          | false => simp
          | true => by_cases htotal : (st.expectedFrags - 1) * 70 + last ≤ st.frags * 70 <;> simp [htotal]

theorem exists_take_iff (hdone : st.done = false) :
    (∃ r, st.take f now attached = some r) ↔ st.Accepts f attached := by
  have hsound : (∀ g < fecGroupCount f.count, (st.stored f now).Sound g) ↔
      ∀ g < fecGroupCount f.count, ∀ par, st.parityWith f g = some par →
        (∀ i ∈ groupIndices f.count g, i < st.frags) ∧
          ((st.missingWith f g).length = 1 → par.length = 70) := by
    simp only [Sound, parity_stored, expectedFrags_stored, frags_stored, missing_stored]
  have hgroups : (∃ st', (st.stored f now).repairGroups = some st') ↔ _ := exists_repairGroups_iff
  rw [expectedFrags_stored, hsound] at hgroups
  have hslice {st' : Reassembly} (hst' : (st.stored f now).repairGroups = some st') :
      (∃ r, st'.finish attached = some r) ↔
        (attached = true → (∀ i < st.frags, st.receivedWith f i = true ∨ st.Repairable f i) →
          ∀ last, st.lastLenWith f = some last → (f.count - 1) * 70 + last ≤ st.frags * 70) := by
    have hext := extends_repairGroups hst'
    have hall : st'.allReceived = true ↔ ∀ i < st.frags, st.receivedWith f i = true ∨
        st.Repairable f i := by
      have hrec := received_repairAll List.nodup_range (fun g hg => List.mem_range.mp hg) hst'
      simp only [allReceived, List.all_eq_true, List.mem_range, hext.frags, frags_stored, hrec,
        received_stored, parity_stored, missing_stored, expectedFrags_stored, Repairable]
    rw [exists_finish_iff, hall, hext.expectedFrags, hext.frags, hext.lastLen, expectedFrags_stored,
      frags_stored, lastLen_stored]
  rw [take_eq hdone]
  constructor
  · rintro ⟨r, hr⟩
    obtain ⟨st', hst', hfinish⟩ := Option.bind_eq_some_iff.mp hr
    have hall := hgroups.mp ⟨st', hst'⟩
    refine ⟨?_, fun g hg par hpar => (hall g hg par hpar).2, (hslice hst').mp ⟨r, hfinish⟩⟩
    intro g hg hpar
    obtain ⟨par, hpar⟩ := Option.ne_none_iff_exists'.mp hpar
    exact (hall g hg par hpar).1
  · intro h
    obtain ⟨st', hst'⟩ := hgroups.mpr (fun g hg par hpar => by
      refine ⟨h.index g hg ?_, h.cell g hg par hpar⟩
      rw [hpar]
      exact Option.some_ne_none par)
    obtain ⟨r, hr⟩ := (hslice hst').mpr h.slice
    exact ⟨r, by rw [hst', Option.bind_some, hr]⟩

end Reassembly

end TriNet.Video
