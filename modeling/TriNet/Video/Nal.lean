import TriNet.Video.Repair

namespace TriNet.Video

open Lib.BigEndian Lib.Parity

structure Nal where
  bytes : Bytes
  pos : 0 < bytes.length
  fits : bytes.length ≤ 17850

namespace Nal

variable (p : Nal)

def frags : Nat := (p.bytes.length + 69) / 70

theorem fragmentCount_length : fragmentCount p.bytes.length = p.frags := fragmentCount_of_le p.pos p.fits

theorem frags_pos : 0 < p.frags := by
  have := p.pos
  rw [frags]
  omega

theorem frags_lt : p.frags < 256 := by
  have := p.fits
  rw [frags]
  omega

theorem length_split : (p.frags - 1) * 70 + lastLen p.bytes p.frags = p.bytes.length := by
  have := p.pos
  rw [lastLen, frags]
  omega

theorem lastLen_le : lastLen p.bytes p.frags ≤ 70 := by
  rw [lastLen, frags]
  omega

theorem length_le : p.bytes.length ≤ p.frags * 70 := by
  rw [frags]
  omega

theorem length_last : (chunk p.bytes (p.frags - 1)).length = lastLen p.bytes p.frags := by
  have := p.lastLen_le
  rw [length_chunk, ← lastLen]
  omega

inductive Carries (seq : Nat) : Frame → Prop
  | data {i last : Nat} (hi : i < p.frags) : Carries seq ⟨false, seq, i, p.frags, last, chunk p.bytes i⟩
  | parity {g : Nat} (hg : g < fecGroupCount p.frags) :
      Carries seq ⟨true, seq, g, p.frags, lastLen p.bytes p.frags, groupParity p.bytes p.frags g⟩

end Nal

/-- What a frame brings: a fragment, or the parity of a group. -/
inductive Part
  | data (i : Nat)
  | parity (g : Nat)

def Frame.part (f : Frame) : Part := if f.isParity then .parity f.idx else .data f.idx

namespace Reassembly

variable {p : Nal} {seq : Nat} {f : Frame} {st st' : Reassembly}

def Has (st : Reassembly) : Part → Prop
  | .data i => st.received i
  | .parity g => st.parity g ≠ none

theorem Extends.has (h : Extends st st') {q : Part} (hq : st.Has q) : st'.Has q := by
  cases q with
  | data i => exact h.received i hq
  | parity g => exact fun he => hq (h.parity ▸ he)

theorem store_done (st : Reassembly) (f : Frame) : (st.store f).done = st.done := by
  rw [store]
  split
  · rfl
  · split <;> rfl

theorem store_lastUpdate (st : Reassembly) (f : Frame) : (st.store f).lastUpdate = st.lastUpdate := by
  rw [store]
  split
  · rfl
  · split <;> rfl

theorem has_store (f : Frame) {q : Part} (hq : st.Has q) : (st.store f).Has q := by
  rw [store]
  cases q with
  | data i =>
      split
      · exact hq
      · split
        · by_cases hi : i = f.idx
          · simp [Has, hi]
          · simpa [Has, hi] using hq
        · exact hq
  | parity g =>
      split
      · by_cases hg : g = f.idx
        · simp [Has, hg]
        · simpa [Has, hg] using hq
      · split <;> exact hq

/-- An entry that holds only bytes of one payload, each in its place. -/
structure Faithful (p : Nal) (st : Reassembly) : Prop where
  expectedFrags : st.expectedFrags = p.frags
  frags : st.frags = p.frags
  data : ∀ k, st.data k = if st.received (k / 70) then p.bytes.getD k 0 else 0
  received : ∀ i, st.received i → i < p.frags
  parity : ∀ g par, st.parity g = some par → g < fecGroupCount p.frags ∧
    par = groupParity p.bytes p.frags g
  lastLen : ∀ l, st.lastLen = some l → l = Video.lastLen p.bytes p.frags
  noLastLen : st.lastLen = none → st.received (p.frags - 1) = false ∧ ∀ g, st.parity g = none

namespace Faithful

theorem sane (h : Faithful p st) : st.Sane where
  pos := by
    rw [h.frags]
    exact p.frags_pos
  frags := h.frags.trans h.expectedFrags.symm
  parity g par hpar := by
    rw [(h.parity g par hpar).2, length_groupParity]
  lastLen l hl := by
    rw [h.lastLen l hl]
    exact p.lastLen_le

theorem fresh (now : Nat) : Faithful p (fresh p.frags now) where
  expectedFrags := rfl
  frags := rfl
  data _ := rfl
  received i hi := by cases hi
  parity g par hpar := by cases hpar
  lastLen l hl := by cases hl
  noLastLen _ := ⟨rfl, fun _ => rfl⟩

theorem touch (h : Faithful p st) (now : Nat) :
    Faithful p { st with lastUpdate := now, expectedFrags := p.frags } where
  expectedFrags := rfl
  frags := h.frags
  data := h.data
  received := h.received
  parity := h.parity
  lastLen := h.lastLen
  noLastLen := h.noLastLen

theorem stamp (h : Faithful p st) (now : Nat) (done : Bool) :
    Faithful p { st with lastUpdate := now, done := done } where
  expectedFrags := h.expectedFrags
  frags := h.frags
  data := h.data
  received := h.received
  parity := h.parity
  lastLen := h.lastLen
  noLastLen := h.noLastLen

theorem data_write (h : Faithful p st) {i : Nat} {bytes : Bytes}
    (hlen : bytes.length = min 70 (p.bytes.length - i * 70) ∨ bytes.length = 70)
    (hbytes : ∀ b < bytes.length, bytes.getD b 0 = p.bytes.getD (i * 70 + b) 0) (k : Nat) :
    write st.data (i * 70) bytes k =
      if Function.update st.received i true (k / 70) then p.bytes.getD k 0 else 0 := by
  have hle : bytes.length ≤ 70 := by omega
  rw [write]
  split
  · next hk =>
      have hcell : k / 70 = i := by omega
      have hb := hbytes (k - i * 70) (by omega)
      rw [hcell, Function.update_self, hb, if_pos rfl]
      congr 1
      omega
  · next hk =>
      by_cases hcell : k / 70 = i
      · -- past the end of a short last fragment there is nothing but zeros
        have hend : p.bytes.length ≤ k := by omega
        have hzero : p.bytes.getD k 0 = 0 := by simp [hend]
        rw [hcell, Function.update_self, if_pos rfl, hzero, h.data, hzero, ite_self]
      · rw [Function.update_of_ne hcell, h.data]

theorem data_fits (h : Faithful p st) {i : Nat} (hi : i < p.frags) :
    i < st.frags ∧ i * 70 + (chunk p.bytes i).length ≤ st.frags * 70 := by
  rw [h.frags, length_chunk]
  omega

theorem store_data (h : Faithful p st) {i last : Nat} (hi : i < p.frags) :
    Faithful p (st.store ⟨false, seq, i, p.frags, last, chunk p.bytes i⟩) := by
  have hpos := p.frags_pos
  simp only [Reassembly.store, Bool.false_eq_true, if_false, if_pos (h.data_fits hi)]
  refine ⟨h.expectedFrags, h.frags, ?_, ?_, h.parity, ?_, ?_⟩
  · apply h.data_write (Or.inl (length_chunk ..))
    intro b hb
    rw [length_chunk] at hb
    exact getD_chunk p.bytes i (by omega)
  · intro j hj
    by_cases hij : j = i
    · exact hij ▸ hi
    · exact h.received j (by simpa [hij] using hj)
  · intro l hl
    dsimp only at hl
    split at hl
    · next hlast =>
        obtain rfl : i = p.frags - 1 := Nat.eq_sub_of_add_eq (beq_iff_eq.mp hlast)
        rw [← Option.some.inj hl, p.length_last]
    · exact h.lastLen l hl
  · intro hl
    dsimp only at hl
    split at hl
    · cases hl
    · next hlast =>
        have hne : p.frags - 1 ≠ i := by
          rintro rfl
          exact hlast (beq_iff_eq.mpr (Nat.sub_add_cancel hpos))
        refine ⟨?_, (h.noLastLen hl).2⟩
        dsimp only
        rw [Function.update_of_ne hne]
        exact (h.noLastLen hl).1

theorem store_parity (h : Faithful p st) {g : Nat} (hg : g < fecGroupCount p.frags) :
    Faithful p (st.store ⟨true, seq, g, p.frags, Video.lastLen p.bytes p.frags,
      groupParity p.bytes p.frags g⟩) := by
  simp only [Reassembly.store, if_true]
  refine ⟨h.expectedFrags, h.frags, h.data, h.received, ?_, ?_, ?_⟩
  · intro k par hpar
    by_cases hkg : k = g
    · subst hkg
      simp only [Function.update_self, Option.some.injEq] at hpar
      exact ⟨hg, hpar.symm⟩
    · exact h.parity k par (by simpa [hkg] using hpar)
  · intro l hl
    exact (Option.some.inj hl).symm
  · intro hl
    cases hl

theorem store (h : Faithful p st) (hf : p.Carries seq f) : Faithful p (st.store f) := by
  cases hf with
  | data hi => exact h.store_data hi
  | parity hg => exact h.store_parity hg

theorem has_part_store (h : Faithful p st) (hf : p.Carries seq f) : (st.store f).Has f.part := by
  cases hf with
  | data hi =>
      simp only [Reassembly.store, Bool.false_eq_true, if_false, if_pos (h.data_fits hi)]
      exact Function.update_self ..
  | parity hg => simp [Reassembly.store, Frame.part, Has]

theorem repairGroup {g : Nat} (h : Faithful p st) (hg : g < fecGroupCount st.expectedFrags)
    (hst : st.repairGroup g = some st') : Faithful p st' := by
  rcases repairGroup_cases hst with ⟨rfl, _⟩ | ⟨par, lost, hpar, hmiss, hlen, rfl⟩
  · exact h
  · have hmem : ∀ i, i ∈ st.missing g ↔ i = lost := by simp [hmiss]
    have hlost : lost ∈ groupIndices st.expectedFrags g := List.mem_of_mem_filter ((hmem lost).mpr rfl)
    have hcells (i : Nat) (hi : i ∈ groupIndices st.expectedFrags g) (hne : i ≠ lost)
        {b : Nat} (hb : b < 70) :
        (st.cell i).getD b 0 = (chunk p.bytes i).getD b 0 := by
      have hgot : st.received i = true := by
        by_contra hno
        exact hne ((hmem i).mp (List.mem_filter.mpr ⟨hi, by simpa using hno⟩))
      have hdiv : (i * 70 + b) / 70 = i := by omega
      rw [getD_chunk p.bytes i hb]
      simp [cell, hb, h.data, hdiv, hgot]
    have hparity : par = Lib.Parity.parity 70 ((groupIndices st.expectedFrags g).map (chunk p.bytes)) := by
      rw [(h.parity g par hpar).2, groupParity, h.expectedFrags]
    have hrebuilt (b : Nat) (hb : b < 70) :
        (st.rebuilt g par lost).getD b 0 = p.bytes.getD (lost * 70 + b) 0 := by
      rw [rebuilt, hparity,
        getD_recover hb (nodup_groupIndices hg) hlost (fun i hi hne => hcells i hi hne hb),
        getD_chunk p.bytes lost hb]
    have hsize : (st.rebuilt g par lost).length = 70 := by rw [rebuilt, length_foldl_xorInto, hlen]
    refine ⟨h.expectedFrags, h.frags, ?_, ?_, h.parity, h.lastLen, ?_⟩
    · apply h.data_write (Or.inr hsize)
      rw [hsize]
      exact hrebuilt
    · intro j hj
      by_cases hjl : j = lost
      · rw [hjl, ← h.expectedFrags]
        exact ((mem_groupIndices hg).mp hlost).1
      · exact h.received j (by simpa [restore, hjl] using hj)
    · intro hl
      have hnone := (h.noLastLen hl).2 g
      rw [hpar] at hnone
      cases hnone

theorem repairGroups (h : Faithful p st) :
    ∃ st', st.repairGroups = some st' ∧ Faithful p st' ∧ Extends st st' ∧
      ∀ g < fecGroupCount p.frags, st'.Settled g := by
  have hgs : ∀ g ∈ List.range (fecGroupCount st.expectedFrags), g < fecGroupCount st.expectedFrags :=
    fun g hg => List.mem_range.mp hg
  obtain ⟨st', hst', _, hext⟩ := h.sane.exists_repairAll hgs
  have hrule := repairAll_rule (Faithful p) (fun s s' g hg hs hs' => hs.repairGroup hg hs') hgs hst' h
  refine ⟨st', hst', hrule.1, hext, fun g hg => hrule.2 g ?_⟩
  rw [h.expectedFrags]
  exact List.mem_range.mpr hg

theorem lastLen_of_allReceived (h : Faithful p st) (hall : st.allReceived = true) :
    st.lastLen = some (Video.lastLen p.bytes p.frags) := by
  cases hl : st.lastLen with
  | some l => rw [h.lastLen l hl]
  | none =>
      have hno := (h.noLastLen hl).1
      rw [allReceived, h.frags, List.all_eq_true] at hall
      have hpos := p.frags_pos
      rw [hall (p.frags - 1) (List.mem_range.mpr (by omega))] at hno
      cases hno

theorem payload_of_allReceived (h : Faithful p st) (hall : st.allReceived = true) :
    (List.range p.bytes.length).map st.data = p.bytes := by
  rw [allReceived, h.frags, List.all_eq_true] at hall
  apply List.ext_getElem
  · simp
  · intro k hk hk'
    have hcell : k / 70 < p.frags := by
      have := p.length_le
      omega
    simp [h.data, hall (k / 70) (List.mem_range.mpr hcell), hk']

theorem finish_of_allReceived (h : Faithful p st) (hall : st.allReceived = true) (attached : Bool) :
    st.finish attached =
      some (some { st with done := true }, if attached then some p.bytes else none) := by
  rw [finish, hall, h.lastLen_of_allReceived hall]
  have hlen := p.length_split
  have hle := p.length_le
  cases attached with
  | false => simp
  | true => simp [h.expectedFrags, h.frags, hlen, hle, h.payload_of_allReceived hall]

theorem take_open (h : Faithful p st) (hdone : st.done = false) (hf : p.Carries seq f) (now : Nat) :
    ∃ st', Faithful p st' ∧ st'.done = false ∧ st'.lastUpdate = now ∧
      (∀ g < fecGroupCount p.frags, st'.Settled g) ∧ st'.Has f.part ∧ (∀ q, st.Has q → st'.Has q) ∧
      ∀ attached, st.take f now attached = st'.finish attached := by
  have hcount : f.count = p.frags := by cases hf <;> rfl
  have htouch := h.touch now
  obtain ⟨st', hst', hfaith, hext, hset⟩ := (htouch.store hf).repairGroups
  refine ⟨st', hfaith, ?_, ?_, hset, ?_, ?_, ?_⟩
  · rw [hext.done, store_done]
    exact hdone
  · rw [hext.lastUpdate, store_lastUpdate]
  · exact hext.has (htouch.has_part_store hf)
  · exact fun q hq => hext.has (has_store f hq)
  · intro attached
    have hopen : ¬st.done = true := by simp [hdone]
    rw [take, if_neg hopen, hcount, hst']

end Faithful

end Reassembly

end TriNet.Video
