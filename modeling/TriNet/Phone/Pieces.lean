import TriNet.Phone.Unmixed

namespace TriNet.Phone

open Lib.BigEndian Lib.Parity

section

variable {total group i j gStart : Nat}

namespace VideoFEC

def groupOf (group i : Nat) : Nat := i / group * group

theorem groupOf_eq_iff (hgroup : 0 < group) (hg : groupOf group gStart = gStart) :
    groupOf group i = gStart ↔ gStart ≤ i ∧ i < gStart + group := by
  obtain ⟨q, rfl⟩ : ∃ q, gStart = q * group := ⟨gStart / group, hg.symm⟩
  rw [groupOf, Nat.mul_left_inj (Nat.pos_iff_ne_zero.mp hgroup), Nat.div_eq_iff hgroup]
  omega

theorem groupOf_groupOf (group i : Nat) : groupOf group (groupOf group i) = groupOf group i := by
  rcases Nat.eq_zero_or_pos group with rfl | hgroup
  · rfl
  · rw [groupOf, groupOf, Nat.mul_div_cancel _ hgroup]

theorem mem_groupStarts (hgroup : 0 < group) :
    gStart ∈ groupStarts total group ↔ gStart < total ∧ groupOf group gStart = gStart := by
  constructor
  · intro h
    refine ⟨lt_of_mem_groupStarts h, ?_⟩
    simp only [groupStarts, List.mem_range', Nat.zero_add, Nat.max_eq_right hgroup] at h
    obtain ⟨q, _, rfl⟩ := h
    rw [groupOf, Nat.mul_div_cancel_left _ hgroup, Nat.mul_comm]
  · rintro ⟨hlt, hg⟩
    simp only [groupStarts, List.mem_range', Nat.zero_add, Nat.max_eq_right hgroup]
    refine ⟨gStart / group, ?_, by rw [Nat.mul_comm]; exact hg.symm⟩
    rw [Nat.lt_iff_add_one_le, Nat.le_div_iff_mul_le hgroup, Nat.succ_mul]
    rw [groupOf] at hg
    omega

theorem groupOf_mem_groupStarts (hgroup : 0 < group) (hi : i < total) :
    groupOf group i ∈ groupStarts total group := by
  rw [mem_groupStarts hgroup]
  exact ⟨lt_of_le_of_lt (Nat.div_mul_le_self i group) hi, groupOf_groupOf group i⟩

theorem mem_covered_iff (hgroup : 0 < group) (hg : gStart ∈ groupStarts total group) :
    i ∈ covered gStart (min group (total - gStart)) total ↔ i < total ∧ groupOf group i = gStart := by
  obtain ⟨hlt, hself⟩ := (mem_groupStarts hgroup).mp hg
  rw [groupOf_eq_iff hgroup hself, covered, List.mem_range'_1]
  omega

theorem covered_min (gStart group total : Nat) :
    covered gStart (min group (total - gStart)) total = covered gStart group total := by
  rw [covered, covered]
  congr 1
  omega

end VideoFEC

inductive Piece
  | fragment (i : Nat)
  | parity (gStart : Nat)
  deriving DecidableEq

namespace Piece

def packet (group seq : Nat) (m : Bytes) : Piece → Bytes
  | .fragment i => fragmentPacket seq m i
  | .parity gStart => parityPacket group seq m gStart

def Sent (total group : Nat) : Piece → Prop
  | .fragment i => i < total
  | .parity gStart => gStart ∈ VideoFEC.groupStarts total group

variable {m : Long} {seq : Nat} {p q : Piece}

theorem exists_of_mem_packets {d : Bytes} (h : d ∈ packets group seq m.bytes) :
    ∃ p : Piece, p.Sent m.total group ∧ p.packet group seq m.bytes = d := by
  have hframing : framing m.bytes = .fragmented := by
    rw [framing, if_neg (Nat.not_le.mpr m.long), if_pos m.fits]
  rw [packets, hframing] at h
  rcases List.mem_append.mp h with h | h
  · obtain ⟨i, hi, rfl⟩ := List.mem_map.mp h
    exact ⟨.fragment i, List.mem_range.mp hi, rfl⟩
  · have htwo : totalOf m.bytes ≥ 2 := m.two_le_total
    rw [if_pos htwo] at h
    obtain ⟨gStart, hg, rfl⟩ := List.mem_map.mp h
    exact ⟨.parity gStart, hg, rfl⟩

theorem packet_inj (hseq : seq < 65536) (hp : p.Sent m.total group) (hq : q.Sent m.total group)
    (h : p.packet group seq m.bytes = q.packet group seq m.bytes) : p = q := by
  have hdecode := congrArg decode h
  cases p with
  | fragment i =>
      rw [packet, decode_fragmentPacket hseq m hp] at hdecode
      cases q with
      | fragment j =>
          rw [packet, decode_fragmentPacket hseq m hq] at hdecode
          cases hdecode
          rfl
      | parity gStart =>
          rw [packet, decode_parityPacket hseq m (VideoFEC.lt_of_mem_groupStarts hq)] at hdecode
          cases hdecode
  | parity gStart =>
      rw [packet, decode_parityPacket hseq m (VideoFEC.lt_of_mem_groupStarts hp)] at hdecode
      cases q with
      | fragment j =>
          rw [packet, decode_fragmentPacket hseq m hq] at hdecode
          cases hdecode
      | parity gStart' =>
          rw [packet, decode_parityPacket hseq m (VideoFEC.lt_of_mem_groupStarts hq)] at hdecode
          injection hdecode with _ hstart
          rw [hstart]

end Piece

/-- A fragment that came in, or that is the only one missing of a group whose
parity came in. -/
def Deducible (total group : Nat) (seen : List Piece) (i : Nat) : Prop :=
  .fragment i ∈ seen ∨
    .parity (VideoFEC.groupOf group i) ∈ seen ∧
      ∀ j < total, j ≠ i → VideoFEC.groupOf group j = VideoFEC.groupOf group i → .fragment j ∈ seen

theorem Deducible.mono {seen seen' : List Piece} (h : Deducible total group seen i)
    (hsub : seen ⊆ seen') : Deducible total group seen' i := by
  rcases h with hi | ⟨hpar, hrest⟩
  · exact .inl (hsub hi)
  · exact .inr ⟨hsub hpar, fun j hj hne hg => hsub (hrest j hj hne hg)⟩

theorem Deducible.first {seen : List Piece} (hgroup : 2 ≤ group) (htotal : 2 ≤ total)
    (h : ∀ i < total, Deducible total group seen i) :
    (.fragment 0 ∈ seen ∨ .parity 0 ∈ seen ∧ .fragment 1 ∈ seen) ∧
      (.fragment 1 ∈ seen ∨ .parity 0 ∈ seen ∧ .fragment 0 ∈ seen) := by
  have hzero : VideoFEC.groupOf group 0 = 0 := by rw [VideoFEC.groupOf, Nat.zero_div, Nat.zero_mul]
  have hone : VideoFEC.groupOf group 1 = 0 := by
    rw [VideoFEC.groupOf, Nat.div_eq_of_lt hgroup, Nat.zero_mul]
  have h0 := h 0 (by omega)
  have h1 := h 1 htotal
  rw [Deducible, hzero] at h0
  rw [Deducible, hone] at h1
  exact ⟨h0.imp_right (fun h => ⟨h.1, h.2 1 htotal (by decide) hone⟩),
    h1.imp_right (fun h => ⟨h.1, h.2 0 (by omega) (by decide) hzero⟩)⟩

theorem not_disjoint_of_deducible {seen seen' : List Piece} (hgroup : 2 ≤ group) (htotal : 2 ≤ total)
    (h : ∀ i < total, Deducible total group seen i)
    (h' : ∀ i < total, Deducible total group seen' i) : ¬seen.Disjoint seen' := by
  intro hdis
  have hf := Deducible.first hgroup htotal h
  have hf' := Deducible.first hgroup htotal h'
  have hnot (p : Piece) : p ∈ seen → p ∉ seen' := fun hp hp' => hdis hp hp'
  have hn0 := hnot (.fragment 0)
  have hn1 := hnot (.fragment 1)
  have hnp := hnot (.parity 0)
  tauto

end

variable {m : Long} {e : Entry} {group i gStart : Nat} {seen : List Piece}

namespace Entry

theorem part_fill {chunk : Bytes} (hi : i < e.parts.length) (j : Nat) :
    (e.fill i chunk).part j = if j = i then some chunk else e.part j := by
  rw [part, fill, List.getElem?_set]
  by_cases hij : i = j
  · subst hij
    rw [if_pos rfl, if_pos hi, if_pos rfl, Option.join_some]
  · rw [if_neg hij, if_neg (Ne.symm hij), part]

theorem part_fill_ne_none {chunk : Bytes} (hi : i < e.parts.length) {j : Nat}
    (hj : e.part j ≠ none) : (e.fill i chunk).part j ≠ none := by
  rw [part_fill hi]
  split
  · exact Option.some_ne_none _
  · exact hj

theorem part_put {chunk : Bytes} (hi : i < e.parts.length) {j : Nat} :
    (e.put i chunk).part j ≠ none ↔ j = i ∨ e.part j ≠ none := by
  rw [put]
  split
  · next hnone =>
      rw [part_fill hi]
      by_cases hji : j = i <;> simp [hji]
  · next hsome =>
      refine ⟨.inr, fun h => h.elim (fun hji => ?_) id⟩
      rwa [hji]

theorem Of.part_ne_none (h : e.Of m) (hfull : e.held = m.total) (hi : i < m.total) : e.part i ≠ none := by
  have hlt : i < e.parts.length := h.length.symm ▸ hi
  rw [Ne, part_eq_none hlt, ← Ne, ← Option.isSome_iff_ne_none]
  exact h.isSome_of_full hfull _ (List.getElem_mem hlt)

theorem Of.held_eq (h : e.Of m) (hall : ∀ i < m.total, e.part i ≠ none) : e.held = m.total := by
  rw [h.held, ← h.length, List.countP_eq_length]
  intro p hp
  obtain ⟨i, hi, rfl⟩ := List.getElem_of_mem hp
  have hpart := hall i (h.length ▸ hi)
  rwa [Ne, part_eq_none hi, ← Ne, ← Option.isSome_iff_ne_none] at hpart

/-- Between two tries to repair the message: the entry has what came in, and
nothing that could not be deduced from it. -/
structure Holding (m : Long) (group : Nat) (seen : List Piece) (e : Entry) : Prop where
  of : e.Of m
  data : ∀ i < m.total, .fragment i ∈ seen → e.part i ≠ none
  sound : ∀ i < m.total, e.part i ≠ none → Deducible m.total group seen i

def Settled (m : Long) (group : Nat) (seen : List Piece) (e : Entry) (gStart : Nat) : Prop :=
  ∀ i < m.total, VideoFEC.groupOf group i = gStart → Deducible m.total group seen i → e.part i ≠ none

theorem Holding.empty (h : ∀ i < m.total, .fragment i ∉ seen) : (empty m.total).Holding m group seen where
  of := .empty m
  data i hi hmem := absurd hmem (h i hi)
  sound _ _ hpart := absurd (part_empty ..) hpart

theorem Holding.mono_parity (h : e.Holding m group seen) (gStart : Nat) :
    e.Holding m group (.parity gStart :: seen) where
  of := h.of
  data i hi hmem := h.data i hi ((List.mem_cons.mp hmem).resolve_left nofun)
  sound i hi hpart := (h.sound i hi hpart).mono (List.subset_cons_self ..)

theorem Holding.put (h : e.Holding m group seen) (hi : i < m.total) :
    (e.put i (cell maxPayload m.bytes i)).Holding m group (.fragment i :: seen) where
  of := h.of.put hi
  data j hj hmem := by
    rw [part_put (h.of.length.symm ▸ hi)]
    rcases List.mem_cons.mp hmem with heq | hmem
    · cases heq
      exact .inl rfl
    · exact .inr (h.data j hj hmem)
  sound j hj hpart := by
    rw [part_put (h.of.length.symm ▸ hi)] at hpart
    rcases hpart with rfl | hpart
    · exact .inl (List.mem_cons_self ..)
    · exact (h.sound j hj hpart).mono (List.subset_cons_self ..)

theorem Holding.stamp (h : e.Holding m group seen) (tick : Nat) : { e with tick }.Holding m group seen :=
  ⟨h.of.stamp tick, h.data, h.sound⟩

/-- The one fragment a group misses can be deduced, because no other fragment of
the group was. -/
theorem Holding.fill (h : e.Holding m group seen) (hi : i < m.total) (hnone : e.part i = none)
    (hpar : .parity (VideoFEC.groupOf group i) ∈ seen)
    (hrest : ∀ j < m.total, j ≠ i → VideoFEC.groupOf group j = VideoFEC.groupOf group i →
      e.part j ≠ none) :
    (e.fill i (cell maxPayload m.bytes i)).Holding m group seen where
  of := h.of.fill hi hnone
  data j hj hmem := part_fill_ne_none (h.of.length.symm ▸ hi) (h.data j hj hmem)
  sound j hj hpart := by
    rw [part_fill (h.of.length.symm ▸ hi)] at hpart
    split at hpart
    · next hji =>
        subst hji
        refine .inr ⟨hpar, fun k hk hne hg => ?_⟩
        rcases h.sound k hk (hrest k hk hne hg) with hmem | ⟨_, hothers⟩
        · exact hmem
        · exact absurd hnone (h.data j hj (hothers j hj (Ne.symm hne) hg.symm))
    · exact h.sound j hj hpart

theorem Holding.settled_of_notMem (h : e.Holding m group seen) (hg : .parity gStart ∉ seen) :
    e.Settled m group seen gStart := by
  rintro i hi rfl (hmem | ⟨hpar, _⟩)
  · exact h.data i hi hmem
  · exact absurd hpar hg

theorem Settled.mono_parity {g : Nat} (h : e.Settled m group seen g)
    (hholding : e.Holding m group (.parity gStart :: seen))
    (hne : g ≠ gStart) : e.Settled m group (.parity gStart :: seen) g := by
  rintro j hj rfl (hmem | ⟨hpar, hothers⟩)
  · exact hholding.data j hj hmem
  · have hold := (List.mem_cons.mp hpar).resolve_left (fun heq => hne (Piece.parity.inj heq))
    refine h j hj rfl (.inr ⟨hold, fun i hi hij hgi => ?_⟩)
    exact (List.mem_cons.mp (hothers i hi hij hgi)).resolve_left nofun

/-- An entry that has exactly what can be deduced, and not the whole message. -/
structure Keeps (m : Long) (group : Nat) (seen : List Piece) (e : Entry) : Prop where
  holding : e.Holding m group seen
  settled : ∀ gStart, e.Settled m group seen gStart
  short : e.held ≠ m.total

theorem Keeps.not_all (h : e.Keeps m group seen) : ¬∀ i < m.total, Deducible m.total group seen i :=
  fun hall => h.short (h.holding.of.held_eq (fun i hi => h.settled _ i hi rfl (hall i hi)))

end Entry

def Long.parityOf (m : Long) (group gStart : Nat) : Parity :=
  let gLen := min group (m.total - gStart)
  ⟨VideoFEC.parity m.bytes gStart gLen m.total, gLen, lastLenOf m.bytes, m.total⟩

theorem Long.parityOf_of (m : Long) (group gStart : Nat) :
    (m.parityOf group gStart).Of m gStart := ⟨rfl, rfl, rfl⟩

def Entry.missing (m : Long) (group : Nat) (e : Entry) (gStart : Nat) : List Nat :=
  (VideoFEC.covered gStart (min group (m.total - gStart)) m.total).filter (fun i => (e.part i).isNone)

def Entry.recover (m : Long) (group : Nat) (e : Entry) (gStart : Nat) : Option (Nat × Bytes) :=
  let gLen := min group (m.total - gStart)
  VideoFEC.recover (VideoFEC.parity m.bytes gStart gLen m.total) e.part gStart gLen
    m.total (lastLenOf m.bytes)

theorem recover_of_missing (he : e.Of m) (h : e.missing m group gStart = [i]) :
    e.recover m group gStart = some (i, cell maxPayload m.bytes i) := by
  obtain ⟨bytes, hb⟩ : ∃ bytes, e.recover m group gStart = some (i, bytes) := by
    rw [Entry.missing] at h
    simp only [Entry.recover, VideoFEC.recover, h]
    refine ⟨_, if_pos ?_⟩
    rw [length_foldl_xorInto, VideoFEC.parity, length_parity]
    split
    · exact m.lastLen_le
    · exact le_rfl
  obtain ⟨_, _, rfl⟩ := recover_eq_some he (m.parityOf_of group gStart) hb
  exact hb

theorem recover_eq_none (h : ∀ i, e.missing m group gStart ≠ [i]) : e.recover m group gStart = none := by
  simp only [Entry.recover, VideoFEC.recover]
  split
  · next i hi => exact absurd hi (h i)
  · rfl

theorem mem_missing (hgroup : 0 < group) (hg : gStart ∈ VideoFEC.groupStarts m.total group) :
    i ∈ e.missing m group gStart ↔ (i < m.total ∧ VideoFEC.groupOf group i = gStart) ∧
      e.part i = none := by
  rw [Entry.missing, List.mem_filter, VideoFEC.mem_covered_iff hgroup hg, Option.isNone_iff_eq_none]

theorem missing_eq_singleton (hgroup : 0 < group) (hi : i < m.total) (hnone : e.part i = none)
    (hrest : ∀ j < m.total, j ≠ i → VideoFEC.groupOf group j = VideoFEC.groupOf group i →
      e.part j ≠ none) :
    e.missing m group (VideoFEC.groupOf group i) = [i] := by
  have hmem (j : Nat) : j ∈ e.missing m group (VideoFEC.groupOf group i) ↔ j = i := by
    rw [mem_missing hgroup (VideoFEC.groupOf_mem_groupStarts hgroup hi)]
    constructor
    · rintro ⟨⟨hj, hg⟩, hnone⟩
      by_contra hne
      exact hrest j hj hne hg hnone
    · rintro rfl
      exact ⟨⟨hi, rfl⟩, hnone⟩
  have hnodup : (e.missing m group (VideoFEC.groupOf group i)).Nodup := (List.nodup_range' _).filter _
  exact List.perm_singleton.mp ((List.perm_ext_iff_of_nodup hnodup (List.nodup_singleton i)).mpr
    (fun j => (hmem j).trans List.mem_singleton.symm))

theorem Entry.Holding.fill_missing (hgroup : 0 < group) (hg : gStart ∈ VideoFEC.groupStarts m.total group)
    (hpar : .parity gStart ∈ seen) (h : e.Holding m group seen) (hmiss : e.missing m group gStart = [i]) :
    i < e.parts.length ∧ (e.fill i (cell maxPayload m.bytes i)).Holding m group seen ∧
      (e.fill i (cell maxPayload m.bytes i)).Settled m group seen gStart := by
  have hmem (j : Nat) := hmiss ▸ mem_missing (i := j) (e := e) hgroup hg
  obtain ⟨⟨hi, hgi⟩, hnone⟩ := (hmem i).mp (List.mem_singleton_self i)
  have hrest (j : Nat) (hj : j < m.total) (hne : j ≠ i) (hgj : VideoFEC.groupOf group j = gStart) :
      e.part j ≠ none := fun hpart => hne (List.mem_singleton.mp ((hmem j).mpr ⟨⟨hj, hgj⟩, hpart⟩))
  have hlt : i < e.parts.length := h.of.length.symm ▸ hi
  refine ⟨hlt, h.fill hi hnone (hgi.symm ▸ hpar) (hgi.symm ▸ hrest), fun j hj hgj _ => ?_⟩
  by_cases hji : j = i
  · rw [part_fill hlt, if_pos hji]
    exact Option.some_ne_none _
  · exact part_fill_ne_none hlt (hrest j hj hji hgj)

theorem Entry.Holding.settled_of_recover (hgroup : 0 < group) (h : e.Holding m group seen)
    (hnone : e.recover m group gStart = none) : e.Settled m group seen gStart := by
  rintro i hi rfl (hmem | ⟨_, hothers⟩) hpart
  · exact h.data i hi hmem hpart
  · have hone := missing_eq_singleton hgroup hi hpart
      (fun j hj hne hg => h.data j hj (hothers j hj hne hg))
    rw [recover_of_missing h.of hone] at hnone
    cases hnone

end TriNet.Phone
