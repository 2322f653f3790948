import TriNet.Video.Bridge
import TriNet.Video.Panics

namespace TriNet.Video

open Lib.BigEndian Lib.Runs

/-- What a burst leaves of a list: everything outside a run of places. -/
def outside {α : Type} (start len : Nat) (l : List α) : List α := l.take start ++ l.drop (start + len)

theorem mem_outside_iff {α : Type} {start len : Nat} {l : List α} {x : α} :
    x ∈ outside start len l ↔ ∃ k, (k < start ∨ start + len ≤ k) ∧ l[k]? = some x := by
  rw [outside, List.mem_append, List.mem_iff_getElem?, List.mem_iff_getElem?]
  constructor
  · rintro (⟨k, hk⟩ | ⟨k, hk⟩)
    · rw [List.getElem?_take] at hk
      split at hk
      · next hlt => exact ⟨k, Or.inl hlt, hk⟩
      · cases hk
    · rw [List.getElem?_drop] at hk
      exact ⟨start + len + k, Or.inr (Nat.le_add_right ..), hk⟩
  · rintro ⟨k, hlt | hle, hk⟩
    · exact Or.inl ⟨k, by rw [List.getElem?_take_of_lt hlt, hk]⟩
    · refine Or.inr ⟨k - (start + len), ?_⟩
      rw [List.getElem?_drop, Nat.add_sub_cancel' hle, hk]

theorem getElem?_map_range {α : Type} {f : Nat → α} {n k : Nat} {x : α} :
    ((List.range n).map f)[k]? = some x ↔ k < n ∧ f k = x := by
  rw [List.getElem?_map]
  by_cases hk : k < n
  · simp [hk]
  · simp [hk]

namespace Nal

variable (p : Nal) (w : Nat)

def parts : List Part :=
  (List.range p.frags).map Part.data ++ (List.range (fecGroupCount p.frags)).map Part.parity

def packet : Part → Bytes
  | .data i => dataPacket w p.frags p.bytes i
  | .parity g => parityPacket w p.frags p.bytes g

def place : Part → Nat
  | .data i => i
  | .parity g => p.frags + g

def HasPart : Part → Prop
  | .data i => i < p.frags
  | .parity g => g < fecGroupCount p.frags

variable {p w}

theorem getElem?_parts {k : Nat} {q : Part} : p.parts[k]? = some q ↔ p.HasPart q ∧ p.place q = k := by
  rw [parts]
  by_cases hk : k < p.frags
  · rw [List.getElem?_append_left (by simpa using hk), getElem?_map_range]
    cases q with
    | data i =>
        simp only [HasPart, place, Part.data.injEq]
        omega
    | parity g =>
        simp only [HasPart, place, reduceCtorEq, and_false, false_iff]
        omega
  · rw [List.getElem?_append_right (by simpa using hk), getElem?_map_range,
      List.length_map, List.length_range]
    cases q with
    | data i =>
        simp only [HasPart, place, reduceCtorEq, and_false, false_iff]
        omega
    | parity g =>
        simp only [HasPart, place, Part.parity.injEq]
        omega

theorem packets_uplink {cfg : Config} (hfec : cfg.fecEnabled = true) :
    Path.packets cfg .uplink w p.bytes = some (p.parts.map (p.packet w)) := by
  have hpos : ¬(p.frags = 0 ∧ cfg.overflowChecks = true) := fun h => absurd h.1 p.frags_pos.ne'
  simp only [Path.packets, p.fragmentCount_length, if_neg hpos, hfec, if_true, parts,
    List.map_append, List.map_map]
  rfl

theorem parse_packet (hw : w < 65536) {q : Part} (hq : p.HasPart q) :
    ∃ f, parse (p.packet w q) = some f ∧ f.seq = w ∧ f.part = q := by
  cases q with
  | data i =>
      obtain ⟨last, hparse⟩ := parse_dataPacket hw p.frags_lt hq p.bytes
      exact ⟨_, hparse, rfl, rfl⟩
  | parity g => exact ⟨_, parse_parityPacket hw p.frags_lt hq p.bytes, rfl, rfl⟩

end Nal

namespace Reassembly

variable {p : Nal} {w i : Nat} {st : Reassembly} {f : Frame}

theorem part_of_receivedWith (h : st.receivedWith f i = true) :
    st.received i = true ∨ f.part = .data i := by
  simp only [receivedWith, Bool.or_eq_true, Bool.and_eq_true, Bool.not_eq_true',
    decide_eq_true_eq, beq_iff_eq] at h
  rcases h with h | ⟨⟨hdata, _⟩, rfl⟩
  · exact Or.inl h
  · exact Or.inr (by simp [Frame.part, hdata])

theorem part_of_parityWith {g : Nat} (h : st.parityWith f g ≠ none) :
    st.parity g ≠ none ∨ f.part = .parity g := by
  rw [parityWith] at h
  split at h
  · next hpar => exact Or.inr (by simp [Frame.part, hpar.1, hpar.2])
  · exact Or.inl h

/-- Neither a fragment nor the parity of its group is there. -/
structure Lacks (p : Nal) (i : Nat) (st : Reassembly) : Prop where
  faithful : st.Faithful p
  data : st.received i = false
  parity : st.parity (i % fecGroupCount p.frags) = none

theorem Lacks.repairGroups {st' : Reassembly} (h : st.Lacks p i) (hst' : st.repairGroups = some st')
    (hfaith : st'.Faithful p) : st'.Lacks p i := by
  refine ⟨hfaith, ?_, by rw [(extends_repairGroups hst').parity, h.parity]⟩
  by_contra hyes
  have hrec := (received_repairAll List.nodup_range (fun g hg => List.mem_range.mp hg) hst' i).mp
    (by simpa using hyes)
  rcases hrec with hrec | ⟨g, hg, hpar, hmiss⟩
  · rw [h.data] at hrec
    cases hrec
  · -- the fragment is only in the group whose parity is lacking
    have hmem : i ∈ groupIndices st.expectedFrags g :=
      List.mem_of_mem_filter (hmiss ▸ List.mem_singleton_self i : i ∈ st.missing g)
    have hgroup := ((mem_groupIndices (List.mem_range.mp hg)).mp hmem).2
    rw [h.faithful.expectedFrags] at hgroup
    exact hpar (hgroup ▸ h.parity)

theorem Lacks.stored (h : st.Lacks p i) (hf : p.Carries w f) (hdata : f.part ≠ .data i)
    (hparity : f.part ≠ .parity (i % fecGroupCount p.frags)) (now : Nat) :
    (st.stored f now).Lacks p i where
  faithful := by
    have hcount : f.count = p.frags := by cases hf <;> rfl
    rw [Reassembly.stored, hcount]
    exact (h.faithful.touch now).store hf
  data := by
    rw [received_stored]
    by_contra hyes
    rcases part_of_receivedWith (Bool.eq_true_of_not_eq_false hyes) with hhere | hpart
    · rw [h.data] at hhere
      cases hhere
    · exact hdata hpart
  parity := by
    rw [parity_stored]
    by_contra hyes
    rcases part_of_parityWith hyes with hhere | hpart
    · exact hhere h.parity
    · exact hparity hpart

theorem Lacks.keeps (hf : p.Carries w f) (hi : i < p.frags) (hdata : f.part ≠ .data i)
    (hparity : f.part ≠ .parity (i % fecGroupCount p.frags)) (now : Nat) (attached : Bool) :
    Downlink.Keeps (Lacks p i) (fun _ => False) f now attached := by
  intro st hst
  have hlacks : st.Lacks p i := by
    rcases hst with hst | rfl
    · exact hst
    · have hcount : f.count = p.frags := by cases hf <;> rfl
      rw [hcount]
      exact ⟨.fresh now, rfl, rfl⟩
  cases hdone : st.done with
  | true =>
      refine ⟨_, none, take_of_done hdone, ⟨hlacks.faithful.stamp now _, hlacks.data, hlacks.parity⟩, ?_⟩
      intro x hx
      cases hx
  | false =>
      have hstored := hlacks.stored hf hdata hparity now
      obtain ⟨st', hst', hfaith', _⟩ := hstored.faithful.repairGroups
      have hlacks' := hstored.repairGroups hst' hfaith'
      have hpending : st'.allReceived = false := by
        rw [allReceived, List.all_eq_false]
        exact ⟨i, List.mem_range.mpr (hfaith'.frags ▸ hi), by simp [hlacks'.data]⟩
      refine ⟨st', none, ?_, hlacks', fun x hx => by cases hx⟩
      rw [take_eq hdone, hst', Option.bind_some, finish, hpending, if_pos rfl]

end Reassembly

def SparesParity (n start len : Nat) : Prop := ∀ i < n, start ≤ i → start + len ≤ n + i % fecStride n

instance (n start len : Nat) :
    Decidable (SparesParity n start len) := inferInstanceAs (Decidable (∀ i < n, _))

/-- The packets of a sequence number come in in any order, each of them once or
more and none after a gap of two seconds, among packets of others that fit
their entries. -/
structure Through (w : Nat) (packets : List Bytes) (s : Downlink) (es : List Pass) : Prop where
  attached : ∀ e ∈ es, e.attached = true
  feed : Feed w packets es
  all : ∀ pkt ∈ packets, ∃ e ∈ es, ∃ t, e.arrival = some (t, pkt)
  fits : Along Downlink.step (Downlink.Fits w) s es
  chronological : Chronological es
  spaced : Spaced (times w es)

section Burst

variable {p : Nal} {w start len : Nat} {s : Downlink} {es : List Pass}

theorem mem_survivors {pkt : Bytes} :
    pkt ∈ outside start len (p.parts.map (p.packet w)) ↔
      ∃ q, p.HasPart q ∧ (p.place q < start ∨ start + len ≤ p.place q) ∧ p.packet w q = pkt := by
  rw [mem_outside_iff]
  constructor
  · rintro ⟨k, hk, hpkt⟩
    rw [List.getElem?_map] at hpkt
    obtain ⟨q, hq, rfl⟩ := Option.map_eq_some_iff.mp hpkt
    obtain ⟨hhas, rfl⟩ := Nal.getElem?_parts.mp hq
    exact ⟨q, hhas, hk, rfl⟩
  · rintro ⟨q, hhas, hk, rfl⟩
    refine ⟨p.place q, hk, ?_⟩
    rw [List.getElem?_map, Nal.getElem?_parts.mpr ⟨hhas, rfl⟩, Option.map_some]

theorem Through.arrives_iff (h : Through w (outside start len (p.parts.map (p.packet w))) s es)
    (hw : w < 65536)
    (q : Part) (hq : p.HasPart q) : Arrives w es q ↔ p.place q < start ∨ start + len ≤ p.place q := by
  constructor
  · rintro ⟨e, he, t, f, hf, hseq, rfl⟩
    obtain ⟨pkt, hpkt, harr⟩ := h.feed e he t f hf hseq
    obtain ⟨q, hhas, hplace, rfl⟩ := mem_survivors.mp hpkt
    obtain ⟨f', hparse, _, hpart⟩ := p.parse_packet hw hhas
    rw [Pass.parse_of_frame harr hf] at hparse
    cases hparse
    rw [hpart]
    exact hplace
  · intro hplace
    obtain ⟨e, he, t, harr⟩ := h.all _ (mem_survivors.mpr ⟨q, hq, hplace, rfl⟩)
    obtain ⟨f, hparse, hseq, hpart⟩ := p.parse_packet hw hq
    exact ⟨e, he, t, f, by rw [Pass.frame_of_arrival harr, hparse, Option.map_some], hseq, hpart⟩

theorem eq_of_mod_eq {m i j : Nat} (hlen : len ≤ m) (hi : start ≤ i ∧ i < start + len)
    (hj : start ≤ j ∧ j < start + len) (hmod : i % m = j % m) : i = j := by
  rcases Nat.le_total i j with hle | hle
  · have := Nat.sub_mod_eq_zero_of_mod_eq hmod.symm
    rw [Nat.mod_eq_of_lt (by omega)] at this
    omega
  · have := Nat.sub_mod_eq_zero_of_mod_eq hmod
    rw [Nat.mod_eq_of_lt (by omega)] at this
    omega

theorem recoverable_iff (h : Through w (outside start len (p.parts.map (p.packet w))) s es)
    (hw : w < 65536)
    (hlen : len ≤ fecStride p.frags) : Recoverable p (Arrives w es) ↔ SparesParity p.frags start len := by
  have hlost (q : Part) (hq : p.HasPart q) : ¬Arrives w es q ↔ start ≤ p.place q ∧
      p.place q < start + len := by
    rw [h.arrives_iff hw q hq]
    omega
  constructor
  · intro hrec i hi hstart
    by_contra hcut
    obtain ⟨hg, hmem⟩ := p.mem_group hi
    have hno : ¬Arrives w es (.data i) :=
      (hlost (.data i) hi).mpr ⟨hstart, by simp only [Nal.place]; omega⟩
    have hpar := (h.arrives_iff hw (.parity _) hg).mp (hrec _ hg i hmem hno).1
    simp only [Nal.place] at hpar
    rw [fecStride] at hcut
    omega
  · intro hspares g hg i hi hno
    obtain ⟨hin, hmod⟩ := (mem_groupIndices hg).mp hi
    have hburst := (hlost (.data i) hin).mp hno
    refine ⟨(h.arrives_iff hw (.parity g) hg).mpr (Or.inr ?_), ?_⟩
    · have := hspares i hin hburst.1
      rw [fecStride, hmod] at this
      exact this
    · intro j hj hjno
      obtain ⟨hjn, hjmod⟩ := (mem_groupIndices hg).mp hj
      exact eq_of_mod_eq hlen ((hlost (.data j) hjn).mp hjno) hburst (hjmod.trans hmod.symm)

theorem Through.carries (h : Through w (outside start len (p.parts.map (p.packet w))) s es)
    (hw : w < 65536) : ∀ e ∈ es, ∀ t f, e.frame = some (t, f) → f.seq = w → p.Carries w f := by
  have hfeed : Feed w (p.parts.map (p.packet w)) es := by
    intro e he t f hf hseq
    obtain ⟨pkt, hpkt, harr⟩ := h.feed e he t f hf hseq
    obtain ⟨k, _, hk⟩ := mem_outside_iff.mp hpkt
    exact ⟨pkt, List.mem_of_getElem? hk, harr⟩
  have hpackets : Path.packets ⟨0, true, false⟩ .uplink w p.bytes = some _ := p.packets_uplink rfl
  exact hfeed.carries hw hpackets

/-- A burst no longer than the stride costs the payload exactly if it takes a
fragment at the end of the data together with the parity of its group. -/
theorem burst_repaired_iff {cfg : Config} {packets : List Bytes}
    (hfec : cfg.fecEnabled = true) (hw : w < 65536)
    (hpackets : Path.packets cfg .uplink w p.bytes = some packets) (hlen : len ≤ fecStride p.frags)
    (hcalm : s.Calm w) (hnone : s.entries w = none) (hes : Through w (outside start len packets) s es) :
    (run Downlink.step s es).deliveredOf w = s.deliveredOf w ++ [p.bytes] ↔
      SparesParity p.frags start len := by
  obtain rfl := Option.some.inj ((p.packets_uplink hfec).symm.trans hpackets)
  have hcarries := hes.carries hw
  constructor
  · intro hdel
    by_contra hcut
    obtain ⟨i, hi, hstart, hend⟩ : ∃ i < p.frags, start ≤ i ∧
        p.frags + i % fecGroupCount p.frags < start + len := by
      simpa [SparesParity, fecStride] using hcut
    have hdata : ¬Arrives w es (.data i) := by
      rw [hes.arrives_iff hw (.data i) hi, Nal.place]
      omega
    have hparity : ¬Arrives w es (.parity (i % fecGroupCount p.frags)) := by
      rw [hes.arrives_iff hw (.parity _) (p.mem_group hi).1, Nal.place]
      omega
    obtain ⟨out, hout, hfalse⟩ :=
      Downlink.run_rule (P := Reassembly.Lacks p i) (Q := fun _ => False) (s := s) (w := w)
      (fun st hst => by rw [hnone] at hst; cases hst)
      (fun e he t f hf hseq => Reassembly.Lacks.keeps (hcarries e he t f hf hseq) hi
        (fun h => hdata ⟨e, he, t, f, hf, hseq, h⟩) (fun h => hparity ⟨e, he, t, f, hf, hseq, h⟩) t
        e.attached)
    rw [hout, List.append_cancel_left_eq] at hdel
    exact hfalse p.bytes (hdel ▸ List.mem_singleton_self _)
  · intro hspares
    have hfeeds : s.Feeds p w es := ⟨hes.attached, hcarries, hes.fits, hes.chronological⟩
    exact hfeeds.deliveredOf_run hcalm hnone hes.spaced ((recoverable_iff hes hw hlen).mpr hspares)

/-- One byte: its only fragment is lost and rebuilt from the parity. -/
theorem burst_repaired_oneByte :
    (run Downlink.step Downlink.start [⟨0, some (0, parityPacket 3 1 [7] 0), true⟩]).deliveredOf 3 =
      [[7]] ↔
      SparesParity 1 0 1 := by
  have hes : Through 3 (outside 0 1 [dataPacket 3 1 [7] 0, parityPacket 3 1 [7] 0]) Downlink.start
      [⟨0, some (0, parityPacket 3 1 [7] 0), true⟩] := by
    refine ⟨by simp, ?_, ?_, ⟨?_, trivial⟩, by decide, by decide⟩
    · intro e he t f hf _
      obtain rfl := List.mem_singleton.mp he
      refine ⟨parityPacket 3 1 [7] 0, List.mem_singleton_self _, ?_⟩
      rw [Pass.frame_of_arrival rfl] at hf
      obtain ⟨f', _, he⟩ := Option.map_eq_some_iff.mp hf
      cases he
      rfl
    · intro pkt hpkt
      obtain rfl := List.mem_singleton.mp hpkt
      exact ⟨_, List.mem_singleton_self _, 0, rfl⟩
    · intro t f hf hne
      rw [Pass.frame_of_arrival rfl, parse_parityPacket (by decide) (by decide) (by decide)] at hf
      cases hf
      exact absurd rfl hne
  have hfec : (⟨800, true, false⟩ : Config).fecEnabled = true := rfl
  exact burst_repaired_iff (p := ⟨[7], by decide, by decide⟩) hfec (by decide) rfl (by decide)
    ⟨rfl, fun seq st _ hst => by cases hst⟩ rfl hes

/-- Of seventeen fragments in two groups, the last one and the parity of its
group, sent right after it. -/
theorem last_fragment_with_parity_lost :
    17 = fragmentCount 1121 ∧ fecStride 17 = 2 ∧
      (Path.packets ⟨800, true, false⟩ .uplink 3 (List.replicate 1121 7)).map (fun packets =>
        (run Downlink.step Downlink.start
          ((outside 16 2 packets).map (fun pkt => ⟨0, some (0, pkt), true⟩))).deliveredOf 3) =
            some [] := by
  decide +kernel

/-- Every burst is harmless exactly for the payloads whose groups are all of
one size. -/
theorem every_burst_spared_iff {n : Nat} (hn : 0 < n) :
    (∀ start len, len ≤ fecStride n → SparesParity n start len) ↔ fecStride n ∣ n := by
  have hpos : 0 < fecStride n := by
    rw [fecStride, fecGroupCount_eq]
    omega
  constructor
  · intro h
    -- the last fragment, and the parities up to that of its group
    have hlast := Nat.mod_lt (n - 1) hpos
    have hdiv := Nat.div_add_mod (n - 1) (fecStride n)
    by_cases hfull : (n - 1) % fecStride n + 1 = fecStride n
    · refine ⟨(n - 1) / fecStride n + 1, ?_⟩
      rw [Nat.mul_add]
      omega
    · have := h (n - 1) ((n - 1) % fecStride n + 2) (by omega) (n - 1) (by omega) (Nat.le_refl _)
      omega
  · rintro ⟨k, hk⟩ start len hlen i hi hstart
    have hdiv := Nat.div_add_mod i (fecStride n)
    have hlt : i / fecStride n < k := Nat.div_lt_of_lt_mul (hk ▸ hi)
    have hmul := Nat.mul_le_mul_left (fecStride n) (Nat.succ_le_of_lt hlt)
    rw [← hk, Nat.mul_succ] at hmul
    omega

end Burst

end TriNet.Video
