import TriNet.Video.ExactlyOnce

namespace TriNet.Video

open Lib.BigEndian Lib.Runs

variable {p : Nal} {w : Nat}

theorem Nal.carries_of_parse {pkt : Bytes} {f : Frame} (hw : w < 65536) (hf : parse pkt = some f)
    (h : (∃ i < p.frags, pkt = dataPacket w p.frags p.bytes i) ∨
      ∃ g < fecGroupCount p.frags, pkt = parityPacket w p.frags p.bytes g) : p.Carries w f := by
  rcases h with ⟨i, hi, rfl⟩ | ⟨g, hg, rfl⟩
  · obtain ⟨last, hparse⟩ := parse_dataPacket hw p.frags_lt hi p.bytes
    obtain rfl := Option.some.inj (hparse.symm.trans hf)
    exact .data hi
  · have hlast : lastLen p.bytes p.frags % 256 = lastLen p.bytes p.frags := by
      have := p.lastLen_le
      omega
    have hparse := parse_parityPacket hw p.frags_lt hg p.bytes
    rw [hlast] at hparse
    obtain rfl := Option.some.inj (hparse.symm.trans hf)
    exact .parity hg

theorem mem_packets {cfg : Config} {path : Path} {d : Bytes} {packets : List Bytes}
    (h : path.packets cfg w d = some packets) {pkt : Bytes} (hpkt : pkt ∈ packets) :
    (∃ i < fragmentCount d.length, pkt = dataPacket w (fragmentCount d.length) d i) ∨
      ∃ g < fecGroupCount (fragmentCount d.length), pkt = parityPacket w (fragmentCount d.length) d g := by
  have hdata (hmem : pkt ∈
      (List.range (fragmentCount d.length)).map (dataPacket w (fragmentCount d.length) d)) :
      ∃ i < fragmentCount d.length, pkt = dataPacket w (fragmentCount d.length) d i := by
    obtain ⟨i, hi, rfl⟩ := List.mem_map.mp hmem
    exact ⟨i, List.mem_range.mp hi, rfl⟩
  cases path with
  | express =>
      obtain rfl := Option.some.inj h
      exact Or.inl (hdata hpkt)
  | uplink =>
      simp only [Path.packets, Option.ite_none_left_eq_some, Option.some.injEq] at h
      obtain ⟨_, rfl⟩ := h
      rcases List.mem_append.mp hpkt with hmem | hmem
      · exact Or.inl (hdata hmem)
      · obtain ⟨g, hg, rfl⟩ := List.mem_map.mp hmem
        have hlt := List.mem_range.mp hg
        split at hlt
        · exact Or.inr ⟨g, hlt, rfl⟩
        · exact absurd hlt (Nat.not_lt_zero g)

theorem dataPacket_mem_packets {cfg : Config} {path : Path} {d : Bytes} {packets : List Bytes}
    (h : path.packets cfg w d = some packets) {i : Nat} (hi : i < fragmentCount d.length) :
    dataPacket w (fragmentCount d.length) d i ∈ packets := by
  have hmem : dataPacket w (fragmentCount d.length) d i ∈
      (List.range (fragmentCount d.length)).map (dataPacket w (fragmentCount d.length) d) :=
    List.mem_map.mpr ⟨i, List.mem_range.mpr hi, rfl⟩
  cases path with
  | express =>
      obtain rfl := Option.some.inj h
      exact hmem
  | uplink =>
      simp only [Path.packets, Option.ite_none_left_eq_some, Option.some.injEq] at h
      obtain ⟨_, rfl⟩ := h
      exact List.mem_append_left _ hmem

theorem Sender.send_cases (cfg : Config) (path : Path) (now : Nat) (s : Sender) (d : Bytes)
    (hbudget : (s.refresh (path.rate cfg) now).spent < path.rate cfg) :
    ∃ seq < 65536,
      (path.packets cfg seq d = none ∧ (s.send cfg path now d).2 = .panicked) ∨
        ∃ packets, path.packets cfg seq d = some packets ∧
          (s.send cfg path now d).2 = .sent seq packets := by
  refine ⟨_, path.wireSeq_lt (((s.refresh (path.rate cfg) now).seq + 1) % 65536), ?_⟩
  rw [send]
  simp only [Nat.not_le.mpr hbudget, if_false]
  split
  · next hnone => exact Or.inl ⟨hnone, rfl⟩
  · next packets hsome => exact Or.inr ⟨packets, hsome, rfl⟩

theorem Sender.sent_inv {cfg : Config} {path : Path} {now : Nat} {s : Sender} {d : Bytes}
    {packets : List Bytes}
    (h : (s.send cfg path now d).2 = .sent w packets) :
    w < 65536 ∧ path.packets cfg w d = some packets := by
  by_cases hbudget : (s.refresh (path.rate cfg) now).spent < path.rate cfg
  · obtain ⟨seq, hseq, ⟨_, hout⟩ | ⟨packets', hsome, hout⟩⟩ := s.send_cases cfg path now d hbudget
    · rw [hout] at h
      cases h
    · rw [hout] at h
      cases h
      exact ⟨hseq, hsome⟩
  · rw [send] at h
    simp only [Nat.not_lt.mp hbudget, if_true] at h
    cases h

theorem Path.packets_eq_none {cfg : Config} {path : Path} {d : Bytes} :
    path.packets cfg w d = none ↔ path = .uplink ∧ fragmentCount d.length = 0 ∧
      cfg.overflowChecks = true := by
  cases path <;> simp [packets]

def Feed (w : Nat) (packets : List Bytes) (es : List Pass) : Prop :=
  ∀ e ∈ es, ∀ t f, e.frame = some (t, f) → f.seq = w → ∃ pkt ∈ packets, e.arrival = some (t, pkt)

theorem Pass.frame_of_arrival {e : Pass} {t : Nat} {pkt : Bytes} (h : e.arrival = some (t, pkt)) :
    e.frame = (parse pkt).map (fun f => (t, f)) := by
  rw [frame, h, Option.bind_some]

theorem Pass.parse_of_frame {e : Pass} {t t' : Nat} {pkt : Bytes} {f : Frame}
    (h : e.arrival = some (t, pkt)) (hf : e.frame = some (t', f)) : parse pkt = some f := by
  rw [frame_of_arrival h] at hf
  obtain ⟨f', hf', he⟩ := Option.map_eq_some_iff.mp hf
  cases he
  exact hf'

theorem Feed.carries {cfg : Config} {path : Path} {packets : List Bytes} {es : List Pass}
    (h : Feed w packets es)
    (hw : w < 65536) (hpackets : path.packets cfg w p.bytes = some packets) :
    ∀ e ∈ es, ∀ t f, e.frame = some (t, f) → f.seq = w → p.Carries w f := by
  intro e he t f hf hseq
  obtain ⟨pkt, hpkt, harr⟩ := h e he t f hf hseq
  apply p.carries_of_parse hw (Pass.parse_of_frame harr hf)
  simpa only [p.fragmentCount_length] using mem_packets hpackets hpkt

/-- A datagram reaches the peer's device whole or not at all: whatever the
peer's downlink delivers of its packets is the datagram. -/
def Whole (d : Bytes) : Outcome → Prop
  | .dropped => True
  | .panicked => False
  | .sent w packets => ∀ s es, s.entries w = none → Feed w packets es →
      ∃ out, (run Downlink.step s es).deliveredOf w = s.deliveredOf w ++ out ∧ ∀ x ∈ out, x = d

/-- The passes in which the first fragments of a datagram come in, one by one. -/
def arrivals (w n : Nat) (d : Bytes) : List Pass :=
  (List.range n).map (fun i => ⟨0, some (0, dataPacket w n d i), true⟩)

theorem mem_arrivals {n : Nat} {d : Bytes} {e : Pass} :
    e ∈ arrivals w n d ↔ ∃ i < n, e = ⟨0, some (0, dataPacket w n d i), true⟩ := by
  simp only [arrivals, List.mem_map, List.mem_range, eq_comm]

theorem clock_arrivals {n t : Nat} {d : Bytes} (ht : t ∈ (arrivals w n d).flatMap Pass.clock) : t = 0 := by
  obtain ⟨e, he, ht⟩ := List.mem_flatMap.mp ht
  obtain ⟨i, _, rfl⟩ := mem_arrivals.mp he
  simpa [Pass.clock] using ht

theorem spaced_arrivals (n : Nat) (d : Bytes) : Spaced (times w (arrivals w n d)) := by
  have hzero {t : Nat} (ht : t ∈ times w (arrivals w n d)) : t = 0 := by
    obtain ⟨e, he, ht⟩ := List.mem_filterMap.mp ht
    exact clock_arrivals (List.mem_flatMap.mpr ⟨e, he, Pass.mem_clock_of_time ht⟩)
  apply List.Pairwise.isChain
  apply List.pairwise_of_forall_mem_list
  intro t ht t' ht'
  rw [hzero ht, hzero ht']
  decide

namespace Nal

variable (p)

theorem feeds_arrivals (hw : w < 65536) :
    Downlink.Feeds p w Downlink.start (arrivals w p.frags p.bytes) := by
  refine ⟨?_, ?_, ?_, ?_⟩
  · intro e he
    obtain ⟨i, _, rfl⟩ := mem_arrivals.mp he
    rfl
  · intro e he t f hf _
    obtain ⟨i, hi, rfl⟩ := mem_arrivals.mp he
    exact p.carries_of_parse hw (Pass.parse_of_frame rfl hf) (Or.inl ⟨i, hi, rfl⟩)
  · apply along_of_forall
    intro e he s t f hf hne
    obtain ⟨i, hi, rfl⟩ := mem_arrivals.mp he
    obtain ⟨last, hlast⟩ := parse_dataPacket hw p.frags_lt hi p.bytes
    rw [Pass.frame_of_arrival rfl, hlast] at hf
    cases hf
    exact absurd rfl hne
  · apply List.pairwise_of_forall_mem_list
    intro t ht t' ht'
    rw [clock_arrivals ht, clock_arrivals ht']

theorem recoverable_arrivals (hw : w < 65536) :
    Recoverable p (Arrives w (arrivals w p.frags p.bytes)) := by
  intro g hg i hi hno
  have hlt : i < p.frags := ((mem_groupIndices hg).mp hi).1
  obtain ⟨last, hlast⟩ := parse_dataPacket hw p.frags_lt hlt p.bytes
  refine absurd ⟨_, mem_arrivals.mpr ⟨i, hlt, rfl⟩, 0,
    ⟨false, w, i, p.frags, last, chunk p.bytes i⟩, ?_, rfl, rfl⟩ hno
  rw [Pass.frame_of_arrival rfl, hlast]
  rfl

theorem deliveredOf_fragments (hw : w < 65536) :
    (run Downlink.step Downlink.start (arrivals w p.frags p.bytes)).deliveredOf w = [p.bytes] :=
  (p.feeds_arrivals hw).deliveredOf_run ⟨rfl, fun seq st _ hst => by cases hst⟩ rfl
    (spaced_arrivals p.frags p.bytes) (p.recoverable_arrivals hw)

end Nal

theorem chunk_take {n i : Nat} (hi : i < n) (d : Bytes) : chunk (d.take (n * 70)) i = chunk d i := by
  rw [chunk, chunk, Lib.Parity.cell, Lib.Parity.cell, List.drop_take, List.take_take]
  congr 1
  omega

section Cut

variable {d : Bytes} {n : Nat}

def cut (d : Bytes) (n : Nat) (hn : 0 < n) (hn' : n < 256) (hd : n * 70 ≤ d.length) : Nal where
  bytes := d.take (n * 70)
  pos := by
    rw [List.length_take]
    omega
  fits := by
    rw [List.length_take]
    omega

theorem frags_cut (hn : 0 < n) (hn' : n < 256) (hd : n * 70 ≤ d.length) :
    (cut d n hn hn' hd).frags = n := by
  simp only [Nal.frags, cut, List.length_take]
  omega

theorem arrivals_take : arrivals w n (d.take (n * 70)) = arrivals w n d := by
  apply List.map_congr_left
  intro i hi
  rw [dataPacket, dataPacket, chunk_take (List.mem_range.mp hi)]

theorem deliveredOf_arrivals (hw : w < 65536) (hn : 0 < n) (hn' : n < 256) (hd : n * 70 ≤ d.length) :
    (run Downlink.step Downlink.start (arrivals w n d)).deliveredOf w = [d.take (n * 70)] := by
  have hcut := (cut d n hn hn' hd).deliveredOf_fragments hw
  rw [frags_cut hn hn' hd] at hcut
  rw [← arrivals_take]
  exact hcut

theorem not_whole_of_cut {cfg : Config} {path : Path} {packets : List Bytes} (hw : w < 65536)
    (h : path.packets cfg w d = some packets) (hlong : 17850 < d.length)
    (hn : fragmentCount d.length ≠ 0) : ¬Whole d (.sent w packets) := by
  intro hwhole
  have hn' : fragmentCount d.length < 256 := by
    rw [fragmentCount_eq (by omega)]
    exact Nat.mod_lt _ (by decide)
  have hfeed : Feed w packets (arrivals w (fragmentCount d.length) d) := by
    intro e he t f hf _
    obtain ⟨i, hi, rfl⟩ := mem_arrivals.mp he
    refine ⟨_, dataPacket_mem_packets h hi, ?_⟩
    rw [Pass.frame_of_arrival rfl] at hf
    obtain ⟨f', _, he⟩ := Option.map_eq_some_iff.mp hf
    cases he
    rfl
  obtain ⟨out, hout, hall⟩ := hwhole Downlink.start _ rfl hfeed
  rw [deliveredOf_arrivals hw (Nat.pos_of_ne_zero hn) hn' (by omega)] at hout
  have hmem : d.take (fragmentCount d.length * 70) ∈ out := by
    rw [show out = [d.take (fragmentCount d.length * 70)] from hout.symm]
    exact List.mem_singleton_self _
  have hlen := congrArg List.length (hall _ hmem)
  rw [List.length_take] at hlen
  omega

end Cut

theorem whole_of_fits {cfg : Config} {path : Path} {packets : List Bytes} (hw : w < 65536)
    (h : path.packets cfg w p.bytes = some packets) : Whole p.bytes (.sent w packets) := by
  intro s es hnone hfeed
  apply Downlink.Holds.run
  · intro st hst
    rw [hnone] at hst
    cases hst
  · exact hfeed.carries hw h

theorem whole_of_nothing {cfg : Config} {path : Path} {d : Bytes} {packets : List Bytes}
    (h : path.packets cfg w d = some packets) (hn : fragmentCount d.length = 0) :
    Whole d (.sent w packets) := by
  intro s es _ hfeed
  refine ⟨[], ?_, fun x hx => absurd hx List.not_mem_nil⟩
  rw [List.append_nil]
  apply Downlink.deliveredOf_run_quiet
  rw [times, List.filterMap_eq_nil_iff]
  intro e he
  rcases e.time_cases w with ⟨htime, _⟩ | ⟨t, f, hf, hseq, _⟩
  · exact htime
  · obtain ⟨pkt, hpkt, _⟩ := hfeed e he t f hf hseq
    rcases mem_packets h hpkt with ⟨i, hi, _⟩ | ⟨g, hg, _⟩
    · rw [hn] at hi
      exact absurd hi (Nat.not_lt_zero i)
    · rw [hn] at hg
      exact absurd hg (Nat.not_lt_zero g)

theorem Path.rate_add_mostCost_le {cfg : Config} (hbits : cfg.fragRate + 71 ≤ 2 ^ 32)
    (path : Path) : path.rate cfg + path.mostCost ≤ 2 ^ 32 := by
  cases path <;> simp only [rate, mostCost, audioRatePerSec] <;> omega

theorem Sender.spent_send_lt {cfg : Config} (hbits : cfg.fragRate + 71 ≤ 2 ^ 32) (path : Path)
    (now : Nat) (s : Sender)
    (d : Bytes) (hbudget : (s.refresh (path.rate cfg) now).spent < path.rate cfg) :
    (s.send cfg path now d).1.spent < 2 ^ 32 := by
  have hrate := Path.rate_add_mostCost_le hbits path
  rw [send]
  simp only [Nat.not_le.mpr hbudget, if_false]
  split
  · dsimp only
    omega
  · next packets hsome =>
      have hcost := path.cost_le cfg d
      rw [← Path.length_packets hsome] at hcost
      dsimp only
      omega

/-- A datagram the bridge accepts never panics it and reaches the peer whole or
not at all exactly if it fits 255 fragments, or its fragment count is cut to
zero and the sender does not trip over that. At the rates at which no counter
of 32 bits can overflow, the counter of the sender does not. -/
theorem datagram_whole_iff (cfg : Config) (hbits : cfg.fragRate + 71 ≤ 2 ^ 32) (path : Path)
    (now : Nat) (s : Sender) (d : Bytes)
    (hpos : 0 < d.length) (hbudget : (s.refresh (path.rate cfg) now).spent < path.rate cfg) :
    (s.send cfg path now d).1.spent < 2 ^ 32 ∧
      (Whole d (s.send cfg path now d).2 ↔
        d.length ≤ 17850 ∨
          ((d.length + 69) / 70 % 256 = 0 ∧ (path = .express ∨ cfg.overflowChecks = false))) := by
  refine ⟨s.spent_send_lt hbits path now d hbudget, ?_⟩
  obtain ⟨w, hw, hcases⟩ := s.send_cases cfg path now d hbudget
  have hcount := fragmentCount_eq hpos
  rcases hcases with ⟨hnone, hout⟩ | ⟨packets, hsome, hout⟩
  · obtain ⟨rfl, hzero, hchecks⟩ := Path.packets_eq_none.mp hnone
    rw [hout]
    refine iff_of_false id ?_
    rintro (hshort | ⟨_, hexp | hoff⟩)
    · rw [fragmentCount_of_le hpos hshort] at hzero
      omega
    · cases hexp
    · rw [hchecks] at hoff
      cases hoff
  · rw [hout]
    by_cases hlong : d.length ≤ 17850
    · let p : Nal := ⟨d, hpos, hlong⟩
      have hwhole : Whole p.bytes (.sent w packets) := whole_of_fits hw hsome
      exact iff_of_true hwhole (Or.inl hlong)
    · by_cases hzero : fragmentCount d.length = 0
      · refine iff_of_true (whole_of_nothing hsome hzero) (Or.inr ⟨hcount ▸ hzero, ?_⟩)
        cases path with
        | express => exact Or.inl rfl
        | uplink =>
            right
            by_contra hon
            have hnone : Path.uplink.packets cfg w d = none :=
              Path.packets_eq_none.mpr ⟨rfl, hzero, by simpa using hon⟩
            rw [hsome] at hnone
            cases hnone
      · refine iff_of_false (not_whole_of_cut hw hsome (by omega) hzero) ?_
        rintro (hshort | ⟨hz, _⟩)
        · exact hlong hshort
        · exact hzero (hcount.trans hz)

theorem datagram_whole_of_three_bytes :
    Whole [1, 2, 3] (Sender.send ⟨2000, true, true⟩ .uplink 0 ⟨0, 0, 0⟩ [1, 2, 3]).2 :=
  (datagram_whole_iff ⟨2000, true, true⟩ (by decide) .uplink 0 ⟨0, 0, 0⟩ [1, 2, 3] (by decide)
    (by decide)).2.mpr (Or.inl (by decide))

/-- A datagram of 17921 bytes counts as one fragment. -/
theorem long_datagram_cut :
    ¬Whole (List.replicate 17921 7)
      (Sender.send ⟨2000, true, false⟩ .uplink 0 ⟨0, 0, 0⟩ (List.replicate 17921 7)).2 := by
  obtain ⟨w, hw, ⟨hnone, _⟩ | ⟨packets, hsome, hout⟩⟩ :=
    Sender.send_cases ⟨2000, true, false⟩ .uplink 0 ⟨0, 0, 0⟩ (List.replicate 17921 7) (by decide)
  · cases (Path.packets_eq_none.mp hnone).2.2
  · rw [hout]
    apply not_whole_of_cut hw hsome
    · rw [List.length_replicate]
      decide
    · rw [List.length_replicate]
      decide

def Got (es : List Pass) (pkt : Bytes) : Prop := ∃ e ∈ es, ∃ t, e.arrival = some (t, pkt)

/-- The packets of one payload come in with the device attached, in any order
and any number of times, less than two seconds apart; each group loses one
fragment at most, and none if its parity is lost too. -/
structure Schedule (p : Nal) (w : Nat) (packets : List Bytes) (es : List Pass) : Prop where
  attached : ∀ e ∈ es, e.attached = true
  feed : Feed w packets es
  chronological : Chronological es
  spaced : Spaced (times w es)
  loss : ∀ g < fecGroupCount p.frags, ∀ i ∈ groupIndices p.frags g,
    ¬Got es (dataPacket w p.frags p.bytes i) →
    Got es (parityPacket w p.frags p.bytes g) ∧
      ∀ j ∈ groupIndices p.frags g, ¬Got es (dataPacket w p.frags p.bytes j) → j = i

theorem Schedule.recoverable {packets : List Bytes} {es : List Pass} (h : Schedule p w packets es)
    (hw : w < 65536) : Recoverable p (Arrives w es) := by
  have hdata {g i : Nat} (hg : g < fecGroupCount p.frags) (hi : i ∈ groupIndices p.frags g)
      (hgot : Got es (dataPacket w p.frags p.bytes i)) : Arrives w es (.data i) := by
    obtain ⟨e, he, t, harr⟩ := hgot
    obtain ⟨last, hparse⟩ := parse_dataPacket hw p.frags_lt ((mem_groupIndices hg).mp hi).1 p.bytes
    refine ⟨e, he, t, ⟨false, w, i, p.frags, last, chunk p.bytes i⟩, ?_, rfl, rfl⟩
    rw [Pass.frame_of_arrival harr, hparse, Option.map_some]
  intro g hg i hi hno
  obtain ⟨⟨e, he, t, harr⟩, honly⟩ := h.loss g hg i hi (fun hgot => hno (hdata hg hi hgot))
  refine ⟨⟨e, he, t,
    ⟨true, w, g, p.frags, lastLen p.bytes p.frags % 256, groupParity p.bytes p.frags g⟩, ?_, rfl,
    rfl⟩, fun j hj hjno => honly j hj (fun hgot => hjno (hdata hg hj hgot))⟩
  rw [Pass.frame_of_arrival harr, parse_parityPacket hw p.frags_lt hg, Option.map_some]

/-- With packets of other sequence numbers in between that fit their entries, a
payload is delivered once, as it was sent. -/
theorem payload_delivered_exactly_once (cfg : Config) (sender : Sender) (now : Nat) (p : Nal) (w : Nat)
    (packets : List Bytes) (hsent : (sender.send cfg .uplink now p.bytes).2 = .sent w packets)
    (s : Downlink) (es : List Pass) (hnone : s.entries w = none) (hes : Schedule p w packets es)
    (hcalm : s.Calm w)
    (hfits : Along Downlink.step (Downlink.Fits w) s es) :
    (run Downlink.step s es).deliveredOf w = s.deliveredOf w ++ [p.bytes] := by
  obtain ⟨hw, hpackets⟩ := Sender.sent_inv hsent
  have hfeeds : s.Feeds p w es := ⟨hes.attached, hes.feed.carries hw hpackets, hfits, hes.chronological⟩
  exact hfeeds.deliveredOf_run hcalm hnone hes.spaced (hes.recoverable hw)

def threeBytes : Nal := ⟨[1, 2, 3], by decide, by decide⟩

def otherPass : Pass := ⟨0, some (0, dataPacket 1 2 (List.replicate 71 0) 0), true⟩

def parityPass : Pass := ⟨5, some (6, parityPacket 2 1 [1, 2, 3] 0), true⟩

theorem frame_otherPass :
    ∃ last, otherPass.frame = some (0, ⟨false, 1, 0, 2, last, chunk (List.replicate 71 0) 0⟩) := by
  have hone : 1 < 65536 := by decide
  have htwo : 2 < 256 := by decide
  obtain ⟨last, hparse⟩ := parse_dataPacket hone htwo Nat.two_pos (List.replicate 71 0)
  exact ⟨last, by rw [Pass.frame_of_arrival rfl, hparse, Option.map_some]⟩

theorem schedule_parityPass :
    Schedule threeBytes 2 [dataPacket 2 1 [1, 2, 3] 0, parityPacket 2 1 [1, 2, 3] 0]
      [otherPass, parityPass] where
  attached := by simp [otherPass, parityPass]
  feed e he t f hf hseq := by
    rcases List.mem_pair.mp he with rfl | rfl
    · obtain ⟨last, hframe⟩ := frame_otherPass
      rw [hframe] at hf
      cases hf
      cases hseq
    · rw [Pass.frame_of_arrival rfl] at hf
      obtain ⟨f', _, he⟩ := Option.map_eq_some_iff.mp hf
      cases he
      exact ⟨_, List.mem_cons_of_mem _ (List.mem_singleton_self _), rfl⟩
  chronological := by decide
  spaced := by decide +kernel
  loss g hg i hi _ := by
    have hfrags : threeBytes.frags = 1 := rfl
    obtain rfl : g = 0 := Nat.lt_one_iff.mp hg
    refine ⟨⟨parityPass, List.mem_cons_of_mem _ (List.mem_singleton_self _), 6, rfl⟩, fun j hj _ => ?_⟩
    have hi' := ((mem_groupIndices hg).mp hi).1
    have hj' := ((mem_groupIndices hg).mp hj).1
    omega

theorem fits_parityPass :
    Along Downlink.step (Downlink.Fits 2) Downlink.start [otherPass, parityPass] := by
  refine ⟨?_, ?_, trivial⟩
  · intro t f hf _
    obtain ⟨last, hframe⟩ := frame_otherPass
    rw [hframe] at hf
    cases hf
    refine ⟨?_, ?_⟩
    · intro hpar
      cases hpar
    · intro st hst
      cases hst
  · intro t f hf hne
    rw [Pass.frame_of_arrival rfl, parse_parityPacket (by decide) (by decide) (by decide)] at hf
    cases hf
    exact absurd rfl hne

theorem payload_delivered_by_parity_alone :
    (run Downlink.step Downlink.start [otherPass, parityPass]).deliveredOf 2 = [[1, 2, 3]] :=
  payload_delivered_exactly_once ⟨2000, true, false⟩ ⟨1, 0, 0⟩ 0 threeBytes 2 _ (by decide +kernel)
    Downlink.start _ rfl schedule_parityPass ⟨rfl, fun seq st _ hst => by cases hst⟩ fits_parityPass

/-- Packets of two payloads that share another sequence number bring the
receiver down, and the payload that follows is lost though all of it arrives. -/
theorem other_packets_stop_delivery :
    (Sender.send ⟨2000, true, false⟩ .uplink 0 ⟨0, 0, 0⟩ (List.replicate 71 0)).2 =
        .sent 1 [dataPacket 1 2 (List.replicate 71 0) 0, dataPacket 1 2 (List.replicate 71 0) 1,
          parityPacket 1 2 (List.replicate 71 0) 0] ∧
      (Sender.send ⟨2000, true, false⟩ .uplink 0 ⟨0, 0, 0⟩ (List.replicate 141 0)).2 =
        .sent 1 [dataPacket 1 3 (List.replicate 141 0) 0, dataPacket 1 3 (List.replicate 141 0) 1,
          dataPacket 1 3 (List.replicate 141 0) 2, parityPacket 1 3 (List.replicate 141 0) 0] ∧
      (Sender.send ⟨2000, true, false⟩ .uplink 0 ⟨1, 0, 0⟩ [1, 2, 3]).2 =
        .sent 2 [dataPacket 2 1 [1, 2, 3] 0, parityPacket 2 1 [1, 2, 3] 0] ∧
      (run Downlink.step Downlink.start
        [⟨0, some (0, dataPacket 1 2 (List.replicate 71 0) 0), true⟩,
          ⟨0, some (0, parityPacket 1 3 (List.replicate 141 0) 0), true⟩,
          ⟨0, some (0, dataPacket 2 1 [1, 2, 3] 0), true⟩,
          ⟨0, some (0, parityPacket 2 1 [1, 2, 3] 0), true⟩]).deliveredOf 2 = [] := by
  decide +kernel

end TriNet.Video
