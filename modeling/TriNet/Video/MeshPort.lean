import TriNet.Video.Delivery
import TriNet.Video.Panics
import Mathlib.Data.Finset.Card

namespace TriNet.Video

open Lib.BigEndian Lib.Runs

structure PortConfig where
  relay : Bool
  overflowChecks : Bool

def countUp (checks : Bool) (n : Nat) : Option Nat :=
  if n + 1 < 2 ^ 32 then some (n + 1) else if checks then none else some 0

namespace Reassembly

/-- One group of the repair loop, which counts the missing fragments of the
group in a byte and the repairs as it goes. -/
def repairCounting (checks : Bool) (acc : Reassembly × Nat) (group : Nat) : Option (Reassembly × Nat) :=
  if (acc.1.parity group).isSome ∧ checks ∧ 255 < (acc.1.missing group).length then none
  else
    (acc.1.repairGroup group).map (fun st =>
      (st, if (acc.1.parity group).isSome ∧ fecCanRecover (acc.1.missing group).length then
        acc.2 + 1 else acc.2))

/-- The repairs made for an entry up to and including one frame, or a panic. -/
def countRepairs (checks : Bool) (st : Reassembly) (f : Frame) (now repaired : Nat) : Option Nat :=
  if st.done then some repaired
  -- whether a fragment is the last is found by adding one to its index, a byte
  else if checks ∧ f.isParity = false ∧ f.Fits st.frags ∧ 255 < f.idx + 1 then none
  else
    match (List.range (fecGroupCount f.count)).foldlM (repairCounting checks) (st.stored f now, 0) with
    | none => none
    | some (_, n) => if checks ∧ 2 ^ 32 ≤ repaired + n then none else some ((repaired + n) % 2 ^ 32)

end Reassembly

/-- The packets the mesh port counts: fragments and parities with a whole header. -/
def isVstream (pkt : Bytes) : Bool :=
  let kind := pkt.getD 0 0
  let isParity := kind == vstreamFecType
  let header := if isParity then 6 else 5
  !decide (pkt.length < header ∨ (isParity = false ∧ kind ≠ vstreamType))

def isRxReport (pkt : Bytes) : Bool := 3 ≤ pkt.length && pkt.getD 0 0 == rxReportType

def fbChainReport (receivedHere downstreamDelivered : Nat) : Nat :=
  if downstreamDelivered < receivedHere then downstreamDelivered else receivedHere

def rxReport (count : Nat) : Bytes := [rxReportType, seqLo count, seqHi count]

/-- The whole receive loop: reassembly, the repairs made for each entry, and the
reports both ways. -/
structure MeshPort where
  downlink : Downlink
  repaired : Nat → Nat
  fragsSeen : Nat
  lastReport : Nat
  lastEpoch : Nat
  stale : Nat
  peerCount : Nat
  peerEpoch : Nat
  reports : List Bytes
  forwarded : List Bytes

namespace MeshPort

def start (now : Nat) : MeshPort := ⟨.start, fun _ => 0, 0, now, 0, 0, 0, 0, [], []⟩

def crashed (s : MeshPort) : Bool := s.downlink.crashed

def crash (s : MeshPort) : MeshPort := { s with downlink := { s.downlink with crashed := true } }

def retain (s : MeshPort) (now : Nat) : MeshPort := { s with downlink := s.downlink.retain now }

def entry (s : MeshPort) (f : Frame) (now : Nat) : Reassembly :=
  (s.downlink.entries f.seq).getD (.fresh f.count now)

/-- Tell the peer once a second what came from it. A relay reports the least of
the chain behind it, unless it has not heard of that for three reports. -/
def report (s : MeshPort) (cfg : PortConfig) (now : Nat) : Option MeshPort :=
  if now - s.lastReport < second then some s
  else
    let seen := min s.fragsSeen 65535
    let s := { s with fragsSeen := 0, lastReport := now }
    if cfg.relay then
      if s.peerEpoch ≠ s.lastEpoch then
        let count := fbChainReport seen (min s.peerCount 65535)
        some { s with lastEpoch := s.peerEpoch, stale := 0, reports := s.reports ++ [rxReport count] }
      else
        (countUp cfg.overflowChecks s.stale).map (fun stale =>
          let count := if stale < 3 then fbChainReport seen (min s.peerCount 65535) else seen
          { s with stale, reports := s.reports ++ [rxReport count] })
    else some { s with reports := s.reports ++ [rxReport seen] }

def receive (s : MeshPort) (cfg : PortConfig) (f : Frame) (now : Nat) (attached : Bool) : MeshPort :=
  let repaired := if (s.downlink.entries f.seq).isSome then s.repaired f.seq else 0
  match (s.entry f now).countRepairs cfg.overflowChecks f now repaired with
  | none => s.crash
  | some repaired =>
      { s with
        downlink := s.downlink.receive f now attached
        repaired := Function.update s.repaired f.seq repaired }

def accept (s : MeshPort) (cfg : PortConfig) (pkt : Bytes) (now : Nat) (attached : Bool) : MeshPort :=
  if isRxReport pkt then
    { s with peerCount := fragSeq (pkt.getD 1 0) (pkt.getD 2 0), peerEpoch := (s.peerEpoch + 1) % 2 ^ 32 }
  else if isVstream pkt then
    match countUp cfg.overflowChecks s.fragsSeen with
    | none => s.crash
    | some fragsSeen =>
        if cfg.relay then { s with fragsSeen, forwarded := s.forwarded ++ [pkt] }
        else
          match parse pkt with
          | none => { s with fragsSeen }
          | some f => receive { s with fragsSeen } cfg f now attached
  else s

def step (cfg : PortConfig) (s : MeshPort) (e : Pass) : MeshPort :=
  if s.crashed then s
  else
    match (s.retain e.now).report cfg e.now with
    | none => s.crash
    | some s =>
        match e.arrival with
        | none => s
        | some (now, pkt) => s.accept cfg pkt now e.attached

end MeshPort

theorem length_groupIndices_le (count group : Nat) : (groupIndices count group).length ≤ 16 := by
  rw [groupIndices, stepBy, List.length_range', fecStride, fecGroupCount_eq]
  rcases Nat.eq_zero_or_pos count with rfl | hpos
  · simp
  · have hstride : 0 < (count + 15) / 16 := by omega
    refine Nat.le_of_lt_succ ((Nat.div_lt_iff_lt_mul hstride).mpr ?_)
    omega

namespace Reassembly

variable {st st' : Reassembly} {f : Frame} {g : Nat}

def got (st : Reassembly) : Nat := ((Finset.range st.frags).filter (fun i => st.received i = true)).card

theorem got_le (st : Reassembly) : st.got ≤ st.frags := by
  have h := Finset.card_filter_le (Finset.range st.frags) (fun i => st.received i = true)
  rwa [Finset.card_range] at h

theorem got_mono (hfrags : st'.frags = st.frags)
    (h : ∀ i, st.received i = true → st'.received i = true) : st.got ≤ st'.got := by
  rw [got, got, hfrags]
  exact Finset.card_le_card (Finset.monotone_filter_right _ (fun i _ => h i))

theorem got_lt (hfrags : st'.frags = st.frags)
    (h : ∀ i, st.received i = true → st'.received i = true) {lost : Nat}
    (hlost : lost < st.frags) (hno : st.received lost = false) (hyes : st'.received lost = true) :
    st.got < st'.got := by
  rw [got, got, hfrags]
  apply Finset.card_lt_card
  refine (Finset.ssubset_iff_of_subset (Finset.monotone_filter_right _ (fun i _ => h i))).mpr
    ⟨lost, ?_, ?_⟩
  · simp [hlost, hyes]
  · simp [hno]

theorem length_missing_le (st : Reassembly) (g : Nat) : (st.missing g).length ≤ 16 :=
  (List.length_filter_le ..).trans (length_groupIndices_le ..)

variable (checks : Bool)

theorem repairCounting_of_repairGroup (h : st.repairGroup g = some st') (n : Nat) :
    ∃ k, repairCounting checks (st, n) g = some (st', n + k) ∧ st.got + k ≤ st'.got := by
  have hext := extends_repairGroup h
  have hbyte := st.length_missing_le g
  have hfits : ¬((st.parity g).isSome = true ∧ checks = true ∧ 255 < (st.missing g).length) := by omega
  simp only [repairCounting, if_neg hfits, h, Option.map_some]
  split
  · next hone =>
      obtain ⟨par, hpar⟩ := Option.isSome_iff_exists.mp hone.1
      obtain ⟨lost, hlost⟩ := List.length_eq_one_iff.mp (beq_iff_eq.mp hone.2)
      obtain ⟨hin, hno⟩ := List.mem_filter.mp (hlost ▸ List.mem_singleton_self lost : lost ∈ st.missing g)
      have hbound := (exists_repairGroup_iff.mp ⟨st', h⟩ par hpar).1 lost hin
      refine ⟨1, rfl, got_lt hext.frags hext.received hbound (by simpa using hno) ?_⟩
      exact (received_repairGroup h lost).mpr (Or.inr ⟨by simp [hpar], hlost⟩)
  · exact ⟨0, rfl, got_mono hext.frags hext.received⟩

theorem repairCounting_of_panic (h : st.repairGroup g = none) (n : Nat) :
    repairCounting checks (st, n) g = none := by
  rw [repairCounting, h, Option.map_none, ite_self]

theorem repairAllCounting_of_panic {gs : List Nat} (h : gs.foldlM repairGroup st = none) (n : Nat) :
    gs.foldlM (repairCounting checks) (st, n) = none := by
  induction gs generalizing st n with
  | nil => cases h
  | cons g gs ih =>
      rw [List.foldlM_cons] at h ⊢
      cases hst : st.repairGroup g with
      | none =>
          rw [repairCounting_of_panic checks hst]
          rfl
      | some st₁ =>
          obtain ⟨k, hk, _⟩ := repairCounting_of_repairGroup checks hst n
          rw [hst] at h
          rw [hk]
          exact ih h (n + k)

theorem repairAllCounting {gs : List Nat} (h : gs.foldlM repairGroup st = some st') (n : Nat) :
    ∃ k, gs.foldlM (repairCounting checks) (st, n) = some (st', n + k) ∧ st.got + k ≤ st'.got := by
  induction gs generalizing st n with
  | nil =>
      obtain rfl := Option.some.inj h
      exact ⟨0, rfl, Nat.le_refl _⟩
  | cons g gs ih =>
      rw [List.foldlM_cons] at h
      obtain ⟨st₁, hst, h⟩ := Option.bind_eq_some_iff.mp h
      obtain ⟨k, hk, hgot⟩ := repairCounting_of_repairGroup checks hst n
      obtain ⟨k', hk', hgot'⟩ := ih h (n + k)
      refine ⟨k + k', ?_, by omega⟩
      rw [List.foldlM_cons, hk, ← Nat.add_assoc]
      exact hk'

variable {now repaired : Nat} {attached : Bool}

structure Counted (st : Reassembly) (repaired : Nat) : Prop where
  frags : st.frags < 256
  repaired : repaired ≤ st.got

theorem got_le_got_stored (st : Reassembly) (f : Frame) (now : Nat) : st.got ≤ (st.stored f now).got := by
  apply got_mono frags_stored
  intro i hi
  simp [receivedWith, hi]

theorem Counted.countRepairs (h : st.Counted repaired) (hdone : st.done = false)
    (hst' : (st.stored f now).repairGroups = some st') :
    ∃ n, st.countRepairs checks f now repaired = some n ∧ st'.Counted n := by
  have hopen : ¬st.done = true := by simp [hdone]
  have hlast : ¬(checks = true ∧ f.isParity = false ∧ f.Fits st.frags ∧ 255 < f.idx + 1) := by
    rintro ⟨_, _, hfits, hidx⟩
    have := h.frags
    have := hfits.1
    omega
  have hfrags : st'.frags = st.frags := (extends_repairGroups hst').frags.trans frags_stored
  rw [repairGroups, expectedFrags_stored] at hst'
  obtain ⟨k, hk, hgot⟩ := repairAllCounting checks hst' 0
  have hbound : repaired + (0 + k) ≤ st'.got := by
    have := h.repaired
    have := st.got_le_got_stored f now
    omega
  have hsmall : repaired + (0 + k) < 2 ^ 32 := by
    have := st'.got_le
    have := h.frags
    omega
  refine ⟨repaired + (0 + k), ?_, hfrags ▸ h.frags, hbound⟩
  have hno : ¬(checks = true ∧ 2 ^ 32 ≤ repaired + (0 + k)) := by omega
  rw [Reassembly.countRepairs, if_neg hopen, if_neg hlast, hk]
  simp only [if_neg hno, Nat.mod_eq_of_lt hsmall]

theorem countRepairs_of_panic (hdone : st.done = false)
    (h : (st.stored f now).repairGroups = none) : st.countRepairs checks f now repaired = none := by
  have hopen : ¬st.done = true := by simp [hdone]
  rw [repairGroups, expectedFrags_stored] at h
  rw [Reassembly.countRepairs, if_neg hopen, repairAllCounting_of_panic checks h]
  simp

theorem countRepairs_of_done (hdone : st.done = true) :
    st.countRepairs checks f now repaired = some repaired := by
  rw [Reassembly.countRepairs, if_pos hdone]

theorem finish_entry {st'' : Reassembly} {out : Option Bytes}
    (h : st.finish attached = some (some st'', out)) : st'' = { st with done := st''.done } := by
  rw [finish] at h
  split at h
  · cases h
    rfl
  · split at h
    · cases h
    · dsimp only at h
      split at h
      · cases h
        rfl
      · split at h
        · cases h
          rfl
        · cases h

theorem Counted.take {st'' : Reassembly} {out : Option Bytes} {n : Nat} (h : st.Counted repaired)
    (hcount : st.countRepairs checks f now repaired = some n)
    (htake : st.take f now attached = some (some st'', out)) : st''.Counted n := by
  cases hdone : st.done with
  | true =>
      rw [countRepairs_of_done checks hdone] at hcount
      rw [take_of_done hdone] at htake
      cases hcount
      cases htake
      exact ⟨h.frags, h.repaired⟩
  | false =>
      rw [take_eq hdone] at htake
      obtain ⟨st', hst', hfinish⟩ := Option.bind_eq_some_iff.mp htake
      obtain ⟨m, hm, hcounted⟩ := h.countRepairs checks hdone hst'
      obtain rfl := Option.some.inj (hm.symm.trans hcount)
      rw [finish_entry hfinish]
      exact ⟨hcounted.frags, hcounted.repaired⟩

end Reassembly

theorem count_lt_of_parse {pkt : Bytes} {f : Frame} (h : parse pkt = some f) : f.count < 256 := by
  simp only [parse, Option.ite_none_left_eq_some, Option.some.injEq] at h
  obtain ⟨_, _, _, rfl⟩ := h
  exact UInt8.toNat_lt _

theorem parse_eq_none_of_isRxReport {pkt : Bytes} (h : isRxReport pkt = true) : parse pkt = none := by
  have hreport : pkt.length ≥ 3 ∧ pkt.getD 0 0 = rxReportType := by simpa [isRxReport] using h
  rw [parse, if_pos hreport]

theorem parse_eq_none_of_not_isVstream {pkt : Bytes} (h : isVstream pkt = false) : parse pkt = none := by
  have hshort : pkt.length < (if pkt.getD 0 0 == vstreamFecType then 6 else 5) ∨
      ((pkt.getD 0 0 == vstreamFecType) = false ∧ pkt.getD 0 0 ≠ vstreamType) := by
    simpa only [isVstream, Bool.not_eq_false', decide_eq_true_eq] using h
  rw [parse]
  split
  · rfl
  · exact if_pos hshort

theorem isVstream_eq_false_of_isRxReport {pkt : Bytes} (h : isRxReport pkt = true) :
    isVstream pkt = false := by
  have hkind : pkt.getD 0 0 = rxReportType := by
    simp only [isRxReport, Bool.and_eq_true, beq_iff_eq] at h
    exact h.2
  simp only [isVstream, hkind]
  simp [rxReportType, vstreamType, vstreamFecType]

theorem countUp_eq_none_iff {checks : Bool} {n : Nat} :
    countUp checks n = none ↔ checks = true ∧ ¬n + 1 < 2 ^ 32 := by
  rw [countUp]
  split
  · next h => exact iff_of_false (Option.some_ne_none _) (fun hno => hno.2 h)
  · next h =>
      rw [and_iff_left h]
      cases checks <;> simp

theorem room_of_countUp {checks : Bool} {n m : Nat} (h : countUp checks n = some m)
    (hchecks : checks = true) : n + 1 < 2 ^ 32 := by
  by_contra hfull
  rw [countUp_eq_none_iff.mpr ⟨hchecks, hfull⟩] at h
  cases h

theorem Downlink.crashed_receive_iff {s : Downlink} {f : Frame} {now : Nat} {attached : Bool}
    (hs : s.crashed = false) :
    (s.receive f now attached).crashed = false ↔
      ∃ r, ((s.entries f.seq).getD (.fresh f.count now)).take f now attached = some r := by
  rw [receive]
  cases ((s.entries f.seq).getD (.fresh f.count now)).take f now attached with
  | none => simp
  | some r => simp [hs]

namespace MeshPort

variable {cfg : PortConfig} {s s' : MeshPort} {f : Frame} {now : Nat} {attached : Bool}
  {e : Pass} {pkt : Bytes}

def seen (s : MeshPort) (now : Nat) : Nat := if now - s.lastReport < second then s.fragsSeen else 0

def Counted (s : MeshPort) : Prop :=
  s.crashed = false → ∀ w st, s.downlink.entries w = some st → st.Counted (s.repaired w)

theorem Counted.entry (h : s.Counted) (hs : s.crashed = false) (hf : f.count < 256) (now : Nat) :
    (s.entry f now).Counted (if (s.downlink.entries f.seq).isSome then s.repaired f.seq else 0) := by
  rw [MeshPort.entry]
  cases hst : s.downlink.entries f.seq with
  | none => exact ⟨hf, Nat.zero_le _⟩
  | some st => exact h hs f.seq st hst

theorem crashed_receive_iff (h : s.Counted) (hs : s.crashed = false) (hf : f.count < 256) :
    (s.receive cfg f now attached).crashed = false ↔
      ((s.entry f now).done = false → (s.entry f now).Accepts f attached) := by
  have hcounted := h.entry hs hf now
  have htake : (s.downlink.receive f now attached).crashed = false ↔
      ∃ r, (s.entry f now).take f now attached = some r := Downlink.crashed_receive_iff hs
  rw [receive]
  generalize (if (s.downlink.entries f.seq).isSome then s.repaired f.seq else 0) = repaired at hcounted
  cases hdone : (s.entry f now).done with
  | true =>
      rw [Reassembly.countRepairs_of_done _ hdone]
      simp only [Bool.true_eq_false, false_implies, iff_true]
      exact htake.mpr ⟨_, Reassembly.take_of_done hdone⟩
  | false =>
      have haccepts : (∃ r, (s.entry f now).take f now attached = some r) ↔ _ :=
        Reassembly.exists_take_iff hdone
      rw [forall_prop_of_true rfl, ← haccepts]
      cases hst : ((s.entry f now).stored f now).repairGroups with
      | none =>
          rw [Reassembly.countRepairs_of_panic _ hdone hst, Reassembly.take_eq hdone, hst]
          simp [crash, crashed]
      | some st' =>
          obtain ⟨n, hn, _⟩ := hcounted.countRepairs cfg.overflowChecks hdone hst
          rw [hn]
          exact htake

theorem Counted.receive (h : s.Counted) (hs : s.crashed = false) (hf : f.count < 256) :
    (s.receive cfg f now attached).Counted := by
  have hcounted := h.entry hs hf now
  rw [MeshPort.receive]
  generalize (if (s.downlink.entries f.seq).isSome then s.repaired f.seq else 0) = repaired at hcounted
  cases hcount : (s.entry f now).countRepairs cfg.overflowChecks f now repaired with
  | none => exact nofun
  | some n =>
      intro hs' w st hst
      obtain ⟨⟨entry, out⟩, htake⟩ := (Downlink.crashed_receive_iff hs).mp hs'
      dsimp only at hst
      rw [Downlink.receive_of_take htake] at hst
      by_cases hw : w = f.seq
      · subst hw
        simp only [Function.update_self] at hst ⊢
        subst hst
        exact hcounted.take cfg.overflowChecks hcount htake
      · simp only [Function.update_of_ne hw] at hst ⊢
        exact h hs w st hst

theorem Counted.accept (h : s.Counted) (hs : s.crashed = false) :
    (s.accept cfg pkt now attached).Counted := by
  rw [MeshPort.accept]
  split
  · exact h
  · split
    · split
      · exact nofun
      · next n _ =>
          split
          · exact h
          · split
            · exact h
            · next f hf =>
                  exact Counted.receive (s := { s with fragsSeen := n }) h hs (count_lt_of_parse hf)
    · exact h

theorem report_eq_none_iff :
    s.report cfg now = none ↔
      cfg.overflowChecks = true ∧ cfg.relay = true ∧ second ≤ now - s.lastReport ∧
        s.peerEpoch = s.lastEpoch ∧ ¬s.stale + 1 < 2 ^ 32 := by
  rw [report]
  by_cases hnow : now - s.lastReport < second
  · rw [if_pos hnow]
    refine iff_of_false (Option.some_ne_none _) ?_
    rintro ⟨_, _, hdue, _⟩
    omega
  rw [if_neg hnow]
  cases hrelay : cfg.relay with
  | false => simp
  | true =>
      by_cases hepoch : s.peerEpoch = s.lastEpoch
      · simp only [if_true, hepoch, ne_eq, not_true_eq_false, if_false, Option.map_eq_none_iff,
          countUp_eq_none_iff, true_and, Nat.not_lt.mp hnow]
      · simp [hepoch]

theorem report_spec (h : s.report cfg now = some s') :
    s'.downlink = s.downlink ∧ s'.repaired = s.repaired ∧ s'.fragsSeen = s.seen now := by
  rw [report] at h
  by_cases hnow : now - s.lastReport < second
  · rw [if_pos hnow] at h
    obtain rfl := Option.some.inj h
    exact ⟨rfl, rfl, by rw [seen, if_pos hnow]⟩
  · have hseen : s.seen now = 0 := by rw [seen, if_neg hnow]
    rw [if_neg hnow] at h
    rw [hseen]
    dsimp only at h
    split at h
    · split at h
      · obtain rfl := Option.some.inj h
        exact ⟨rfl, rfl, rfl⟩
      · obtain ⟨stale, _, rfl⟩ := Option.map_eq_some_iff.mp h
        exact ⟨rfl, rfl, rfl⟩
    · obtain rfl := Option.some.inj h
      exact ⟨rfl, rfl, rfl⟩

theorem crashed_accept_iff (h : s.Counted) (hs : s.crashed = false) :
    (s.accept cfg pkt now attached).crashed = false ↔
      (cfg.overflowChecks = true → isVstream pkt = true → s.fragsSeen + 1 < 2 ^ 32) ∧
        (cfg.relay = false → ∀ f, parse pkt = some f →
          (s.entry f now).done = false → (s.entry f now).Accepts f attached) := by
  rw [accept]
  by_cases hrep : isRxReport pkt = true
  · rw [if_pos hrep, parse_eq_none_of_isRxReport hrep, isVstream_eq_false_of_isRxReport hrep]
    exact iff_of_true hs ⟨nofun, nofun⟩
  rw [if_neg hrep]
  by_cases hv : isVstream pkt = true
  · rw [if_pos hv]
    cases hup : countUp cfg.overflowChecks s.fragsSeen with
    | none =>
        obtain ⟨hchecks, hfull⟩ := countUp_eq_none_iff.mp hup
        refine iff_of_false nofun ?_
        rintro ⟨hroom, _⟩
        exact hfull (hroom hchecks hv)
    | some n =>
        have hroom : cfg.overflowChecks = true → isVstream pkt = true → s.fragsSeen + 1 < 2 ^ 32 :=
          fun hchecks _ => room_of_countUp hup hchecks
        rw [and_iff_right hroom]
        cases hrelay : cfg.relay with
        | true => exact iff_of_true hs nofun
        | false =>
            rw [forall_prop_of_true rfl]
            cases hparse : parse pkt with
            | none => exact iff_of_true hs nofun
            | some f =>
                simp only [Option.some.injEq, forall_eq']
                exact crashed_receive_iff (s := { s with fragsSeen := n }) h hs (count_lt_of_parse hparse)
  · rw [if_neg hv, parse_eq_none_of_not_isVstream (Bool.eq_false_iff.mpr hv)]
    exact iff_of_true hs ⟨fun _ h => absurd h hv, nofun⟩

/-- The passes that do not panic. The counters have room for another second
without news and for another fragment, and a frame agrees with the entry it
meets. -/
structure Accepts (cfg : PortConfig) (s : MeshPort) (e : Pass) : Prop where
  stale : cfg.overflowChecks = true → cfg.relay = true → second ≤ e.now - s.lastReport →
    s.peerEpoch = s.lastEpoch → s.stale + 1 < 2 ^ 32
  fragsSeen : cfg.overflowChecks = true → ∀ t pkt, e.arrival = some (t, pkt) →
    isVstream pkt = true → s.seen e.now + 1 < 2 ^ 32
  frame : cfg.relay = false → ∀ t f, e.frame = some (t, f) →
    ((s.retain e.now).entry f t).done = false → ((s.retain e.now).entry f t).Accepts f e.attached

theorem Counted.retain (h : s.Counted) (now : Nat) : (s.retain now).Counted :=
  fun hs w st hst => h hs w st (Downlink.entries_retain_eq_some.mp hst).1

theorem Counted.report (h : s.Counted) (hs' : s.report cfg now = some s') : s'.Counted := by
  obtain ⟨hdown, hrep, _⟩ := report_spec hs'
  rw [Counted, crashed, hdown, hrep]
  exact h

theorem Counted.step (h : s.Counted) (cfg : PortConfig) (e : Pass) : (step cfg s e).Counted := by
  rw [MeshPort.step]
  split
  · exact h
  · next hs =>
      split
      · exact nofun
      · next s' hs' =>
          have hcounted := (h.retain e.now).report hs'
          split
          · exact hcounted
          · apply hcounted.accept
            rw [crashed, (report_spec hs').1]
            exact Bool.eq_false_iff.mpr hs

theorem room_of_report (h : (s.retain e.now).report cfg e.now = some s')
    (hchecks : cfg.overflowChecks = true)
    (hrelay : cfg.relay = true) (hdue : second ≤ e.now - s.lastReport)
    (hepoch : s.peerEpoch = s.lastEpoch) : s.stale + 1 < 2 ^ 32 := by
  by_contra hfull
  have hnone := report_eq_none_iff (s := s.retain e.now) |>.mpr ⟨hchecks, hrelay, hdue, hepoch, hfull⟩
  rw [hnone] at h
  cases h

theorem accepts_iff_of_report {t : Nat} (h : (s.retain e.now).report cfg e.now = some s')
    (harrival : e.arrival = some (t, pkt)) :
    Accepts cfg s e ↔
      (cfg.overflowChecks = true → isVstream pkt = true → s'.fragsSeen + 1 < 2 ^ 32) ∧
        (cfg.relay = false → ∀ f, parse pkt = some f →
          (s'.entry f t).done = false → (s'.entry f t).Accepts f e.attached) := by
  obtain ⟨hdown, _, hseen⟩ := report_spec h
  have hentry (f : Frame) : s'.entry f t = (s.retain e.now).entry f t := by rw [entry, hdown, entry]
  have hframe : e.frame = (parse pkt).map (Prod.mk t) := by
    rw [Pass.frame, harrival]
    rfl
  simp only [hseen, hentry]
  refine ⟨fun hacc => ⟨?_, ?_⟩, fun hacc => ⟨room_of_report h, ?_, ?_⟩⟩
  · exact fun hchecks => hacc.fragsSeen hchecks t pkt harrival
  · intro hrelay f hparse
    exact hacc.frame hrelay t f (by rw [hframe, hparse, Option.map_some])
  · intro hchecks t' pkt' heq
    cases harrival.symm.trans heq
    exact hacc.1 hchecks
  · intro hrelay t' f hf
    obtain ⟨f', hparse, heq⟩ := Option.map_eq_some_iff.mp (hframe.symm.trans hf)
    cases heq
    exact hacc.2 hrelay f hparse

theorem crashed_step_iff (h : s.Counted) (hs : s.crashed = false) :
    (step cfg s e).crashed = false ↔ Accepts cfg s e := by
  have hopen : ¬s.crashed = true := by simp [hs]
  rw [step, if_neg hopen]
  cases hrep : (s.retain e.now).report cfg e.now with
  | none =>
      obtain ⟨hchecks, hrelay, hdue, hepoch, hfull⟩ := report_eq_none_iff.mp hrep
      exact iff_of_false Bool.true_eq_false.mp (fun hacc => hfull (hacc.stale hchecks hrelay hdue hepoch))
  | some s' =>
      have hs' : s'.crashed = false := by
        rw [crashed, (report_spec hrep).1]
        exact hs
      cases harr : e.arrival with
      | none =>
          refine iff_of_true hs' ⟨room_of_report hrep, ?_, ?_⟩
          · rw [harr]
            intro _ _ _ hsome
            cases hsome
          · rw [Pass.frame, harr]
            intro _ _ _ hsome
            cases hsome
      | some a =>
          rw [accepts_iff_of_report hrep harr]
          exact crashed_accept_iff ((h.retain e.now).report hrep) hs'

/-- The receive loop never panics exactly if every packet agrees with what
earlier packets of its sequence number left behind. -/
theorem receiveLoop_panicFree_iff (cfg : PortConfig) (now : Nat) (es : List Pass) :
    (∀ past, past <+: es → (run (step cfg) (start now) past).crashed = false) ↔
      Along (step cfg) (Accepts cfg) (start now) es :=
  forall_prefix_iff_along (step cfg) (Accepts cfg) Counted (fun s => s.crashed = false)
    (fun _ e hs => hs.step cfg e) (fun _ _ hs hcrash => crashed_step_iff hs hcrash) (start now) es
    (fun _ w st hst => by cases hst) rfl

/-- A parity of no bytes; a parity that counts more fragments than the packet
before it; a parity whose last fragment is longer than a cell. -/
theorem inconsistent_parity_panics :
    (run (step ⟨false, false⟩) (start 0) [⟨0, some (0, [9, 0, 0, 0, 1, 0]), false⟩]).crashed = true ∧
      (run (step ⟨false, false⟩) (start 0)
        [⟨0, some (0, [8, 0, 0, 0, 2, 7]), false⟩,
          ⟨0, some (0, [9, 0, 0, 0, 3, 1] ++ List.replicate 70 0), false⟩]).crashed = true ∧
      (run (step ⟨false, false⟩) (start 0)
        [⟨0, some (0, [9, 0, 0, 0, 1, 255] ++ List.replicate 70 0), true⟩]).crashed = true := by
  decide +kernel

end MeshPort

end TriNet.Video
