import TriNet.Lib.Parity
import Mathlib.Data.List.Range

namespace TriNet.Video

open Lib.BigEndian Lib.Parity

def vstreamType : UInt8 := 8
def vstreamFecType : UInt8 := 9
def rxReportType : UInt8 := 11

def fragSeq (lo hi : UInt8) : Nat := lo.toNat + hi.toNat * 256

def seqLo (seq : Nat) : UInt8 := UInt8.ofNat (seq % 256)

def seqHi (seq : Nat) : UInt8 := UInt8.ofNat (seq / 256)

def videoSeq (counter : Nat) : Nat := counter % 32768

def expressSeq (counter : Nat) : Nat := counter % 32768 + 32768

def fragmentCount (nalSize : Nat) : Nat :=
  if nalSize = 0 then 1
  else
    let fullFrags := nalSize / 70
    let remainder := nalSize % 70
    if remainder > 0 then (fullFrags + 1) % 256 else fullFrags % 256

def isLastFragment (fragIdx fragCount : Nat) : Bool := fragIdx + 1 == fragCount

def fecGroupCount (fragCount : Nat) : Nat :=
  if fragCount = 0 then 0
  else
    let full := fragCount / 16
    let remainder := fragCount % 16
    if remainder > 0 then full + 1 else full

def fecStride (fragCount : Nat) : Nat := fecGroupCount fragCount

def fecGroupFirst (groupIdx : Nat) : Nat := groupIdx

def fecCanRecover (missingInGroup : Nat) : Bool := missingInGroup == 1

/-- The indices from `first` below `count`, a stride apart. -/
def stepBy (first count stride : Nat) : List Nat :=
  List.range' first ((count - first + (stride - 1)) / stride) stride

def groupIndices (count group : Nat) : List Nat := stepBy (fecGroupFirst group) count (fecStride count)

def chunk (d : Bytes) (i : Nat) : Bytes := cell 70 d i

def dataPacket (seq count : Nat) (d : Bytes) (i : Nat) : Bytes :=
  [vstreamType, seqLo seq, seqHi seq, UInt8.ofNat i, UInt8.ofNat count] ++ chunk d i

def lastLen (d : Bytes) (count : Nat) : Nat := d.length - (count - 1) * 70

def groupParity (d : Bytes) (count group : Nat) : Bytes :=
  parity 70 ((groupIndices count group).map (chunk d))

def parityPacket (seq count : Nat) (d : Bytes) (group : Nat) : Bytes :=
  [vstreamFecType, seqLo seq, seqHi seq, UInt8.ofNat group, UInt8.ofNat count,
    UInt8.ofNat (lastLen d count)] ++ groupParity d count group

/-- The two ways a datagram of the attached device enters the mesh. -/
inductive Path
  | uplink
  | express
  deriving DecidableEq

structure Config where
  fragRate : Nat
  fecEnabled : Bool
  overflowChecks : Bool

def audioRatePerSec : Nat := 200

def second : Nat := 1000000000

namespace Path

/-- The two classes share one ceiling; video pays for the reservation. -/
def rate (cfg : Config) : Path → Nat
  | uplink => max (cfg.fragRate - audioRatePerSec) 1
  | express => audioRatePerSec

def wireSeq : Path → Nat → Nat
  | uplink => videoSeq
  | express => expressSeq

def packets (cfg : Config) (path : Path) (seq : Nat) (d : Bytes) : Option (List Bytes) :=
  let nfrags := fragmentCount d.length
  let data := (List.range nfrags).map (dataPacket seq nfrags d)
  match path with
  | express => some data
  | uplink =>
      -- the length of the last fragment is computed from `nfrags - 1`
      if nfrags = 0 ∧ cfg.overflowChecks then none
      else
        let ngroups := if cfg.fecEnabled then fecGroupCount nfrags else 0
        some (data ++ (List.range ngroups).map (parityPacket seq nfrags d))

end Path

structure Sender where
  seq : Nat
  spent : Nat
  windowStart : Nat

inductive Outcome
  | dropped
  | sent (seq : Nat) (packets : List Bytes)
  | panicked
  deriving DecidableEq

namespace Sender

/-- The budget of a new second: debt is carried over, up to one window of it. -/
def refresh (rate now : Nat) (s : Sender) : Sender :=
  if now - s.windowStart ≥ second then
    { s with spent := min (s.spent - rate) rate, windowStart := now } else s

def send (cfg : Config) (path : Path) (now : Nat) (s : Sender) (d : Bytes) : Sender × Outcome :=
  let s := s.refresh (path.rate cfg) now
  if s.spent ≥ path.rate cfg then (s, .dropped)
  else
    let seq := (s.seq + 1) % 65536
    match path.packets cfg (path.wireSeq seq) d with
    | none => ({ s with seq }, .panicked)
    | some packets => ({ s with seq, spent := s.spent + packets.length }, .sent (path.wireSeq seq) packets)

end Sender

theorem fragSeq_wire {seq : Nat} (h : seq < 65536) : fragSeq (seqLo seq) (seqHi seq) = seq := by
  simp only [fragSeq, seqLo, seqHi, UInt8.toNat_ofNat']
  omega

theorem Path.wireSeq_lt (path : Path) (counter : Nat) : path.wireSeq counter < 65536 := by
  cases path <;> simp only [wireSeq, videoSeq, expressSeq] <;> omega

theorem fragmentCount_eq {n : Nat} (h : 0 < n) : fragmentCount n = (n + 69) / 70 % 256 := by
  simp only [fragmentCount]
  split
  · omega
  · split <;> omega

theorem fragmentCount_of_le {n : Nat} (h : 0 < n) (hle : n ≤ 17850) : fragmentCount n = (n + 69) / 70 := by
  rw [fragmentCount_eq h]
  omega

theorem fecGroupCount_eq (n : Nat) : fecGroupCount n = (n + 15) / 16 := by
  simp only [fecGroupCount]
  split
  · omega
  · split <;> omega

theorem mem_groupIndices {count group i : Nat} (hg : group < fecGroupCount count) :
    i ∈ groupIndices count group ↔ i < count ∧ i % fecGroupCount count = group := by
  simp only [groupIndices, stepBy, fecGroupFirst, fecStride, List.mem_range']
  generalize fecGroupCount count = stride at *
  have hpos : 0 < stride := Nat.zero_lt_of_lt hg
  constructor
  · rintro ⟨k, hk, rfl⟩
    have hmul : stride * (k + 1) ≤ count - group + (stride - 1) := by
      have := (Nat.le_div_iff_mul_le hpos).mp (Nat.succ_le_of_lt hk)
      rwa [Nat.mul_comm] at this
    rw [Nat.mul_add] at hmul
    refine ⟨by omega, ?_⟩
    rw [Nat.add_mul_mod_self_left, Nat.mod_eq_of_lt hg]
  · rintro ⟨hi, hmod⟩
    have hdiv := Nat.div_add_mod i stride
    refine ⟨i / stride, ?_, by omega⟩
    apply (Nat.le_div_iff_mul_le hpos).mpr
    rw [Nat.succ_mul, Nat.mul_comm]
    omega

theorem nodup_groupIndices {count group : Nat} (hg : group < fecGroupCount count) :
    (groupIndices count group).Nodup := by
  apply List.nodup_range'
  exact Nat.zero_lt_of_lt hg

@[simp] theorem length_chunk (d : Bytes) (i : Nat) : (chunk d i).length = min 70 (d.length - i * 70) :=
  length_cell ..

theorem getD_chunk (d : Bytes) (i : Nat) {b : Nat} (hb : b < 70) :
    (chunk d i).getD b 0 = d.getD (i * 70 + b) 0 :=
  getD_cell hb d i

@[simp] theorem length_groupParity (d : Bytes) (count group : Nat) :
    (groupParity d count group).length = 70 :=
  length_parity ..

namespace Path

def cost (cfg : Config) (path : Path) (d : Bytes) : Nat :=
  let nfrags := fragmentCount d.length
  match path with
  | uplink => nfrags + if cfg.fecEnabled then fecGroupCount nfrags else 0
  | express => nfrags

def mostCost : Path → Nat
  | uplink => 271
  | express => 255

theorem length_packets {cfg : Config} {path : Path} {w : Nat} {d : Bytes} {packets : List Bytes}
    (h : path.packets cfg w d = some packets) : packets.length = path.cost cfg d := by
  cases path with
  | express =>
      obtain rfl := Option.some.inj h
      simp [cost]
  | uplink =>
      simp only [Path.packets, Option.ite_none_left_eq_some, Option.some.injEq] at h
      obtain ⟨_, rfl⟩ := h
      simp [cost]

theorem cost_le (cfg : Config) (path : Path) (d : Bytes) : path.cost cfg d ≤ path.mostCost := by
  have hfrags : fragmentCount d.length ≤ 255 := by
    rcases Nat.eq_zero_or_pos d.length with hzero | hpos
    · simp [fragmentCount, hzero]
    · rw [fragmentCount_eq hpos]
      omega
  cases path with
  | express => exact hfrags
  | uplink =>
      simp only [cost, mostCost, fecGroupCount_eq]
      split <;> omega

end Path

end TriNet.Video
