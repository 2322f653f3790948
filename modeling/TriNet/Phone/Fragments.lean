import TriNet.Lib.Parity
import Mathlib.Data.List.Range

namespace TriNet.Phone

open Lib.BigEndian Lib.Parity

def maxPayload : Nat := 1200

namespace VideoFEC

def groupStarts (total group : Nat) : List Nat :=
  let g := max 1 group
  List.range' 0 ((total + (g - 1)) / g) g

def covered (gStart gLen total : Nat) : List Nat := List.range' gStart (min (gStart + gLen) total - gStart)

def parity (payload : Bytes) (gStart gLen total : Nat) : Bytes :=
  Lib.Parity.parity maxPayload ((covered gStart gLen total).map (cell maxPayload payload))

def recover (parity : Bytes) (present : Nat → Option Bytes) (gStart gLen total lastLen : Nat) :
    Option (Nat × Bytes) :=
  match (covered gStart gLen total).filter (fun i => (present i).isNone) with
  | [missing] =>
      let rebuilt := (((covered gStart gLen total).filter (· ≠ missing)).map
        (fun i => (present i).getD [])).foldl xorInto parity
      let len := if missing = total - 1 then lastLen else maxPayload
      if len ≤ rebuilt.length then some (missing, rebuilt.take len) else none
  | _ => none

end VideoFEC

def lowByte (n : Nat) : UInt8 := UInt8.ofNat (n % 256)

def highByte (n : Nat) : UInt8 := UInt8.ofNat (n / 256)

def word (lo hi : UInt8) : Nat := lo.toNat + hi.toNat * 256

def totalOf (m : Bytes) : Nat := (m.length + maxPayload - 1) / maxPayload

def lastLenOf (m : Bytes) : Nat := m.length - (totalOf m - 1) * maxPayload

def fragmentPacket (seq : Nat) (m : Bytes) (i : Nat) : Bytes :=
  [0xFA, 0xFB, lowByte seq, highByte seq, UInt8.ofNat i, UInt8.ofNat (totalOf m)] ++ cell maxPayload m i

def parityPacket (group seq : Nat) (m : Bytes) (gStart : Nat) : Bytes :=
  let gLen := min group (totalOf m - gStart)
  [0xFA, 0xEC, lowByte seq, highByte seq, UInt8.ofNat (totalOf m), UInt8.ofNat gStart, UInt8.ofNat gLen,
    lowByte (lastLenOf m), highByte (lastLenOf m)] ++ VideoFEC.parity m gStart gLen (totalOf m)

/-- A message goes out whole, in fragments with their parities, or not at all. -/
inductive Framing
  | whole
  | fragmented
  | refused
  deriving DecidableEq

def framing (m : Bytes) : Framing :=
  if m.length ≤ maxPayload then .whole else if totalOf m ≤ 255 then .fragmented else .refused

def packets (group seq : Nat) (m : Bytes) : List Bytes :=
  match framing m with
  | .whole => [m]
  | .refused => []
  | .fragmented =>
      (List.range (totalOf m)).map (fragmentPacket seq m) ++
        (if totalOf m ≥ 2 then
          (VideoFEC.groupStarts (totalOf m) group).map (parityPacket group seq m) else [])

/-- The sequence number of a message: only fragmented ones take a new one. -/
def nextSeq (seq : Nat) (m : Bytes) : Nat :=
  match framing m with
  | .fragmented => (seq + 1) % 65536
  | _ => seq

inductive Packet
  | whole (d : Bytes)
  | ignored
  | fragment (seq idx total : Nat) (chunk : Bytes)
  | parity (seq gStart gLen lastLen total : Nat) (xor : Bytes)
  deriving DecidableEq

def Packet.seq : Packet → Option Nat
  | .fragment seq .. => some seq
  | .parity seq .. => some seq
  | _ => none

def decode (d : Bytes) : Packet :=
  if d.length > 9 ∧ d.getD 0 0 = 0xFA ∧ d.getD 1 0 = 0xEC then
    let total := (d.getD 4 0).toNat
    if total ≥ 2 then
      .parity (word (d.getD 2 0) (d.getD 3 0)) (d.getD 5 0).toNat (d.getD 6 0).toNat
        (word (d.getD 7 0) (d.getD 8 0)) total (d.drop 9)
    else .ignored
  else if d.length > 1 ∧ d.getD 0 0 = 0xFA ∧ d.getD 1 0 ≠ 0xFB then .ignored
  else if d.length > 6 ∧ d.getD 0 0 = 0xFA ∧ d.getD 1 0 = 0xFB then
    let idx := (d.getD 4 0).toNat
    let total := (d.getD 5 0).toNat
    if total > 0 ∧ idx < total then .fragment (word (d.getD 2 0) (d.getD 3 0)) idx total (d.drop 6)
    else .ignored
  else .whole d

structure Long where
  bytes : Bytes
  long : maxPayload < bytes.length
  fits : totalOf bytes ≤ 255

namespace Long

variable (m : Long)

def total : Nat := totalOf m.bytes

theorem two_le_total : 2 ≤ m.total := by
  have := m.long
  simp only [total, totalOf, maxPayload] at *
  omega

theorem total_le : m.total ≤ 255 := m.fits

theorem lastLen_le : lastLenOf m.bytes ≤ maxPayload := by
  simp only [lastLenOf, totalOf, maxPayload]
  omega

theorem length_le : m.bytes.length ≤ m.total * maxPayload := by
  simp only [total, totalOf, maxPayload]
  omega

theorem length_cell_eq {i : Nat} (hi : i < m.total) :
    (cell maxPayload m.bytes i).length = if i = m.total - 1 then lastLenOf m.bytes else maxPayload := by
  have hlong := m.long
  rw [length_cell]
  split
  · next hlast =>
      subst hlast
      simp only [total, lastLenOf, totalOf, maxPayload] at *
      omega
  · next hne =>
      simp only [total, totalOf, maxPayload] at *
      omega

/-- The packets of the message under a sequence number, taken apart. -/
inductive Sends (seq : Nat) : Packet → Prop
  | fragment {i : Nat} (hi : i < m.total) : Sends seq (.fragment seq i m.total (cell maxPayload m.bytes i))
  | parity (gStart gLen : Nat) :
      Sends seq (.parity seq gStart gLen (lastLenOf m.bytes) m.total
        (VideoFEC.parity m.bytes gStart gLen m.total))

variable {m} in
theorem Sends.seq_eq {seq : Nat} {p : Packet} (h : m.Sends seq p) : p.seq = some seq := by cases h <;> rfl

end Long

theorem word_bytes {n : Nat} (h : n < 65536) : word (lowByte n) (highByte n) = n := by
  simp only [word, lowByte, highByte, UInt8.toNat_ofNat']
  omega

theorem decode_whole {m : Bytes} (h : m.head? ≠ some 0xFA) : decode m = .whole m := by
  cases m with
  | nil => rfl
  | cons b m =>
      have hb : b ≠ 0xFA := fun he => h (by rw [he]; rfl)
      simp [decode, hb]

theorem decode_fragmentPacket {seq : Nat} (hseq : seq < 65536) (m : Long) {i : Nat} (hi : i < m.total) :
    decode (fragmentPacket seq m.bytes i) = .fragment seq i m.total (cell maxPayload m.bytes i) := by
  have hle := m.total_le
  have hcell : 0 < (cell maxPayload m.bytes i).length := by
    have := m.long
    rw [length_cell]
    simp only [Long.total, totalOf, maxPayload] at *
    omega
  have ht : (UInt8.ofNat (totalOf m.bytes)).toNat = m.total := by
    rw [UInt8.toNat_ofNat', ← Long.total, Nat.mod_eq_of_lt (by omega)]
  have hx : (UInt8.ofNat i).toNat = i := by rw [UInt8.toNat_ofNat', Nat.mod_eq_of_lt (by omega)]
  have hpos : 0 < m.total := Nat.zero_lt_of_lt hi
  have hlen : 6 < (fragmentPacket seq m.bytes i).length := by
    rw [fragmentPacket, List.length_append]
    simpa using hcell
  simp only [decode, hlen]
  simp [fragmentPacket, ht, hx, hi, hpos, word_bytes hseq]

theorem decode_parityPacket {seq : Nat} (hseq : seq < 65536) (m : Long) {group gStart : Nat}
    (hg : gStart < m.total) :
    decode (parityPacket group seq m.bytes gStart) =
      .parity seq gStart (min group (m.total - gStart)) (lastLenOf m.bytes) m.total
        (VideoFEC.parity m.bytes gStart (min group (m.total - gStart)) m.total) := by
  have hle := m.total_le
  have htwo := m.two_le_total
  have ht : (UInt8.ofNat (totalOf m.bytes)).toNat = m.total := by
    rw [UInt8.toNat_ofNat', ← Long.total, Nat.mod_eq_of_lt (by omega)]
  have hx : (UInt8.ofNat gStart).toNat = gStart := by rw [UInt8.toNat_ofNat', Nat.mod_eq_of_lt (by omega)]
  have hl : (UInt8.ofNat (min group (m.total - gStart))).toNat = min group (m.total - gStart) := by
    rw [UInt8.toNat_ofNat', Nat.mod_eq_of_lt (by omega)]
  have hlast : lastLenOf m.bytes < 65536 := lt_of_le_of_lt m.lastLen_le (by decide)
  have hxor : (VideoFEC.parity m.bytes gStart (min group (m.total - gStart)) m.total).length = 1200 := by
    rw [VideoFEC.parity, length_parity, maxPayload]
  have hlen : 9 < (parityPacket group seq m.bytes gStart).length := by
    rw [parityPacket, List.length_append, ← Long.total, hxor]
    simp
  simp only [decode, hlen]
  simp only [Long.total] at *
  simp [parityPacket, ht, hx, hl, htwo, word_bytes hseq, word_bytes hlast]

theorem VideoFEC.lt_of_mem_groupStarts {total group gStart : Nat}
    (h : gStart ∈ groupStarts total group) : gStart < total := by
  simp only [groupStarts, List.mem_range', Nat.zero_add] at h
  obtain ⟨k, hk, rfl⟩ := h
  have hg : 0 < max 1 group := Nat.lt_of_lt_of_le Nat.one_pos (le_max_left ..)
  generalize max 1 group = g at *
  have hmul := (Nat.le_div_iff_mul_le hg).mp (Nat.succ_le_of_lt hk)
  rw [Nat.succ_mul, Nat.mul_comm] at hmul
  omega

theorem nextSeq_lt {seq : Nat} (h : seq < 65536) (m : Bytes) : nextSeq seq m < 65536 := by
  rw [nextSeq]
  split
  · exact Nat.mod_lt _ (by decide)
  · exact h

theorem long_of_fragmented {m : Bytes} (h : framing m = .fragmented) :
    maxPayload < m.length ∧ totalOf m ≤ 255 := by
  rw [framing] at h
  split at h
  · cases h
  · next hlong =>
      split at h
      · next hfits => exact ⟨Nat.not_le.mp hlong, hfits⟩
      · cases h

theorem decode_of_mem_packets {group seq : Nat} (hseq : seq < 65536) {m : Bytes}
    (hm : framing m = .whole → m.head? ≠ some 0xFA) {pkt : Bytes} (hpkt : pkt ∈ packets group seq m) :
    decode pkt = .whole m ∨ ∃ long : Long, long.bytes = m ∧ long.Sends seq (decode pkt) := by
  rw [packets] at hpkt
  split at hpkt
  · next hframing =>
      rw [List.mem_singleton.mp hpkt]
      exact Or.inl (decode_whole (hm hframing))
  · cases hpkt
  · next hframing =>
      obtain ⟨hlong, hfits⟩ := long_of_fragmented hframing
      let long : Long := ⟨m, hlong, hfits⟩
      refine Or.inr ⟨long, rfl, ?_⟩
      rcases List.mem_append.mp hpkt with hmem | hmem
      · obtain ⟨i, hi, rfl⟩ := List.mem_map.mp hmem
        rw [decode_fragmentPacket hseq long (List.mem_range.mp hi)]
        exact .fragment (List.mem_range.mp hi)
      · split at hmem
        · obtain ⟨gStart, hg, rfl⟩ := List.mem_map.mp hmem
          have hlt : gStart < long.total := VideoFEC.lt_of_mem_groupStarts hg
          rw [decode_parityPacket hseq long hlt]
          exact .parity gStart _
        · cases hmem

end TriNet.Phone
