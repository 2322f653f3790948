import TriNet.Lib.Runs
import TriNet.Video.Fragments
import Mathlib.Logic.Function.Basic

namespace TriNet.Video

open Lib.BigEndian Lib.Parity Lib.Runs

structure Frame where
  isParity : Bool
  seq : Nat
  idx : Nat
  count : Nat
  lastLen : Nat
  payload : Bytes

/-- What the mesh port makes of a packet: receive reports, unknown types, short
packets and empty counts go no further. -/
def parse (pkt : Bytes) : Option Frame :=
  let kind := pkt.getD 0 0
  if pkt.length ≥ 3 ∧ kind = rxReportType then none
  else
    let isParity := kind == vstreamFecType
    let header := if isParity then 6 else 5
    if pkt.length < header ∨ (isParity = false ∧ kind ≠ vstreamType) then none
    else
      let count := (pkt.getD 4 0).toNat
      if count = 0 then none
      else some
        { isParity
          seq := fragSeq (pkt.getD 1 0) (pkt.getD 2 0)
          idx := (pkt.getD 3 0).toNat
          count
          lastLen := (pkt.getD 5 0).toNat
          payload := pkt.drop header }

/-- One payload under reassembly. The buffer has `frags` cells of 70 bytes and
is zero where nothing was written. -/
structure Reassembly where
  expectedFrags : Nat
  frags : Nat
  received : Nat → Bool
  data : Nat → UInt8
  lastLen : Option Nat
  parity : Nat → Option Bytes
  done : Bool
  lastUpdate : Nat

namespace Reassembly

def fresh (count now : Nat) : Reassembly where
  expectedFrags := count
  frags := count
  received _ := false
  data _ := 0
  lastLen := none
  parity _ := none
  done := false
  lastUpdate := now

def write (data : Nat → UInt8) (offset : Nat) (bytes : Bytes) : Nat → UInt8 := fun k =>
  if offset ≤ k ∧ k < offset + bytes.length then bytes.getD (k - offset) 0 else data k

def cell (st : Reassembly) (i : Nat) : Bytes := (List.range 70).map (fun b => st.data (i * 70 + b))

def missing (st : Reassembly) (group : Nat) : List Nat :=
  (groupIndices st.expectedFrags group).filter (fun i => !st.received i)

/-- Repair one group. An index beyond the buffer and a parity that is not a
cell long panic. -/
def repairGroup (st : Reassembly) (group : Nat) : Option Reassembly :=
  match st.parity group with
  | none => some st
  | some par =>
      let indices := groupIndices st.expectedFrags group
      if indices.any (fun i => st.frags ≤ i) then none
      else if fecCanRecover (st.missing group).length then
        match st.missing group with
        | [] => none
        | lost :: _ =>
            let rebuilt := ((indices.filter (· ≠ lost)).map st.cell).foldl xorInto par
            if rebuilt.length = 70 then
              some { st with
                data := write st.data (lost * 70) rebuilt
                received := Function.update st.received lost true }
            else none
      else some st

def repairGroups (st : Reassembly) : Option Reassembly :=
  (List.range (fecGroupCount st.expectedFrags)).foldlM repairGroup st

def store (st : Reassembly) (f : Frame) : Reassembly :=
  if f.isParity then
    { st with lastLen := some f.lastLen, parity := Function.update st.parity f.idx (some f.payload) }
  else if f.idx < st.frags ∧ f.idx * 70 + f.payload.length ≤ st.frags * 70 then
    { st with
      data := write st.data (f.idx * 70) f.payload
      received := Function.update st.received f.idx true
      lastLen := if isLastFragment f.idx f.count then some f.payload.length else st.lastLen }
  else st

def allReceived (st : Reassembly) : Bool := (List.range st.frags).all st.received

/-- Deliver a payload that is complete. Its entry stays behind, marked as done;
a payload beyond the buffer panics. -/
def finish (st : Reassembly) (attached : Bool) : Option (Option Reassembly × Option Bytes) :=
  if st.allReceived = false then some (some st, none)
  else
    match st.lastLen with
    | none => some (none, none)
    | some last =>
        let total := (st.expectedFrags - 1) * 70 + last
        if attached = false then some (some { st with done := true }, none)
        else if total ≤ st.frags * 70 then
          some (some { st with done := true }, some ((List.range total).map st.data))
        else none

/-- One frame of a payload: what becomes of its entry, and what goes to the
device. -/
def take (st : Reassembly) (f : Frame) (now : Nat) (attached : Bool) :
    Option (Option Reassembly × Option Bytes) :=
  if st.done then some (some { st with lastUpdate := now }, none)
  else
    match repairGroups (store { st with lastUpdate := now, expectedFrags := f.count } f) with
    | none => none
    | some st => st.finish attached

end Reassembly

/-- The receiving thread, with the payloads it handed to the device. -/
structure Downlink where
  entries : Nat → Option Reassembly
  crashed : Bool
  delivered : List (Nat × Bytes)

/-- One pass of the receive loop: the clock at its top, and the packet that
came before the read timed out, if any. -/
structure Pass where
  now : Nat
  arrival : Option (Nat × Bytes)
  attached : Bool

namespace Downlink

def start : Downlink := ⟨fun _ => none, false, []⟩

def retain (s : Downlink) (now : Nat) : Downlink :=
  { s with entries := fun seq => (s.entries seq).filter (fun st => now - st.lastUpdate < 2 * second) }

def receive (s : Downlink) (f : Frame) (now : Nat) (attached : Bool) : Downlink :=
  match ((s.entries f.seq).getD (.fresh f.count now)).take f now attached with
  | none => { s with crashed := true }
  | some (entry, out) =>
      { s with
        entries := Function.update s.entries f.seq entry
        delivered := s.delivered ++ (out.map (fun payload => (f.seq, payload))).toList }

def step (s : Downlink) (e : Pass) : Downlink :=
  if s.crashed then s
  else
    let s := s.retain e.now
    match e.arrival with
    | none => s
    | some (now, pkt) =>
        match parse pkt with
        | none => s
        | some f => s.receive f now e.attached

def deliveredOf (s : Downlink) (seq : Nat) : List Bytes :=
  (s.delivered.filter (fun p => p.1 = seq)).map Prod.snd

end Downlink

def Pass.frame (e : Pass) : Option (Nat × Frame) :=
  e.arrival.bind (fun a => (parse a.2).map (fun f => (a.1, f)))

theorem parse_dataPacket {seq count i : Nat} (hseq : seq < 65536) (hcount : count < 256)
    (hi : i < count) (d : Bytes) :
    ∃ last, parse (dataPacket seq count d i) = some ⟨false, seq, i, count, last, chunk d i⟩ := by
  have hc : (UInt8.ofNat count).toNat = count := by rw [UInt8.toNat_ofNat', Nat.mod_eq_of_lt hcount]
  have hx : (UInt8.ofNat i).toNat = i := by rw [UInt8.toNat_ofNat', Nat.mod_eq_of_lt (hi.trans hcount)]
  have hpos : count ≠ 0 := by omega
  refine ⟨((dataPacket seq count d i).getD 5 0).toNat, ?_⟩
  simp [parse, dataPacket, vstreamType, vstreamFecType, rxReportType, hc, hx, hpos, fragSeq_wire hseq]

theorem parse_parityPacket {seq count group : Nat} (hseq : seq < 65536) (hcount : count < 256)
    (hg : group < fecGroupCount count) (d : Bytes) :
    parse (parityPacket seq count d group) =
      some ⟨true, seq, group, count, lastLen d count % 256, groupParity d count group⟩ := by
  rw [fecGroupCount_eq] at hg
  have hc : (UInt8.ofNat count).toNat = count := by rw [UInt8.toNat_ofNat', Nat.mod_eq_of_lt hcount]
  have hx : (UInt8.ofNat group).toNat = group := by rw [UInt8.toNat_ofNat', Nat.mod_eq_of_lt (by omega)]
  have hpos : count ≠ 0 := by omega
  simp [parse, parityPacket, vstreamFecType, rxReportType, hc, hx, hpos, fragSeq_wire hseq]

end TriNet.Video
