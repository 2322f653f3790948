import TriNet.Lib.BigEndian
import TriNet.Lib.Runs
import TriNet.Lib.Slices
import Mathlib.Data.List.AList
import Mathlib.Data.List.Induction

namespace TriNet.Phone.Rendezvous

open Lib.BigEndian Lib.Runs Lib.Slices

structure Publish where
  selfTag : UInt64
  roomHash : Bytes
  offer : Bytes

structure Get where
  selfTag : UInt64
  roomHash : Bytes

def encodePublish (selfTag : UInt64) (roomHash offer : Bytes) : Bytes :=
  [0x01] ++ beBytes 8 selfTag.toNat ++ roomHash ++ offer

def encodeGet (selfTag : UInt64) (roomHash : Bytes) : Bytes :=
  [0x02] ++ beBytes 8 selfTag.toNat ++ roomHash

def encodeOffer (offer : Bytes) : Bytes := [0x03] ++ offer

def encodeNone : Bytes := [0x04]

def parsePublish (b : Bytes) : Option Publish :=
  if 25 ≤ b.length ∧ b.getD 0 0 = 0x01 then
    some ⟨UInt64.ofNat (ofBe (slice b 1 9)), slice b 9 25, b.drop 25⟩
  else none

def parseGet (b : Bytes) : Option Get :=
  if b.length = 25 ∧ b.getD 0 0 = 0x02 then some ⟨UInt64.ofNat (ofBe (slice b 1 9)), slice b 9 25⟩
  else none

def parseResponse (b : Bytes) : Option Bytes := if b.head? = some 0x03 then some (b.drop 1) else none

structure Mailbox where
  buckets : AList (fun _ : Bytes => List (UInt64 × Bytes))

namespace Mailbox

def publish (m : Mailbox) (p : Publish) : Mailbox :=
  let list := (m.buckets.lookup p.roomHash).getD []
  ⟨m.buckets.insert p.roomHash (list.filter (fun e => e.1 ≠ p.selfTag) ++ [(p.selfTag, p.offer)])⟩

def peerOffer (m : Mailbox) (g : Get) : Option Bytes := do
  let list ← m.buckets.lookup g.roomHash
  (list.find? (fun e => e.1 ≠ g.selfTag)).map Prod.snd

def serve (m : Mailbox) (pkt : Bytes) : Mailbox × Option Bytes :=
  match parsePublish pkt with
  | some p => (m.publish p, none)
  | none => (m, (parseGet pkt).map (fun g => ((m.peerOffer g).map encodeOffer).getD encodeNone))

/-- One turn of the loop in `fetch`. -/
def fetched (m : Mailbox) (roomHash : Bytes) (selfTag : UInt64) : Option Bytes :=
  (m.serve (encodeGet selfTag roomHash)).2.bind parseResponse

def after (pkts : List Bytes) : Mailbox := run (fun m pkt => (m.serve pkt).1) ⟨∅⟩ pkts

end Mailbox

section Latest

variable {κ ν : Type} [DecidableEq κ]

def latest : List (κ × ν) → List (κ × ν)
  | [] => []
  | p :: ps => if p.1 ∈ ps.map Prod.fst then latest ps else p :: latest ps

/-- Of the other keys the entry of the one that has not been written for longest:
the first entry that none of its key follows. -/
def stalest (own : κ) : List (κ × ν) → Option (κ × ν)
  | [] => none
  | p :: ps => if p.1 ∈ ps.map Prod.fst ∨ p.1 = own then stalest own ps else some p

theorem latest_concat (ps : List (κ × ν)) (p : κ × ν) :
    latest (ps ++ [p]) = (latest ps).filter (fun e => e.1 ≠ p.1) ++ [p] := by
  induction ps with
  | nil => rfl
  | cons q ps ih =>
      have hmem : q.1 ∈ (ps ++ [p]).map Prod.fst ↔ q.1 ∈ ps.map Prod.fst ∨ q.1 = p.1 := by simp
      simp only [List.cons_append, latest, ih, hmem]
      by_cases hlater : q.1 ∈ ps.map Prod.fst
      · rw [if_pos (.inl hlater), if_pos hlater]
      by_cases hsame : q.1 = p.1
      · rw [if_pos (.inr hsame), if_neg hlater, List.filter_cons_of_neg (by simpa using hsame)]
      · rw [if_neg (not_or.mpr ⟨hlater, hsame⟩), if_neg hlater,
          List.filter_cons_of_pos (by simpa using hsame)]
        rfl

theorem find?_latest (own : κ) (ps : List (κ × ν)) :
    (latest ps).find? (fun e => e.1 ≠ own) = stalest own ps := by
  induction ps with
  | nil => rfl
  | cons p ps ih =>
      rw [latest, stalest]
      by_cases hlater : p.1 ∈ ps.map Prod.fst
      · rw [if_pos hlater, if_pos (.inl hlater), ih]
      rw [if_neg hlater, List.find?_cons]
      by_cases hown : p.1 = own
      · rw [if_pos (.inr hown), decide_eq_false (not_not.mpr hown), ih]
      · rw [if_neg (not_or.mpr ⟨hlater, hown⟩), decide_eq_true hown]

end Latest

section Wire

variable {tag : UInt64} {room : Bytes}

theorem read_header (first : UInt8) (tag : UInt64) (hroom : room.length = 16) (rest : Bytes) :
    let pkt := [first] ++ beBytes 8 tag.toNat ++ room ++ rest
    pkt.length = 25 + rest.length ∧ UInt64.ofNat (ofBe (slice pkt 1 9)) = tag ∧
      slice pkt 9 25 = room ∧ pkt.drop 25 = rest := by
  intro pkt
  have htag : slice pkt 1 9 = beBytes 8 tag.toNat :=
    slice_middle [first] ((List.append_assoc ..).trans (List.append_assoc ..)) rfl (by rw [beBytes_length])
  refine ⟨by simp [pkt, hroom]; omega, ?_, ?_, List.drop_left' (by simp [hroom])⟩
  · rw [htag, uint64_ofBe_beBytes]
  · exact slice_middle ([first] ++ beBytes 8 tag.toNat) (List.append_assoc ..) (by simp) (by omega)

theorem parsePublish_encodePublish (hroom : room.length = 16) (offer : Bytes) :
    parsePublish (encodePublish tag room offer) = some ⟨tag, room, offer⟩ := by
  obtain ⟨hlen, htag, hhash, hrest⟩ := read_header 0x01 tag hroom offer
  rw [parsePublish, encodePublish, if_pos ⟨by omega, rfl⟩, htag, hhash, hrest]

theorem fetched_eq (m : Mailbox) (hroom : room.length = 16) :
    m.fetched room tag = m.peerOffer ⟨tag, room⟩ := by
  obtain ⟨hlen, htag, hhash, -⟩ := read_header 0x02 tag hroom []
  rw [List.append_nil] at hlen htag hhash
  have hpublish : parsePublish (encodeGet tag room) = none :=
    if_neg (fun h => absurd h.2 (by decide : (2 : UInt8) ≠ 1))
  rw [Mailbox.fetched, Mailbox.serve, hpublish, encodeGet, parseGet, if_pos ⟨hlen, rfl⟩, htag, hhash]
  dsimp only [Option.map_some]
  cases m.peerOffer ⟨tag, room⟩ <;> rfl

end Wire

section Runs

variable {room : Bytes}

def entries (room : Bytes) (pkts : List Bytes) : List (UInt64 × Bytes) :=
  pkts.filterMap (fun pkt => do
    let p ← parsePublish pkt
    if p.roomHash = room then some (p.selfTag, p.offer) else none)

theorem bucket_after (room : Bytes) (pkts : List Bytes) :
    ((Mailbox.after pkts).buckets.lookup room).getD [] = latest (entries room pkts) := by
  induction pkts using List.reverseRecOn with
  | nil => rfl
  | append_singleton pkts pkt ih =>
      rw [Mailbox.after, run_concat, ← Mailbox.after, Mailbox.serve, entries,
        List.filterMap_append, ← entries]
      cases hparse : parsePublish pkt with
      | none => simpa [hparse] using ih
      | some p =>
          by_cases hroom : p.roomHash = room
          · subst hroom
            simp [hparse, Mailbox.publish, latest_concat, ih]
          · simpa [hparse, hroom, Mailbox.publish, AList.lookup_insert_ne (Ne.symm hroom)] using ih

/-- A fetch gets the offer of whoever else has not published for longest. Nothing
expires at the relay: that may be a party that has long left. -/
theorem fetched_eq_stalest (hroom : room.length = 16) (pkts : List Bytes) (tag : UInt64) :
    (Mailbox.after pkts).fetched room tag = (stalest tag (entries room pkts)).map Prod.snd ∧
      ∀ peer offer, encodePublish peer room offer ∈ pkts → (peer, offer) ∈ entries room pkts := by
  constructor
  · rw [fetched_eq _ hroom, Mailbox.peerOffer, ← find?_latest, ← bucket_after]
    cases (Mailbox.after pkts).buckets.lookup room <;> rfl
  · intro peer offer hmem
    exact List.mem_filterMap.mpr ⟨_, hmem, by simp [parsePublish_encodePublish hroom]⟩

/-- The first of three parties never comes back, and both others get its offer. -/
theorem fetched_eq_absent :
    let room := List.replicate 16 7
    let m := Mailbox.after [encodePublish 1 room [10], encodePublish 2 room [20],
      encodePublish 3 room [30], encodePublish 2 room [21]]
    room.length = 16 ∧ m.fetched room 2 = some [10] ∧ m.fetched room 3 = some [10] :=
  ⟨rfl, (fetched_eq_stalest rfl _ 2).1.trans (by decide +kernel),
    (fetched_eq_stalest rfl _ 3).1.trans (by decide +kernel)⟩

end Runs

end TriNet.Phone.Rendezvous
