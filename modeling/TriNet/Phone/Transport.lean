import TriNet.Lib.Runs
import TriNet.Phone.Unmixed

namespace TriNet.Phone

open Lib.BigEndian Lib.Runs

/-- A message of the application: its first byte is not the framing layer's. -/
structure Message where
  bytes : Bytes
  tag : bytes.head? ≠ some 0xFA

structure Wire where
  msg : Nat
  bytes : Bytes
  deriving DecidableEq

structure Peer where
  fragSeqOut : Nat
  sentNALs : Dictionary Nat (List Wire)
  sentOrder : List Nat

namespace Peer

def evict (nals : Dictionary Nat (List Wire)) : List Nat → Dictionary Nat (List Wire) × List Nat
  | [] => (nals, [])
  | seq :: order => if (seq :: order).length > 64 then evict (nals.erase seq) order
      else (nals, seq :: order)

def bufferSentNAL (p : Peer) (seq : Nat) (wire : List Wire) : Peer :=
  let kept := evict (p.sentNALs.insert seq wire) (p.sentOrder ++ [seq])
  { p with sentNALs := kept.1, sentOrder := kept.2 }

theorem lookup_evict {nals : Dictionary Nat (List Wire)} {order : List Nat} {seq : Nat} {wire : List Wire}
    (h : (evict nals order).1.lookup seq = some wire) : nals.lookup seq = some wire := by
  induction order generalizing nals with
  | nil => exact h
  | cons first order ih =>
      rw [evict] at h
      split at h
      · exact (Dictionary.lookup_erase_iff.mp (ih h)).2
      · exact h

end Peer

/-- Two transports over an authenticated channel, in the direction from the peer
to us. `sends` is everything the peer ever passed to send, `base` where the
current connection starts in it; the channel carries the packets of the current
connection, and `last` says whose packet came last under a sequence number. -/
structure World where
  peer : Peer
  sends : List Bytes
  base : Nat
  channel : List Wire
  receiver : Receiver
  last : Nat → Option Nat
  returned : List Bytes

inductive Event
  | send (m : Message) (fecGroup : Nat)
  | resendNAL (seq : Nat)
  | resendFragments (seq : Nat) (idxs : List Nat)
  | deliver (x : Wire) (shuffle : Shuffle)
  | reconnect (restarted : Bool)

namespace World

def start : World := ⟨⟨0, ∅, []⟩, [], 0, [], .fresh, fun _ => none, []⟩

def send (w : World) (m : Message) (fecGroup : Nat) : World :=
  let seq := nextSeq w.peer.fragSeqOut m.bytes
  let wire := (packets fecGroup seq m.bytes).map (Wire.mk w.sends.length)
  { w with
    peer := match framing m.bytes with
      | .fragmented => { w.peer with fragSeqOut := seq }.bufferSentNAL seq wire
      | _ => w.peer
    sends := w.sends ++ [m.bytes]
    channel := w.channel ++ wire }

def buffered (w : World) (seq : Nat) : List Wire := (w.peer.sentNALs.lookup seq).getD []

def deliver (w : World) (x : Wire) (shuffle : Shuffle) : World :=
  if x ∈ w.channel then
    let result := w.receiver.reassemble false shuffle x.bytes
    { w with
      receiver := result.1
      last := noteLast w.last id x.msg (decode x.bytes)
      returned := w.returned ++ result.2.toList }
  else w

/-- Both ends disconnect and connect again, the peer with its own transport or
with a new one. -/
def reconnect (w : World) (restarted : Bool) : World where
  peer := ⟨if restarted then 0 else w.peer.fragSeqOut, ∅, []⟩
  sends := w.sends
  base := w.sends.length
  channel := []
  receiver := { w.receiver with deliveredOrder := [] }
  last := w.last
  returned := []

def step (w : World) : Event → World
  | .send m fecGroup => w.send m fecGroup
  | .resendNAL seq => { w with channel := w.channel ++ w.buffered seq }
  | .resendFragments seq idxs =>
      { w with channel := w.channel ++ idxs.filterMap (fun i => (w.buffered seq)[i]?) }
  | .deliver x shuffle => w.deliver x shuffle
  | .reconnect restarted => w.reconnect restarted

/-- A packet comes in under a sequence number that nothing is kept under, or
the packet before it under that number was of the same message. -/
def Unmixed (w : World) : Event → Prop
  | .deliver x _ => x ∈ w.channel → Expected w.receiver.tables w.last id x.msg (decode x.bytes)
  | _ => True

instance (w : World) : ∀ e, Decidable (w.Unmixed e)
  | .deliver x _ => inferInstanceAs (Decidable (x ∈ w.channel → Expected _ _ _ _ _))
  | .send .. => .isTrue trivial
  | .resendNAL _ => .isTrue trivial
  | .resendFragments .. => .isTrue trivial
  | .reconnect _ => .isTrue trivial

def content (w : World) (seq : Nat) : Option Bytes := (w.last seq).bind (fun i => w.sends[i]?)

structure Inv (w : World) : Prop where
  base : w.base ≤ w.sends.length
  counter : w.peer.fragSeqOut < 65536
  channel : ∀ x ∈ w.channel, w.base ≤ x.msg ∧ ∃ m, w.sends[x.msg]? = some m ∧ PacketOf m x.bytes
  buffered : ∀ seq, ∀ x ∈ w.buffered seq, x ∈ w.channel
  tables : w.receiver.tables.Holds w.content
  returned : ∀ m ∈ w.returned, ∃ i, w.base ≤ i ∧ w.sends[i]? = some m

theorem inv_start : Inv start where
  base := Nat.le_refl 0
  counter := by decide
  channel x hx := absurd hx List.not_mem_nil
  buffered seq x hx := absurd hx List.not_mem_nil
  tables := .empty
  returned m hm := absurd hm List.not_mem_nil

variable {w : World}

theorem mem_buffered {seq : Nat} {x : Wire} :
    x ∈ w.buffered seq ↔ ∃ wire, w.peer.sentNALs.lookup seq = some wire ∧ x ∈ wire := by
  rw [buffered]
  cases w.peer.sentNALs.lookup seq <;> simp

theorem buffered_send {m : Message} {fecGroup seq : Nat} {x : Wire}
    (hx : x ∈ (w.send m fecGroup).buffered seq) :
    x ∈ w.buffered seq ∨
      x ∈ (packets fecGroup (nextSeq w.peer.fragSeqOut m.bytes) m.bytes).map (Wire.mk w.sends.length) := by
  obtain ⟨wire, hwire, hx⟩ := mem_buffered.mp hx
  rw [send] at hwire
  dsimp only at hwire
  split at hwire
  · rcases Dictionary.lookup_insert_cases (Peer.lookup_evict hwire) with ⟨_, rfl⟩ | hold
    · exact Or.inr hx
    · exact Or.inl (mem_buffered.mpr ⟨wire, hold, hx⟩)
  · exact Or.inl (mem_buffered.mpr ⟨wire, hwire, hx⟩)

theorem inv_send (h : Inv w) (m : Message) (fecGroup : Nat) : Inv (w.send m fecGroup) := by
  have hseq := nextSeq_lt h.counter m.bytes
  have hold {i : Nat} {b : Bytes} (hi : w.sends[i]? = some b) : (w.sends ++ [m.bytes])[i]? = some b := by
    rwa [List.getElem?_append_left (List.getElem?_eq_some_iff.mp hi).1]
  refine ⟨?_, ?_, ?_, ?_, ?_, ?_⟩
  · rw [send, List.length_append]
    exact Nat.le_add_right_of_le h.base
  · rw [send]
    dsimp only
    split
    · exact hseq
    · exact h.counter
  · intro x hx
    rcases List.mem_append.mp hx with hx | hx
    · obtain ⟨hbase, b, hb, hpkt⟩ := h.channel x hx
      exact ⟨hbase, b, hold hb, hpkt⟩
    · obtain ⟨pkt, hpkt, rfl⟩ := List.mem_map.mp hx
      exact ⟨h.base, m.bytes, List.getElem?_concat_length,
        packetOf_of_mem_packets hseq (fun _ => m.tag) hpkt⟩
  · intro seq x hx
    rcases buffered_send hx with hx | hx
    · exact List.mem_append_left _ (h.buffered seq x hx)
    · exact List.mem_append_right _ hx
  · apply h.tables.mono
    intro seq b _ hb
    obtain ⟨i, hi, hget⟩ := Option.bind_eq_some_iff.mp hb
    exact Option.bind_eq_some_iff.mpr ⟨i, hi, hold hget⟩
  · intro b hb
    obtain ⟨i, hi, hget⟩ := h.returned b hb
    exact ⟨i, hi, hold hget⟩

theorem inv_resend (h : Inv w) {wire : List Wire} (hwire : ∀ x ∈ wire, x ∈ w.channel) :
    Inv { w with channel := w.channel ++ wire } where
  base := h.base
  counter := h.counter
  channel x hx := h.channel x ((List.mem_append.mp hx).elim id (hwire x))
  buffered seq x hx := List.mem_append_left _ (h.buffered seq x hx)
  tables := h.tables
  returned := h.returned

theorem inv_reconnect (h : Inv w) (restarted : Bool) : Inv (w.reconnect restarted) where
  base := Nat.le_refl _
  counter := by
    cases restarted with
    | true => exact Nat.two_pow_pos 16
    | false => exact h.counter
  channel x hx := absurd hx List.not_mem_nil
  buffered seq x hx := absurd hx List.not_mem_nil
  tables := h.tables
  returned m hm := absurd hm List.not_mem_nil

theorem inv_deliver (h : Inv w) {x : Wire} {shuffle : Shuffle}
    (hok : w.Unmixed (.deliver x shuffle)) : Inv (w.deliver x shuffle) := by
  rw [deliver]
  split
  · next hx =>
      obtain ⟨hbase, m, hm, hpkt⟩ := h.channel x hx
      have hholds := holds_noteLast h.tables (hok hx)
      obtain ⟨hnext, hout⟩ := Receiver.holds_reassemble hholds (brings_noteLast hm hpkt) false shuffle
      refine ⟨h.base, h.counter, h.channel, h.buffered, hnext, ?_⟩
      intro b hb
      rcases List.mem_append.mp hb with hb | hb
      · exact h.returned b hb
      · rw [hout b (Option.mem_toList.mp hb)]
        exact ⟨x.msg, hbase, hm⟩
  · exact h

theorem inv_step {e : Event} (h : Inv w) (hok : w.Unmixed e) : Inv (w.step e) := by
  cases e with
  | send m fecGroup => exact inv_send h m fecGroup
  | resendNAL seq => exact inv_resend h (h.buffered seq)
  | resendFragments seq idxs =>
      apply inv_resend h
      intro x hx
      obtain ⟨i, _, hget⟩ := List.mem_filterMap.mp hx
      exact h.buffered seq x (List.mem_of_getElem? hget)
  | deliver x shuffle => exact inv_deliver h hok
  | reconnect restarted => exact inv_reconnect h restarted

/-- As long as no packet meets parts of another message under its sequence
number, every message that is returned was passed to send in the current
connection. -/
theorem returned_messages_were_sent (es : List Event) (hes : Along step Unmixed start es) :
    ∀ m ∈ (run step start es).returned, m ∈ (run step start es).sends.drop (run step start es).base := by
  intro m hm
  have hinv := run_along step Unmixed Inv (fun w e => inv_step) start es inv_start hes
  obtain ⟨i, hbase, hget⟩ := hinv.returned m hm
  rw [List.mem_iff_getElem?]
  refine ⟨i - (run step start es).base, ?_⟩
  rw [List.getElem?_drop, Nat.add_sub_cancel' hbase, hget]

def ones : Message :=
  ⟨1 :: (List.replicate 1199 1 ++ [5]), fun h => absurd (Option.some.inj h) (by decide)⟩

def twos : Message := ⟨2 :: List.replicate 1200 2, fun h => absurd (Option.some.inj h) (by decide)⟩

def repaired : List Event :=
  [.send ones 16, .deliver ⟨0, fragmentPacket 1 ones.bytes 0⟩ .inOrder,
    .deliver ⟨0, parityPacket 16 1 ones.bytes 0⟩ .inOrder]

theorem repaired_message_was_sent :
    (run step start repaired).returned = [ones.bytes] ∧
      ∀ m ∈ (run step start repaired).returned,
        m ∈ (run step start repaired).sends.drop (run step start repaired).base := by
  obtain ⟨hreturned, hunmixed⟩ : (run step start repaired).returned = [ones.bytes] ∧
      Along step Unmixed start repaired := by
    decide +kernel
  exact ⟨hreturned, returned_messages_were_sent repaired hunmixed⟩

def leftover : List Event := [.send ones 16, .deliver ⟨0, fragmentPacket 1 ones.bytes 0⟩ .inOrder]

theorem run_sends (m : Message) (hm : framing m.bytes = .fragmented) (fecGroup n : Nat)
    (hw : w.peer.fragSeqOut < 65536) :
    (run step w (List.replicate n (.send m fecGroup))).receiver = w.receiver ∧
      (run step w (List.replicate n (.send m fecGroup))).returned = w.returned ∧
      (run step w (List.replicate n (.send m fecGroup))).base = w.base ∧
      (run step w (List.replicate n (.send m fecGroup))).sends = w.sends ++ List.replicate n m.bytes ∧
      (run step w (List.replicate n (.send m fecGroup))).peer.fragSeqOut =
        (w.peer.fragSeqOut + n) % 65536 := by
  induction n generalizing w with
  | zero => exact ⟨rfl, rfl, rfl, (List.append_nil _).symm, (Nat.mod_eq_of_lt hw).symm⟩
  | succ n ih =>
      have hseq : (w.send m fecGroup).peer.fragSeqOut = (w.peer.fragSeqOut + 1) % 65536 := by
        simp only [send, hm, nextSeq]
        rfl
      obtain ⟨hrec, hret, hbase, hsends, hout⟩ :=
        ih (w := w.send m fecGroup) (hseq ▸ Nat.mod_lt _ (by decide))
      rw [List.replicate_succ, run, List.foldl_cons]
      refine ⟨hrec, hret, hbase, ?_, ?_⟩
      · refine hsends.trans ?_
        rw [send, List.append_assoc, List.replicate_succ]
        rfl
      · refine hout.trans ?_
        rw [hseq]
        omega

theorem sends_deliver (x : Wire) (shuffle : Shuffle) : (w.deliver x shuffle).sends = w.sends := by
  rw [deliver]
  split <;> rfl

theorem mem_returned_deliver {x : Wire} {shuffle : Shuffle} {m : Bytes} (hx : x ∈ w.channel)
    (hm : (w.receiver.reassemble false shuffle x.bytes).2 = some m) :
    m ∈ (w.deliver x shuffle).returned := by
  rw [deliver, if_pos hx]
  dsimp only
  rw [hm]
  exact List.mem_append_right _ (List.mem_singleton_self m)

theorem mem_channel_sends (m : Message) (hm : framing m.bytes = .fragmented) (fecGroup n : Nat)
    (hw : w.peer.fragSeqOut < 65536) {pkt : Bytes}
    (hpkt : pkt ∈ packets fecGroup ((w.peer.fragSeqOut + n + 1) % 65536) m.bytes) :
    ⟨w.sends.length + n, pkt⟩ ∈ (run step w (List.replicate (n + 1) (.send m fecGroup))).channel := by
  obtain ⟨_, _, _, hsends, hout⟩ := run_sends m hm fecGroup n hw
  rw [List.replicate_succ', run_append]
  apply List.mem_append_right
  rw [hsends, List.length_append, List.length_replicate, nextSeq, hm, hout]
  apply List.mem_map_of_mem
  rwa [Nat.mod_add_mod]

/-- After 65536 more messages the sequence number comes back, and the last
fragment of the last message comes in. -/
def wrapped : List Event :=
  leftover ++ List.replicate 65536 (.send twos 16) ++
    [.deliver ⟨65536, fragmentPacket 1 twos.bytes 1⟩ .inOrder]

/-- The fragment that is left under the number completes a message nobody
sent. -/
theorem stale_fragment_mixes_messages :
    ¬∀ m ∈ (run step start wrapped).returned,
      m ∈ (run step start wrapped).sends.drop (run step start wrapped).base := by
  obtain ⟨hseq, hsent, hmixed⟩ : (run step start leftover).peer.fragSeqOut = 1 ∧
      (run step start leftover).sends = [ones.bytes] ∧
      ((run step start leftover).receiver.reassemble false .inOrder (fragmentPacket 1 twos.bytes 1)).2 =
        some (List.replicate 1200 1 ++ [2]) := by
    decide +kernel
  have htwos : framing twos.bytes = .fragmented := by decide +kernel
  have hlt : (run step start leftover).peer.fragSeqOut < 65536 := by
    rw [hseq]
    decide
  obtain ⟨hrec, _, _, hsends, _⟩ := run_sends twos htwos 16 65536 hlt
  have hmem : ⟨65536, fragmentPacket 1 twos.bytes 1⟩ ∈
      (run step (run step start leftover) (List.replicate 65536 (.send twos 16))).channel := by
    have hpkt : fragmentPacket 1 twos.bytes 1 ∈
        packets 16 (((run step start leftover).peer.fragSeqOut + 65535 + 1) % 65536) twos.bytes := by
      rw [hseq]
      decide +kernel
    have hlast := mem_channel_sends twos htwos 16 65535 hlt hpkt
    rwa [hsent] at hlast
  have hrun : run step start wrapped =
      (run step (run step start leftover) (List.replicate 65536 (.send twos 16))).deliver
        ⟨65536, fragmentPacket 1 twos.bytes 1⟩ .inOrder := by
    rw [wrapped, run_concat, run_append, step]
  intro hall
  rw [hrun] at hall
  have hin := List.mem_of_mem_drop (hall _ (mem_returned_deliver hmem (hrec.symm ▸ hmixed)))
  rw [sends_deliver, hsends, hsent, List.mem_append, List.mem_singleton, List.mem_replicate] at hin
  rcases hin with hone | ⟨_, htwo⟩
  · revert hone
    decide +kernel
  · revert htwo
    decide +kernel

end World

end TriNet.Phone
