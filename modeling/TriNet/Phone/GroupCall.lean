import TriNet.Phone.Transport

namespace TriNet.Phone

open Lib.BigEndian Lib.Runs

inductive Device
  | desktop
  | phone
  deriving DecidableEq

/-- A group call: senders with an address and a counter each, and a desktop and
a phone that listen to all of them. For each key of a receiver `last` says
which send of which sender a packet came from last. -/
structure GroupCall (α : Type) where
  fragSeqOut : α → Nat
  sends : α → List Bytes
  channel : List (α × Wire)
  desktop : Receiver
  desktopLast : Nat → Option (α × Nat)
  phone : Tables (α × Nat)
  phoneLast : α × Nat → Option (α × Nat)
  handedUp : Device → List (α × Bytes)

inductive GroupEvent (α : Type)
  | send (src : α) (m : Bytes) (fecGroup : Nat)
  | deliver (device : Device) (src : α) (x : Wire) (shuffle : Shuffle)

namespace GroupCall

variable {α : Type} [DecidableEq α]

def start : GroupCall α where
  fragSeqOut _ := 0
  sends _ := []
  channel := []
  desktop := .fresh
  desktopLast _ := none
  phone := .empty
  phoneLast _ := none
  handedUp _ := []

def send (g : GroupCall α) (src : α) (m : Bytes) (fecGroup : Nat) : GroupCall α :=
  let seq := nextSeq (g.fragSeqOut src) m
  { g with
    fragSeqOut := Function.update g.fragSeqOut src seq
    sends := Function.update g.sends src (g.sends src ++ [m])
    channel := g.channel ++ (packets fecGroup seq m).map (fun pkt => (src, ⟨(g.sends src).length, pkt⟩)) }

def handUp (g : GroupCall α) (device : Device) (src : α) (out : Option Bytes) :
    Device → List (α × Bytes) :=
  Function.update g.handedUp device (g.handedUp device ++ (out.map (fun m => (src, m))).toList)

def deliver (g : GroupCall α) (device : Device) (src : α) (x : Wire) (shuffle : Shuffle) : GroupCall α :=
  if (src, x) ∈ g.channel then
    match device with
    | .desktop =>
        let result := g.desktop.reassemble true shuffle x.bytes
        { g with
          desktop := result.1
          desktopLast := noteLast g.desktopLast id (src, x.msg) (decode x.bytes)
          handedUp := g.handUp .desktop src result.2 }
    | .phone =>
        let result := groupReassemble shuffle g.phone src x.bytes
        { g with
          phone := result.1
          phoneLast := noteLast g.phoneLast (fun seq => (src, seq)) (src, x.msg) (decode x.bytes)
          handedUp := g.handUp .phone src result.2 }
  else g

def step (g : GroupCall α) : GroupEvent α → GroupCall α
  | .send src m fecGroup => g.send src m fecGroup
  | .deliver device src x shuffle => g.deliver device src x shuffle

/-- A message that goes out whole does not look like a part, and a packet meets
no parts of another message: under its sequence number at the desktop, under
its source and sequence number at the phone. -/
def Unmixed (g : GroupCall α) : GroupEvent α → Prop
  | .deliver .desktop src x _ => (src, x) ∈ g.channel →
      Expected g.desktop.tables g.desktopLast id (src, x.msg) (decode x.bytes)
  | .deliver .phone src x _ => (src, x) ∈ g.channel →
      Expected g.phone g.phoneLast (fun seq => (src, seq)) (src, x.msg) (decode x.bytes)
  | .send _ m _ => framing m = .whole → m.head? ≠ some 0xFA

instance (g : GroupCall α) : ∀ e, Decidable (g.Unmixed e)
  | .deliver .desktop src x _ => inferInstanceAs (Decidable ((src, x) ∈ g.channel → Expected _ _ _ _ _))
  | .deliver .phone src x _ => inferInstanceAs (Decidable ((src, x) ∈ g.channel → Expected _ _ _ _ _))
  | .send _ m _ => inferInstanceAs (Decidable (framing m = .whole → _))

def sent (g : GroupCall α) (i : α × Nat) : Option Bytes := (g.sends i.1)[i.2]?

structure Inv (g : GroupCall α) : Prop where
  counter : ∀ src, g.fragSeqOut src < 65536
  channel : ∀ src x, (src, x) ∈ g.channel → ∃ m, g.sent (src, x.msg) = some m ∧ PacketOf m x.bytes
  desktop : g.desktop.tables.Holds (fun k => (g.desktopLast k).bind g.sent)
  phone : g.phone.Holds (fun k => (g.phoneLast k).bind g.sent)
  handedUp : ∀ device src m, (src, m) ∈ g.handedUp device → m ∈ g.sends src

theorem inv_start : Inv (start : GroupCall α) where
  counter _ := Nat.two_pow_pos 16
  channel _ _ hx := absurd hx List.not_mem_nil
  desktop := .empty
  phone := .empty
  handedUp _ _ _ hm := absurd hm List.not_mem_nil

variable {g : GroupCall α}

theorem sent_send {src : α} {m : Bytes} {fecGroup : Nat} {i : α × Nat} {b : Bytes}
    (h : g.sent i = some b) : (g.send src m fecGroup).sent i = some b := by
  rw [sent, send]
  by_cases hsrc : i.1 = src
  · dsimp only
    rw [hsrc, Function.update_self, ← hsrc]
    rw [sent] at h
    rwa [List.getElem?_append_left (List.getElem?_eq_some_iff.mp h).1]
  · dsimp only
    rwa [Function.update_of_ne hsrc]

theorem inv_send (h : Inv g) {src : α} {m : Bytes} {fecGroup : Nat}
    (hok : g.Unmixed (.send src m fecGroup)) : Inv (g.send src m fecGroup) := by
  have hseq := nextSeq_lt (h.counter src) m
  have hkeep {κ : Type} (last : κ → Option (α × Nat)) (k : κ) (b : Bytes)
      (hb : (last k).bind g.sent = some b) :
      (last k).bind (g.send src m fecGroup).sent = some b := by
    obtain ⟨i, hi, hget⟩ := Option.bind_eq_some_iff.mp hb
    exact Option.bind_eq_some_iff.mpr ⟨i, hi, sent_send hget⟩
  refine ⟨?_, ?_, ?_, ?_, ?_⟩
  · exact (Function.forall_update_iff g.fragSeqOut (fun _ seq => seq < 65536)).mpr
      ⟨hseq, fun a _ => h.counter a⟩
  · intro a x hx
    rcases List.mem_append.mp hx with hx | hx
    · obtain ⟨b, hb, hpkt⟩ := h.channel a x hx
      exact ⟨b, sent_send hb, hpkt⟩
    · obtain ⟨pkt, hpkt, he⟩ := List.mem_map.mp hx
      cases he
      refine ⟨m, ?_, packetOf_of_mem_packets hseq hok hpkt⟩
      simp [sent, send]
  · exact h.desktop.mono (fun k b _ => hkeep g.desktopLast k b)
  · exact h.phone.mono (fun k b _ => hkeep g.phoneLast k b)
  · intro device a b hb
    have hin := h.handedUp device a b hb
    rw [send]
    by_cases ha : a = src
    · subst ha
      simp [hin]
    · simpa [ha] using hin

omit [DecidableEq α] in
theorem mem_handUp {device device' : Device} {src a : α} {out : Option Bytes} {m : Bytes}
    (h : (a, m) ∈ g.handUp device src out device') :
    (a, m) ∈ g.handedUp device' ∨ (a = src ∧ out = some m) := by
  rw [handUp] at h
  by_cases hd : device' = device
  · subst hd
    rw [Function.update_self] at h
    rcases List.mem_append.mp h with h | h
    · exact Or.inl h
    · obtain ⟨m', hm', he⟩ := Option.map_eq_some_iff.mp (Option.mem_toList.mp h)
      cases he
      exact Or.inr ⟨rfl, hm'⟩
  · rw [Function.update_of_ne hd] at h
    exact Or.inl h

theorem inv_deliver (h : Inv g) {device : Device} {src : α} {x : Wire} {shuffle : Shuffle}
    (hok : g.Unmixed (.deliver device src x shuffle)) : Inv (g.deliver device src x shuffle) := by
  by_cases hx : (src, x) ∈ g.channel
  · obtain ⟨m, hm, hpkt⟩ := h.channel src x hx
    have hin : m ∈ g.sends src := List.mem_of_getElem? hm
    cases device with
    | desktop =>
        have hholds := holds_noteLast h.desktop (hok hx)
        obtain ⟨hnext, hout⟩ := Receiver.holds_reassemble hholds (brings_noteLast hm hpkt) true shuffle
        rw [deliver, if_pos hx]
        refine ⟨h.counter, h.channel, hnext, h.phone, ?_⟩
        intro device a b hb
        rcases mem_handUp hb with hold | ⟨rfl, hnew⟩
        · exact h.handedUp device a b hold
        · exact hout b hnew ▸ hin
    | phone =>
        have hholds := holds_noteLast h.phone (hok hx)
        obtain ⟨hnext, hout⟩ := holds_groupReassemble hholds (brings_noteLast hm hpkt) shuffle
        rw [deliver, if_pos hx]
        refine ⟨h.counter, h.channel, h.desktop, hnext, ?_⟩
        intro device a b hb
        rcases mem_handUp hb with hold | ⟨rfl, hnew⟩
        · exact h.handedUp device a b hold
        · exact hout b hnew ▸ hin
  · have hstay : g.deliver device src x shuffle = g := by cases device <;> rw [deliver, if_neg hx]
    exact hstay.symm ▸ h

/-- As long as no message looks like a part of one and no packet meets parts of another message
under its key, what a receiver hands up with a source address was sent from that address. -/
theorem handed_up_messages_were_sent (es : List (GroupEvent α)) (hes : Along step Unmixed start es)
    (device : Device) (src : α) (m : Bytes) (hm : (src, m) ∈ (run step start es).handedUp device) :
    m ∈ (run step start es).sends src := by
  have hinv := run_along step Unmixed Inv (fun g e h hok => by
    cases e with
    | send src m fecGroup => exact inv_send h hok
    | deliver device src x shuffle => exact inv_deliver h hok) start es inv_start hes
  exact hinv.handedUp device src m hm

/-- Two senders with the same sequence number: the phone completes the message of
the first, the desktop that of the second from a fragment and its parity. -/
def twoSenders : List (GroupEvent Nat) :=
  [.send 1 World.ones.bytes 16, .deliver .phone 1 ⟨0, fragmentPacket 1 World.ones.bytes 0⟩ .inOrder,
    .send 2 World.twos.bytes 16, .deliver .phone 2 ⟨0, fragmentPacket 1 World.twos.bytes 1⟩ .inOrder,
    .deliver .phone 1 ⟨0, fragmentPacket 1 World.ones.bytes 1⟩ .inOrder,
    .deliver .desktop 2 ⟨0, fragmentPacket 1 World.twos.bytes 1⟩ .inOrder,
    .deliver .desktop 2 ⟨0, parityPacket 16 1 World.twos.bytes 0⟩ .inOrder]

theorem handed_up_to_phone_and_desktop :
    (run step start twoSenders).handedUp .phone = [(1, World.ones.bytes)] ∧
      (run step start twoSenders).handedUp .desktop = [(2, World.twos.bytes)] ∧
      ∀ device src m, (src, m) ∈ (run step start twoSenders).handedUp device →
        m ∈ (run step start twoSenders).sends src := by
  obtain ⟨hphone, hdesktop, hunmixed⟩ :
      (run step start twoSenders).handedUp .phone = [(1, World.ones.bytes)] ∧
      (run step start twoSenders).handedUp .desktop = [(2, World.twos.bytes)] ∧
        Along step Unmixed start twoSenders := by
    decide +kernel
  exact ⟨hphone, hdesktop, handed_up_messages_were_sent twoSenders hunmixed⟩

def sameNumber : List (GroupEvent Nat) :=
  [.send 1 World.ones.bytes 16, .send 2 World.twos.bytes 16,
    .deliver .desktop 1 ⟨0, fragmentPacket 1 World.ones.bytes 0⟩ .inOrder,
    .deliver .desktop 2 ⟨0, fragmentPacket 1 World.twos.bytes 1⟩ .inOrder]

/-- The desktop joins the fragments of both and hands the result up as a message
of the second. -/
theorem desktop_joins_two_senders :
    (2, List.replicate 1200 1 ++ [2]) ∈ (run step start sameNumber).handedUp .desktop ∧
      List.replicate 1200 1 ++ [2] ∉ (run step start sameNumber).sends 2 := by
  decide +kernel

end GroupCall

end TriNet.Phone
