import TriNet.Phone.SealedSession

namespace TriNet.Phone

open Lib.BigEndian Lib.Runs

variable {Sk Id ρ κ : Type}

/-- Ideal primitives: fixed sizes, signatures that verify, and shared secrets
that tell which two keys they come from. -/
structure Primitives.Ideal (C : Primitives Sk Id ρ κ) : Prop where
  length_ephPub : ∀ eph, (C.ephPub eph).length = 32
  length_mac : ∀ room pub, (C.mac room pub).length = 32
  length_idPub : ∀ identity, (C.idPub identity).length = 32
  length_sign : ∀ identity pub, (C.sign identity pub).length = 64
  valid_sign : ∀ identity pub, C.isValidSignature (C.idPub identity) (C.sign identity pub) pub = true
  agree_some : ∀ eph eph', ∃ key, C.agree eph (C.ephPub eph') = some key
  agree_inj : ∀ {a x b y}, C.agree a (C.ephPub x) = C.agree b (C.ephPub y) →
    (C.ephPub a = C.ephPub b ∧ C.ephPub x = C.ephPub y) ∨
      (C.ephPub a = C.ephPub y ∧ C.ephPub x = C.ephPub b)

structure Made (Sk ρ : Type) where
  side : Side
  eph : Sk
  room : ρ

/-- Two endpoints, each with the device identity it had in earlier sessions. -/
abbrev Ends (Sk Id ρ κ : Type) := Side → MeshCrypto Sk Id ρ κ

/-- The attacker gives an endpoint a packet, with a source address of its
choice. -/
structure Delivery where
  target : Side
  ip : String
  packet : Bytes

namespace Ends

variable (C : Primitives Sk Id ρ κ) (past : List (Made Sk ρ)) (W : Ends Sk Id ρ κ)

def current (side : Side) : Made Sk ρ := ⟨side, (W side).ephPriv, (W side).room⟩

def recorded : List (Made Sk ρ) := past ++ [current W .a, current W .b]

def packetOf (m : Made Sk ρ) : Bytes := handshakeOf C (W m.side).identityPriv m.eph m.room

/-- The attacker has the recorded packets only. The endpoint answers with its own
packet, which is among them. -/
def step (e : Delivery) : Ends Sk Id ρ κ :=
  if e.packet ∈ (recorded past W).map (packetOf C W) then
    Function.update W e.target ((W e.target).consumeHandshake C e.packet e.ip)
  else W

/-- Both endpoints hold one session key, installed from handshakes of theirs;
no ephemeral key was drawn by both of them. -/
structure Established : Prop where
  fresh : ∀ m ∈ recorded past W, ∀ m' ∈ recorded past W, C.ephPub m.eph = C.ephPub m'.eph →
    m.side = m'.side
  installed : ∀ side, ∃ m ∈ recorded past W,
    (W side).sessionKey = C.agree (W side).ephPriv (C.ephPub m.eph)
  equal : (W .a).sessionKey = (W .b).sessionKey

def Kept (W₀ W : Ends Sk Id ρ κ) : Prop :=
  ∀ side, (W side).sessionKey = (W₀ side).sessionKey ∧
    ∀ ip, (W side).pins ip = (W₀ side).pins ip ∨
      (W side).pins ip = some (C.idPub (W₀ side.other).identityPriv)

/-- A packet with the code of another room, or from an address that is pinned
to another identity. -/
def Refuses (c : MeshCrypto Sk Id ρ κ) (packet : Bytes) (ip : String) : Prop :=
  (packet.drop 34).take 32 ≠ C.mac c.room ((packet.drop 2).take 32) ∨
    ∃ pinned ∈ c.pins ip, pinned ≠ (packet.drop 66).take 32

instance (c : MeshCrypto Sk Id ρ κ) (packet : Bytes) (ip : String) : Decidable (Refuses C c packet ip) :=
  inferInstanceAs (Decidable (_ ∨ _))

/-- A recorded packet carries the ephemeral key of the peer's present session,
or will be refused. -/
def Harmless (e : Delivery) : Prop :=
  e.packet ∈ (recorded past W).map (packetOf C W) →
    (e.packet.drop 2).take 32 = C.ephPub (W e.target.other).ephPriv ∨ Refuses C (W e.target) e.packet e.ip

instance (e : Delivery) : Decidable (Harmless C past W e) := inferInstanceAs (Decidable (_ → _))

variable {C past W}

theorem take_drop_append {n : Nat} {p f q : Bytes} {k : Nat} (hp : p.length = n)
    (hf : f.length = k) : ((p ++ f ++ q).drop n).take k = f := by
  subst hp
  subst hf
  simp

section

variable (hC : C.Ideal)

include hC in
theorem fields_handshakeOf (identity : Id) (eph : Sk) (room : ρ) :
    isHandshake (handshakeOf C identity eph room) = true ∧
      ((handshakeOf C identity eph room).drop 2).take 32 = C.ephPub eph ∧
      ((handshakeOf C identity eph room).drop 34).take 32 = C.mac room (C.ephPub eph) ∧
      ((handshakeOf C identity eph room).drop 66).take 32 = C.idPub identity ∧
      ((handshakeOf C identity eph room).drop 98).take 64 = C.sign identity (C.ephPub eph) := by
  have h₁ := hC.length_ephPub eph
  have h₂ := hC.length_mac room (C.ephPub eph)
  have h₃ := hC.length_idPub identity
  have h₄ := hC.length_sign identity (C.ephPub eph)
  have hm : handshakeMagic.length = 2 := rfl
  refine ⟨?_, ?_, ?_, ?_, ?_⟩
  · simp [isHandshake, handshakeOf, h₁, h₂, h₃, h₄, handshakeMagic]
  · rw [handshakeOf, List.append_assoc _ _ (C.sign _ _), List.append_assoc _ _ (C.idPub _ ++ _)]
    exact take_drop_append hm h₁
  · rw [handshakeOf, List.append_assoc _ _ (C.sign _ _)]
    exact take_drop_append (by simp [hm, h₁]) h₂
  · rw [handshakeOf]
    exact take_drop_append (by simp [hm, h₁, h₂]) h₃
  · rw [handshakeOf]
    rw [← List.append_nil (_ ++ C.sign _ _)]
    exact take_drop_append (by simp [hm, h₁, h₂, h₃]) h₄

theorem pins_trust (c : MeshCrypto Sk Id ρ κ) (ip ip' : String) (idPub : Bytes) :
    (c.trust ip idPub).pins ip' = c.pins ip' ∨ (c.trust ip idPub).pins ip' = some idPub := by
  rw [MeshCrypto.trust]
  split
  · by_cases hip : ip' = ip
    · exact Or.inr (by simp [MeshCrypto.pin, hip])
    · exact Or.inl (by simp [MeshCrypto.pin, hip])
  · exact Or.inl rfl

theorem trust_keeps (c : MeshCrypto Sk Id ρ κ) (ip : String) (idPub : Bytes) :
    (c.trust ip idPub).ephPriv = c.ephPriv ∧ (c.trust ip idPub).identityPriv = c.identityPriv ∧
      (c.trust ip idPub).room = c.room := by
  rw [MeshCrypto.trust]
  split <;> exact ⟨rfl, rfl, rfl⟩

theorem consumeHandshake_keeps (c : MeshCrypto Sk Id ρ κ) (d : Bytes) (ip : String) :
    (c.consumeHandshake C d ip).ephPriv = c.ephPriv ∧
      (c.consumeHandshake C d ip).identityPriv = c.identityPriv ∧
      (c.consumeHandshake C d ip).room = c.room := by
  rw [MeshCrypto.consumeHandshake]
  dsimp only
  split
  · split
    · exact ⟨rfl, rfl, rfl⟩
    · split
      · exact ⟨rfl, rfl, rfl⟩
      · split
        · exact ⟨rfl, rfl, rfl⟩
        · split <;> exact trust_keeps c ip _
  · exact ⟨rfl, rfl, rfl⟩

section

variable (c : MeshCrypto Sk Id ρ κ) {identity : Id} {eph : Sk} {room : ρ} {ip : String}

include hC in
theorem consumeHandshake_of_refuses (h : Refuses C c (handshakeOf C identity eph room) ip) :
    (c.consumeHandshake C (handshakeOf C identity eph room) ip).sessionKey = c.sessionKey ∧
      (c.consumeHandshake C (handshakeOf C identity eph room) ip).pins = c.pins := by
  obtain ⟨his, hpub, hmac, hid, hsig⟩ := fields_handshakeOf hC identity eph room
  rw [Refuses, hpub, hmac, hid] at h
  simp only [MeshCrypto.consumeHandshake, his, hpub, hmac, hid, hsig, hC.valid_sign, if_true]
  split
  · exact ⟨rfl, rfl⟩
  · next hroom =>
      simp only [Bool.true_eq_false, if_false]
      rw [if_pos (h.resolve_left hroom)]
      exact ⟨rfl, rfl⟩

include hC in
theorem consumeHandshake_of_not_refuses (h : ¬Refuses C c (handshakeOf C identity eph room) ip) :
    (c.consumeHandshake C (handshakeOf C identity eph room) ip).sessionKey =
      C.agree c.ephPriv (C.ephPub eph) ∧
      ∀ ip', (c.consumeHandshake C (handshakeOf C identity eph room) ip).pins ip' = c.pins ip' ∨
        (c.consumeHandshake C (handshakeOf C identity eph room) ip).pins ip' =
          some (C.idPub identity) := by
  obtain ⟨his, hpub, hmac, hid, hsig⟩ := fields_handshakeOf hC identity eph room
  rw [Refuses, hpub, hmac, hid, not_or] at h
  obtain ⟨key, hkey⟩ := hC.agree_some c.ephPriv eph
  simp only [MeshCrypto.consumeHandshake, his, hpub, hmac, hid, hsig, hC.valid_sign, if_true]
  rw [if_neg h.1]
  simp only [Bool.true_eq_false, if_false]
  rw [if_neg h.2, (trust_keeps c ip _).1, hkey]
  exact ⟨rfl, fun ip' => pins_trust c ip ip' _⟩

end

def Same (W₀ W : Ends Sk Id ρ κ) : Prop :=
  ∀ side, (W side).ephPriv = (W₀ side).ephPriv ∧ (W side).identityPriv = (W₀ side).identityPriv ∧
    (W side).room = (W₀ side).room

variable {W₀ : Ends Sk Id ρ κ}

theorem same_step (h : Same W₀ W) (e : Delivery) : Same W₀ (step C past W e) := by
  rw [step]
  split
  · refine (Function.forall_update_iff W (fun side c => c.ephPriv = (W₀ side).ephPriv ∧
      c.identityPriv = (W₀ side).identityPriv ∧ c.room = (W₀ side).room)).mpr ⟨?_, fun side _ => h side⟩
    obtain ⟨heph, hid, hroom⟩ := consumeHandshake_keeps (C := C) (W e.target) e.packet e.ip
    rw [heph, hid, hroom]
    exact h e.target
  · exact h

theorem mem_recorded (side : Side) : current W side ∈ recorded past W := by
  cases side <;> simp [recorded]

theorem Established.ephPub_ne (h : Established C past W) (side : Side) :
    C.ephPub (W side).ephPriv ≠ C.ephPub (W side.other).ephPriv := by
  intro heq
  have hside := h.fresh (current W side) (mem_recorded side) (current W side.other)
    (mem_recorded side.other) heq
  cases side <;> cases hside

include hC in
theorem Established.sessionKey (h : Established C past W) (side : Side) :
    (W side).sessionKey = C.agree (W side).ephPriv (C.ephPub (W side.other).ephPriv) := by
  obtain ⟨x, _, hx⟩ := h.installed .a
  obtain ⟨y, _, hy⟩ := h.installed .b
  have hkeys := h.equal
  rw [hx, hy] at hkeys
  rcases hC.agree_inj hkeys with ⟨hsame, _⟩ | ⟨hay, hxb⟩
  · exact absurd hsame (h.ephPub_ne .a)
  · cases side with
    | a => rw [hx, hxb]; rfl
    | b => rw [hy, ← hay]; rfl

theorem Same.established (hsame : Same W₀ W) (h₀ : Established C past W₀) (hkept : Kept C W₀ W) :
    Established C past W := by
  have hrec : recorded past W = recorded past W₀ := by
    simp only [recorded, current, (hsame .a).1, (hsame .a).2.2, (hsame .b).1, (hsame .b).2.2]
  refine ⟨hrec ▸ h₀.fresh, ?_, ?_⟩
  · intro side
    rw [hrec, (hkept side).1, (hsame side).1]
    exact h₀.installed side
  · rw [(hkept .a).1, (hkept .b).1]
    exact h₀.equal

theorem kept_update_iff (hkept : Kept C W₀ W) (side : Side) (c : MeshCrypto Sk Id ρ κ) :
    Kept C W₀ (Function.update W side c) ↔
      c.sessionKey = (W side).sessionKey ∧
        ∀ ip, c.pins ip = (W₀ side).pins ip ∨ c.pins ip = some (C.idPub (W₀ side.other).identityPriv) := by
  rw [(hkept side).1]
  refine (Function.forall_update_iff W (fun side c => c.sessionKey = (W₀ side).sessionKey ∧
    ∀ ip, c.pins ip = (W₀ side).pins ip ∨
      c.pins ip = some (C.idPub (W₀ side.other).identityPriv))).trans ?_
  exact and_iff_left (fun side' _ => hkept side')

include hC in
theorem kept_step_iff (h₀ : Established C past W₀) (hsame : Same W₀ W) (hkept : Kept C W₀ W)
    (e : Delivery) : Kept C W₀ (step C past W e) ↔ Harmless C past W e := by
  have h := hsame.established h₀ hkept
  rw [step, Harmless]
  split
  case isFalse hmem => exact iff_of_true hkept (fun hin => absurd hin hmem)
  case isTrue hmem =>
    obtain ⟨m, hm, hpkt⟩ := List.mem_map.mp hmem
    have hpub := (fields_handshakeOf hC (W m.side).identityPriv m.eph m.room).2.1
    rw [kept_update_iff hkept, forall_prop_of_true hmem, ← hpkt, packetOf, hpub]
    by_cases href : Refuses C (W e.target) (handshakeOf C (W m.side).identityPriv m.eph m.room) e.ip
    · obtain ⟨hkey, hpins⟩ := consumeHandshake_of_refuses hC (W e.target) href
      rw [hkey, hpins]
      exact iff_of_true ⟨rfl, (hkept e.target).2⟩ (Or.inr href)
    · obtain ⟨hkey, hpins⟩ := consumeHandshake_of_not_refuses hC (W e.target) href
      rw [hkey, h.sessionKey hC e.target, or_iff_left href]
      constructor
      · rintro ⟨hagree, -⟩
        rcases hC.agree_inj hagree with ⟨-, hpeer⟩ | ⟨hown, -⟩
        · exact hpeer
        · exact absurd hown (h.ephPub_ne e.target)
      · intro hpeer
        refine ⟨by rw [hpeer], fun ip => ?_⟩
        have hside : m.side = e.target.other :=
          h.fresh m hm (current W e.target.other) (mem_recorded _) hpeer
        rcases hpins ip with hold | hnew
        · rw [hold]
          exact (hkept e.target).2 ip
        · right
          rw [hnew, hside, (hsame e.target.other).2.1]

end

/-- The session keys stay, and only the peer is pinned, exactly while every
packet delivered carries the peer's present ephemeral key or is refused. -/
theorem session_keys_kept_iff (hC : C.Ideal) (h₀ : Established C past W₀) (es : List Delivery) :
    (∀ fs, fs <+: es → Kept C W₀ (run (step C past) W₀ fs)) ↔
      Along (step C past) (Harmless C past) W₀ es := by
  refine forall_prefix_iff_along (step C past) (Harmless C past) (Same W₀) (Kept C W₀)
    (fun W e h => same_step h e) (fun W e hsame hkept => kept_step_iff hC h₀ hsame hkept e) W₀ es ?_ ?_
  · exact fun side => ⟨rfl, rfl, rfl⟩
  · exact fun side => ⟨rfl, fun ip => Or.inl rfl⟩

/-- Primitives over four ephemeral keys: a shared secret is the pair of keys. -/
def pairing : Primitives (Fin 4) (Fin 2) Bool (Fin 4 × Fin 4) where
  ephPub eph := UInt8.ofNat eph :: List.replicate 31 0
  idPub identity := UInt8.ofNat identity :: List.replicate 31 0
  mac room pub := (cond room 1 0 :: pub ++ List.replicate 32 0).take 32
  sign identity pub := (UInt8.ofNat identity :: pub ++ List.replicate 64 0).take 64
  isValidSignature idPub sig pub := sig == (idPub.headD 0 :: pub ++ List.replicate 64 0).take 64
  agree eph pub :=
    let eph' := Fin.ofNat 4 (pub.headD 0).toNat
    some (if eph ≤ eph' then (eph, eph') else (eph', eph))

theorem ideal_pairing : pairing.Ideal where
  length_ephPub eph := by simp [pairing]
  length_mac room pub := by simp [pairing]
  length_idPub identity := by simp [pairing]
  length_sign identity pub := by simp [pairing]
  valid_sign identity pub := by simp [pairing]
  agree_some eph eph' := ⟨_, rfl⟩
  agree_inj {a x b y} := by revert a x b y; decide +kernel

/-- Two endpoints in a call; `a` has pinned the address of `b`. -/
def inCall : Ends (Fin 4) (Fin 2) Bool (Fin 4 × Fin 4)
  | .a => ⟨⟨some (0, 1), []⟩, 0, 0, false, fun ip => if ip = "10.0.0.2" then some (pairing.idPub 1)
      else none, some (pairing.idPub 1), false⟩
  | .b => ⟨⟨some (0, 1), []⟩, 1, 1, false, fun _ => none, some (pairing.idPub 0), false⟩

/-- Earlier handshakes of `b`: one in the same room, one in another. -/
def earlier : List (Made (Fin 4) Bool) := [⟨.b, 2, false⟩, ⟨.b, 3, true⟩]

theorem established_inCall : Established pairing earlier inCall where
  fresh := by decide +kernel
  installed side := ⟨current inCall side.other, mem_recorded side.other, by cases side <;> decide +kernel⟩
  equal := rfl

/-- The peer's packet from a new address, the own one back from the peer's
address, and one of another room. -/
theorem session_keys_kept_in_call :
    pairing.Ideal ∧ Established pairing earlier inCall ∧
      ∀ fs, fs <+: [⟨.a, "10.0.0.9", (inCall .b).handshakePacket pairing⟩,
          ⟨.a, "10.0.0.2", (inCall .a).handshakePacket pairing⟩,
          ⟨.a, "10.0.0.2", packetOf pairing inCall ⟨.b, 3, true⟩⟩] →
        Kept pairing inCall (run (step pairing earlier) inCall fs) :=
  ⟨ideal_pairing, established_inCall,
    (session_keys_kept_iff ideal_pairing established_inCall _).mpr (by decide +kernel)⟩

/-- A handshake of an earlier call replaces the session key, and the own one
reflected from a new address is pinned there. -/
theorem old_handshake_replaces_key :
    pairing.Ideal ∧ Established pairing earlier inCall ∧ (inCall .a).sessionKey = some (0, 1) ∧
      (step pairing earlier inCall ⟨.a, "10.0.0.2",
        packetOf pairing inCall ⟨.b, 2, false⟩⟩ .a).sessionKey = some (0, 2) ∧
      (step pairing earlier inCall ⟨.a, "10.0.0.9", (inCall .a).handshakePacket pairing⟩ .a).pins
        "10.0.0.9" =
        some (pairing.idPub (inCall .a).identityPriv) ∧
      pairing.idPub (inCall .a).identityPriv ≠ pairing.idPub (inCall .b).identityPriv :=
  ⟨ideal_pairing, established_inCall, by decide +kernel⟩

end Ends

end TriNet.Phone
