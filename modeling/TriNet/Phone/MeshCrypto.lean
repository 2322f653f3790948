import TriNet.Lib.Recent
import TriNet.Lib.Symbolic
import Mathlib.Logic.Function.Basic

namespace TriNet.Phone

open Lib.BigEndian Lib.Recent Lib.Symbolic

variable {Sk Id ρ κ : Type}

/-- The sealing half of an endpoint. The nonces it has seen are those in the
ring. -/
structure Sealing (κ : Type) where
  sessionKey : Option κ
  nonceRing : List Bytes

namespace Sealing

def replayWindow : Nat := 8192

def acceptNonce (c : Sealing κ) (nonce : Bytes) : Option (Sealing κ) :=
  if nonce ∈ c.nonceRing then none else some { c with nonceRing := push replayWindow c.nonceRing nonce }

/-- Seal under the session key, with a nonce of the system's and no associated
data; the ciphertext is the cipher's. -/
def sealPlain (c : Sealing κ) (plain nonce ciphertext : Bytes) : Option (Encryption κ) :=
  c.sessionKey.map (fun key => ⟨key, nonce, [], plain, ciphertext⟩)

def unsealWire [DecidableEq κ] (made : List (Encryption κ)) (c : Sealing κ) (wire : Bytes) :
    Option (Sealing κ × Bytes) :=
  match c.sessionKey with
  | none => none
  | some key =>
      if wire.length < 28 then none
      else
        match decrypt made key (wire.take 12) [] (wire.drop 12) with
        | none => none
        | some plain => (c.acceptNonce (wire.take 12)).map (fun c => (c, plain))

end Sealing

/-- The primitives of the handshake. A room stands for the key the handshake
derives from it; `agree` is X25519 and the derivation of the session key from
the shared secret, and refuses what is not a public key. -/
structure Primitives (Sk Id ρ κ : Type) where
  ephPub : Sk → Bytes
  idPub : Id → Bytes
  mac : (room : ρ) → (pub : Bytes) → Bytes
  sign : Id → (pub : Bytes) → Bytes
  isValidSignature : (idPub sig pub : Bytes) → Bool
  agree : Sk → (pub : Bytes) → Option κ

/-- What an endpoint knows: its keys, the room, the identities it pinned to
addresses, and the session. -/
structure MeshCrypto (Sk Id ρ κ : Type) extends Sealing κ where
  ephPriv : Sk
  identityPriv : Id
  room : ρ
  pins : String → Option Bytes
  peerIdentity : Option Bytes
  mitmDetected : Bool

def handshakeMagic : Bytes := [0x54, 0x48]

/-- The handshake packet of an identity, an ephemeral key and a room. -/
def handshakeOf (C : Primitives Sk Id ρ κ) (identity : Id) (eph : Sk) (room : ρ) : Bytes :=
  handshakeMagic ++ C.ephPub eph ++ C.mac room (C.ephPub eph) ++ C.idPub identity ++
    C.sign identity (C.ephPub eph)

def isHandshake (d : Bytes) : Bool := d.length == 162 && d.take 2 == handshakeMagic

namespace MeshCrypto

def handshakePacket (C : Primitives Sk Id ρ κ) (c : MeshCrypto Sk Id ρ κ) : Bytes :=
  handshakeOf C c.identityPriv c.ephPriv c.room

def pin (c : MeshCrypto Sk Id ρ κ) (ip : String) (idPub : Bytes) : MeshCrypto Sk Id ρ κ :=
  { c with pins := Function.update c.pins ip (some idPub) }

/-- Trust on first use: an address without a pin is pinned to the identity. -/
def trust (c : MeshCrypto Sk Id ρ κ) (ip : String) (idPub : Bytes) : MeshCrypto Sk Id ρ κ :=
  if c.pins ip = none ∧ ip ≠ "" then c.pin ip idPub else c

def consumeHandshake (C : Primitives Sk Id ρ κ) (c : MeshCrypto Sk Id ρ κ) (d : Bytes)
    (peerIP : String) : MeshCrypto Sk Id ρ κ :=
  if isHandshake d then
    let pub := (d.drop 2).take 32
    let mac := (d.drop 34).take 32
    let idPub := (d.drop 66).take 32
    let sig := (d.drop 98).take 64
    if mac ≠ C.mac c.room pub then c
    else if C.isValidSignature idPub sig pub = false then c
    else if ∃ pinned ∈ c.pins peerIP, pinned ≠ idPub then { c with mitmDetected := true }
    else
      let c := { c.trust peerIP idPub with peerIdentity := some idPub }
      match C.agree c.ephPriv pub with
      | none => c
      | some key => { c with sessionKey := some key }
  else c

end MeshCrypto

end TriNet.Phone
