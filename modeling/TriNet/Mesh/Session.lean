import TriNet.Lib.Symbolic
import TriNet.Mesh.ReplayWindow

namespace TriNet.Mesh

open Lib.BigEndian Lib.Symbolic

variable {κ : Type}

inductive MeshError
  | auth
  | replay
  | shortFrame
  | rekeyRequired
  deriving DecidableEq

def ascii (s : String) : Bytes := s.toList.map (fun c => UInt8.ofNat c.toNat)

def hkdfSalt : Bytes := ascii "trios-mesh/v1/session"
def hkdfInfo : Bytes := ascii "aead-key"
def hkdfInfoRatchet : Bytes := ascii "aead-rekey"
def ratchetChain : Bytes := ascii "ratchet-chain"

def rekeyEveryFrames : Nat := 2 ^ 20
def rekeyHardCap : Nat := 2 ^ 24

/-- The cipher is its AEAD key. Counters and epochs are the values of the
source's 64- and 32-bit words. -/
structure Session (κ : Type) where
  cipher : κ
  chainKey : κ
  epoch : Nat
  txDir : UInt8
  txCounter : Nat
  rx : ReplayWindow
  deriving DecidableEq

def deriveCipher (H : Hkdf κ) (chain : κ) (info : Bytes) : κ := H.expand chain info

def makeNonce (dir : UInt8) (epoch ctr : Nat) : Bytes :=
  dir :: beBytes 4 epoch ++ (beBytes 8 ctr).drop 1

namespace Session

def fromShared (H : Hkdf κ) (shared : Bytes) (initiator : Bool) : Session κ :=
  let chain := H.expand (H.extract hkdfSalt shared) ratchetChain
  { cipher := deriveCipher H chain hkdfInfo
    chainKey := chain
    epoch := 0
    txDir := if initiator then 0 else 1
    txCounter := 0
    rx := .new }

def ratchet (H : Hkdf κ) (s : Session κ) : Session κ :=
  let nextChain := H.expand s.chainKey ratchetChain
  { s with
    cipher := deriveCipher H nextChain hkdfInfoRatchet
    chainKey := nextChain
    epoch := (s.epoch + 1) % 2 ^ 32
    txCounter := 0
    rx := .new }

/-- The session whose key and counter the next frame is sealed under. -/
def rekeyed (H : Hkdf κ) (s : Session κ) : Session κ :=
  if s.txCounter ≥ rekeyEveryFrames then s.ratchet H else s

def sealFrame (H : Hkdf κ) (encrypt : κ → Bytes → Bytes → Bytes → Bytes) (s : Session κ)
    (aad plaintext : Bytes) : Session κ × Except MeshError Bytes :=
  if s.txCounter ≥ rekeyHardCap then (s, .error .rekeyRequired)
  else
    let s := s.rekeyed H
    let nonce := makeNonce s.txDir s.epoch s.txCounter
    let ct := encrypt s.cipher nonce aad plaintext
    ({ s with txCounter := s.txCounter + 1 }, .ok (beBytes 4 s.epoch ++ beBytes 8 s.txCounter ++ ct))

def frameEpoch (frame : Bytes) : Nat := ofBe (frame.take 4)

def frameCounter (frame : Bytes) : Nat := ofBe ((frame.drop 4).take 8)

/-- The nonce under which the session opens a frame; the peer's direction is
the opposite of ours. -/
def rxNonce (s : Session κ) (frame : Bytes) : Bytes :=
  makeNonce (1 - s.txDir) (frameEpoch frame) (frameCounter frame)

def openFrame (decrypt : κ → Bytes → Bytes → Bytes → Option Bytes) (s : Session κ)
    (aad frame : Bytes) : Session κ × Except MeshError Bytes :=
  if frame.length < 12 then (s, .error .shortFrame)
  else
    match decrypt s.cipher (s.rxNonce frame) aad (frame.drop 12) with
    | none => (s, .error .auth)
    | some pt =>
        let (rx, fresh) := s.rx.checkAndSet (frameCounter frame)
        ({ s with rx }, if fresh then .ok pt else .error .replay)

end Session

def chainAt (H : Hkdf κ) (shared : Bytes) (turn : Nat) : κ :=
  H.chain ratchetChain (H.extract hkdfSalt shared) (turn + 1)

def keyAt (H : Hkdf κ) (shared : Bytes) : Nat → κ
  | 0 => deriveCipher H (chainAt H shared 0) hkdfInfo
  | turn + 1 => deriveCipher H (chainAt H shared (turn + 1)) hkdfInfoRatchet

theorem keyAt_inj {H : Hkdf κ} (hH : H.Injective) {shared : Bytes} {m n : Nat}
    (h : keyAt H shared m = keyAt H shared n) : m = n := by
  have hlabels : hkdfInfo ≠ hkdfInfoRatchet := by decide
  cases m with
  | zero =>
      cases n with
      | zero => rfl
      | succ n => exact absurd (hH.expand_inj h).2 hlabels
  | succ m =>
      cases n with
      | zero => exact absurd (hH.expand_inj h).2.symm hlabels
      | succ n => exact Nat.succ.inj (hH.chain_inj (hH.expand_inj h).1)

theorem makeNonce_eq (dir : UInt8) (epoch ctr : Nat) :
    makeNonce dir epoch ctr = dir :: (beBytes 4 epoch ++ beBytes 7 ctr) := rfl

theorem makeNonce_inj {d d' : UInt8} {e e' c c' : Nat} (h : makeNonce d e c = makeNonce d' e' c') :
    d = d' ∧ e % 2 ^ 32 = e' % 2 ^ 32 ∧ c % 2 ^ 56 = c' % 2 ^ 56 := by
  rw [makeNonce_eq, makeNonce_eq] at h
  obtain ⟨hd, htail⟩ := List.cons.inj h
  obtain ⟨he, hc⟩ := List.append_inj htail (by simp)
  have he' := congrArg ofBe he
  have hc' := congrArg ofBe hc
  rw [ofBe_beBytes, ofBe_beBytes] at he' hc'
  exact ⟨hd, he', hc'⟩

theorem rekeyed_txCounter_lt (H : Hkdf κ) (s : Session κ) :
    (s.rekeyed H).txCounter < rekeyEveryFrames := by
  rw [Session.rekeyed]
  split
  · simp [Session.ratchet, rekeyEveryFrames]
  · omega

theorem lt_rekeyHardCap {counter : Nat} (h : counter ≤ rekeyEveryFrames) : counter < rekeyHardCap :=
  h.trans_lt (Nat.pow_lt_pow_right (by omega) (by omega))

theorem sealFrame_of_lt (H : Hkdf κ) (encrypt : κ → Bytes → Bytes → Bytes → Bytes) (s : Session κ)
    (h : s.txCounter < rekeyHardCap) (aad plaintext : Bytes) :
    s.sealFrame H encrypt aad plaintext =
      ({ s.rekeyed H with txCounter := (s.rekeyed H).txCounter + 1 },
        .ok (beBytes 4 (s.rekeyed H).epoch ++ beBytes 8 (s.rekeyed H).txCounter ++
          encrypt (s.rekeyed H).cipher
            (makeNonce (s.rekeyed H).txDir (s.rekeyed H).epoch (s.rekeyed H).txCounter)
              aad plaintext)) := by
  simp only [Session.sealFrame, ge_iff_le, not_le.mpr h, if_false]

theorem openFrame_ok {decrypt : κ → Bytes → Bytes → Bytes → Option Bytes} {s : Session κ}
    {aad frame pt : Bytes} (h : (s.openFrame decrypt aad frame).2 = .ok pt) :
    12 ≤ frame.length ∧ decrypt s.cipher (s.rxNonce frame) aad (frame.drop 12) = some pt ∧
      (s.rx.checkAndSet (Session.frameCounter frame)).2 = true := by
  rw [Session.openFrame] at h
  split at h
  · cases h
  · next hlen =>
      split at h
      · cases h
      · next p hp =>
          dsimp only at h
          split at h
          · next hf =>
              cases h
              exact ⟨by omega, hp, hf⟩
          · cases h

end TriNet.Mesh
