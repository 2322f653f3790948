import Mathlib.Data.List.Basic

namespace TriNet.Compute

def shaPad : UInt32 := 0x80000000

/-- Word `idx` of a padded SHA-256 message: the message itself, the pad marker
after it, the bit length in the last word and zeros between. -/
def paddedWord (message : List UInt32) (lastIdx bits idx : UInt32) : UInt32 :=
  match message[idx.toNat]? with
  | some word => word
  | none => if idx.toNat = message.length then shaPad else if idx = lastIdx then bits else 0

/-- A 256-bit value, as the eight words the specs pass it in. -/
@[ext]
structure Hash256 where
  w0 : UInt32
  w1 : UInt32
  w2 : UInt32
  w3 : UInt32
  w4 : UInt32
  w5 : UInt32
  w6 : UInt32
  w7 : UInt32
  deriving DecidableEq

def Hash256.words (h : Hash256) : List UInt32 := [h.w0, h.w1, h.w2, h.w3, h.w4, h.w5, h.w6, h.w7]

def tagReceipt : UInt32 := 0x54524350
def digestMsgBits : UInt32 := 288

def digestPre (idx requestId deviceId executor task inHash out epoch prevHead : UInt32) : UInt32 :=
  paddedWord [tagReceipt, requestId, deviceId, executor, task, inHash, out, epoch, prevHead]
    15 digestMsgBits idx

def tagLedger : UInt32 := 0x54524C47
def ledgerMsgBits : UInt32 := 608

def ledgerEntryPre (idx : UInt32) (ph d : Hash256) (balance epoch : UInt32) : UInt32 :=
  paddedWord (ph.words ++ d.words ++ [balance, epoch, tagLedger]) 31 ledgerMsgBits idx

def merkleMsgBits : UInt32 := 512

def merklePairPre (idx : UInt32) (l r : Hash256) : UInt32 :=
  paddedWord (l.words ++ r.words) 31 merkleMsgBits idx

def tagInput : UInt32 := 0x54524942

def inputDigestPre (idx requestId device executor task : UInt32) (oh : Hash256)
    (out epoch prevHead : UInt32) : UInt32 :=
  paddedWord ([tagInput, requestId, device, executor, task] ++ oh.words ++ [out, epoch, prevHead])
    31 merkleMsgBits idx

def tagBitnet : UInt32 := 0x54424E50
def bitnetMsgBits : UInt32 := 224

def bitnetDigestPre (idx weightCode actHash gfResult device executor epoch : UInt32) : UInt32 :=
  paddedWord [tagBitnet, weightCode, actHash, gfResult, device, executor, epoch] 15 bitnetMsgBits idx

def operandBits : UInt32 := 160

def operandPre (idx op aOff aMant bOff bMant : UInt32) : UInt32 :=
  paddedWord [op, aOff, aMant, bOff, bMant] 15 operandBits idx

inductive Preimage
  | receipt (requestId deviceId executor task inHash out epoch prevHead : UInt32)
  | ledgerEntry (ph d : Hash256) (balance epoch : UInt32)
  | merklePair (l r : Hash256)
  | inputDigest (requestId device executor task : UInt32) (oh : Hash256) (out epoch prevHead : UInt32)
  | bitnet (weightCode actHash gfResult device executor epoch : UInt32)
  | operands (op aOff aMant bOff bMant : UInt32)
  deriving DecidableEq

namespace Preimage

def pre (p : Preimage) (idx : UInt32) : UInt32 :=
  match p with
  | receipt requestId deviceId executor task inHash out epoch prevHead =>
      digestPre idx requestId deviceId executor task inHash out epoch prevHead
  | ledgerEntry ph d balance epoch => ledgerEntryPre idx ph d balance epoch
  | merklePair l r => merklePairPre idx l r
  | inputDigest requestId device executor task oh out epoch prevHead =>
      inputDigestPre idx requestId device executor task oh out epoch prevHead
  | bitnet weightCode actHash gfResult device executor epoch =>
      bitnetDigestPre idx weightCode actHash gfResult device executor epoch
  | operands op aOff aMant bOff bMant => operandPre idx op aOff aMant bOff bMant

def blocks : Preimage → Nat
  | receipt .. | bitnet .. | operands .. => 1
  | ledgerEntry .. | merklePair .. | inputDigest .. => 2

def padded (p : Preimage) : List UInt32 :=
  (List.range (16 * p.blocks)).map (fun idx => p.pre (UInt32.ofNat idx))

def message : Preimage → List UInt32
  | receipt requestId deviceId executor task inHash out epoch prevHead =>
      [tagReceipt, requestId, deviceId, executor, task, inHash, out, epoch, prevHead]
  | ledgerEntry ph d balance epoch => ph.words ++ d.words ++ [balance, epoch, tagLedger]
  | merklePair l r => l.words ++ r.words
  | inputDigest requestId device executor task oh out epoch prevHead =>
      [tagInput, requestId, device, executor, task] ++ oh.words ++ [out, epoch, prevHead]
  | bitnet weightCode actHash gfResult device executor epoch =>
      [tagBitnet, weightCode, actHash, gfResult, device, executor, epoch]
  | operands op aOff aMant bOff bMant => [op, aOff, aMant, bOff, bMant]

theorem padded_eq (p : Preimage) :
    p.padded = p.message ++ shaPad :: List.replicate (16 * p.blocks - p.message.length - 2) 0 ++
      [UInt32.ofNat (32 * p.message.length)] := by
  cases p <;> rfl

/-- The last word is the bit length, so it tells how much of the rest is message. -/
theorem padded_inj {p q : Preimage} : p.padded = q.padded ↔ p.message = q.message := by
  constructor
  · intro h
    have hbits := congrArg List.getLast? h
    rw [padded_eq, padded_eq, List.getLast?_concat, List.getLast?_concat, Option.some_inj] at hbits
    have hlen : p.message.length = q.message.length := by
      revert hbits
      cases p <;> cases q <;> simp [message, Hash256.words]
    have htake := congrArg (List.take p.message.length) h
    rw [padded_eq, padded_eq, List.append_assoc, List.append_assoc, List.take_left, hlen,
      List.take_left] at htake
    exact htake
  · intro h
    have hblocks : p.blocks = q.blocks := by
      have hlen := congrArg List.length h
      revert hlen
      cases p <;> cases q <;> simp [message, Hash256.words, blocks]
    rw [padded_eq, padded_eq, h, hblocks]

/-- A Merkle pair carries no tag and is as long as an input digest, so each of
the two may be read as the other. -/
def Ambiguous : Preimage → Prop
  | inputDigest .. => True
  | merklePair l _ => l.w0 = tagInput
  | _ => False

instance : DecidablePred Ambiguous
  | inputDigest .. => .isTrue trivial
  | merklePair l _ => inferInstanceAs (Decidable (l.w0 = tagInput))
  | receipt .. | ledgerEntry .. | bitnet .. | operands .. => .isFalse id

def twin : Preimage → Preimage
  | inputDigest requestId device executor task oh out epoch prevHead =>
      merklePair ⟨tagInput, requestId, device, executor, task, oh.w0, oh.w1, oh.w2⟩
        ⟨oh.w3, oh.w4, oh.w5, oh.w6, oh.w7, out, epoch, prevHead⟩
  | merklePair l r =>
      inputDigest l.w1 l.w2 l.w3 l.w4 ⟨l.w5, l.w6, l.w7, r.w0, r.w1, r.w2, r.w3, r.w4⟩ r.w5 r.w6 r.w7
  | p => p

theorem message_eq_iff {p q : Preimage} : p.message = q.message ↔ p = q ∨ p.Ambiguous ∧ q = p.twin := by
  -- the lengths tell the layouts apart, except for the two of sixteen words
  cases p <;> cases q <;> simp [message, Hash256.words, Ambiguous, twin, Hash256.ext_iff, and_assoc]
  case merklePair.inputDigest =>
    intro _
    constructor <;> (intro h; simp [h])
  case inputDigest.merklePair => constructor <;> (intro h; simp [h])

theorem twin_ne {p : Preimage} (h : p.Ambiguous) : p.twin ≠ p := by
  cases p with
  | inputDigest | merklePair => exact nofun
  | _ => exact h.elim

/-- A commitment stands for one layout with one tuple of fields exactly if it
is neither an input digest nor a Merkle pair that starts with its tag. -/
theorem commitments_separated_iff (p : Preimage) :
    ((∀ q, p.padded = q.padded → p = q) ∧
      ∀ {δ : Type} (hash : List UInt32 → δ), Function.Injective hash →
      ∀ q, hash p.padded = hash q.padded → p = q) ↔ ¬p.Ambiguous := by
  constructor
  · rintro ⟨hp, -⟩ hamb
    have heq := hp p.twin (padded_inj.mpr (message_eq_iff.mpr (.inr ⟨hamb, rfl⟩)))
    exact twin_ne hamb heq.symm
  · intro hamb
    have hp : ∀ q, p.padded = q.padded → p = q := by
      intro q h
      rcases message_eq_iff.mp (padded_inj.mp h) with heq | ⟨h, -⟩
      · exact heq
      · exact absurd h hamb
    exact ⟨hp, fun hash hinj q h => hp q (hinj h)⟩

/-- One message, two readings: the leaf of an input-bound receipt, and an inner
node of the tree it stands in. -/
theorem inputDigest_reads_as_merklePair :
    let digest := inputDigest 1 2 3 4 ⟨5, 6, 7, 8, 9, 10, 11, 12⟩ 13 14 15
    let pair := merklePair ⟨tagInput, 1, 2, 3, 4, 5, 6, 7⟩ ⟨8, 9, 10, 11, 12, 13, 14, 15⟩
    digest.padded = pair.padded ∧ digest ≠ pair := by
  decide

end Preimage

end TriNet.Compute
