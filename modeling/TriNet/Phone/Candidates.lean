import Mathlib.Data.Rat.Floor
import Mathlib.Tactic.Linarith
import TriNet.Lib.Reading
import TriNet.Lib.Slices
import TriNet.Lib.Symbolic
import TriNet.Phone.Foundation

namespace TriNet.Phone

open CallApi Lib Lib.BigEndian Lib.Reading Lib.Slices Lib.Symbolic

namespace HolePunch

inductive Kind where
  | host
  | srflx
deriving DecidableEq, Repr

def Kind.rawValue : Kind → Nat
  | host => 126
  | srflx => 100

/-- `Kind(rawValue:)` -/
def Kind.ofRawValue (n : Nat) : Option Kind :=
  if n = 126 then some .host else if n = 100 then some .srflx else none

structure Candidate where
  ip : String
  port : UInt16
  kind : Kind
deriving DecidableEq, Repr

end HolePunch

namespace Ice

open HolePunch

/-- `UInt8(_:)` of a number, which traps where it does not fit. -/
def byte (n : Nat) : Option UInt8 := if n ≤ 255 then some (UInt8.ofNat n) else none

def encodeCandidate (c : Candidate) : Option Bytes := do
  let ip := utf8 c.ip
  let kind ← byte c.kind.rawValue
  let high ← byte (c.port.toNat >>> 8)
  let low ← byte (c.port.toNat &&& 0xFF)
  let ipLen ← byte ip.length
  return [kind, high, low, ipLen] ++ ip

def encode (cands : List Candidate) : Option Bytes := do
  let high ← byte (cands.length >>> 8)
  let low ← byte (cands.length &&& 0xFF)
  let records ← cands.mapM encodeCandidate
  return [high, low] ++ records.flatten

def readCandidate : Reader Candidate := do
  let kind ← lift (Kind.ofRawValue (← uint 1))
  let port ← uint 2
  let ipLen ← uint 1
  let ip ← lift (decodeUtf8 (← take ipLen))
  return ⟨ip, UInt16.ofNat port, kind⟩

def readCandidates : Nat → Reader (List Candidate)
  | 0 => return []
  | count + 1 => do
      let c ← readCandidate
      return c :: (← readCandidates count)

def readList : Reader (List Candidate) := do
  let count ← uint 2
  let out ← readCandidates count
  require (out.length == count)
  return out

def decode (data : Bytes) : Option (List Candidate) := (readList data).map Prod.fst

end Ice

section Wire

open HolePunch Ice

variable {bs rest : Bytes} {c : Candidate} {cands : List Candidate}

def candidateBytes (c : Candidate) : Bytes :=
  beBytes 1 c.kind.rawValue ++ (beBytes 2 c.port.toNat ++ (beBytes 1 (utf8 c.ip).length ++ utf8 c.ip))

theorem pair_eq_beBytes (n : Nat) : [UInt8.ofNat (n >>> 8), UInt8.ofNat (n &&& 0xFF)] = beBytes 2 n := by
  have hlow : n &&& 0xFF = n % 256 := Nat.and_two_pow_sub_one_eq_mod n 8
  have hbyte : UInt8.ofNat (n % 256) = UInt8.ofNat n := by
    apply UInt8.toNat_inj.mp
    rw [UInt8.toNat_ofNat', UInt8.toNat_ofNat', Nat.mod_mod]
  rw [hlow, hbyte, Nat.shiftRight_eq_div_pow, beBytes, beBytes, beBytes, pow_one, pow_zero, Nat.div_one]

theorem encodeCandidate_eq (c : Candidate) :
    encodeCandidate c = if (utf8 c.ip).length ≤ 255 then some (candidateBytes c) else none := by
  have hlt := c.port.toNat_lt
  have hkind : byte c.kind.rawValue = some (UInt8.ofNat c.kind.rawValue) :=
    if_pos (by cases c.kind <;> decide)
  have hhigh : byte (c.port.toNat >>> 8) = some (UInt8.ofNat (c.port.toNat >>> 8)) := by
    apply if_pos
    rw [Nat.shiftRight_eq_div_pow]
    omega
  have hlow : byte (c.port.toNat &&& 0xFF) = some (UInt8.ofNat (c.port.toNat &&& 0xFF)) :=
    if_pos Nat.and_le_right
  rw [encodeCandidate, hkind, hhigh, hlow, candidateBytes, ← pair_eq_beBytes, beBytes, beBytes,
    beBytes, pow_zero, Nat.div_one, Nat.div_one]
  by_cases hip : (utf8 c.ip).length ≤ 255
  · rw [byte, if_pos hip, if_pos hip]
    rfl
  · rw [byte, if_neg hip, if_neg hip]
    rfl

theorem mapM_encodeCandidate (cands : List Candidate) :
    cands.mapM encodeCandidate =
      if ∀ c ∈ cands, (utf8 c.ip).length ≤ 255 then some (cands.map candidateBytes) else none := by
  induction cands with
  | nil => rfl
  | cons c cands ih =>
      rw [List.mapM_cons, ih, encodeCandidate_eq]
      simp only [List.forall_mem_cons]
      by_cases hc : (utf8 c.ip).length ≤ 255
      · by_cases hrest : ∀ c ∈ cands, (utf8 c.ip).length ≤ 255
        · rw [if_pos hc, if_pos hrest, if_pos ⟨hc, hrest⟩]
          rfl
        · rw [if_pos hc, if_neg hrest, if_neg (not_and_of_not_right _ hrest)]
          rfl
      · rw [if_neg hc, if_neg (not_and_of_not_left _ hc)]
        rfl

theorem encode_eq (cands : List Candidate) :
    encode cands = if cands.length ≤ 65535 ∧ ∀ c ∈ cands, (utf8 c.ip).length ≤ 255 then
      some (beBytes 2 cands.length ++ cands.flatMap candidateBytes) else none := by
  have hlow : byte (cands.length &&& 0xFF) = some (UInt8.ofNat (cands.length &&& 0xFF)) :=
    if_pos Nat.and_le_right
  have hiff : cands.length >>> 8 ≤ 255 ↔ cands.length ≤ 65535 := by
    rw [Nat.shiftRight_eq_div_pow]
    omega
  rw [encode, hlow, mapM_encodeCandidate, ← pair_eq_beBytes, byte]
  by_cases hcount : cands.length ≤ 65535
  · by_cases hips : ∀ c ∈ cands, (utf8 c.ip).length ≤ 255
    · rw [if_pos (hiff.mpr hcount), if_pos hips, if_pos ⟨hcount, hips⟩, List.flatMap_def]
      rfl
    · rw [if_pos (hiff.mpr hcount), if_neg hips, if_neg (not_and_of_not_right _ hips)]
      rfl
  · rw [if_neg (mt hiff.mp hcount), if_neg (not_and_of_not_left _ hcount)]
    rfl

theorem ofRawValue_eq_some {n : Nat} {kind : Kind} :
    Kind.ofRawValue n = some kind ↔ n = kind.rawValue := by
  cases kind <;> rw [Kind.ofRawValue] <;> split_ifs <;> simp_all [Kind.rawValue]

theorem reads_readCandidate (h : (utf8 c.ip).length ≤ 255) : Reads readCandidate c (candidateBytes c) := by
  have hkind : c.kind.rawValue < 256 ^ 1 := by cases c.kind <;> decide
  apply (reads_uint hkind).bind
  apply (reads_lift (ofRawValue_eq_some.mpr rfl)).bind
  apply (reads_uint c.port.toNat_lt).bind
  apply (reads_uint (show (utf8 c.ip).length < 256 ^ 1 by omega)).bind
  apply (reads_take rfl).bind_nil
  apply (reads_lift (decodeUtf8_utf8 c.ip)).bind_nil
  rw [UInt16.ofNat_toNat]
  exact reads_pure c

theorem readCandidate_eq_some (h : readCandidate bs = some (c, rest)) :
    (utf8 c.ip).length ≤ 255 ∧ bs = candidateBytes c ++ rest := by
  obtain ⟨raw, afterRaw, hraw, h⟩ := bind_eq_some.mp h
  obtain ⟨kind, afterKind, hkind, h⟩ := bind_eq_some.mp h
  obtain ⟨port, afterPort, hport, h⟩ := bind_eq_some.mp h
  obtain ⟨ipLen, afterLen, hipLen, h⟩ := bind_eq_some.mp h
  obtain ⟨bytes, afterBytes, hbytes, h⟩ := bind_eq_some.mp h
  obtain ⟨ip, afterIp, hip, h⟩ := bind_eq_some.mp h
  obtain ⟨-, rfl⟩ := uint_eq_some hraw
  obtain ⟨hknown, rfl⟩ := lift_eq_some hkind
  obtain ⟨hportlt, rfl⟩ := uint_eq_some hport
  obtain ⟨hlenlt, rfl⟩ := uint_eq_some hipLen
  obtain ⟨hlen, rfl⟩ := take_eq_some hbytes
  obtain ⟨htext, rfl⟩ := lift_eq_some hip
  cases h
  have hutf8 := utf8_of_decodeUtf8 htext
  have hword : (UInt16.ofNat port).toNat = port := UInt16.toNat_ofNat_of_lt' hportlt
  simp only [candidateBytes, hutf8, hlen, hword, ← ofRawValue_eq_some.mp hknown,
    List.append_assoc, and_true]
  omega

theorem reads_readCandidates (h : ∀ c ∈ cands, (utf8 c.ip).length ≤ 255) :
    Reads (readCandidates cands.length) cands (cands.flatMap candidateBytes) := by
  induction cands with
  | nil => exact reads_pure []
  | cons c cands ih =>
      rw [List.forall_mem_cons] at h
      apply (reads_readCandidate h.1).bind
      apply (ih h.2).bind_nil
      exact reads_pure _

theorem readCandidates_eq_some {count : Nat} (h : readCandidates count bs = some (cands, rest)) :
    cands.length = count ∧ (∀ c ∈ cands, (utf8 c.ip).length ≤ 255) ∧
      bs = cands.flatMap candidateBytes ++ rest := by
  induction count generalizing bs cands with
  | zero =>
      cases h
      exact ⟨rfl, by simp, rfl⟩
  | succ count ih =>
      obtain ⟨c, mid, hc, h⟩ := bind_eq_some.mp h
      obtain ⟨more, afterMore, hmore, h⟩ := bind_eq_some.mp h
      cases h
      obtain ⟨hip, rfl⟩ := readCandidate_eq_some hc
      obtain ⟨hlen, hips, rfl⟩ := ih hmore
      refine ⟨by rw [List.length_cons, hlen], List.forall_mem_cons.mpr ⟨hip, hips⟩, ?_⟩
      rw [List.flatMap_cons, List.append_assoc]

theorem decode_encode_append (h : encode cands = some bs) (more : Bytes) :
    decode (bs ++ more) = some cands := by
  rw [encode_eq] at h
  split at h
  · next hfits =>
      cases h
      have hcount : cands.length < 256 ^ 2 := by
        have := hfits.1
        omega
      have hreads : Reads readList cands (beBytes 2 cands.length ++ cands.flatMap candidateBytes) := by
        apply (reads_uint hcount).bind
        apply (reads_readCandidates hfits.2).bind_nil
        exact (reads_require (beq_self_eq_true _)).bind_nil (reads_pure cands)
      rw [decode, hreads]
      rfl
  · cases h

theorem encode_of_decode (h : decode bs = some cands) :
    ∃ encoded, encode cands = some encoded ∧ encoded <+: bs := by
  rw [decode, Option.map_eq_some_iff] at h
  obtain ⟨⟨out, rest⟩, h, rfl⟩ := h
  obtain ⟨count, afterCount, hcount, h⟩ := bind_eq_some.mp h
  obtain ⟨out', afterOut, hout, h⟩ := bind_eq_some.mp h
  obtain ⟨u, afterCheck, hcheck, h⟩ := bind_eq_some.mp h
  cases h
  obtain ⟨hlt, rfl⟩ := uint_eq_some hcount
  obtain ⟨hlen, hips, rfl⟩ := readCandidates_eq_some hout
  obtain ⟨-, rfl⟩ := lift_eq_some hcheck
  have hfits : out.length ≤ 65535 := by omega
  refine ⟨_, by rw [encode_eq, if_pos ⟨hfits, hips⟩], ?_⟩
  rw [hlen, ← List.append_assoc]
  exact List.prefix_append _ _

end Wire

/-- HKDF over SHA-256 and ChaCha20-Poly1305, and the key the rooms are derived
from; a ciphertext comes with its tag behind it. -/
structure OfferSuite (κ : Type) where
  psk : κ
  deriveKey : (inputKeyMaterial : κ) → (salt info : Bytes) → κ
  cipher : Aead κ
  length_encrypt : ∀ key nonce aad plaintext, (cipher.encrypt key nonce aad plaintext).length =
    plaintext.length + 16

def inviteAuthKey {κ : Type} (S : OfferSuite κ) (room : String) : κ :=
  S.deriveKey S.psk
    (utf8 (if room.isEmpty then "trios-mesh/v1/invite" else "trios-mesh/v1/invite/" ++ room))
    (utf8 "invite-auth")

/-- `UInt64(_:)`, which traps where the number does not fit. -/
def toUInt64 (n : Int) : Option UInt64 := if 0 ≤ n ∧ n < 2 ^ 64 then some (UInt64.ofNat n.toNat) else none

/-- A `Date`, by the double `timeIntervalSince1970 * 1000`. -/
structure Date where
  milliseconds : ℚ

/-- `rounded()`, with halves away from zero. -/
def rounded (x : ℚ) : Int := if 0 ≤ x then ⌊x + 1 / 2⌋ else ⌈x - 1 / 2⌉

/-- `UInt64((now.timeIntervalSince1970 * 1000).rounded())` -/
def Date.unixMs (now : Date) : Option UInt64 := toUInt64 (rounded now.milliseconds)

structure Offer where
  candidates : List HolePunch.Candidate
  tiebreaker : UInt64
deriving DecidableEq

namespace CandidateOffer

variable {κ : Type}

def version : UInt8 := 1

def offerKey (S : OfferSuite κ) (room : String) : κ :=
  S.deriveKey (inviteAuthKey S room) (utf8 "trinet/candidate-offer/v1") (utf8 room)

/-- The system draws the nonce. -/
def make (S : OfferSuite κ) (candidates : List HolePunch.Candidate) (tiebreaker : UInt64)
    (room : String) (ttlMs : Int) (now : Date) (nonce : Bytes) : Option Bytes := do
  let nowMs ← now.unixMs
  let ttl ← toUInt64 ttlMs
  let expiry ← toUInt64 (nowMs.toNat + ttl.toNat)
  let inner :=
    [version] ++ beBytes 8 tiebreaker.toNat ++ beBytes 8 expiry.toNat ++ (← Ice.encode candidates)
  return nonce ++ S.cipher.encrypt (offerKey S room) nonce [] inner

/-- The outer `none` is a trap. -/
def openOffer (S : OfferSuite κ) (data : Bytes) (room : String) (now : Date) : Option (Option Offer) :=
  if data.length < 28 then some none
  else
    match S.cipher.decrypt (offerKey S room) (data.take 12) [] (data.drop 12) with
    | none => some none
    | some b =>
        if b.length < 17 ∨ b.getD 0 0 ≠ version then some none
        else do
          let tiebreaker := UInt64.ofNat (ofBe (slice b 1 9))
          let expiry := UInt64.ofNat (ofBe (slice b 9 17))
          let nowMs ← now.unixMs
          if expiry < nowMs then return none
          else return (Ice.decode (b.drop 17)).map (fun cands => ⟨cands, tiebreaker⟩)

section Offers

variable {S : OfferSuite κ} {candidates : List HolePunch.Candidate} {tiebreaker : UInt64}
  {room : String} {ttlMs : Int} {made : Date} {nonce data : Bytes}

theorem toUInt64_eq_some {n : Int} {x : UInt64} : toUInt64 n = some x ↔ n = x.toNat := by
  have hlt := x.toNat_lt
  rw [toUInt64]
  split
  · next h =>
      rw [Option.some.injEq, ← UInt64.toNat_inj,
        UInt64.toNat_ofNat_of_lt' (show n.toNat < 2 ^ 64 by omega)]
      omega
  · next h => exact ⟨fun heq => (nomatch heq), fun heq => absurd heq (by omega)⟩

theorem rounded_nonneg_iff (x : ℚ) : 0 ≤ rounded x ↔ -(1 / 2) < x := by
  rw [rounded]
  split
  · next h => exact iff_of_true (Int.floor_nonneg.mpr (by linarith)) (by linarith)
  · rw [← Int.sub_one_lt_iff, Int.lt_ceil]
    push_cast
    constructor <;> intro h <;> linarith

theorem rounded_le_iff (x : ℚ) (n : Nat) : rounded x ≤ n ↔ x < n + 1 / 2 := by
  rw [rounded]
  split
  · rw [← Int.lt_add_one_iff, Int.floor_lt]
    push_cast
    constructor <;> intro h <;> linarith
  · next h =>
      have hn : (0 : ℚ) ≤ n := Nat.cast_nonneg n
      exact iff_of_true (Int.ceil_le.mpr (by push_cast; linarith)) (by linarith)

theorem unixMs_eq_some {now : Date} {x : UInt64} :
    now.unixMs = some x ↔ rounded now.milliseconds = x.toNat :=
  toUInt64_eq_some

/-- The expiry stamped into an offer, in milliseconds since 1970. -/
def expiry (made : Date) (ttlMs : Int) : Int := rounded made.milliseconds + ttlMs

/-- What an offer seals. -/
def sealedText (tiebreaker stamp : UInt64) (list : Bytes) : Bytes :=
  version :: (beBytes 8 tiebreaker.toNat ++ (beBytes 8 stamp.toNat ++ list))

theorem length_sealedText (tiebreaker stamp : UInt64) (list : Bytes) :
    (sealedText tiebreaker stamp list).length = 17 + list.length := by
  rw [sealedText, List.length_cons, List.length_append, List.length_append, beBytes_length,
    beBytes_length]
  omega

theorem slice_tiebreaker (tiebreaker stamp : UInt64) (list : Bytes) :
    slice (sealedText tiebreaker stamp list) 1 9 = beBytes 8 tiebreaker.toNat :=
  slice_middle [version] rfl rfl (by rw [beBytes_length])

theorem slice_stamp (tiebreaker stamp : UInt64) (list : Bytes) :
    slice (sealedText tiebreaker stamp list) 9 17 = beBytes 8 stamp.toNat :=
  slice_middle (version :: beBytes 8 tiebreaker.toNat) rfl
    (by rw [List.length_cons, beBytes_length]) (by rw [beBytes_length])

theorem make_eq_some (h : make S candidates tiebreaker room ttlMs made nonce = some data) :
    ∃ (stamp : UInt64) (list : Bytes), (stamp.toNat : Int) = expiry made ttlMs ∧
      Ice.encode candidates = some list ∧
      data = nonce ++ S.cipher.encrypt (offerKey S room) nonce [] (sealedText tiebreaker stamp list) := by
  simp only [make, Option.bind_eq_bind, Option.bind_eq_some_iff, Option.pure_def, Option.some.injEq] at h
  obtain ⟨nowMs, hnow, ttl, httl, stamp, hstamp, list, hlist, rfl⟩ := h
  rw [unixMs_eq_some] at hnow
  rw [toUInt64_eq_some] at httl hstamp
  refine ⟨stamp, list, by rw [expiry]; omega, hlist, ?_⟩
  simp only [sealedText, List.append_assoc, List.cons_append, List.nil_append]

theorem openOffer_sealedText (hnonce : nonce.length = 12) (stamp : UInt64) {list : Bytes}
    (hlist : Ice.encode candidates = some list) (now : Date) :
    openOffer S (nonce ++ S.cipher.encrypt (offerKey S room) nonce [] (sealedText tiebreaker stamp list))
        room now =
      now.unixMs.map (fun nowMs => if stamp < nowMs then none else some ⟨candidates, tiebreaker⟩) := by
  have hhead : (sealedText tiebreaker stamp list).getD 0 0 = version := rfl
  have hrest : Ice.decode ((sealedText tiebreaker stamp list).drop 17) = some candidates := by
    have hdecode := decode_encode_append hlist []
    rwa [List.append_nil] at hdecode
  rw [openOffer, List.length_append, S.length_encrypt, hnonce, if_neg (by omega),
    List.take_left' hnonce, List.drop_left' hnonce, S.cipher.decrypt_encrypt]
  simp only [length_sealedText, hhead, slice_tiebreaker, slice_stamp, uint64_ofBe_beBytes, hrest, ne_eq,
    not_true_eq_false, or_false, if_neg (show ¬ 17 + list.length < 17 by omega), Option.map_some,
    Option.bind_eq_bind]
  cases now.unixMs with
  | none => rfl
  | some nowMs =>
      rw [Option.bind_some, Option.map_some]
      split <;> rfl

/-- An offer is read for as long as the rounded clock has not passed its expiry. -/
theorem openOffer_make (hnonce : nonce.length = 12)
    (h : make S candidates tiebreaker room ttlMs made nonce = some data) (now : Date) :
    openOffer S data room now = now.unixMs.map (fun nowMs =>
      if (nowMs.toNat : Int) ≤ expiry made ttlMs then some ⟨candidates, tiebreaker⟩ else none) := by
  obtain ⟨stamp, list, hstamp, hlist, rfl⟩ := make_eq_some h
  have hpast (nowMs : UInt64) : stamp < nowMs ↔ ¬(nowMs.toNat : Int) ≤ expiry made ttlMs := by
    rw [UInt64.lt_iff_toNat_lt]
    omega
  simp only [openOffer_sealedText hnonce stamp hlist, hpast, ite_not]

/-- Rounding moves the window in which an offer is read by half a millisecond at
both ends; a clock before it traps. -/
theorem openOffer_make_iff (hnonce : nonce.length = 12)
    (h : make S candidates tiebreaker room ttlMs made nonce = some data) (now : Date) (offer : Offer) :
    openOffer S data room now = some (some offer) ↔
      (-(1 / 2) < now.milliseconds ∧ now.milliseconds < expiry made ttlMs + 1 / 2) ∧
        offer = ⟨candidates, tiebreaker⟩ := by
  obtain ⟨stamp, -, hstamp, -, -⟩ := make_eq_some h
  have hbefore := rounded_le_iff now.milliseconds stamp.toNat
  rw [openOffer_make hnonce h, ← rounded_nonneg_iff, ← hstamp, Int.cast_natCast, ← hbefore,
    Option.map_eq_some_iff]
  constructor
  · rintro ⟨nowMs, hnow, heq⟩
    have hround := unixMs_eq_some.mp hnow
    split at heq
    · next hfresh => exact ⟨⟨by omega, by omega⟩, (Option.some_inj.mp heq).symm⟩
    · cases heq
  · rintro ⟨⟨hlow, hhigh⟩, rfl⟩
    have hlt := stamp.toNat_lt
    have hfits :
        (UInt64.ofNat (rounded now.milliseconds).toNat).toNat = (rounded now.milliseconds).toNat :=
      UInt64.toNat_ofNat_of_lt' (show _ < 2 ^ 64 by omega)
    refine ⟨UInt64.ofNat (rounded now.milliseconds).toNat, unixMs_eq_some.mpr (by omega), ?_⟩
    rw [if_pos (by omega)]

/-- Candidates survive their wire format and nothing else is read from it; a
sealed offer gives them back up to its expiry and not after it, exactly if the
clock reads neither more than half a millisecond before 1970 nor less than half
a millisecond past the expiry. -/
theorem candidates_exchanged_iff (S : OfferSuite κ) :
    (∀ cands : List HolePunch.Candidate, cands.length ≤ 65535 → (∀ c ∈ cands, (utf8 c.ip).length ≤ 255) →
      ∃ bs, Ice.encode cands = some bs ∧ Ice.decode bs = some cands) ∧
    (∀ (b : Bytes) (cands : List HolePunch.Candidate), Ice.decode b = some cands →
      ∃ encoded, Ice.encode cands = some encoded ∧ encoded <+: b) ∧
    ∀ (cands : List HolePunch.Candidate) (tiebreaker : UInt64) (room : String) (ttlMs : Int) (made : Date)
      (nonce data : Bytes), nonce.length = 12 →
      make S cands tiebreaker room ttlMs made nonce = some data → ∀ now : Date,
        ((now.milliseconds ≤ expiry made ttlMs →
          openOffer S data room now = some (some ⟨cands, tiebreaker⟩)) ∧
          (expiry made ttlMs < now.milliseconds →
            ∀ offer, openOffer S data room now ≠ some (some offer))) ↔
        -(1 / 2) < now.milliseconds ∧
          ¬(expiry made ttlMs < now.milliseconds ∧ now.milliseconds < expiry made ttlMs + 1 / 2) := by
  refine ⟨?_, fun b cands => encode_of_decode, ?_⟩
  · intro cands hcount hips
    have hencode : Ice.encode cands = some (beBytes 2 cands.length ++ cands.flatMap candidateBytes) := by
      rw [encode_eq, if_pos ⟨hcount, hips⟩]
    have hdecode := decode_encode_append hencode []
    rw [List.append_nil] at hdecode
    exact ⟨_, hencode, hdecode⟩
  · intro cands tiebreaker room ttlMs made nonce data hnonce hmade now
    have hopen := openOffer_make_iff hnonce hmade now
    obtain ⟨stamp, -, hstamp, -, -⟩ := make_eq_some hmade
    have hexpiry : (0 : ℚ) ≤ expiry made ttlMs := by
      rw [← hstamp, Int.cast_natCast]
      exact Nat.cast_nonneg _
    constructor
    · rintro ⟨hfresh, hlate⟩
      have hlow : -(1 / 2) < now.milliseconds := by
        by_contra hlow
        exact hlow ((hopen _).mp (hfresh (by linarith))).1.1
      refine ⟨hlow, ?_⟩
      rintro ⟨hpast, hnear⟩
      exact hlate hpast _ ((hopen _).mpr ⟨⟨hlow, hnear⟩, rfl⟩)
    · rintro ⟨hlow, hgap⟩
      refine ⟨fun hfresh => (hopen _).mpr ⟨⟨hlow, by linarith⟩, rfl⟩, ?_⟩
      intro hpast offer heq
      exact hgap ⟨hpast, ((hopen offer).mp heq).1.2⟩

def plainSuite : OfferSuite Unit := ⟨(), fun _ _ _ => (), Aead.tagged Unit 16, by simp [Aead.tagged]⟩

def twoCandidates : List HolePunch.Candidate := [⟨"192.0.2.1", 7000, .srflx⟩, ⟨"10.0.0.7", 7000, .host⟩]

theorem candidates_exchanged_until_expiry :
    ∃ data, make plainSuite twoCandidates 5 "room" 500 ⟨1000⟩ (List.replicate 12 0) = some data ∧
      openOffer plainSuite data "room" ⟨1500⟩ = some (some ⟨twoCandidates, 5⟩) ∧
      openOffer plainSuite data "room" ⟨1501⟩ ≠ some (some ⟨twoCandidates, 5⟩) := by
  obtain ⟨data, hdata⟩ :
      ∃ data, make plainSuite twoCandidates 5 "room" 500 ⟨1000⟩ (List.replicate 12 0) = some data :=
    Option.isSome_iff_exists.mp (by decide +kernel)
  have hexpiry : expiry ⟨1000⟩ 500 = 1500 := by decide +kernel
  have h := (candidates_exchanged_iff plainSuite).2.2 twoCandidates 5 "room" 500 ⟨1000⟩
    (List.replicate 12 0) data rfl hdata
  rw [hexpiry] at h
  exact ⟨data, hdata, ((h ⟨1500⟩).mpr (by norm_num)).1 (by norm_num),
    ((h ⟨1501⟩).mpr (by norm_num)).2 (by norm_num) _⟩

/-- A quarter of a millisecond after its expiry an offer is still read, and on a
clock set before 1970 reading it traps. -/
theorem offer_outlives_expiry :
    ∃ data, make plainSuite twoCandidates 5 "room" 30000 ⟨1800000000000⟩ (List.replicate 12 0) =
      some data ∧
      (expiry ⟨1800000000000⟩ 30000 : ℚ) < 1800000030000 + 1 / 4 ∧
      openOffer plainSuite data "room" ⟨1800000030000 + 1 / 4⟩ = some (some ⟨twoCandidates, 5⟩) ∧
      (-1 : ℚ) ≤ expiry ⟨1800000000000⟩ 30000 ∧ openOffer plainSuite data "room" ⟨-1⟩ = none := by
  have hexpiry : expiry ⟨1800000000000⟩ 30000 = 1800000030000 := by decide +kernel
  obtain ⟨data, hdata⟩ : ∃ data,
      make plainSuite twoCandidates 5 "room" 30000 ⟨1800000000000⟩ (List.replicate 12 0) = some data :=
    Option.isSome_iff_exists.mp (by decide +kernel)
  refine ⟨data, hdata, by rw [hexpiry]; norm_num, ?_, by rw [hexpiry]; norm_num, ?_⟩
  · rw [openOffer_make_iff rfl hdata, hexpiry]
    norm_num
  · have htrap : Date.unixMs ⟨-1⟩ = none := by decide +kernel
    rw [openOffer_make rfl hdata, htrap, Option.map_none]

end Offers

end CandidateOffer

end TriNet.Phone
