import TriNet.Phone.DirectMessageDelivery
import TriNet.Phone.Signaling

namespace TriNet.Phone

open CallApi Lib Lib.BigEndian Lib.Reading Lib.Symbolic
open InternetDirectMessageCrypto (IsMessageID isFingerprint_digest)

structure Graphemes where
  split : String → List String
  join_split : ∀ s, String.join (split s) = s
  nonempty : ∀ s, ∀ piece ∈ split s, piece ≠ ""

structure TextSender where
  nickname : Option String
  userID : String
  deviceID : String
  signingPublicKey : String

structure TextContact where
  deviceID : String
  keyFingerprint : String
  signingPublicKey : Option String
  textEncryptionPublicKey : Option String

namespace MeshTextEnvelope

variable {σ κ : Type}

def salt (F : Foundation) : Bytes := (F.sha256 (utf8 "tri-net/mesh-text/v1/salt")).1
def keyDomain : Bytes := utf8 "tri-net/mesh-text/v1/key\x00"

/-- The loop of `clamp` over the characters left. -/
def clampFrom (maximumBytes : Nat) : List String → String → Nat → String
  | [], result, _ => result
  | piece :: pieces, result, count =>
      if count + (utf8 piece).length ≤ maximumBytes then
        clampFrom maximumBytes pieces (result ++ piece) (count + (utf8 piece).length)
      else result

def clamp (G : Graphemes) (text : String) : String := clampFrom maximumTextBytes (G.split text) "" 0

def recipientKeyID (F : Foundation) (identityPublicKey encryptionPublicKey : Bytes) : Bytes :=
  (F.sha256 (utf8 "tri-net/mesh-text/v1/recipient\x00" ++ identityPublicKey ++
    encryptionPublicKey)).1.take keyIDLength

def deriveKey (F : Foundation) (S : MessageSuite σ κ)
    (shared header recipientIdentityPublicKey recipientEncryptionPublicKey : Bytes) : κ :=
  S.hkdf.expand (S.hkdf.extract (salt F) shared)
    (keyDomain ++ header ++ recipientIdentityPublicKey ++ recipientEncryptionPublicKey)

def appendUInt16 (value : Nat) : Bytes := beBytes 2 value

def appendInt64 (value : Int64) : Bytes := beBytes 8 value.toUInt64.toNat

def appendString (value : String) : Bytes := appendUInt16 (utf8 value).length ++ utf8 value

def canonicalBody (F : Foundation)
    (senderNickname senderUserID senderDeviceID senderPublicKey recipientDeviceID : String)
    (timestamp : Int64) (nonce text : String) : Option Bytes :=
  let senderFingerprint := (F.fingerprint senderPublicKey).getD ""
  let fields := [senderNickname, senderUserID, senderDeviceID, senderPublicKey, senderFingerprint,
    recipientDeviceID, nonce, text]
  if !senderNickname.isEmpty && !senderUserID.isEmpty && !senderDeviceID.isEmpty &&
      !senderPublicKey.isEmpty && !senderFingerprint.isEmpty && !recipientDeviceID.isEmpty &&
      uuidIsValid nonce && !text.isEmpty &&
      (utf8 text).length ≤ maximumTextBytes && fields.all (fun field => (utf8 field).length ≤ 65535) then
    some (appendString senderNickname ++ appendString senderUserID ++ appendString senderDeviceID ++
      appendString senderPublicKey ++ appendString senderFingerprint ++
      appendString recipientDeviceID ++ appendInt64 timestamp ++ appendString nonce ++
      appendString text)
  else none

/-- `nonce` is the lowercased text of a UUID, `drawn` the nonce the cipher draws. -/
def sealText (F : Foundation) (S : MessageSuite σ κ) (G : Graphemes) (text : String) (sender : TextSender)
    (recipient : TextContact) (timestamp : Int64) (nonce : String)
    (ephemeralPrivateKey : σ) (drawn : Bytes)
    (sign : Bytes → Option String) : Option Bytes := do
  let senderNickname := F.normalize (sender.nickname.getD "")
  let cleanText := clamp G text
  if senderNickname.isEmpty || cleanText.isEmpty then none
  else
    let recipientIdentity ← recipient.signingPublicKey
    let recipientIdentityData ← F.base64Decoded recipientIdentity
    if F.fingerprint recipientIdentity ≠ some recipient.keyFingerprint then none
    else
      let recipientKeyText ← recipient.textEncryptionPublicKey
      let recipientKeyData ← F.base64Decoded recipientKeyText
      if recipientKeyData.length ≠ 32 then none
      else
        let shared ← S.curve.sharedSecret ephemeralPrivateKey recipientKeyData
        let keyID := recipientKeyID F recipientIdentityData recipientKeyData
        let header := magic ++ [version] ++ keyID ++ S.curve.publicKey ephemeralPrivateKey
        let body ← canonicalBody F senderNickname sender.userID sender.deviceID
          sender.signingPublicKey recipient.deviceID timestamp nonce cleanText
        let signatureText ← sign (signaturePayload header body)
        let signature ← F.base64Decoded signatureText
        if signature.length > 65535 then none
        else
          let plaintext := body ++ appendUInt16 signature.length ++ signature
          let key := deriveKey F S shared header recipientIdentityData recipientKeyData
          let wire := header ++ (drawn ++ S.cipher.encrypt key drawn header plaintext)
          if wire.length ≤ maximumWireBytes then some wire else none

def openBox (F : Foundation) (S : MessageSuite σ κ) (recipientPrivateKey : σ)
    (recipientIdentityData header box : Bytes) : Option Bytes := do
  let ephemeralKey := header.drop (3 + keyIDLength)
  if ephemeralKey.length ≠ 32 then none
  else
    let shared ← S.curve.sharedSecret recipientPrivateKey ephemeralKey
    if box.length < 28 then none
    else
      let key := deriveKey F S shared header recipientIdentityData (S.curve.publicKey recipientPrivateKey)
      S.cipher.decrypt key (box.take 12) header (box.drop 12)

def recipientIdentity (F : Foundation) (S : MessageSuite σ κ)
    (deviceID signingPublicKey keyFingerprint : String)
    (recipientPrivateKey : σ) : DeviceIdentity :=
  let recipientIdentityData := (F.base64Decoded signingPublicKey).getD []
  { deviceID, signingPublicKey, keyFingerprint
    keyID := recipientKeyID F recipientIdentityData (S.curve.publicKey recipientPrivateKey)
    openBox := openBox F S recipientPrivateKey recipientIdentityData }

end MeshTextEnvelope

section Clamp

open MeshTextEnvelope

theorem length_clampFrom {maximum : Nat} (pieces : List String) {result : String} {count : Nat}
    (hcount : (utf8 result).length = count) (hle : count ≤ maximum) :
    (utf8 (clampFrom maximum pieces result count)).length ≤ maximum := by
  induction pieces generalizing result count with
  | nil =>
      rw [clampFrom, hcount]
      exact hle
  | cons piece pieces ih =>
      rw [clampFrom]
      split
      · next hfits => exact ih (by rw [utf8_append, List.length_append, hcount]) hfits
      · rw [hcount]
        exact hle

theorem length_clamp (G : Graphemes) (text : String) : (utf8 (clamp G text)).length ≤ maximumTextBytes :=
  length_clampFrom _ rfl (Nat.zero_le _)

theorem length_le_clampFrom {maximum : Nat} (pieces : List String) (result : String) (count : Nat) :
    (utf8 result).length ≤ (utf8 (clampFrom maximum pieces result count)).length := by
  induction pieces generalizing result count with
  | nil => exact Nat.le_refl _
  | cons piece pieces ih =>
      rw [clampFrom]
      split
      · refine Nat.le_trans ?_ (ih (result ++ piece) _)
        rw [utf8_append, List.length_append]
        exact Nat.le_add_right _ _
      · exact Nat.le_refl _

theorem clampFrom_eq_append {maximum : Nat} (pieces : List String) (result : String) (count : Nat)
    (hfits : count + (utf8 (String.join pieces)).length ≤ maximum) :
    clampFrom maximum pieces result count = result ++ String.join pieces := by
  induction pieces generalizing result count with
  | nil => rw [clampFrom, String.join_nil, String.append_empty]
  | cons piece pieces ih =>
      rw [String.join_cons, utf8_append, List.length_append] at hfits
      rw [clampFrom, if_pos (by omega), ih _ _ (by omega), String.join_cons, String.append_assoc]

theorem clamp_eq_self (G : Graphemes) {text : String} (h : (utf8 text).length ≤ maximumTextBytes) :
    clamp G text = text := by
  rw [clamp, clampFrom_eq_append _ _ _ (by rw [G.join_split, Nat.zero_add]; exact h), G.join_split,
    String.empty_append]

theorem isEmpty_eq_false_of_length {s : String} (h : 0 < (utf8 s).length) : s.isEmpty = false := by
  rw [Bool.eq_false_iff]
  intro hempty
  rw [String.isEmpty_iff.mp hempty] at h
  exact absurd h (by decide)

theorem length_pos_of_ne_empty {s : String} (h : s ≠ "") : 0 < (utf8 s).length := by
  rw [Nat.pos_iff_ne_zero, Ne, List.length_eq_zero_iff]
  intro hnil
  exact h (utf8_inj hnil)

theorem clamp_nonempty {G : Graphemes} {text piece : String} {pieces : List String}
    (hsplit : G.split text = piece :: pieces) (hfits : (utf8 piece).length ≤ maximumTextBytes) :
    (clamp G text).isEmpty = false := by
  have hpiece : 0 < (utf8 piece).length :=
    length_pos_of_ne_empty (G.nonempty text piece (by rw [hsplit]; exact List.mem_cons_self ..))
  apply isEmpty_eq_false_of_length
  rw [clamp, hsplit, clampFrom, if_pos (by omega)]
  have hle : (utf8 ("" ++ piece)).length ≤
      (utf8 (clampFrom maximumTextBytes pieces ("" ++ piece) _)).length :=
    length_le_clampFrom pieces ("" ++ piece) (0 + (utf8 piece).length)
  rw [utf8_append, List.length_append] at hle
  omega

end Clamp

section Nickname

variable {F : Foundation} {value : String}

theorem validationError_normalize (F : Foundation) (value : String) :
    F.validationError (F.normalize value) = F.validationError value := by
  rw [Foundation.validationError, Foundation.normalize_normalize]
  rfl

theorem normalize_nonempty (h : F.validationError value = none) : (F.normalize value).isEmpty = false := by
  rw [Foundation.validationError] at h
  split at h
  · cases h
  · split at h
    · cases h
    · next hhead =>
        rw [Bool.eq_false_iff]
        intro hempty
        rw [String.isEmpty_iff.mp hempty] at hhead
        exact hhead rfl

end Nickname

/-- A text from a sender with a valid nickname to a device whose published keys
are those it holds. -/
structure TextExchange {σ κ : Type} (P : Platform) (S : MessageSuite σ κ) (G : Graphemes) where
  text : String
  nickname : String
  userID : String
  deviceID : String
  signer : Signer P.toFoundation
  recipientDeviceID : String
  recipientSigningKey : String
  recipientTextKey : String
  recipientIdentityData : Bytes
  recipientKey : σ
  ephemeralKey : σ
  secret : Bytes
  timestamp : Int64
  nonce : String
  drawn : { nonce : Bytes // nonce.length = 12 }
  nickname_valid : P.validationError nickname = none
  userID_nonempty : userID.isEmpty = false
  deviceID_nonempty : deviceID.isEmpty = false
  publicKey_nonempty : signer.publicKey.isEmpty = false
  recipientDeviceID_nonempty : recipientDeviceID.isEmpty = false
  nonce_valid : IsMessageID nonce
  identity_published : P.base64Decoded recipientSigningKey = some recipientIdentityData
  key_published : P.base64Decoded recipientTextKey = some (S.curve.publicKey recipientKey)
  agreed : S.curve.sharedSecret ephemeralKey (S.curve.publicKey recipientKey) = some secret
  first_fits : ∃ piece pieces, G.split text = piece :: pieces ∧
    (utf8 piece).length ≤ MeshTextEnvelope.maximumTextBytes

namespace TextExchange

open MeshTextEnvelope

variable {σ κ : Type} {P : Platform} {S : MessageSuite σ κ} {G : Graphemes} (x : TextExchange P S G)

def sender : TextSender := ⟨some x.nickname, x.userID, x.deviceID, x.signer.publicKey⟩

def contact : TextContact :=
  ⟨x.recipientDeviceID, P.digest x.recipientIdentityData, some x.recipientSigningKey,
    some x.recipientTextKey⟩

def recipient : DeviceIdentity :=
  recipientIdentity P.toFoundation S x.recipientDeviceID x.recipientSigningKey
    (P.digest x.recipientIdentityData) x.recipientKey

def sealed : Option Bytes :=
  sealText P.toFoundation S G x.text x.sender x.contact x.timestamp x.nonce x.ephemeralKey x.drawn.1
    x.signer.signMessage

def fields : TextFields where
  senderNickname := P.normalize x.nickname
  senderUserID := x.userID
  senderDeviceID := x.deviceID
  senderPublicKey := x.signer.publicKey
  senderFingerprint := P.digest x.signer.key
  recipientDeviceID := x.recipientDeviceID
  timestamp := x.timestamp.toInt
  nonce := x.nonce
  text := clamp G x.text

def header : Bytes :=
  magic ++ [version] ++ recipientKeyID P.toFoundation x.recipientIdentityData
    (S.curve.publicKey x.recipientKey) ++ S.curve.publicKey x.ephemeralKey

def body : Bytes :=
  appendString x.fields.senderNickname ++
    (appendString x.fields.senderUserID ++ (appendString x.fields.senderDeviceID ++
    (appendString x.fields.senderPublicKey ++ (appendString x.fields.senderFingerprint ++
      (appendString x.fields.recipientDeviceID ++
        (appendInt64 x.timestamp ++ (appendString x.fields.nonce ++
        appendString x.fields.text)))))))

def signature : Bytes := x.signer.sign (signaturePayload x.header x.body)

def plaintext : Bytes := x.body ++ (appendUInt16 x.signature.length ++ x.signature)

def key : κ := deriveKey P.toFoundation S x.secret x.header x.recipientIdentityData
    (S.curve.publicKey x.recipientKey)

def wire : Bytes := x.header ++ (x.drawn.1 ++ S.cipher.encrypt x.key x.drawn.1 x.header x.plaintext)

/-- Header, box, lengths, time, fingerprint and nonce take 165 bytes; the rest
are the bytes of the names, the key, the text and the signature. -/
def wireLength : Nat :=
  165 + (utf8 (P.normalize x.nickname)).length + (utf8 x.userID).length + (utf8 x.deviceID).length +
    (utf8 x.signer.publicKey).length + (utf8 x.recipientDeviceID).length +
    (utf8 (clamp G x.text)).length + x.signature.length

end TextExchange

section Exchanged

open MeshTextEnvelope

variable {σ κ : Type} {P : Platform} {S : MessageSuite σ κ} {G : Graphemes} (x : TextExchange P S G)

theorem length_digest (F : Foundation) (data : Bytes) : (utf8 (F.digest data)).length = 24 := by
  have h := isFingerprint_digest (F := F) data
  rw [length_utf8, h.graphic.utf8ByteSize_eq, h.length]

namespace TextExchange

theorem length_keyID (F : Foundation) (a b : Bytes) : (recipientKeyID F a b).length = 16 := by
  rw [recipientKeyID, List.length_take, (F.sha256 _).2]
  rfl

theorem length_header : x.header.length = 51 := by
  simp only [header, List.length_append, length_keyID, S.length_publicKey]
  rfl

theorem length_nonce : (utf8 x.nonce).length = 36 := by
  rw [length_utf8, x.nonce_valid.graphic.utf8ByteSize_eq, x.nonce_valid.length]

theorem length_wire : x.wire.length = x.wireLength := by
  have hheader := x.length_header
  have hdrawn := x.drawn.2
  have hnonce := x.length_nonce
  have hdigest := length_digest P.toFoundation x.signer.key
  simp only [wire, plaintext, body, fields, wireLength, appendString, appendUInt16, appendInt64,
    List.length_append, beBytes_length, S.length_encrypt]
  omega

theorem fingerprint_recipient :
    P.fingerprint x.recipientSigningKey = some (P.digest x.recipientIdentityData) := by
  rw [Foundation.fingerprint, x.identity_published, Option.map_some]

theorem length_sign (message : Bytes) : (x.signer.sign message).length ≤ 128 := by
  have hshape := x.signer.shape message
  simp only [InternetDirectMessageCrypto.signatureShapeValid, Bool.and_eq_true,
    decide_eq_true_eq] at hshape
  exact hshape.1.2

theorem clamp_nonempty : (clamp G x.text).isEmpty = false := by
  obtain ⟨piece, pieces, hsplit, hfits⟩ := x.first_fits
  exact Phone.clamp_nonempty hsplit hfits

theorem sealed_eq :
    x.sealed = (canonicalBody P.toFoundation (P.normalize x.nickname) x.userID x.deviceID
      x.signer.publicKey x.recipientDeviceID x.timestamp x.nonce (clamp G x.text)).bind (fun body =>
        let signature := x.signer.sign (signaturePayload x.header body)
        let wire := x.header ++ (x.drawn.1 ++ S.cipher.encrypt x.key x.drawn.1 x.header
          (body ++ appendUInt16 signature.length ++ signature))
        if wire.length ≤ maximumWireBytes then some wire else none) := by
  have hnickname := normalize_nonempty x.nickname_valid
  have hnosign (message : Bytes) : ¬ (x.signer.sign message).length > 65535 := by
    have := x.length_sign message
    omega
  simp only [sealed, sealText, sender, contact, Option.getD_some, hnickname,
    x.clamp_nonempty, Bool.or_self,
    Bool.false_eq_true, if_false, x.identity_published, x.fingerprint_recipient, ne_eq, not_true_eq_false,
    x.key_published, S.length_publicKey, x.agreed, Signer.signMessage, P.base64Decoded_encode,
    hnosign, Option.bind_eq_bind, Option.bind_some]
  rfl

theorem canonicalBody_eq_some {b : Bytes}
    (h : canonicalBody P.toFoundation (P.normalize x.nickname) x.userID x.deviceID
      x.signer.publicKey x.recipientDeviceID
      x.timestamp x.nonce (clamp G x.text) = some b) : b = x.body := by
  rw [canonicalBody, x.signer.fingerprint_publicKey, Option.getD_some] at h
  split at h
  · rw [← Option.some.inj h]
    simp only [body, fields, List.append_assoc]
  · cases h

theorem canonicalBody_of_le (h : x.wireLength ≤ maximumWireBytes) :
    canonicalBody P.toFoundation (P.normalize x.nickname) x.userID x.deviceID x.signer.publicKey
      x.recipientDeviceID x.timestamp x.nonce (clamp G x.text) = some x.body := by
  have hnickname := normalize_nonempty x.nickname_valid
  have hdigest := length_digest P.toFoundation x.signer.key
  have hprint : (P.digest x.signer.key).isEmpty = false := isEmpty_eq_false_of_length (by omega)
  have hnonce := x.length_nonce
  have htext := length_clamp G x.text
  have hsmall : ∀ field ∈
      [P.normalize x.nickname, x.userID, x.deviceID, x.signer.publicKey, P.digest x.signer.key,
      x.recipientDeviceID, x.nonce, clamp G x.text], (utf8 field).length ≤ 65535 := by
    simp only [wireLength, maximumWireBytes] at h
    simp only [List.forall_mem_cons]
    refine ⟨?_, ?_, ?_, ?_, ?_, ?_, ?_, ?_, by simp⟩ <;> omega
  have hall : ([P.normalize x.nickname, x.userID, x.deviceID, x.signer.publicKey, P.digest x.signer.key,
      x.recipientDeviceID, x.nonce, clamp G x.text].all
        (fun field => decide ((utf8 field).length ≤ 65535))) = true := by
    rw [List.all_eq_true]
    exact fun field hfield => decide_eq_true (hsmall field hfield)
  rw [canonicalBody, x.signer.fingerprint_publicKey, Option.getD_some, if_pos]
  · simp only [body, fields, List.append_assoc]
  · simp only [hnickname, x.userID_nonempty, x.deviceID_nonempty, x.publicKey_nonempty, hprint,
      x.recipientDeviceID_nonempty, x.nonce_valid.valid, x.clamp_nonempty, hall, htext, decide_true,
      Bool.not_false, Bool.and_self]

theorem sealed_iff : x.sealed = if x.wireLength ≤ maximumWireBytes then some x.wire else none := by
  rw [sealed_eq]
  by_cases hle : x.wireLength ≤ maximumWireBytes
  · rw [x.canonicalBody_of_le hle, Option.bind_some, if_pos hle]
    simp only [List.append_assoc]
    exact if_pos (Nat.le_trans (Nat.le_of_eq x.length_wire) hle)
  · rw [if_neg hle]
    cases hbody :
      canonicalBody P.toFoundation (P.normalize x.nickname) x.userID x.deviceID x.signer.publicKey
        x.recipientDeviceID x.timestamp x.nonce (clamp G x.text) with
    | none => rfl
    | some b =>
        rw [x.canonicalBody_eq_some hbody, Option.bind_some]
        simp only [List.append_assoc]
        exact if_neg (fun hfits => hle (Nat.le_trans (Nat.le_of_eq x.length_wire.symm) hfits))

theorem reads_readString {s : String} (h : (utf8 s).length < 65536) :
    Reads readString s (appendString s) := by
  apply (reads_uint (show (utf8 s).length < 256 ^ 2 from h)).bind
  apply (reads_take rfl).bind_nil
  exact reads_lift (decodeUtf8_utf8 s)

theorem reads_readInt64 (v : Int64) : Reads readInt64 v.toInt (appendInt64 v) := by
  have hlt : v.toUInt64.toNat < 256 ^ 8 := v.toUInt64.toNat_lt
  apply (reads_uint hlt).bind_nil
  have hvalue : v.toInt = if v.toUInt64.toNat < 2 ^ 63 then (v.toUInt64.toNat : Int)
    else v.toUInt64.toNat - 2 ^ 64 := by
    have hcond : v.toInt = if 2 * v.toUInt64.toNat < 2 ^ 64 then (v.toUInt64.toNat : Int)
        else v.toUInt64.toNat - (2 ^ 64 : Nat) := BitVec.toInt_eq_toNat_cond v.toBitVec
    rw [hcond]
    split_ifs <;> omega
  rw [hvalue]
  exact reads_pure _

theorem reads_readFields (h : x.wireLength ≤ maximumWireBytes) : Reads (readFields P) x.fields x.body := by
  have hnonce := x.length_nonce
  have hdigest := length_digest P.toFoundation x.signer.key
  have htext := length_clamp G x.text
  simp only [wireLength, maximumWireBytes] at h
  apply (reads_readString (s := x.fields.senderNickname) (by simp only [fields]; omega)).bind
  apply (reads_require ?_).bind
  apply (reads_readString (s := x.fields.senderUserID) (by simp only [fields]; omega)).bind
  apply (reads_readString (s := x.fields.senderDeviceID) (by simp only [fields]; omega)).bind
  apply (reads_readString (s := x.fields.senderPublicKey) (by simp only [fields]; omega)).bind
  apply (reads_readString (s := x.fields.senderFingerprint) (by simp only [fields]; omega)).bind
  apply (reads_readString (s := x.fields.recipientDeviceID) (by simp only [fields]; omega)).bind
  apply (reads_readInt64 x.timestamp).bind
  apply (reads_readString (s := x.fields.nonce) (by simp only [fields]; omega)).bind
  apply (reads_require x.nonce_valid.valid).bind
  apply (reads_readString (s := x.fields.text) (by simp only [fields]; omega)).bind_nil
  apply (reads_require ?_).bind_nil
  · exact reads_pure x.fields
  · rw [Bool.and_eq_true, Bool.not_eq_true', decide_eq_true_eq]
    exact ⟨x.clamp_nonempty, htext⟩
  · have hvalid : P.validationError (P.normalize x.nickname) = none := by
      rw [validationError_normalize, x.nickname_valid]
    simp only [fields, Foundation.normalize_normalize, hvalid, beq_self_eq_true,
      Option.isNone_none, Bool.and_self]

theorem parsePlaintext_eq (h : x.wireLength ≤ maximumWireBytes) :
    parsePlaintext P x.header x.plaintext = some ⟨x.header, x.fields, x.body, x.signature⟩ := by
  have hsize : x.signature.length < 256 ^ 2 := Nat.lt_of_le_of_lt (x.length_sign _) (by decide)
  have hrest : (x.body ++ (appendUInt16 x.signature.length ++ x.signature)).length -
      (appendUInt16 x.signature.length ++ x.signature).length = x.body.length := by
    rw [List.length_append, Nat.add_sub_cancel]
  rw [parsePlaintext, plaintext, x.reads_readFields h]
  simp only [Option.bind_eq_bind, Option.bind_some, appendUInt16, signatureLengthField] at hrest ⊢
  rw [reads_uint hsize]
  simp only [Option.bind_some, if_true, hrest, List.take_left]

theorem openBox_eq :
    x.recipient.openBox x.header (x.drawn.1 ++ S.cipher.encrypt x.key x.drawn.1 x.header x.plaintext) =
      some x.plaintext := by
  have hephemeral : x.header.drop (3 + keyIDLength) = S.curve.publicKey x.ephemeralKey :=
    List.drop_left' (by simp only [List.length_append, length_keyID]; rfl)
  have hshared :
      S.curve.sharedSecret x.recipientKey (S.curve.publicKey x.ephemeralKey) = some x.secret := by
    rw [S.curve.agreement, x.agreed]
  have hdata : (P.base64Decoded x.recipientSigningKey).getD [] = x.recipientIdentityData := by
    rw [x.identity_published, Option.getD_some]
  have hbox : ¬ (x.drawn.1 ++ S.cipher.encrypt x.key x.drawn.1 x.header x.plaintext).length < 28 := by
    rw [List.length_append, x.drawn.2, S.length_encrypt]
    omega
  simp only [recipient, recipientIdentity, openBox, hephemeral, S.length_publicKey, ne_eq,
    not_true_eq_false, if_false,
    hshared, Option.bind_eq_bind, Option.bind_some, hbox, hdata, List.take_left' x.drawn.2,
      List.drop_left' x.drawn.2]
  exact S.cipher.decrypt_encrypt x.key x.drawn.1 x.header x.plaintext

theorem openWire_eq (h : x.wireLength ≤ maximumWireBytes) {now : Int}
    (hfresh : isFresh x.timestamp.toInt now = true) :
    openWire P x.recipient x.wire now = some ⟨x.header, x.fields, x.body, x.signature⟩ := by
  have hlen := x.length_wire
  have hheader := x.length_header
  have htake : x.wire.take headerLength = x.header := List.take_left' hheader
  have hdrop : x.wire.drop headerLength =
      x.drawn.1 ++ S.cipher.encrypt x.key x.drawn.1 x.header x.plaintext := List.drop_left' hheader
  have hkeyID : (x.wire.drop 3).take keyIDLength = x.recipient.keyID := by
    have hbytes : x.wire.drop 3 =
        recipientKeyID P.toFoundation x.recipientIdentityData (S.curve.publicKey x.recipientKey) ++
          (S.curve.publicKey x.ephemeralKey ++
            (x.drawn.1 ++ S.cipher.encrypt x.key x.drawn.1 x.header x.plaintext)) := by
      rw [wire, header, List.append_assoc, List.append_assoc]
      rfl
    rw [hbytes, keyIDLength, List.take_left' (length_keyID _ _ _)]
    simp only [recipient, recipientIdentity, x.identity_published, Option.getD_some]
  have hverify : P.verifyMessage (signaturePayload x.header x.body) (Base64.encode x.signature)
      x.signer.publicKey = true :=
    x.signer.verifyMessage_sign _
  have hacceptable : isAcceptable P x.recipient now ⟨x.header, x.fields, x.body, x.signature⟩ = true := by
    simp only [isAcceptable, fields, hfresh, x.signer.fingerprint_publicKey, hverify, recipient,
      recipientIdentity, decide_true, Bool.and_self]
  have hlong : ¬ (x.wire.length ≤ headerLength + 28 + signatureLengthField ||
      x.wire.length > maximumWireBytes) = true := by
    rw [hlen, Bool.or_eq_true, decide_eq_true_eq, decide_eq_true_eq, not_or]
    constructor
    · simp only [wireLength, headerLength, signatureLengthField]
      omega
    · omega
  have hmagic : ¬ (x.wire.take 2 ≠ magic || x.wire[2]? ≠ some version) = true := by
    simp [wire, header, magic]
  have hprint : P.fingerprint x.recipient.signingPublicKey = some x.recipient.keyFingerprint :=
    x.fingerprint_recipient
  rw [openWire, if_neg hlong, if_neg hmagic, if_neg (not_not.mpr hprint), if_neg (not_not.mpr hkeyID)]
  simp only [htake, hdrop, x.openBox_eq, Option.bind_eq_bind, Option.bind_some,
    x.parsePlaintext_eq h, hacceptable, if_true]

/-- A text reaches the device it was sealed for, as clamped, exactly if all of the
message fits on the wire; the bound on the text alone does not see to that. -/
theorem text_delivered_iff :
    ((∃ wire, x.sealed = some wire ∧ wire.length ≤ 1200 ∧
        ∀ now, isFresh x.timestamp.toInt now = true →
          ∃ t, openWire P x.recipient wire now = some t ∧ t.fields.text = clamp G x.text) ↔
      x.wireLength ≤ 1200) ∧
    ((utf8 x.userID).length = 36 → (utf8 x.deviceID).length = 36 →
      (utf8 x.recipientDeviceID).length = 36 → (utf8 x.signer.publicKey).length = 88 →
      (x.wireLength ≤ 1200 ↔
        (utf8 (P.normalize x.nickname)).length + (utf8 (clamp G x.text)).length +
          x.signature.length ≤ 839)) := by
  refine ⟨⟨?_, ?_⟩, ?_⟩
  · rintro ⟨wire, hsealed, -, -⟩
    rw [sealed_iff] at hsealed
    split at hsealed
    · next hle => exact hle
    · cases hsealed
  · intro hle
    refine ⟨x.wire, by rw [sealed_iff]; exact if_pos hle,
      Nat.le_trans (Nat.le_of_eq x.length_wire) hle, ?_⟩
    intro now hfresh
    exact ⟨_, x.openWire_eq hle hfresh, rfl⟩
  · intro huser hdevice hrecipient hkey
    rw [wireLength]
    omega

end TextExchange

end Exchanged

section Example

open MeshTextEnvelope

def scalars : Graphemes where
  split s := s.toList.map String.singleton
  join_split s := by
    apply String.toList_inj.mp
    rw [String.toList_join, List.flatMap_map]
    simp
  nonempty s piece hpiece := by
    obtain ⟨c, -, rfl⟩ := List.mem_map.mp hpiece
    simp

def longSignatures : Platform where
  toFoundation := { plainFoundation with
    isValidSignature :=
      fun key message signature => signature == ((key ++ message) ++ List.replicate 72 0).take 72 }
  decodeInvite _ := none
  decodeControl _ := none

def longSigner : Signer longSignatures.toFoundation where
  key := List.replicate 65 4
  sign message := ((List.replicate 65 4 ++ message) ++ List.replicate 72 0).take 72
  key_valid := rfl
  shape message := by
    have hlen : (((List.replicate 65 4 ++ message) ++ List.replicate 72 (0 : UInt8)).take
        72).length = 72 :=
      length_take_padded 72 _
    rw [InternetDirectMessageCrypto.signatureShapeValid, hlen,
      List.isEmpty_eq_false_iff.mpr (List.ne_nil_of_length_pos (by rw [hlen]; decide))]
    rfl
  verifies _ := beq_self_eq_true _

/-- A text of so many letters between two devices with ids of the usual size. -/
def lettersTo (n : Nat) (hn : 0 < n) : TextExchange longSignatures sumSuite scalars where
  text := String.ofList (List.replicate n 'x')
  nickname := "alice"
  userID := "11111111-1111-4111-8111-111111111111"
  deviceID := "22222222-2222-4222-8222-222222222222"
  signer := longSigner
  recipientDeviceID := "33333333-3333-4333-8333-333333333333"
  recipientSigningKey := Base64.encode (List.replicate 65 5)
  recipientTextKey := Base64.encode (repeated 1).1
  recipientIdentityData := List.replicate 65 5
  recipientKey := repeated 1
  ephemeralKey := repeated 2
  secret := List.replicate 32 3
  timestamp := 1700000000000
  nonce := "123e4567-e89b-12d3-a456-426614174000"
  drawn := ⟨List.replicate 12 7, length_sevens⟩
  nickname_valid := by decide +kernel
  userID_nonempty := by decide
  deviceID_nonempty := by decide
  publicKey_nonempty := by decide +kernel
  recipientDeviceID_nonempty := by decide
  nonce_valid := ⟨by decide +kernel, forall_mem_of_all (by decide +kernel)⟩
  identity_published := Base64.decode_encode _
  key_published := Base64.decode_encode _
  agreed := repeated_agreed
  first_fits := by
    obtain ⟨n, rfl⟩ : ∃ m, n = m + 1 := ⟨n - 1, by omega⟩
    refine ⟨"x", (List.replicate n 'x').map String.singleton, ?_, by decide⟩
    simp [scalars, List.replicate_succ]

theorem length_longSigner_sign (message : Bytes) : (longSigner.sign message).length = 72 :=
  length_take_padded 72 _

theorem length_letters (n : Nat) : (utf8 (String.ofList (List.replicate n 'x'))).length = n := by
  rw [utf8_ofList_of_ascii (by simp), List.length_map, List.length_replicate]

theorem wireLength_lettersTo {n : Nat} (hn : 0 < n) (hle : n ≤ 768) :
    (lettersTo n hn).wireLength = 438 + n := by
  have htext : (utf8 (clamp scalars (String.ofList (List.replicate n 'x')))).length = n := by
    rw [clamp_eq_self scalars (by rw [length_letters]; exact hle), length_letters]
  have hnickname : (utf8 (longSignatures.normalize "alice")).length = 5 := by decide +kernel
  have hkey : (utf8 longSigner.publicKey).length = 88 := by decide +kernel
  have huser : (utf8 "11111111-1111-4111-8111-111111111111").length = 36 := by decide
  have hdevice : (utf8 "22222222-2222-4222-8222-222222222222").length = 36 := by decide
  have hrecipient : (utf8 "33333333-3333-4333-8333-333333333333").length = 36 := by decide
  rw [TextExchange.wireLength, TextExchange.signature]
  simp only [lettersTo, htext, length_longSigner_sign, hnickname, hkey, huser, hdevice, hrecipient]
  omega

theorem text_delivered_iff_longest :
    ∃ x : TextExchange longSignatures sumSuite scalars, (utf8 x.text).length = 762 ∧
      ∃ wire, x.sealed = some wire ∧ wire.length ≤ 1200 ∧
        ∃ t, openWire longSignatures x.recipient wire 1700000060000 = some t ∧
          t.fields.text = clamp scalars x.text := by
  refine ⟨lettersTo 762 (by decide), length_letters 762, ?_⟩
  obtain ⟨wire, hsealed, hlen, hopen⟩ := (lettersTo 762 (by decide)).text_delivered_iff.1.mpr
    (by rw [wireLength_lettersTo _ (by decide)])
  exact ⟨wire, hsealed, hlen, hopen 1700000060000 (by decide)⟩

/-- A text that `clamp` leaves alone is too long for the wire. -/
theorem text_never_sealed :
    ∃ x : TextExchange longSignatures sumSuite scalars, (utf8 x.userID).length = 36 ∧
      (utf8 x.deviceID).length = 36 ∧
      (utf8 x.recipientDeviceID).length = 36 ∧ (utf8 x.signer.publicKey).length = 88 ∧
      x.signature.length = 72 ∧ (utf8 x.text).length = maximumTextBytes ∧ x.sealed = none := by
  refine ⟨lettersTo 768 (by decide), by decide, by decide, by decide, by decide +kernel,
    length_longSigner_sign _, length_letters 768, ?_⟩
  rw [TextExchange.sealed_iff, wireLength_lettersTo _ (by decide)]
  exact if_neg (by decide)

end Example

end TriNet.Phone
