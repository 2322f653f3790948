import TriNet.Lib.Reading
import TriNet.Lib.Symbolic
import TriNet.Phone.Foundation
import TriNet.Phone.ReplayStore

namespace TriNet.Phone

open CallApi Lib Lib.BigEndian Lib.Reading Lib.Symbolic

structure InternetDirectMessageRecipientKey where
  deviceID : String
  publicKeyBase64 : String
  keyFingerprint : String

structure InternetDirectMessageSealedEnvelope where
  cryptoVersion : UInt8
  recipientDeviceID : String
  recipientKeyFingerprint : String
  ephemeralPublicKey : String
  nonce : String
  ciphertext : String
  senderSignature : String
  deriving DecidableEq

structure InternetDirectMessagePlaintext where
  clientMessageID : String
  senderNickname : String
  recipientNickname : String
  text : String
  createdAtMilliseconds : Int64
  deriving DecidableEq

/-- `signingFailed` stands for whatever the signing closure throws. -/
inductive InternetDirectMessageCryptoError
  | invalidSenderIdentity
  | invalidRecipientDevice
  | invalidRecipientKey
  | invalidClientMessageID
  | invalidNickname
  | invalidText
  | invalidTimestamp
  | unsupportedCryptoVersion
  | invalidEnvelopeField (field : String)
  | wrongRecipientDevice
  | wrongRecipientKey
  | senderIdentityMismatch
  | invalidSenderSignature
  | authenticationFailed
  | malformedPlaintext
  | messageMetadataMismatch
  | signingFailed
  deriving DecidableEq

section Guards

variable {ε α : Type}

/-- `guard … else { throw … }` -/
def ensure (b : Bool) (e : ε) : Except ε Unit := if b then .ok () else .error e

/-- `guard let … else { throw … }` -/
def unwrap (o : Option α) (e : ε) : Except ε α :=
  match o with
  | some a => .ok a
  | none => .error e

@[simp] theorem ensure_true (e : ε) : ensure true e = .ok () := rfl

@[simp] theorem unwrap_some (a : α) (e : ε) : unwrap (some a) e = .ok a := rfl

@[simp] theorem ensure_eq_ok {b : Bool} {e : ε} {u : Unit} : ensure b e = .ok u ↔ b = true := by
  cases b <;> simp [ensure]

@[simp] theorem unwrap_eq_ok {o : Option α} {e : ε} {a : α} : unwrap o e = .ok a ↔ o = some a := by
  cases o <;> simp [unwrap]

end Guards

/-- X25519, HKDF over SHA-256 and ChaCha20-Poly1305; a ciphertext comes with
its tag behind it. -/
structure MessageSuite (σ κ : Type) where
  curve : KeyAgreement σ
  hkdf : Hkdf κ
  cipher : Aead κ
  length_publicKey : ∀ a, (curve.publicKey a).length = 32
  length_encrypt : ∀ key nonce aad plaintext, (cipher.encrypt key nonce aad plaintext).length =
    plaintext.length + 16

namespace InternetDirectMessageCrypto

variable {σ κ : Type}

def cryptoVersion : UInt8 := 1
def maximumPlaintextBytes : Nat := 4096
def maximumCiphertextBytes : Nat := 4112
def maximumTextBytes : Nat := 3840
def x25519KeyBytes : Nat := 32
def nonceBytes : Nat := 12
def authenticationTagBytes : Nat := 16
def signatureDomain : Bytes := utf8 "TRINET-DIRECT-MESSAGE-V1"
def plaintextDomain : Bytes := utf8 "TRINET-DIRECT-MESSAGE-PLAINTEXT-V1"
def hkdfDomain : Bytes := utf8 "TRINET-DIRECT-MESSAGE-KEY-V1"
def aeadDomain : Bytes := utf8 "TRINET-DIRECT-MESSAGE-AAD-V1"

def allZero (bytes : Bytes) : Bool := bytes.all (· == 0)

def normalizedUUID (F : Foundation) (value : String) : Option String :=
  let trimmed := trim value
  if uuidIsValid trimmed then some (F.lowercased (toAsciiUppercase trimmed)) else none

def validIdentifier (F : Foundation) (value : String) : Bool :=
  !value.isEmpty && F.count value ≤ 128 && isAscii value && value == trim value

def normalizedFingerprint (F : Foundation) (value : String) : Option String :=
  let result := F.lowercased (trim value)
  if F.count result = 24 && result.toList.all (fun c => c.isDigit || ('a' ≤ c && c ≤ 'f')) then
    some result else none

def decodeBase64 (F : Foundation) (value : String) (exactBytes : Nat) : Option Bytes :=
  (F.base64Decoded value).filter (fun decoded => decoded.length = exactBytes)

/-- `UInt32(_:)` would trap on a field of 2 ^ 32 bytes. -/
def appendLengthPrefixed (value : Bytes) : Bytes := beBytes 4 value.length ++ value

def appendInt64 (value : Int64) : Bytes := beBytes 8 value.toUInt64.toNat

structure MessageContext where
  senderUserID : String
  senderDeviceID : String
  recipientNickname : String
  recipientDeviceID : String
  recipientKeyFingerprint : String
  clientMessageID : String
  ephemeralPublicKey : Bytes
  nonce : Bytes
  deriving DecidableEq

def canonicalMetadata (domain : Bytes) (c : MessageContext) (includeNonce : Bool) : Bytes :=
  domain ++
    ([utf8 c.senderUserID, utf8 c.senderDeviceID, utf8 c.recipientNickname, [cryptoVersion],
        utf8 c.recipientDeviceID, utf8 c.recipientKeyFingerprint, utf8 c.clientMessageID,
          c.ephemeralPublicKey] ++
      if includeNonce then [c.nonce] else []).flatMap appendLengthPrefixed

def signatureFields (c : MessageContext) (ciphertext : Bytes) (cryptoVersion : UInt8) : List Bytes :=
  [utf8 c.senderUserID, utf8 c.senderDeviceID, utf8 c.recipientNickname, [cryptoVersion],
    utf8 c.recipientDeviceID,
    utf8 c.recipientKeyFingerprint, utf8 c.clientMessageID, c.ephemeralPublicKey, c.nonce, ciphertext]

def senderSignaturePayload (c : MessageContext) (ciphertext : Bytes) (cryptoVersion : UInt8) : Bytes :=
  signatureDomain ++ (signatureFields c ciphertext cryptoVersion).flatMap appendLengthPrefixed

def deriveKey (S : MessageSuite σ κ) (sharedSecret : Bytes) (c : MessageContext) : κ :=
  S.hkdf.expand (S.hkdf.extract [] sharedSecret) (canonicalMetadata hkdfDomain c false)

def authenticatedData (c : MessageContext) : Bytes := canonicalMetadata aeadDomain c true

def validatedPlaintext (F : Foundation) (value : InternetDirectMessagePlaintext)
    (requireCanonical : Bool) :
    Except InternetDirectMessageCryptoError InternetDirectMessagePlaintext := do
  let clientMessageID ← unwrap (normalizedUUID F value.clientMessageID) .invalidClientMessageID
  let senderNickname := F.normalize value.senderNickname
  let recipientNickname := F.normalize value.recipientNickname
  ensure ((F.validationError senderNickname).isNone && (F.validationError recipientNickname).isNone)
    .invalidNickname
  ensure (!(requireCanonical &&
    (value.clientMessageID != clientMessageID || value.senderNickname != senderNickname ||
    value.recipientNickname != recipientNickname))) .malformedPlaintext
  ensure (!value.text.isEmpty && (utf8 value.text).length ≤ maximumTextBytes) .invalidText
  ensure (0 < value.createdAtMilliseconds) .invalidTimestamp
  pure ⟨clientMessageID, senderNickname, recipientNickname, value.text, value.createdAtMilliseconds⟩

def plaintextBody (value : InternetDirectMessagePlaintext) : Bytes :=
  plaintextDomain ++ appendLengthPrefixed (utf8 value.clientMessageID) ++
    appendLengthPrefixed (utf8 value.senderNickname) ++
      appendLengthPrefixed (utf8 value.recipientNickname) ++
    appendLengthPrefixed (utf8 value.text) ++ appendInt64 value.createdAtMilliseconds

def encodePlaintext (value : InternetDirectMessagePlaintext) :
    Except InternetDirectMessageCryptoError Bytes := do
  let result := plaintextBody value
  ensure (result.length ≤ maximumPlaintextBytes) .invalidText
  pure result

def readString : Reader String := do
  let length ← uint 4
  require (length ≤ maximumPlaintextBytes)
  lift (decodeUtf8 (← take length))

def readInt64 : Reader Int64 := do return (UInt64.ofNat (← uint 8)).toInt64

def readPlaintext : Reader InternetDirectMessagePlaintext := do
  let clientMessageID ← readString
  let senderNickname ← readString
  let recipientNickname ← readString
  let text ← readString
  let createdAtMilliseconds ← readInt64
  return ⟨clientMessageID, senderNickname, recipientNickname, text, createdAtMilliseconds⟩

def decodePlaintext (F : Foundation) (data : Bytes) :
    Except InternetDirectMessageCryptoError InternetDirectMessagePlaintext := do
  ensure (data.length ≤ maximumPlaintextBytes && plaintextDomain.isPrefixOf data) .malformedPlaintext
  let (value, rest) ← unwrap (readPlaintext (data.drop plaintextDomain.length)) .malformedPlaintext
  ensure rest.isEmpty .malformedPlaintext
  (validatedPlaintext F value true).mapError (fun _ => .malformedPlaintext)

structure Draft where
  context : MessageContext
  ciphertext : Bytes
  deriving DecidableEq

def Draft.signaturePayload (d : Draft) : Bytes :=
  senderSignaturePayload d.context d.ciphertext cryptoVersion

/-- `nonceData` may give the nonce; otherwise `drawn` is taken. -/
def draft (F : Foundation) (S : MessageSuite σ κ) (plaintext : InternetDirectMessagePlaintext)
    (senderUserID senderDeviceID : String) (recipient : InternetDirectMessageRecipientKey)
    (ephemeralPrivateKey : σ)
    (nonceData : Option Bytes) (drawn : { nonce : Bytes // nonce.length = 12 }) :
    Except InternetDirectMessageCryptoError Draft := do
  ensure (validIdentifier F senderUserID && validIdentifier F senderDeviceID) .invalidSenderIdentity
  let recipientDeviceID := trim recipient.deviceID
  ensure (validIdentifier F recipientDeviceID) .invalidRecipientDevice
  let recipientFingerprint ← unwrap (normalizedFingerprint F recipient.keyFingerprint) .invalidRecipientKey
  let recipientPublicKey ← unwrap (decodeBase64 F recipient.publicKeyBase64 x25519KeyBytes)
      .invalidRecipientKey
  ensure (!allZero recipientPublicKey && F.digest recipientPublicKey == recipientFingerprint)
    .invalidRecipientKey
  let sharedSecret ← unwrap (S.curve.sharedSecret ephemeralPrivateKey recipientPublicKey)
      .invalidRecipientKey
  ensure (!allZero sharedSecret) .invalidRecipientKey
  let normalizedPlaintext ← validatedPlaintext F plaintext false
  let ephemeralPublicKey := S.curve.publicKey ephemeralPrivateKey
  ensure (ephemeralPublicKey.length = x25519KeyBytes && !allZero ephemeralPublicKey) .invalidRecipientKey
  let nonce := nonceData.getD drawn.1
  ensure (nonce.length = nonceBytes) (.invalidEnvelopeField "nonce")
  let context : MessageContext :=
    { senderUserID, senderDeviceID, recipientDeviceID, ephemeralPublicKey, nonce
      recipientNickname := normalizedPlaintext.recipientNickname
      recipientKeyFingerprint := recipientFingerprint
      clientMessageID := normalizedPlaintext.clientMessageID }
  let body ← encodePlaintext normalizedPlaintext
  let ciphertext :=
    S.cipher.encrypt (deriveKey S sharedSecret context) nonce (authenticatedData context) body
  ensure (ciphertext.length > authenticationTagBytes && ciphertext.length ≤ maximumCiphertextBytes)
    .invalidText
  pure ⟨context, ciphertext⟩

def signatureShapeValid (F : Foundation) (signature : Bytes) : Bool :=
  !signature.isEmpty && signature.length ≤ 128 && F.isDerSignature signature

def finish (F : Foundation) (d : Draft) (sign : Bytes → Option String) :
    Except InternetDirectMessageCryptoError InternetDirectMessageSealedEnvelope := do
  let signatureText ← unwrap (sign d.signaturePayload) .signingFailed
  let signature ← unwrap (F.base64Decoded signatureText) .invalidSenderSignature
  ensure (signatureShapeValid F signature) .invalidSenderSignature
  pure
    { cryptoVersion
      recipientDeviceID := d.context.recipientDeviceID
      recipientKeyFingerprint := d.context.recipientKeyFingerprint
      ephemeralPublicKey := Base64.encode d.context.ephemeralPublicKey
      nonce := Base64.encode d.context.nonce
      ciphertext := Base64.encode d.ciphertext
      senderSignature := Base64.encode signature }

def sealMessage (F : Foundation) (S : MessageSuite σ κ) (plaintext : InternetDirectMessagePlaintext)
    (senderUserID senderDeviceID : String) (recipient : InternetDirectMessageRecipientKey)
    (ephemeralPrivateKey : σ)
    (nonceData : Option Bytes) (drawn : { nonce : Bytes // nonce.length = 12 })
    (sign : Bytes → Option String) :
    Except InternetDirectMessageCryptoError InternetDirectMessageSealedEnvelope := do
  let d ← draft F S plaintext senderUserID senderDeviceID recipient ephemeralPrivateKey nonceData drawn
  finish F d sign

def openMessage (F : Foundation) (S : MessageSuite σ κ) (envelope : InternetDirectMessageSealedEnvelope)
    (senderUserID senderDeviceID senderSigningPublicKey senderKeyFingerprint recipientDeviceID : String)
    (recipientPrivateKey : σ)
    (expectedClientMessageID expectedSenderNickname expectedRecipientNickname : String) :
    Except InternetDirectMessageCryptoError InternetDirectMessagePlaintext := do
  ensure (envelope.cryptoVersion == cryptoVersion) .unsupportedCryptoVersion
  ensure (validIdentifier F senderUserID && validIdentifier F senderDeviceID &&
    validIdentifier F recipientDeviceID) .invalidSenderIdentity
  ensure (envelope.recipientDeviceID == recipientDeviceID) .wrongRecipientDevice
  let expectedClientID ← unwrap (normalizedUUID F expectedClientMessageID) .invalidClientMessageID
  let expectedSender := F.normalize expectedSenderNickname
  let expectedRecipient := F.normalize expectedRecipientNickname
  ensure ((F.validationError expectedSender).isNone && (F.validationError expectedRecipient).isNone)
    .invalidNickname
  let senderFingerprint ← unwrap (normalizedFingerprint F senderKeyFingerprint) .senderIdentityMismatch
  ensure (F.fingerprint senderSigningPublicKey == some senderFingerprint) .senderIdentityMismatch
  let localRecipientFingerprint := F.digest (S.curve.publicKey recipientPrivateKey)
  let envelopeRecipientFingerprint ←
    unwrap (normalizedFingerprint F envelope.recipientKeyFingerprint) .wrongRecipientKey
  ensure (envelopeRecipientFingerprint == localRecipientFingerprint) .wrongRecipientKey
  let ephemeralPublicKey ←
    unwrap (decodeBase64 F envelope.ephemeralPublicKey x25519KeyBytes)
    (.invalidEnvelopeField "ephemeral key")
  ensure (!allZero ephemeralPublicKey) (.invalidEnvelopeField "ephemeral key")
  let nonce ← unwrap (decodeBase64 F envelope.nonce nonceBytes) (.invalidEnvelopeField "nonce")
  let ciphertext ← unwrap (F.base64Decoded envelope.ciphertext) (.invalidEnvelopeField "ciphertext")
  ensure (ciphertext.length > authenticationTagBytes && ciphertext.length ≤ maximumCiphertextBytes)
    (.invalidEnvelopeField "ciphertext")
  let signature ← unwrap (F.base64Decoded envelope.senderSignature) .invalidSenderSignature
  ensure (signatureShapeValid F signature) .invalidSenderSignature
  let context : MessageContext :=
    { senderUserID, senderDeviceID, recipientDeviceID, ephemeralPublicKey, nonce
      recipientNickname := expectedRecipient
      recipientKeyFingerprint := envelopeRecipientFingerprint
      clientMessageID := expectedClientID }
  ensure (F.verifyMessage (senderSignaturePayload context ciphertext envelope.cryptoVersion)
    envelope.senderSignature senderSigningPublicKey) .invalidSenderSignature
  let sharedSecret ← unwrap (S.curve.sharedSecret recipientPrivateKey ephemeralPublicKey)
      .authenticationFailed
  ensure (!allZero sharedSecret) .authenticationFailed
  let body ← unwrap (S.cipher.decrypt (deriveKey S sharedSecret context) nonce
    (authenticatedData context) ciphertext) .authenticationFailed
  let plaintext ← decodePlaintext F body
  ensure (plaintext.clientMessageID == expectedClientID && plaintext.senderNickname == expectedSender &&
    plaintext.recipientNickname == expectedRecipient) .messageMetadataMismatch
  pure plaintext

end InternetDirectMessageCrypto

end TriNet.Phone
