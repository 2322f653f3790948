import TriNet.CallApi.Membership
import TriNet.Phone.DirectMessageCodec

namespace TriNet.Phone

open CallApi Lib Lib.BigEndian Lib.Runs InternetDirectMessageCrypto

variable {σ κ : Type} {F : Foundation} {S : MessageSuite σ κ} {env : Env}

def InternetDirectMessageSealedEnvelope.request (e : InternetDirectMessageSealedEnvelope) :
    DirectMessageEnvelopeRequest where
  cryptoVersion := e.cryptoVersion
  recipientDeviceId := e.recipientDeviceID
  recipientKeyFingerprint := e.recipientKeyFingerprint
  ephemeralPublicKey := e.ephemeralPublicKey
  nonce := e.nonce
  ciphertext := e.ciphertext
  senderSignature := e.senderSignature

structure Signer (F : Foundation) where
  key : Bytes
  sign : Bytes → Bytes
  key_valid : F.isX963Key key = true
  shape : ∀ message, signatureShapeValid F (sign message) = true
  verifies : ∀ message, F.isValidSignature key message (sign message) = true

def Signer.publicKey (signer : Signer F) : String := Base64.encode signer.key

def Signer.signMessage (signer : Signer F) (message : Bytes) : Option String :=
  some (Base64.encode (signer.sign message))

theorem Signer.verifyMessage_sign (signer : Signer F) (message : Bytes) :
    F.verifyMessage message (Base64.encode (signer.sign message)) signer.publicKey = true := by
  have hder := (Bool.and_eq_true_iff.mp (signer.shape message)).2
  simp only [Foundation.verifyMessage, publicKey, F.base64Decoded_encode, signer.key_valid,
    hder, Bool.true_and]
  exact signer.verifies message

theorem Signer.fingerprint_publicKey (signer : Signer F) :
    F.fingerprint signer.publicKey = some (F.digest signer.key) := by
  rw [Foundation.fingerprint, publicKey, F.base64Decoded_encode, Option.map_some]

/-- The server's libraries read what the phone's write and judge keys and
signatures alike. -/
structure Agrees (F : Foundation) (env : Env) : Prop where
  base64Decode : ∀ bs, env.base64Decode (Base64.encode bs) = some bs
  base64Encode : ∀ bs, env.base64Encode bs = Base64.encode bs
  uuidParse : ∀ s, uuidIsValid s = true → env.uuidParse s = some (toAsciiLowercase s)
  isSec1Key : ∀ key, env.isSec1Key key = F.isX963Key key
  isDerSignature : ∀ signature, env.isDerSignature signature = F.isDerSignature signature
  verify : ∀ key message signature, env.verify key message signature =
    F.isValidSignature key message signature

/-- A device that the server has stored, in whatever run. -/
def Registered (env : Env) (deviceID : String) : Prop :=
  ∃ clock es, ((run (Server.step env) { clock, db := {} } es).db.devices.find deviceID).isSome = true

/-- A valid plaintext between a sender and a registered recipient device that
the phone takes for valid, whose published key and fingerprint are those of the
key it holds. -/
structure Exchange (F : Foundation) (S : MessageSuite σ κ) (env : Env) where
  plaintext : InternetDirectMessagePlaintext
  normalized : InternetDirectMessagePlaintext
  senderUserID : String
  senderDeviceID : String
  signer : Signer F
  recipient : InternetDirectMessageRecipientKey
  recipientKey : σ
  ephemeralKey : σ
  secret : Bytes
  nonceData : Option Bytes
  drawn : { nonce : Bytes // nonce.length = 12 }
  plaintext_valid : validatedPlaintext F plaintext false = .ok normalized
  senderUser_valid : validIdentifier F senderUserID = true
  senderDevice_valid : validIdentifier F senderDeviceID = true
  registered : Registered env recipient.deviceID
  recipientDevice_valid : validIdentifier F (trim recipient.deviceID) = true
  published : F.base64Decoded recipient.publicKeyBase64 = some (S.curve.publicKey recipientKey)
  fingerprint_matches : normalizedFingerprint F recipient.keyFingerprint =
    some (F.digest (S.curve.publicKey recipientKey))
  agreed : S.curve.sharedSecret ephemeralKey (S.curve.publicKey recipientKey) = some secret
  recipientKey_nonzero : allZero (S.curve.publicKey recipientKey) = false
  ephemeralKey_nonzero : allZero (S.curve.publicKey ephemeralKey) = false
  secret_nonzero : allZero secret = false
  nonce_length : (nonceData.getD drawn.1).length = 12

namespace Exchange

def nonce (x : Exchange F S env) : Bytes := x.nonceData.getD x.drawn.1

def context (x : Exchange F S env) : MessageContext where
  senderUserID := x.senderUserID
  senderDeviceID := x.senderDeviceID
  recipientNickname := x.normalized.recipientNickname
  recipientDeviceID := trim x.recipient.deviceID
  recipientKeyFingerprint := F.digest (S.curve.publicKey x.recipientKey)
  clientMessageID := x.normalized.clientMessageID
  ephemeralPublicKey := S.curve.publicKey x.ephemeralKey
  nonce := x.nonce

def ciphertext (x : Exchange F S env) : Bytes :=
  S.cipher.encrypt (deriveKey S x.secret x.context) x.nonce (authenticatedData x.context)
    (plaintextBody x.normalized)

def drafted (x : Exchange F S env) : Draft := ⟨x.context, x.ciphertext⟩

def signature (x : Exchange F S env) : Bytes := x.signer.sign x.drafted.signaturePayload

def envelope (x : Exchange F S env) : InternetDirectMessageSealedEnvelope where
  cryptoVersion := cryptoVersion
  recipientDeviceID := trim x.recipient.deviceID
  recipientKeyFingerprint := F.digest (S.curve.publicKey x.recipientKey)
  ephemeralPublicKey := Base64.encode (S.curve.publicKey x.ephemeralKey)
  nonce := Base64.encode x.nonce
  ciphertext := Base64.encode x.ciphertext
  senderSignature := Base64.encode x.signature

section Phone

variable (x : Exchange F S env)

theorem context_eq :
    { senderUserID := x.senderUserID
      senderDeviceID := x.senderDeviceID
      recipientNickname := x.normalized.recipientNickname
      recipientDeviceID := trim x.recipient.deviceID
      recipientKeyFingerprint := F.digest (S.curve.publicKey x.recipientKey)
      clientMessageID := x.normalized.clientMessageID
      ephemeralPublicKey := S.curve.publicKey x.ephemeralKey
      nonce := x.nonce : MessageContext } = x.context := rfl

theorem isNormalized : Normalized F x.normalized := normalized_of_validatedPlaintext x.plaintext_valid

theorem length_ciphertext : 16 < x.ciphertext.length ∧ x.ciphertext.length ≤ 3990 := by
  have hbody := x.isNormalized.length_plaintextBody
  have hpos : 0 < (plaintextBody x.normalized).length := by
    have hdomain : plaintextDomain.length = 34 := by decide +kernel
    simp only [plaintextBody, List.length_append]
    omega
  rw [ciphertext, S.length_encrypt]
  omega

theorem fieldsFit : FieldsFit x.context x.ciphertext cryptoVersion := by
  have hn := x.isNormalized
  have hidentifier {s : String} (h : validIdentifier F s = true) : (utf8 s).length < 2 ^ 32 :=
    Nat.lt_of_le_of_lt (validIdentifier_spec h).2.2.2 (by decide)
  have hfingerprint := isFingerprint_digest (F := F) (S.curve.publicKey x.recipientKey)
  have hhex : (utf8 (F.digest (S.curve.publicKey x.recipientKey))).length = 24 := by
    rw [length_utf8, hfingerprint.graphic.utf8ByteSize_eq, hfingerprint.length]
  intro field hfield
  simp only [signatureFields, context, List.mem_cons, List.not_mem_nil, or_false] at hfield
  rcases hfield with rfl | rfl | rfl | rfl | rfl | rfl | rfl | rfl | rfl | rfl
  · exact hidentifier x.senderUser_valid
  · exact hidentifier x.senderDevice_valid
  · exact Nat.lt_of_le_of_lt (Normalized.length_nickname hn.recipientNickname) (by decide)
  · exact Nat.lt_of_lt_of_le (Nat.lt_succ_self 1) (by decide)
  · exact hidentifier x.recipientDevice_valid
  · rw [hhex]
    decide
  · rw [hn.length_clientMessageID]
    decide
  · rw [S.length_publicKey]
    decide
  · rw [nonce, x.nonce_length]
    decide
  · exact Nat.lt_of_le_of_lt x.length_ciphertext.2 (by decide)

theorem ciphertext_fits :
    (x.ciphertext.length > authenticationTagBytes && x.ciphertext.length ≤ maximumCiphertextBytes) =
      true := by
  obtain ⟨hlo, hhi⟩ := x.length_ciphertext
  rw [Bool.and_eq_true, decide_eq_true_eq, decide_eq_true_eq]
  exact ⟨hlo, Nat.le_trans hhi (by decide)⟩

theorem decodeBase64_eq {value : String} {bs : Bytes} {n : Nat}
    (hdecoded : F.base64Decoded value = some bs)
    (hlen : bs.length = n) : decodeBase64 F value n = some bs := by
  rw [decodeBase64, hdecoded, Option.filter_some, if_pos (decide_eq_true hlen)]

theorem draft_eq :
    draft F S x.plaintext x.senderUserID x.senderDeviceID x.recipient x.ephemeralKey x.nonceData x.drawn =
      .ok x.drafted := by
  have hpublic : decodeBase64 F x.recipient.publicKeyBase64 x25519KeyBytes =
      some (S.curve.publicKey x.recipientKey) :=
    decodeBase64_eq x.published (S.length_publicKey x.recipientKey)
  have hephemeral : (S.curve.publicKey x.ephemeralKey).length = x25519KeyBytes :=
    S.length_publicKey x.ephemeralKey
  have hnonce : (x.nonceData.getD x.drawn.1).length = nonceBytes := x.nonce_length
  have hbody : encodePlaintext x.normalized = .ok (plaintextBody x.normalized) := by
    rw [encodePlaintext, decide_eq_true
      (Nat.le_trans x.isNormalized.length_plaintextBody (by decide)), ensure_true, ok_bind]
    rfl
  rw [draft]
  simp only [x.senderUser_valid, x.senderDevice_valid, x.recipientDevice_valid,
    x.fingerprint_matches, hpublic,
    x.recipientKey_nonzero, x.agreed, x.secret_nonzero, x.plaintext_valid, hephemeral,
    x.ephemeralKey_nonzero, hnonce, hbody,
    Bool.and_self, Bool.not_false, beq_self_eq_true, decide_true, ensure_true, unwrap_some, ok_bind]
  -- what is left is the bound on the ciphertext
  change (ensure (x.ciphertext.length > authenticationTagBytes &&
    x.ciphertext.length ≤ maximumCiphertextBytes) _ >>= fun _ => pure x.drafted) = _
  rw [x.ciphertext_fits, ensure_true, ok_bind]
  rfl

theorem sealMessage_eq :
    sealMessage F S x.plaintext x.senderUserID x.senderDeviceID x.recipient x.ephemeralKey
      x.nonceData x.drawn x.signer.signMessage = .ok x.envelope := by
  rw [sealMessage, x.draft_eq, ok_bind, finish, Signer.signMessage, unwrap_some, ok_bind,
    F.base64Decoded_encode, unwrap_some, ok_bind, x.signer.shape, ensure_true, ok_bind]
  rfl

theorem openMessage_eq :
    openMessage F S x.envelope x.senderUserID x.senderDeviceID x.signer.publicKey (F.digest x.signer.key)
      (trim x.recipient.deviceID) x.recipientKey x.normalized.clientMessageID x.normalized.senderNickname
      x.normalized.recipientNickname = .ok x.normalized := by
  have hn := x.isNormalized
  have hephemeral : decodeBase64 F (Base64.encode (S.curve.publicKey x.ephemeralKey)) x25519KeyBytes =
      some (S.curve.publicKey x.ephemeralKey) :=
    decodeBase64_eq (F.base64Decoded_encode _) (S.length_publicKey x.ephemeralKey)
  have hnonce : decodeBase64 F (Base64.encode x.nonce) nonceBytes = some x.nonce :=
    decodeBase64_eq (F.base64Decoded_encode _) x.nonce_length
  have hsecret : S.curve.sharedSecret x.recipientKey (S.curve.publicKey x.ephemeralKey) = some x.secret :=
    (S.curve.agreement _ _).trans x.agreed
  have hsender := x.signer.fingerprint_publicKey
  have hverify : F.verifyMessage (senderSignaturePayload x.context x.ciphertext cryptoVersion)
      (Base64.encode x.signature) x.signer.publicKey = true := x.signer.verifyMessage_sign _
  have hshape : signatureShapeValid F x.signature = true := x.signer.shape _
  have hopen : S.cipher.decrypt (deriveKey S x.secret x.context) x.nonce
      (authenticatedData x.context) x.ciphertext =
      some (plaintextBody x.normalized) := S.cipher.decrypt_encrypt _ _ _ _
  rw [openMessage]
  simp only [envelope, x.senderUser_valid, x.senderDevice_valid, x.recipientDevice_valid,
    hn.clientMessageID.normalizedUUID_eq, hn.senderFixed, hn.recipientFixed,
    hn.senderError, hn.recipientError,
    (isFingerprint_digest _).normalizedFingerprint_eq, hsender, hephemeral, x.ephemeralKey_nonzero, hnonce,
    F.base64Decoded_encode, x.ciphertext_fits, hshape, Option.isNone_none, Bool.and_self,
    Bool.not_false, beq_self_eq_true, ensure_true, unwrap_some, ok_bind]
  rw [x.context_eq]
  simp only [hverify, hsecret, x.secret_nonzero, hopen, hn.decodePlaintext_eq, Bool.and_self,
    Bool.not_false, beq_self_eq_true, ensure_true, unwrap_some, ok_bind]
  rfl

end Phone

structure Authenticated (x : Exchange F S env) (auth : AuthenticatedDevice) : Prop where
  userId : auth.userId = x.senderUserID
  deviceId : auth.deviceId = x.senderDeviceID
  signingPublicKey : auth.signingPublicKey = x.signer.publicKey

def accepted (x : Exchange F S env) : NormalizedDirectMessageEnvelope where
  cryptoVersion := cryptoVersion
  recipientDeviceId := trim x.recipient.deviceID
  recipientKeyFingerprint := F.digest (S.curve.publicKey x.recipientKey)
  ephemeralPublicKey := S.curve.publicKey x.ephemeralKey
  nonce := x.nonce
  ciphertext := x.ciphertext
  senderSignature := x.signature

section Server

variable (x : Exchange F S env) {auth : AuthenticatedDevice}

theorem decodeBoundedBase64_encode (hagrees : Agrees F env) {bs : Bytes} {maximumBytes : Nat}
    (label : String) (hpos : 0 < bs.length) (hle : bs.length ≤ maximumBytes) :
    decodeBoundedBase64 env (Base64.encode bs) maximumBytes label = .ok bs := by
  have hgraphic := isGraphic_base64 bs
  have hlen := Base64.length_encode bs
  have hempty : (Base64.encode bs).isEmpty = false := by
    rw [Bool.eq_false_iff]
    intro hempty
    rw [String.isEmpty_iff.mp hempty, String.toList_empty, List.length_nil] at hlen
    omega
  have hsize : ¬ (Base64.encode bs).utf8ByteSize > (maximumBytes + 2) / 3 * 4 + 4 := by
    rw [hgraphic.utf8ByteSize_eq, hlen]
    omega
  simp only [decodeBoundedBase64, hgraphic.trim_eq, hempty, hsize, hagrees.base64Decode, okOr,
    Nat.not_lt.mpr hle, gt_iff_lt, decide_false, Bool.or_self, refuseIf_false, ok_bind]
  rfl

theorem verifySignature_eq (hagrees : Agrees F env) (hauth : x.Authenticated auth) :
    env.verifySignature auth.signingPublicKey (env.base64Encode x.signature)
      x.drafted.signaturePayload = .ok () := by
  have hder := (Bool.and_eq_true_iff.mp (x.signer.shape x.drafted.signaturePayload)).2
  rw [hauth.signingPublicKey, hagrees.base64Encode]
  simp only [Env.verifySignature, Env.decodePublicKey, Signer.publicKey, signature,
    hagrees.base64Decode, okOr,
    hagrees.isSec1Key, x.signer.key_valid, hagrees.isDerSignature, hder, hagrees.verify,
    x.signer.verifies, Bool.not_true, refuseIf_false, ok_bind]

theorem payload_eq (hauth : x.Authenticated auth) :
    directMessageSignaturePayload auth.userId auth.deviceId
      (normalizeNickname x.normalized.recipientNickname)
        cryptoVersion (trim x.recipient.deviceID) (F.digest (S.curve.publicKey x.recipientKey))
        x.normalized.clientMessageID (S.curve.publicKey x.ephemeralKey) x.nonce x.ciphertext =
      x.drafted.signaturePayload := by
  rw [Draft.signaturePayload, drafted, senderSignaturePayload_eq x.fieldsFit, hauth.userId,
    hauth.deviceId, x.isNormalized.recipientNickname.normalizeNickname_eq]
  rfl

theorem key_bounds : 0 < (S.curve.publicKey x.ephemeralKey).length ∧
    (S.curve.publicKey x.ephemeralKey).length ≤ DirectMessage.x25519PublicKeyBytes := by
  rw [S.length_publicKey]
  decide

theorem nonce_bounds : 0 < x.nonce.length ∧ x.nonce.length ≤ DirectMessage.aeadNonceBytes := by
  rw [nonce, x.nonce_length]
  decide

theorem ciphertext_bounds :
    0 < x.ciphertext.length ∧ x.ciphertext.length ≤ DirectMessage.maxCiphertextBytes := by
  obtain ⟨hlo, hhi⟩ := x.length_ciphertext
  exact ⟨Nat.lt_trans (by decide) hlo, Nat.le_trans hhi (by decide)⟩

theorem signature_bounds : 0 < x.signature.length ∧ x.signature.length ≤ 128 := by
  have hshape : signatureShapeValid F x.signature = true := x.signer.shape _
  simp only [signatureShapeValid, Bool.and_eq_true, Bool.not_eq_true', decide_eq_true_eq] at hshape
  exact ⟨List.length_pos_iff.mpr (by simpa using hshape.1.1), hshape.1.2⟩

theorem envelopeIsValid_eq :
    DirectMessage.envelopeIsValid cryptoVersion (min (S.curve.publicKey x.ephemeralKey).length 65535)
      ((S.curve.publicKey x.ephemeralKey).all (· == 0)) (min x.nonce.length 65535)
        (min x.ciphertext.length 65535) true =
      true := by
  have hzero : (S.curve.publicKey x.ephemeralKey).all (· == 0) = false := x.ephemeralKey_nonzero
  obtain ⟨hlo, hhi⟩ := x.length_ciphertext
  have hmin : min x.ciphertext.length 65535 = x.ciphertext.length :=
    Nat.min_eq_left (Nat.le_trans hhi (by decide))
  have htag : decide (x.ciphertext.length > DirectMessage.aeadTagBytes) = true := decide_eq_true hlo
  rw [hmin, hzero, S.length_publicKey, nonce, x.nonce_length, DirectMessage.envelopeIsValid, htag,
    decide_eq_true x.ciphertext_bounds.2]
  rfl

/-- The phone counts characters and the server bytes. A registered id came in a
header, so it has no line breaks, which are one character of two bytes. -/
theorem utf8ByteSize_recipient_le : (trim x.recipient.deviceID).utf8ByteSize ≤ 128 := by
  have hvalid := x.recipientDevice_valid
  simp only [validIdentifier, Bool.and_eq_true, decide_eq_true_eq] at hvalid
  obtain ⟨⟨⟨-, hcount⟩, hascii⟩, -⟩ := hvalid
  obtain ⟨clock, es, hstored⟩ := x.registered
  have hreturn := notMem_return_of_visible (Server.visible_of_stored env clock es hstored)
  rw [F.count_ascii _ hascii, asciiCount_eq_length (fun hc => hreturn (mem_of_mem_trim hc))] at hcount
  rwa [utf8ByteSize_of_ascii hascii]

theorem normalizeDirectMessageEnvelope_eq (hagrees : Agrees F env) (hauth : x.Authenticated auth) :
    normalizeDirectMessageEnvelope env auth (normalizeNickname x.normalized.recipientNickname)
      x.normalized.clientMessageID x.envelope.request = .ok x.accepted := by
  obtain ⟨hempty, hascii, htrim, -⟩ := validIdentifier_spec x.recipientDevice_valid
  have hfingerprint := isFingerprint_digest (F := F) (S.curve.publicKey x.recipientKey)
  have hhex : (F.digest (S.curve.publicKey x.recipientKey)).toList.all isAsciiHexdigit = true := by
    have hall : ∀ c ∈ lowerHex, isAsciiHexdigit c = true := forall_mem_of_all (by decide +kernel)
    exact List.all_eq_true.mpr (fun c hc => hall c (hfingerprint.hex c hc))
  have hdevice : ¬ (trim x.recipient.deviceID).utf8ByteSize > 128 :=
    Nat.not_lt.mpr x.utf8ByteSize_recipient_le
  simp only [normalizeDirectMessageEnvelope, InternetDirectMessageSealedEnvelope.request,
    envelope, htrim, hempty,
    hdevice, hascii, hfingerprint.graphic.trim_eq, toAsciiLowercase_eq_self hfingerprint.lower,
    hfingerprint.graphic.utf8ByteSize_eq, hfingerprint.length, hhex, bne_self_eq_false,
    decide_false, Bool.or_self, Bool.not_true, refuseIf_false, ok_bind]
  rw [decodeBoundedBase64_encode hagrees _ x.key_bounds.1 x.key_bounds.2, ok_bind,
    decodeBoundedBase64_encode hagrees _ x.nonce_bounds.1 x.nonce_bounds.2, ok_bind,
    decodeBoundedBase64_encode hagrees _ x.ciphertext_bounds.1 x.ciphertext_bounds.2, ok_bind,
    decodeBoundedBase64_encode hagrees _ x.signature_bounds.1 x.signature_bounds.2, ok_bind,
    x.payload_eq hauth, x.verifySignature_eq hagrees hauth, x.envelopeIsValid_eq]
  rfl

theorem normalizeUuid_eq (hagrees : Agrees F env) (field : String) :
    env.normalizeUuid x.normalized.clientMessageID field = .ok x.normalized.clientMessageID := by
  have hid := x.isNormalized.clientMessageID
  rw [Env.normalizeUuid, hid.graphic.trim_eq, hagrees.uuidParse _ hid.valid,
    toAsciiLowercase_eq_self hid.lower]
  rfl

end Server

/-- Everything that the phone takes for valid is sealed within the bounds of
both sides and opened to the normalised plaintext. The server rebuilds the
signed bytes and accepts the envelope, and the signed bytes say their fields. -/
theorem sealed_accepted (x : Exchange F S env) (hagrees : Agrees F env) {auth : AuthenticatedDevice}
    (hauth : x.Authenticated auth) :
    (∃ d envelope,
      draft F S x.plaintext x.senderUserID x.senderDeviceID x.recipient x.ephemeralKey
        x.nonceData x.drawn = .ok d ∧
      sealMessage F S x.plaintext x.senderUserID x.senderDeviceID x.recipient x.ephemeralKey
        x.nonceData x.drawn x.signer.signMessage = .ok envelope ∧
      openMessage F S envelope x.senderUserID x.senderDeviceID x.signer.publicKey (F.digest x.signer.key)
        (trim x.recipient.deviceID) x.recipientKey x.normalized.clientMessageID x.normalized.senderNickname
        x.normalized.recipientNickname = .ok x.normalized ∧
      (plaintextBody x.normalized).length ≤ maximumPlaintextBytes ∧
      d.ciphertext.length ≤ maximumCiphertextBytes ∧
      d.ciphertext.length ≤ DirectMessage.maxCiphertextBytes ∧ ∃ clientMessageID e,
        env.normalizeUuid x.normalized.clientMessageID "client_message_id" = .ok clientMessageID ∧
        normalizeDirectMessageEnvelope env auth (normalizeNickname x.normalized.recipientNickname)
          clientMessageID envelope.request = .ok e ∧
        d.signaturePayload =
          directMessageSignaturePayload auth.userId auth.deviceId
            (normalizeNickname x.normalized.recipientNickname)
            e.cryptoVersion e.recipientDeviceId e.recipientKeyFingerprint clientMessageID
            e.ephemeralPublicKey e.nonce e.ciphertext) ∧
    ∀ (c c' : MessageContext) (ciphertext ciphertext' : Bytes) (version version' : UInt8),
      FieldsFit c ciphertext version → FieldsFit c' ciphertext' version' →
      directMessageSignaturePayload c.senderUserID c.senderDeviceID c.recipientNickname
        version c.recipientDeviceID
          c.recipientKeyFingerprint c.clientMessageID c.ephemeralPublicKey c.nonce ciphertext =
        directMessageSignaturePayload c'.senderUserID c'.senderDeviceID c'.recipientNickname version'
          c'.recipientDeviceID c'.recipientKeyFingerprint c'.clientMessageID c'.ephemeralPublicKey c'.nonce
          ciphertext' →
      c = c' ∧ ciphertext = ciphertext' ∧ version = version' := by
  constructor
  · exact ⟨x.drafted, x.envelope, x.draft_eq, x.sealMessage_eq, x.openMessage_eq,
      Nat.le_trans x.isNormalized.length_plaintextBody (by decide),
      Nat.le_trans x.length_ciphertext.2 (by decide),
      x.ciphertext_bounds.2, _, x.accepted, x.normalizeUuid_eq hagrees _,
      x.normalizeDirectMessageEnvelope_eq hagrees hauth, (x.payload_eq hauth).symm⟩
  · intro c c' ciphertext ciphertext' version version' hc hc' h
    rw [← senderSignaturePayload_eq hc, ← senderSignaturePayload_eq hc'] at h
    exact senderSignaturePayload_inj hc hc' h

end Exchange

section Example

open Lib.Symbolic

def sumSuite : MessageSuite { key : Bytes // key.length = 32 } Term where
  curve :=
    { publicKey := Subtype.val
      sharedSecret := fun mine theirs => some (mine.1.zipWith (· + ·) theirs)
      agreement := fun a b => congrArg some (List.zipWith_comm_of_comm (fun x y => UInt8.add_comm x y)) }
  hkdf := free
  cipher := Aead.tagged Term 16
  length_publicKey := Subtype.property
  length_encrypt _ _ _ pt := by simp [Aead.tagged]

def repeated (b : UInt8) : { key : Bytes // key.length = 32 } :=
  ⟨List.replicate 32 b, List.length_replicate⟩

def plainSigner : Signer plainFoundation where
  key := utf8 "key"
  sign message := ((utf8 "key" ++ message) ++ List.replicate 32 0).take 32
  key_valid := rfl
  shape message := by
    have hlen : (((utf8 "key" ++ message) ++ List.replicate 32 (0 : UInt8)).take 32).length = 32 := by
      rw [List.length_take, List.length_append, List.length_replicate]
      omega
    rw [signatureShapeValid, hlen,
      List.isEmpty_eq_false_iff.mpr (List.ne_nil_of_length_pos (by rw [hlen]; decide))]
    rfl
  verifies _ := beq_self_eq_true _

def plainServer : Env where
  sha256 := plainFoundation.sha256
  base64Decode := Base64.decode
  base64Encode := Base64.encode
  uuidParse s := some (toAsciiLowercase s)
  isSec1Key := plainFoundation.isX963Key
  isDerSignature := plainFoundation.isDerSignature
  verify := plainFoundation.isValidSignature
  serviceAccessToken := none
  livekitUrl := "wss://livekit"
  livekitApiKey := "api-key"
  apnsFallbackEnvironment := none

theorem plainServer_agrees : Agrees plainFoundation plainServer :=
  ⟨Base64.decode_encode, fun _ => rfl, fun _ _ => rfl, fun _ => rfl, fun _ => rfl, fun _ _ _ => rfl⟩

def greeting : InternetDirectMessagePlaintext where
  clientMessageID := " 123E4567-e89b-12d3-a456-426614174000"
  senderNickname := "Alice"
  recipientNickname := "bob"
  text := "hello"
  createdAtMilliseconds := 1000

def greetingSent : InternetDirectMessagePlaintext :=
  { greeting with clientMessageID := "123e4567-e89b-12d3-a456-426614174000", senderNickname := "alice" }

theorem length_sevens : (List.replicate 12 (7 : UInt8)).length = 12 := List.length_replicate

theorem repeated_agreed :
    sumSuite.curve.sharedSecret (repeated 2) (sumSuite.curve.publicKey (repeated 1)) =
      some (List.replicate 32 3) := by
  decide +kernel

/-- The tablet registers with its text key. -/
def registerTablet : Incoming where
  headers :=
    { authorization := none
      deviceId := some "tablet"
      timestamp := some "1000"
      nonce := some "nonce-t-00000001"
      signature := some (Base64.encode (plainSigner.sign (utf8
        (canonical plainServer "POST" "/v1/devices/register" "1000" "nonce-t-00000001"
          (utf8 "register tablet"))))) }
  body := utf8 "register tablet"
  request := .registerDevice
    { userId := "bob"
      deviceId := "tablet"
      displayName := "tablet"
      signingPublicKey := plainSigner.publicKey
      textEncryptionPublicKey := some (Base64.encode (repeated 1).1)
      keyFingerprint := plainServer.fingerprint plainSigner.key
      platform := "ios"
      voipPushToken := none
      alertPushToken := none
      pushEnvironment := none
      capabilities := ["audio", "webrtc"] }

theorem tablet_registered : Registered plainServer "tablet" := by
  refine ⟨1000, [.arrive registerTablet, .authenticate 0, .body 0 (plainDraw 1000 0)], ?_⟩
  decide +kernel

def greetingToTablet : Exchange plainFoundation sumSuite plainServer where
  plaintext := greeting
  normalized := greetingSent
  senderUserID := "user"
  senderDeviceID := "phone"
  signer := plainSigner
  recipient := ⟨"tablet", Base64.encode (repeated 1).1, plainFoundation.digest (repeated 1).1⟩
  recipientKey := repeated 1
  ephemeralKey := repeated 2
  secret := List.replicate 32 3
  nonceData := none
  drawn := ⟨List.replicate 12 7, length_sevens⟩
  plaintext_valid := by decide +kernel
  senderUser_valid := by decide +kernel
  senderDevice_valid := by decide +kernel
  registered := tablet_registered
  recipientDevice_valid := by decide +kernel
  published := plainFoundation.base64Decoded_encode _
  fingerprint_matches := (isFingerprint_digest _).normalizedFingerprint_eq
  agreed := repeated_agreed
  recipientKey_nonzero := by decide +kernel
  ephemeralKey_nonzero := by decide +kernel
  secret_nonzero := by decide +kernel
  nonce_length := length_sevens

def alicePhone : AuthenticatedDevice := ⟨"user", "phone", "Alice", plainSigner.publicKey, "", 0⟩

theorem sealed_accepted_tablet :
    greetingToTablet.Authenticated alicePhone ∧
      ∃ envelope e,
        sealMessage plainFoundation sumSuite greeting "user" "phone"
          greetingToTablet.recipient (repeated 2) none
          ⟨List.replicate 12 7, length_sevens⟩ plainSigner.signMessage = .ok envelope ∧
        normalizeDirectMessageEnvelope plainServer alicePhone (normalizeNickname "bob")
          greetingSent.clientMessageID envelope.request = .ok e ∧
        openMessage plainFoundation sumSuite envelope "user" "phone" plainSigner.publicKey
          (plainFoundation.digest plainSigner.key) (trim "tablet") (repeated 1)
          greetingSent.clientMessageID "alice" "bob" = .ok greetingSent := by
  have hauth : greetingToTablet.Authenticated alicePhone := ⟨rfl, rfl, rfl⟩
  obtain ⟨⟨d, envelope, -, hsealed, hopened, -, -, -, id, e, hid, he, -⟩, -⟩ :=
    Exchange.sealed_accepted greetingToTablet plainServer_agrees hauth
  obtain rfl := Except.ok.inj ((greetingToTablet.normalizeUuid_eq plainServer_agrees _).symm.trans hid)
  exact ⟨hauth, envelope, e, hsealed, he, hopened⟩

end Example

end TriNet.Phone
