import TriNet.CallApi.Nicknames
import TriNet.CallApi.Outbox

namespace TriNet.CallApi

open Lib Lib.BigEndian

structure DirectMessageEnvelopeRequest where
  cryptoVersion : UInt8
  recipientDeviceId : String
  recipientKeyFingerprint : String
  ephemeralPublicKey : String
  nonce : String
  ciphertext : String
  senderSignature : String

structure SendDirectMessageRequest where
  userId : String
  deviceId : String
  recipient : String
  clientMessageId : String
  envelopes : List DirectMessageEnvelopeRequest

structure MarkDirectMessageReadRequest where
  userId : String
  deviceId : String
  senderUserId : String
  throughMessageId : Int

structure NormalizedDirectMessageEnvelope where
  cryptoVersion : UInt8
  recipientDeviceId : String
  recipientKeyFingerprint : String
  ephemeralPublicKey : Bytes
  nonce : Bytes
  ciphertext : Bytes
  senderSignature : Bytes

structure DirectMessageRecipientDevice where
  deviceId : String
  textEncryptionPublicKey : String
  textEncryptionKeyFingerprint : String
  keyFingerprint : String

structure DirectMessageRecipientResponse where
  cryptoVersion : UInt8
  nickname : String
  userId : String
  devices : List DirectMessageRecipientDevice

structure DirectMessageSendResponse where
  messageId : Nat
  clientMessageId : String
  recipientUserId : String
  recipientNickname : String
  createdAt : Int
  inserted : Bool

structure DirectMessageReadResponse where
  lastReadMessageId : Nat
  totalUnreadCount : Nat

def loadRecipientDevice (env : Env) (r : DeviceRow) : Except ApiError DirectMessageRecipientDevice := do
  let key ← okOr r.textEncryptionPublicKey (.internal "recipient text-encryption key is missing")
  let decoded ← okOr (env.base64Decode key) (.internal "stored text-encryption key is invalid")
  refuseIf (!DirectMessage.textKeyIsValid (min decoded.length 65535) (decoded.all (· == 0)))
    (.internal "stored text-encryption key is invalid")
  pure ⟨r.deviceId, key, env.fingerprint decoded, r.keyFingerprint⟩

def loadDirectMessageRecipient (env : Env) (db : Db) (auth : AuthenticatedDevice)
    (nickname : String) : Except ApiError DirectMessageRecipientResponse := do
  let senderHasNickname := (db.nicknameOf auth.userId).isSome
  let recipientUserId ← okOr (db.userOfNickname nickname) (.notFound "recipient nickname not found")
  let devices := (db.activeDevices recipientUserId).insertionSort (fun r s => r.deviceId ≤ s.deviceId)
  let keyedDevices := devices.countP (fun r => r.textEncryptionPublicKey.isSome)
  refuseIf (!DirectMessage.recipientMayResolve (auth.userId == recipientUserId) senderHasNickname
      true (min devices.length 65535) (min keyedDevices 65535))
    (.conflict
      (if auth.userId = recipientUserId then "direct messages to your own account are not allowed"
       else if !senderHasNickname then "claim a nickname before sending direct messages"
       else "recipient devices are not ready for end-to-end encrypted messages"))
  let devices ← devices.mapM (loadRecipientDevice env)
  pure ⟨DirectMessage.cryptoVersionV1, nickname, recipientUserId, devices⟩

def decodeBoundedBase64 (env : Env) (value : String) (maximumBytes : Nat) (label : String) :
    Except ApiError Bytes := do
  let value := trim value
  let invalid := ApiError.badRequest ("invalid " ++ label)
  refuseIf (value.isEmpty || value.utf8ByteSize > (maximumBytes + 2) / 3 * 4 + 4) invalid
  let decoded ← okOr (env.base64Decode value) invalid
  refuseIf (decoded.length > maximumBytes) invalid
  pure decoded

def directMessageSignaturePayload (senderUserId senderDeviceId recipientNickname : String)
    (cryptoVersion : UInt8) (recipientDeviceId recipientKeyFingerprint clientMessageId : String)
    (ephemeralPublicKey nonce ciphertext : Bytes) : Bytes :=
  utf8 "TRINET-DIRECT-MESSAGE-V1" ++
    [utf8 senderUserId, utf8 senderDeviceId, utf8 recipientNickname, [cryptoVersion],
      utf8 recipientDeviceId,
      utf8 recipientKeyFingerprint, utf8 clientMessageId, ephemeralPublicKey, nonce,
        ciphertext].flatMap lengthPrefixed

def normalizeDirectMessageEnvelope (env : Env) (auth : AuthenticatedDevice)
    (recipientNickname clientMessageId : String)
    (envelope : DirectMessageEnvelopeRequest) : Except ApiError NormalizedDirectMessageEnvelope := do
  let recipientDeviceId := trim envelope.recipientDeviceId
  refuseIf (recipientDeviceId.isEmpty || recipientDeviceId.utf8ByteSize > 128 ||
    !isAscii recipientDeviceId) (.badRequest "invalid recipient device ID")
  let recipientKeyFingerprint := toAsciiLowercase (trim envelope.recipientKeyFingerprint)
  refuseIf (recipientKeyFingerprint.utf8ByteSize != 24 ||
    !recipientKeyFingerprint.toList.all isAsciiHexdigit)
    (.badRequest "invalid recipient key fingerprint")
  let ephemeralPublicKey ←
    decodeBoundedBase64 env envelope.ephemeralPublicKey DirectMessage.x25519PublicKeyBytes
    "ephemeral public key"
  let nonce ← decodeBoundedBase64 env envelope.nonce DirectMessage.aeadNonceBytes "direct-message nonce"
  let ciphertext ←
    decodeBoundedBase64 env envelope.ciphertext DirectMessage.maxCiphertextBytes
    "direct-message ciphertext"
  let senderSignature ← decodeBoundedBase64 env envelope.senderSignature 128
      "direct-message sender signature"
  let payload :=
    directMessageSignaturePayload auth.userId auth.deviceId recipientNickname envelope.cryptoVersion
    recipientDeviceId recipientKeyFingerprint clientMessageId ephemeralPublicKey nonce ciphertext
  (env.verifySignature auth.signingPublicKey (env.base64Encode senderSignature) payload).mapError
    (fun _ => .badRequest "invalid direct-message sender signature")
  refuseIf (!DirectMessage.envelopeIsValid envelope.cryptoVersion (min ephemeralPublicKey.length 65535)
      (ephemeralPublicKey.all (· == 0)) (min nonce.length 65535) (min ciphertext.length 65535) true)
    (.badRequest "invalid encrypted direct-message envelope")
  pure ⟨envelope.cryptoVersion, recipientDeviceId, recipientKeyFingerprint, ephemeralPublicKey,
    nonce, ciphertext, senderSignature⟩

def Db.directMessageOf (db : Db) (senderDeviceId clientMessageId : String) : Option DirectMessageRow :=
  db.directMessages.rows.find? (fun r => r.senderDeviceId = senderDeviceId ∧
    r.clientMessageId = clientMessageId)

def directMessageEnvelopeIntentMatches (db : Db) (messageId : Nat)
    (requested : List NormalizedDirectMessageEnvelope) : Bool :=
  let stored := (db.directMessageEnvelopes.select (fun r => r.messageId = messageId)).insertionSort
    (fun r s => r.recipientDeviceId ≤ s.recipientDeviceId)
  stored.length == requested.length && (stored.zip requested).all (fun (stored, requested) =>
    stored.cryptoVersion == requested.cryptoVersion &&
      stored.recipientDeviceId == requested.recipientDeviceId &&
      stored.recipientKeyFingerprint == requested.recipientKeyFingerprint &&
      stored.ephemeralPublicKey == requested.ephemeralPublicKey &&
      stored.nonce == requested.nonce && stored.ciphertext == requested.ciphertext)

/-- Rows are never deleted, so the next `AUTOINCREMENT` id follows the largest. -/
def nextMessageId (ids : List Nat) : Nat := ids.foldr max 0 + 1

theorem foldr_max_le_iff {ids : List Nat} {k : Nat} : ids.foldr max 0 ≤ k ↔ ∀ n ∈ ids, n ≤ k := by
  induction ids with
  | nil => simp
  | cons n ids ih => rw [List.foldr_cons, Nat.max_le, ih, List.forall_mem_cons]

def insertEnvelope (messageId : Nat) (envelopes : Table DirectMessageEnvelopeRow.key)
    (e : NormalizedDirectMessageEnvelope) : Except ApiError (Table DirectMessageEnvelopeRow.key) :=
  okOr (envelopes.insert ⟨messageId, e.cryptoVersion, e.recipientDeviceId,
      e.recipientKeyFingerprint, e.ephemeralPublicKey, e.nonce, e.ciphertext, e.senderSignature⟩)
    (.database ("UNIQUE constraint failed: direct_message_envelopes.message_id, " ++
      "direct_message_envelopes.recipient_device_id"))

def alertRecipient (env : Env) (db : Db) (recipientUserId : String) (messageId : Nat)
    (payload : OutboxPayload)
    (now : Int) (outbox : Table OutboxRow.eventId) (device : DirectMessageRecipientDevice) :
    Table OutboxRow.eventId :=
  match (db.devices.find device.deviceId).filter (fun r => r.userId = recipientUserId ∧
    r.revokedAt = none) with
  | none => outbox
  | some r =>
      if r.alertPushToken.isSome && DirectMessage.pushAlertOutboxEventMayEnqueue false
          (pushTokenValid r.alertPushToken r.pushEnvironment) true then
        enqueueApnsOutboxEvent env .directMessage (toString messageId) device.deviceId payload now outbox
      else outbox

def resendDirectMessage (recipientNickname : String) (envelopes : List NormalizedDirectMessageEnvelope)
    (auth : AuthenticatedDevice) (db : Db) (existing : DirectMessageRow) :
    Except ApiError (Db × DirectMessageSendResponse) := do
  refuseIf (existing.senderUserId != auth.userId)
    (.forbidden "client_message_id belongs to the device's previous account")
  refuseIf (!DirectMessage.messageRetryIsIdempotent true (existing.recipientNickname == recipientNickname)
      (directMessageEnvelopeIntentMatches db existing.messageId envelopes))
    (.conflict "client_message_id was already used with different encrypted content")
  pure (db, ⟨existing.messageId, existing.clientMessageId, existing.recipientUserId,
    existing.recipientNickname, existing.createdAt, false⟩)

def commitDirectMessage (env : Env) (recipientNickname clientMessageId : String)
    (envelopes : List NormalizedDirectMessageEnvelope) (uniqueDevices : Nat)
    (auth : AuthenticatedDevice) (draw : Draw)
    (db : Db) : Except ApiError (Db × DirectMessageSendResponse) := do
  let recipient ← loadDirectMessageRecipient env db auth recipientNickname
  let envelopeSetComplete := DirectMessage.envelopeSetIsComplete (min recipient.devices.length 65535)
    (min envelopes.length 65535) (min uniqueDevices 65535)
  let everyEnvelopeMatchesCurrentKey := envelopes.all (fun e => recipient.devices.any (fun device =>
    device.deviceId == e.recipientDeviceId &&
      device.textEncryptionKeyFingerprint == e.recipientKeyFingerprint))
  refuseIf (!DirectMessage.messageMayBeCommitted true envelopeSetComplete
    everyEnvelopeMatchesCurrentKey true)
    (.conflict "encrypted envelopes must match every current recipient device and key")
  let senderNickname ← okOr (db.nicknameOf auth.userId)
      (.conflict "claim a nickname before sending direct messages")
  let messageId := nextMessageId (db.directMessages.rows.map DirectMessageRow.messageId)
  let messages ← okOr
    (db.directMessages.insert ⟨messageId, auth.userId, auth.deviceId, senderNickname,
      auth.signingPublicKey,
      auth.keyFingerprint, recipient.userId, recipient.nickname, clientMessageId, draw.now⟩)
    (.database "UNIQUE constraint failed: direct_messages.message_id")
  let stored ← envelopes.foldlM (insertEnvelope messageId) db.directMessageEnvelopes
  let outbox := recipient.devices.foldl
    (alertRecipient env db recipient.userId messageId (.directMessage auth.userId senderNickname)
      draw.now) db.apnsOutbox
  pure ({ db with directMessages := messages, directMessageEnvelopes := stored, apnsOutbox := outbox },
    ⟨messageId, clientMessageId, recipient.userId, recipient.nickname, draw.now, true⟩)

def sendDirectMessage (env : Env) (request : SendDirectMessageRequest) (auth : AuthenticatedDevice)
    (draw : Draw) (db : Db) : Except ApiError (Db × DirectMessageSendResponse) := do
  requireIdentity auth request.userId request.deviceId
  let recipientNickname := normalizeNickname request.recipient
  refuseIf (!nicknameShapeValid recipientNickname) (.badRequest "invalid recipient nickname")
  let clientMessageId ← env.normalizeUuid request.clientMessageId "client_message_id"
  refuseIf (request.envelopes.isEmpty || request.envelopes.length > DirectMessage.maxRecipientDevices)
    (.badRequest "encrypted envelope fanout must contain 1-32 devices")
  let envelopes ← request.envelopes.mapM
    (normalizeDirectMessageEnvelope env auth recipientNickname clientMessageId)
  let uniqueDevices := (envelopes.map NormalizedDirectMessageEnvelope.recipientDeviceId).dedup.length
  refuseIf (uniqueDevices != envelopes.length)
    (.badRequest "each recipient device must have exactly one encrypted envelope")
  let envelopes := envelopes.insertionSort (fun e f => e.recipientDeviceId ≤ f.recipientDeviceId)
  match db.directMessageOf auth.deviceId clientMessageId with
  | some existing => resendDirectMessage recipientNickname envelopes auth db existing
  | none => commitDirectMessage env recipientNickname clientMessageId envelopes uniqueDevices auth draw db

def Db.deliveredTo (db : Db) (userId deviceId : String) : List DirectMessageRow :=
  db.directMessages.select (fun m =>
    m.recipientUserId = userId ∧ (db.directMessageEnvelopes.find (m.messageId, deviceId)).isSome)

def Db.directCursor (db : Db) (ownerUserId peerUserId : String) : Option Nat :=
  (db.directMessageReadState.find (ownerUserId, peerUserId)).map
    DirectMessageReadStateRow.lastReadMessageId

def directUnreadCountForDevice (db : Db) (userId deviceId : String) : Nat :=
  min ((db.deliveredTo userId deviceId).countP (fun m =>
    messageCountsAsUnread m.messageId ((db.directCursor userId m.senderUserId).getD 0)
      (m.senderUserId == userId)))
    (2 ^ 32 - 1)

def markDirectMessagesRead (request : MarkDirectMessageReadRequest) (auth : AuthenticatedDevice)
    (db : Db) : Except ApiError (Db × DirectMessageReadResponse) := do
  requireIdentity auth request.userId request.deviceId
  refuseIf (request.senderUserId.isEmpty || request.senderUserId.utf8ByteSize > 128 ||
      !isAscii request.senderUserId || request.senderUserId == auth.userId)
    (.badRequest "invalid sender_user_id")
  refuseIf (request.throughMessageId < 0) (.badRequest "through_message_id must not be negative")
  let currentRecord := db.directCursor auth.userId request.senderUserId
  let current := currentRecord.getD 0
  let observed := (((db.deliveredTo auth.userId auth.deviceId).filter (fun m =>
    m.senderUserId = request.senderUserId ∧ (m.messageId : Int) ≤ request.throughMessageId)).map
      DirectMessageRow.messageId).foldr max 0
  refuseIf (observed == 0 && currentRecord.isNone)
    (.notFound "no direct-message conversation with this sender")
  let next := min (advanceReadCursor current observed) (2 ^ 63 - 1)
  let db :=
    if observed > 0 ∧ (currentRecord = none ∨ next > current) then
      { db with
        directMessageReadState :=
          db.directMessageReadState.upsert ⟨auth.userId, request.senderUserId, next⟩
          (fun r => { r with lastReadMessageId := next }) (fun _ => rfl) }
    else db
  pure (db, ⟨next, directUnreadCountForDevice db auth.userId auth.deviceId⟩)

theorem sendDirectMessage_cases {env : Env} {request : SendDirectMessageRequest}
    {auth : AuthenticatedDevice} {draw : Draw} {db db' : Db} {response : DirectMessageSendResponse}
    (h : sendDirectMessage env request auth draw db = .ok (db', response)) :
    ∃ clientMessageId, env.normalizeUuid request.clientMessageId "client_message_id" =
      .ok clientMessageId ∧
      (db' = db ∨
        ∃ envelopes uniqueDevices, db.directMessageOf auth.deviceId clientMessageId = none ∧
          commitDirectMessage env (normalizeNickname request.recipient) clientMessageId envelopes
            uniqueDevices auth draw db = .ok (db', response)) := by
  simp only [sendDirectMessage, bind_eq_ok] at h
  obtain ⟨_, _, _, _, clientMessageId, huuid, _, _, _, _, _, _, h⟩ := h
  refine ⟨clientMessageId, huuid, ?_⟩
  split at h
  · simp only [resendDirectMessage, bind_eq_ok] at h
    obtain ⟨_, _, _, _, hp⟩ := h
    cases hp
    exact .inl rfl
  · next hof => exact .inr ⟨_, _, hof, h⟩

theorem sendDirectMessage_frame {env : Env} {request : SendDirectMessageRequest}
    {auth : AuthenticatedDevice} {draw : Draw} {db db' : Db} {response : DirectMessageSendResponse}
    (h : sendDirectMessage env request auth draw db = .ok (db', response)) :
    ∃ messages envelopes outbox, db' = { db with
      directMessages := messages, directMessageEnvelopes := envelopes, apnsOutbox := outbox } := by
  obtain ⟨_, _, rfl | ⟨_, _, _, hcommit⟩⟩ := sendDirectMessage_cases h
  · exact ⟨_, _, _, rfl⟩
  · simp only [commitDirectMessage, bind_eq_ok] at hcommit
    obtain ⟨_, _, _, _, _, _, messages, _, envelopes, _, hp⟩ := hcommit
    cases hp
    exact ⟨messages, envelopes, _, rfl⟩

theorem markDirectMessagesRead_frame {request : MarkDirectMessageReadRequest}
    {auth : AuthenticatedDevice} {db db' : Db} {response : DirectMessageReadResponse}
    (h : markDirectMessagesRead request auth db = .ok (db', response)) :
    ∃ cursors, db' = { db with directMessageReadState := cursors } := by
  simp only [markDirectMessagesRead, bind_eq_ok] at h
  obtain ⟨_, _, _, _, _, _, _, _, hp⟩ := h
  cases hp
  split
  · exact ⟨_, rfl⟩
  · exact ⟨db.directMessageReadState, rfl⟩

end TriNet.CallApi
