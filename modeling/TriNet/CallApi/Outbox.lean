import TriNet.CallApi.Accounts

namespace TriNet.CallApi

open Lib Lib.BigEndian

def lengthPrefixed (field : Bytes) : Bytes := beBytes 4 (min field.length (2 ^ 32 - 1)) ++ field

def uuidText (bytes : Bytes) : String :=
  let hex := bytes.flatMap hexDigits
  String.ofList (hex.take 8 ++ '-' :: (hex.drop 8).take 4 ++ '-' :: (hex.drop 12).take 4 ++
    '-' :: (hex.drop 16).take 4 ++ '-' :: hex.drop 20)

def apnsOutboxEventId (env : Env) (eventKind : OutboxKind) (objectId targetDeviceId : String) : String :=
  let fields := [utf8 eventKind.text, utf8 objectId, utf8 targetDeviceId]
  let digest := (env.sha256 (utf8 "TRINET-APNS-OUTBOX-V1" ++ fields.flatMap lengthPrefixed)).1.take 16
  uuidText ((digest.modify 6 (fun b => b &&& 0x0f ||| 0x50)).modify 8 (fun b => b &&& 0x3f ||| 0x80))

def enqueueApnsOutboxEvent (env : Env) (eventKind : OutboxKind) (objectId targetDeviceId : String)
    (payload : OutboxPayload) (now : Int) (outbox : Table OutboxRow.eventId) : Table OutboxRow.eventId :=
  if outbox.rows.any (fun r =>
      r.eventKind = eventKind ∧ r.objectId = objectId ∧ r.targetDeviceId = targetDeviceId)
  then outbox
  else outbox.insertOrIgnore
    { eventId := apnsOutboxEventId env eventKind objectId targetDeviceId
      eventKind, objectId, targetDeviceId, payload
      attempts := 0
      nextAttemptAt := now
      claimedAt := none
      claimOwner := none
      blockedOwner := none
      deliveryEnvironment := none
      deliveryTokenDigest := none
      lastFailureKind := none
      lastStatus := none
      createdAt := now }

def OutboxRow.triple (r : OutboxRow) : OutboxKind × String × String :=
  (r.eventKind, r.objectId, r.targetDeviceId)

def pushTokenValid (token : Option String) (environment : String) : Bool :=
  token.any validApnsToken && (ApnsEnvironment.parse environment).isOk

end TriNet.CallApi
