import Mathlib.Data.List.Sort
import TriNet.CallApi.Authenticate

namespace TriNet.CallApi

open Lib Lib.BigEndian

structure DeviceRegistrationRequest where
  userId : String
  deviceId : String
  displayName : String
  signingPublicKey : String
  textEncryptionPublicKey : Option String
  keyFingerprint : String
  platform : String
  voipPushToken : Option String
  alertPushToken : Option String
  pushEnvironment : Option String
  capabilities : List String

structure AccountRequest where
  userId : String
  deviceId : String

structure LinkDeviceRequest where
  userId : String
  deviceId : String
  linkCode : String

structure LinkCodeResponse where
  linkCode : String
  expiresAt : Int

structure AccountDeviceSummary where
  deviceId : String
  displayName : String
  platform : String
  keyFingerprint : String
  lastSeen : Int
  current : Bool
  revoked : Bool

structure AccountSnapshotResponse where
  accountId : String
  nickname : Option String
  devices : List AccountDeviceSummary

def validApnsToken (value : String) : Bool :=
  32 ≤ value.utf8ByteSize && value.utf8ByteSize ≤ 256 && value.toList.all isAsciiHexdigit

def normalizeApnsToken (value : Option String) : Except ApiError (Option String) :=
  match nonBlank value with
  | some token =>
      if validApnsToken token then .ok (some (toAsciiLowercase token))
      else .error (.badRequest "invalid APNs device token")
  | none => .ok none

def normalizeTextEncryptionPublicKey (env : Env) (value : Option String) :
    Except ApiError (Option String) :=
  match nonBlank value with
  | none => .ok none
  | some value => do
      refuseIf (value.utf8ByteSize > 48) (.badRequest "invalid text-encryption public key")
      let decoded ← okOr (env.base64Decode value) (.badRequest "invalid text-encryption public key")
      refuseIf (!DirectMessage.textKeyIsValid (min decoded.length 65535) (decoded.all (· == 0)))
        (.badRequest "text-encryption public key must be a non-zero 32-byte X25519 key")
      pure (some (env.base64Encode decoded))

def capabilityBits (capabilities : List String) : UInt8 :=
  capabilities.foldl (fun bits capability => bits |||
    (if capability = "audio" then InternetCall.capAudio
     else if capability = "video" then InternetCall.capVideo
     else if capability = "mesh" then InternetCall.capMesh
     else if capability = "webrtc" then InternetCall.capWebrtc
     else 0)) 0

/-- The row a registration asks for, as far as it is known before the request
is authenticated. -/
structure CheckedRegistration where
  displayName : String
  voipPushToken : Option String
  alertPushToken : Option String
  textEncryptionPublicKey : Option String
  pushEnvironment : ApnsEnvironment
  capabilities : UInt8

def checkRegistration (env : Env) (request : DeviceRegistrationRequest) :
    Except ApiError CheckedRegistration := do
  let voipPushToken ← normalizeApnsToken request.voipPushToken
  let alertPushToken ← normalizeApnsToken request.alertPushToken
  let textEncryptionPublicKey ← normalizeTextEncryptionPublicKey env request.textEncryptionPublicKey
  let pushEnvironment ←
    match request.pushEnvironment with
    | some value => (ApnsEnvironment.parse value).mapError ApiError.badRequest
    | none => .ok (env.apnsFallbackEnvironment.getD .sandbox)
  let publicKey ← env.decodePublicKey request.signingPublicKey
  refuseIf (env.fingerprint publicKey != request.keyFingerprint)
    (.badRequest "public-key fingerprint mismatch")
  let capabilities := capabilityBits request.capabilities
  refuseIf (!InternetCall.deviceIsValid (env.stableId request.userId) (env.stableId request.deviceId)
        (env.stableId request.keyFingerprint) capabilities ||
          !InternetCall.supportsInternetCall capabilities)
    (.badRequest "device must support audio and WebRTC")
  pure ⟨safeDisplayName request.displayName, voipPushToken, alertPushToken, textEncryptionPublicKey,
    pushEnvironment, capabilities⟩

def registeredRow (request : DeviceRegistrationRequest) (device : CheckedRegistration) (now nowMs : Int) :
    DeviceRow where
  deviceId := request.deviceId
  userId := request.userId
  displayName := device.displayName
  signingPublicKey := request.signingPublicKey
  textEncryptionPublicKey := device.textEncryptionPublicKey
  keyFingerprint := request.keyFingerprint
  platform := request.platform
  voipPushToken := device.voipPushToken
  voipPushTokenRegisteredAtMs := device.voipPushToken.map (fun _ => nowMs)
  alertPushToken := device.alertPushToken
  alertPushTokenRegisteredAtMs := device.alertPushToken.map (fun _ => nowMs)
  pushEnvironment := device.pushEnvironment.asDatabaseValue
  capabilities := device.capabilities
  lastSeen := now
  linkedAt := now
  revokedAt := none

/-- The `ON CONFLICT` clause: identity, keys and membership stay as stored. -/
def refreshRow (excluded stored : DeviceRow) : DeviceRow :=
  { stored with
    displayName := excluded.displayName
    textEncryptionPublicKey := excluded.textEncryptionPublicKey.or stored.textEncryptionPublicKey
    platform := excluded.platform
    voipPushToken := excluded.voipPushToken
    voipPushTokenRegisteredAtMs := excluded.voipPushTokenRegisteredAtMs
    alertPushToken := excluded.alertPushToken
    alertPushTokenRegisteredAtMs := excluded.alertPushTokenRegisteredAtMs
    pushEnvironment := excluded.pushEnvironment
    capabilities := excluded.capabilities
    lastSeen := excluded.lastSeen }

theorem refreshRow_deviceId (excluded stored : DeviceRow) :
    (refreshRow excluded stored).deviceId = stored.deviceId := rfl

def storeRow (devices : Table DeviceRow.deviceId) (row : DeviceRow) : Table DeviceRow.deviceId :=
  devices.upsert row (refreshRow row) (refreshRow_deviceId row)

def otherMember (request : DeviceRegistrationRequest) (r : DeviceRow) : Bool :=
  r.userId = request.userId ∧ r.revokedAt = none ∧ r.deviceId ≠ request.deviceId

def registerDevice (env : Env) (request : DeviceRegistrationRequest) (auth : AuthenticatedDevice)
    (draw : Draw) (db : Db) : Except ApiError Db := do
  let device ← checkRegistration env request
  refuseIf (auth.deviceId != request.deviceId || auth.userId != request.userId)
    (.forbidden "device identity does not match request")
  let existingMembers ← readCount 16 (db.devices.count (otherMember request))
  refuseIf ((db.devices.find request.deviceId).isNone && existingMembers > 0)
    (.forbidden "account already has devices; use a trusted-device link code")
  pure { db with
    accounts := db.accounts.insertOrIgnore ⟨request.userId, draw.now⟩
    devices := storeRow db.devices (registeredRow request device draw.now draw.millis) }

def createLinkCode (env : Env) (request : AccountRequest) (auth : AuthenticatedDevice) (draw : Draw)
    (db : Db) : Except ApiError (Db × LinkCodeResponse) := do
  requireIdentity auth request.userId request.deviceId
  let expiresAt := draw.now + AccountIdentity.linkCodeTtlSeconds
  let linkCode := draw.randomId "link_" 0
  let remaining := db.deviceLinkCodes.delete (fun r => r.expiresAt < draw.now ∨
    r.createdByDeviceId = auth.deviceId)
  let codes ← okOr
    (remaining.insert ⟨env.digestHex (utf8 linkCode), auth.userId, auth.deviceId,
      draw.now, expiresAt, none⟩)
    (.database "UNIQUE constraint failed: device_link_codes.code_hash")
  pure ({ db with deviceLinkCodes := codes }, ⟨linkCode, expiresAt⟩)

/-- `ORDER BY revoked_at IS NOT NULL, linked_at, device_id` -/
def snapshotOrder (r s : DeviceRow) : Bool :=
  if r.revokedAt.isSome ≠ s.revokedAt.isSome then s.revokedAt.isSome
  else if r.linkedAt ≠ s.linkedAt then r.linkedAt < s.linkedAt
  else r.deviceId ≤ s.deviceId

def loadAccountSnapshot (db : Db) (auth : AuthenticatedDevice) : AccountSnapshotResponse where
  accountId := auth.userId
  nickname := db.nicknameOf auth.userId
  devices := ((db.devices.select (fun r => r.userId = auth.userId)).insertionSort
    (fun r s => snapshotOrder r s)).map
    (fun r => ⟨r.deviceId, r.displayName, r.platform, r.keyFingerprint, r.lastSeen,
      r.deviceId = auth.deviceId, r.revokedAt.isSome⟩)

def codeIsFresh (code : LinkCodeRow) (now : Int) : Bool :=
  code.createdAt ≥ 0 && now ≥ 0 && code.expiresAt ≥ now &&
    AccountIdentity.linkCodeIsFresh (asU32 code.createdAt) (asU32 now)

def memberRow (auth : AuthenticatedDevice) (r : DeviceRow) : Bool :=
  r.deviceId = auth.deviceId ∧ r.userId = auth.userId ∧ r.revokedAt = none

def moveDevice (devices : Table DeviceRow.deviceId) (auth : AuthenticatedDevice) (userId : String)
    (now : Int) : Table DeviceRow.deviceId :=
  devices.update (memberRow auth) (fun r => { r with userId := userId, linkedAt := now }) (fun _ => rfl)

def consumeCode (codes : Table LinkCodeRow.codeHash) (codeHash : String) (now : Int) :
    Table LinkCodeRow.codeHash :=
  codes.update (fun r => r.codeHash = codeHash ∧ r.consumedAt = none)
    (fun r => { r with consumedAt := some now }) (fun _ => rfl)

def linkDevice (env : Env) (request : LinkDeviceRequest) (auth : AuthenticatedDevice) (draw : Draw)
    (db : Db) : Except ApiError (Db × AccountSnapshotResponse) := do
  requireIdentity auth request.userId request.deviceId
  refuseIf (request.linkCode.utf8ByteSize != 37 || !startsWith request.linkCode "link_")
    (.badRequest "invalid link code")
  let codeHash := env.digestHex (utf8 request.linkCode)
  let code ← okOr (db.deviceLinkCodes.find codeHash) (.forbidden "link code is invalid")
  refuseIf (code.userId == auth.userId) (.conflict "device already belongs to this account")
  let sourceDeviceCount ← readCount 16
      (db.devices.count (fun r => r.userId = auth.userId ∧ r.revokedAt = none))
  refuseIf (!AccountIdentity.mayAdoptAccount true code.consumedAt.isNone (codeIsFresh code draw.now)
      (sourceDeviceCount == 1))
    (.forbidden "link code expired, was already used, or this account has multiple devices")
  refuseIf (db.devices.count (memberRow auth) != 1) (.conflict "device membership changed concurrently")
  let devices := moveDevice db.devices auth code.userId draw.now
  refuseIf (db.deviceLinkCodes.count (fun r => r.codeHash = codeHash ∧ r.consumedAt = none) != 1)
    (.conflict "link code was used concurrently")
  let linked := { db with
    devices := devices
    deviceLinkCodes := consumeCode db.deviceLinkCodes codeHash draw.now
    nicknames := db.nicknames.delete (fun r => r.userId = auth.userId)
    accounts := db.accounts.delete (fun r =>
      r.userId = auth.userId ∧ devices.count (fun d => d.userId = r.userId) = 0) }
  pure (linked, loadAccountSnapshot linked { auth with userId := code.userId })

def revokeRow (now : Int) (r : DeviceRow) : DeviceRow :=
  { r with
    revokedAt := some now
    voipPushToken := none
    voipPushTokenRegisteredAtMs := none
    alertPushToken := none
    alertPushTokenRegisteredAtMs := none }

theorem revokeRow_deviceId (now : Int) (r : DeviceRow) : (revokeRow now r).deviceId = r.deviceId := rfl

def revokeRows (devices : Table DeviceRow.deviceId) (targetDeviceId : String) (now : Int) :
    Table DeviceRow.deviceId :=
  devices.update (fun r => r.deviceId = targetDeviceId ∧ r.revokedAt = none) (revokeRow now)
    (revokeRow_deviceId now)

def revokeDevice (targetDeviceId : String) (request : AccountRequest) (auth : AuthenticatedDevice)
    (draw : Draw) (db : Db) : Except ApiError Db := do
  requireIdentity auth request.userId request.deviceId
  let target ← okOr (db.devices.find targetDeviceId) (.notFound "device not found")
  let activeDevices ← readCount 16
      (db.devices.count (fun r => r.userId = auth.userId ∧ r.revokedAt = none))
  refuseIf (!AccountIdentity.mayRevokeDevice (target.userId == auth.userId) target.revokedAt.isNone
    activeDevices) (.forbidden "device is not active in this account or is the last active device")
  pure { db with devices := revokeRows db.devices targetDeviceId draw.now }

theorem find_storeRow (devices : Table DeviceRow.deviceId) (row : DeviceRow) (deviceId : String) :
    (storeRow devices row).find deviceId =
      if row.deviceId = deviceId then some ((devices.find deviceId).elim row (refreshRow row))
      else devices.find deviceId := Table.find_upsert ..

theorem find_moveDevice (devices : Table DeviceRow.deviceId) (auth : AuthenticatedDevice)
    (userId : String) (now : Int) (deviceId : String) :
    (moveDevice devices auth userId now).find deviceId = (devices.find deviceId).map (fun r =>
      if memberRow auth r then { r with userId := userId, linkedAt := now } else r) := Table.find_update ..

theorem find_revokeRows (devices : Table DeviceRow.deviceId) (targetDeviceId : String) (now : Int)
    (deviceId : String) :
    (revokeRows devices targetDeviceId now).find deviceId = (devices.find deviceId).map (fun r =>
      if r.deviceId = targetDeviceId ∧ r.revokedAt = none then revokeRow now r else r) := by
  simp [revokeRows, Table.find_update]

theorem find_consumeCode (codes : Table LinkCodeRow.codeHash) (codeHash : String)
    (now : Int) (hash : String) :
    (consumeCode codes codeHash now).find hash = (codes.find hash).map (fun r =>
      if r.codeHash = codeHash ∧ r.consumedAt = none then { r with consumedAt := some now } else r) := by
  simp [consumeCode, Table.find_update]

end TriNet.CallApi
