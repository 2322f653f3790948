import TriNet.CallApi.Schema

namespace TriNet.CallApi

open Lib Lib.BigEndian

def VisibleText : Type := { text : String // (utf8 text).all isVisibleAscii = true }

def toStr (value : Option String) : Option VisibleText :=
  value.bind (fun text => if h : (utf8 text).all isVisibleAscii = true then some ⟨text, h⟩ else none)

structure Headers where
  authorization : Option String
  deviceId : Option String
  timestamp : Option String
  nonce : Option String
  signature : Option String

/-- A request past the checks `authenticate` makes before it locks the
database, with the clock reading they used. -/
structure Ticket where
  deviceId : String
  timestampText : String
  nonce : String
  signatureText : String
  signedAt : Nat
  now : Nat
  visible : (utf8 deviceId).all isVisibleAscii = true
  timestamp : (parseI64 timestampText).bind u32TryFrom = some signedAt
  fresh : InternetCall.requestSignatureIsFresh signedAt now = true

structure Bootstrap where
  userId : String
  publicKey : String

def verifyServiceToken (env : Env) (headers : Headers) : Except ApiError Unit :=
  match env.serviceAccessToken with
  | none => .ok ()
  | some expected => do
      let actual ← okOr ((toStr headers.authorization).bind (fun value => stripPrefix value.1 "Bearer "))
        (.unauthorized "missing service access token")
      refuseIf (actual != expected) (.unauthorized "invalid service access token")

def header (value : Option String) (name : String) : Except ApiError VisibleText :=
  okOr (toStr value) (.unauthorized ("missing " ++ name ++ " header"))

def authenticateBeforeLock (env : Env) (headers : Headers) (now : Int) : Except ApiError Ticket := do
  verifyServiceToken env headers
  let deviceId ← header headers.deviceId "x-trinet-device-id"
  let timestampText ← header headers.timestamp "x-trinet-timestamp"
  let nonce ← header headers.nonce "x-trinet-nonce"
  let signatureText ← header headers.signature "x-trinet-signature"
  match ht : parseI64 timestampText.1 with
  | none => .error (.unauthorized "invalid request timestamp")
  | some timestamp =>
      match hs : u32TryFrom timestamp, u32TryFrom now with
      | some signedAt, some currentTime =>
          if fresh : InternetCall.requestSignatureIsFresh signedAt currentTime = true then do
            refuseIf (nonce.1.utf8ByteSize < 16 || nonce.1.utf8ByteSize > 64 || !isAscii nonce.1)
              (.unauthorized "invalid request nonce")
            pure ⟨deviceId.1, timestampText.1, nonce.1, signatureText.1, signedAt, currentTime,
              deviceId.2, by rw [ht, Option.bind_some, hs], fresh⟩
          else .error (.unauthorized "request signature is stale")
      | _, _ => .error (.unauthorized "request signature is stale")

def identify (env : Env) (ticket : Ticket) (bootstrap : Option Bootstrap) :
    Option DeviceRow → Except ApiError AuthenticatedDevice
  | some record => do
      refuseIf (record.revokedAt.isSome ||
        !AccountIdentity.deviceMembershipIsValid (env.stableId record.userId)
          (env.stableId ticket.deviceId) (env.stableId record.keyFingerprint) .active)
        (.forbidden "device membership is revoked")
      pure ⟨record.userId, ticket.deviceId, safeDisplayName record.displayName,
        record.signingPublicKey, record.keyFingerprint, record.capabilities⟩
  | none => do
      let bootstrap ← okOr bootstrap (.unauthorized "device is not registered")
      let publicKey ← env.decodePublicKey bootstrap.publicKey
      pure ⟨bootstrap.userId, ticket.deviceId, bootstrap.userId, bootstrap.publicKey,
        env.fingerprint publicKey, 0⟩

def canonical (env : Env) (method path timestampText nonce : String) (body : Bytes) : String :=
  toAsciiUppercase method ++ "\n" ++ path ++ "\n" ++ timestampText ++ "\n" ++ nonce ++
    "\n" ++ env.digestHex body

def Ticket.expiresAt (ticket : Ticket) : Int := ticket.signedAt + InternetCall.requestSignatureTtlSeconds

def purgeNonces (nonces : Table NonceRow.key) (now : Int) : Table NonceRow.key :=
  nonces.delete (fun r => r.expiresAt < now)

def touchDevice (devices : Table DeviceRow.deviceId) (deviceId : String) (now : Int) :
    Table DeviceRow.deviceId :=
  devices.update (fun r => r.deviceId = deviceId) (fun r => { r with lastSeen := now }) (fun _ => rfl)

def authenticateUnderLock (env : Env) (method path : String) (body : Bytes) (bootstrap : Option Bootstrap)
    (ticket : Ticket) (db : Db) : Except ApiError (Db × AuthenticatedDevice) := do
  let auth ← identify env ticket bootstrap (db.devices.find ticket.deviceId)
  refuseIf (bootstrap.any (fun b => auth.userId != b.userId))
    (.forbidden "registered user ID cannot be changed")
  env.verifySignature auth.signingPublicKey ticket.signatureText
    (utf8 (canonical env method path ticket.timestampText ticket.nonce body))
  let nonces ← okOr ((purgeNonces db.requestNonces ticket.now).insert ⟨ticket.deviceId,
    ticket.nonce, ticket.expiresAt⟩) (.unauthorized "request nonce was already used")
  pure ({ db with
      requestNonces := nonces
      devices := touchDevice db.devices ticket.deviceId ticket.now }, auth)

def authenticate (env : Env) (headers : Headers) (method path : String) (body : Bytes)
    (bootstrap : Option Bootstrap) (now : Int) (db : Db) : Except ApiError (Db × AuthenticatedDevice) := do
  let ticket ← authenticateBeforeLock env headers now
  authenticateUnderLock env method path body bootstrap ticket db

theorem Ticket.now_le_expiresAt (ticket : Ticket) : (ticket.now : Int) ≤ ticket.expiresAt := by
  have h := InternetCall.le_of_requestSignatureIsFresh ticket.fresh
  rw [Ticket.expiresAt]
  omega

theorem find_touchDevice (devices : Table DeviceRow.deviceId) (deviceId : String)
    (now : Int) (d : String) :
    (touchDevice devices deviceId now).find d =
      (devices.find d).map (fun r => if r.deviceId = deviceId then { r with lastSeen := now } else r) := by
  simp [touchDevice, Table.find_update]

theorem identify_deviceId {env : Env} {ticket : Ticket} {bootstrap : Option Bootstrap}
    {stored : Option DeviceRow}
    {auth : AuthenticatedDevice} (h : identify env ticket bootstrap stored = .ok auth) :
    auth.deviceId = ticket.deviceId := by
  cases stored <;> simp only [identify, bind_eq_ok] at h
  · obtain ⟨_, _, _, _, hp⟩ := h
    cases hp
    rfl
  · obtain ⟨_, _, hp⟩ := h
    cases hp
    rfl

theorem identify_stored {env : Env} {ticket : Ticket} {bootstrap : Option Bootstrap} {record : DeviceRow}
    {auth : AuthenticatedDevice} (h : identify env ticket bootstrap (some record) = .ok auth) :
    record.revokedAt = none ∧ auth.userId = record.userId := by
  simp only [identify, bind_eq_ok, refuseIf_eq_ok, Bool.or_eq_false_iff] at h
  obtain ⟨_, ⟨hr, _⟩, hp⟩ := h
  cases hp
  exact ⟨by simpa using hr, rfl⟩

theorem identify_new {env : Env} {ticket : Ticket} {bootstrap : Option Bootstrap}
    {auth : AuthenticatedDevice}
    (h : identify env ticket bootstrap none = .ok auth) : bootstrap.isSome = true := by
  simp only [identify, bind_eq_ok, okOr_eq_ok] at h
  obtain ⟨b, hb, _⟩ := h
  rw [hb]
  rfl

theorem authenticateUnderLock_ok {env : Env} {method path : String} {body : Bytes}
    {bootstrap : Option Bootstrap} {ticket : Ticket} {db db' : Db} {auth : AuthenticatedDevice}
    (h : authenticateUnderLock env method path body bootstrap ticket db = .ok (db', auth)) :
    ∃ nonces,
      identify env ticket bootstrap (db.devices.find ticket.deviceId) = .ok auth ∧
      (purgeNonces db.requestNonces ticket.now).insert ⟨ticket.deviceId, ticket.nonce,
        ticket.expiresAt⟩ = some nonces ∧
      db' = { db with
        requestNonces := nonces
        devices := touchDevice db.devices ticket.deviceId ticket.now } := by
  simp only [authenticateUnderLock, bind_eq_ok, okOr_eq_ok] at h
  obtain ⟨a, ha, _, _, _, _, nonces, hn, hp⟩ := h
  cases hp
  exact ⟨nonces, ha, hn, rfl⟩

end TriNet.CallApi
