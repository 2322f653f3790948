import TriNet.Lib.Table
import TriNet.CallApi.Text
import TriNet.CallApi.Policy

namespace TriNet.CallApi

open Lib Lib.BigEndian

inductive StatusCode
  | badRequest | unauthorized | forbidden | notFound | conflict | tooManyRequests | internalServerError
  deriving DecidableEq, Repr

structure ApiError where
  status : StatusCode
  message : String
  deriving DecidableEq, Repr

namespace ApiError

def badRequest (message : String) : ApiError := ⟨.badRequest, message⟩
def unauthorized (message : String) : ApiError := ⟨.unauthorized, message⟩
def forbidden (message : String) : ApiError := ⟨.forbidden, message⟩
def notFound (message : String) : ApiError := ⟨.notFound, message⟩
def conflict (message : String) : ApiError := ⟨.conflict, message⟩
def tooManyRequests (message : String) : ApiError := ⟨.tooManyRequests, message⟩
def internal (message : String) : ApiError := ⟨.internalServerError, message⟩
def database (error : String) : ApiError := .internal ("database error: " ++ error)

end ApiError

section Checks

variable {α β ε : Type}

def refuseIf (c : Bool) (e : ApiError) : Except ApiError Unit := if c then .error e else .ok ()

def okOr (o : Option α) (e : ApiError) : Except ApiError α :=
  match o with
  | some a => .ok a
  | none => .error e

/-- `row.get::<_, uN>` of a count, which fails on a count that does not fit. -/
def readCount (width n : Nat) : Except ApiError Nat :=
  if n < 2 ^ width then .ok n
  else .error (.database ("Integer " ++ toString n ++ " out of range at index 0"))

theorem bind_eq_ok {x : Except ε α} {f : α → Except ε β} {b : β} :
    (x >>= f) = .ok b ↔ ∃ a, x = .ok a ∧ f a = .ok b := by
  cases x <;> simp [bind, Except.bind]

@[simp] theorem ok_bind (a : α) (f : α → Except ε β) : (Except.ok a >>= f) = f a := rfl

@[simp] theorem refuseIf_false (e : ApiError) : refuseIf false e = .ok () := rfl

theorem mem_toOption {x : Except ε α} {a : α} : a ∈ x.toOption ↔ x = .ok a := by
  cases x <;> simp [Except.toOption]

@[simp] theorem refuseIf_eq_ok {c : Bool} {e : ApiError} {u : Unit} :
    refuseIf c e = .ok u ↔ c = false := by
  cases c <;> simp [refuseIf]

@[simp] theorem okOr_eq_ok {o : Option α} {e : ApiError} {a : α} : okOr o e = .ok a ↔ o = some a := by
  cases o <;> simp [okOr]

@[simp] theorem readCount_eq_ok {width n m : Nat} : readCount width n = .ok m ↔ n < 2 ^ width ∧ n = m := by
  rw [readCount]
  split <;> simp_all

end Checks

inductive ApnsEnvironment
  | sandbox | production
  deriving DecidableEq, Repr

namespace ApnsEnvironment

def parse (value : String) : Except String ApnsEnvironment :=
  let name := toAsciiLowercase (trim value)
  if name = "sandbox" ∨ name = "development" then .ok .sandbox
  else if name = "production" then .ok .production
  else .error "APNs environment must be sandbox, development, or production"

def asDatabaseValue : ApnsEnvironment → String
  | .sandbox => "sandbox"
  | .production => "production"

end ApnsEnvironment

/-- What the service takes from other crates, and its configuration. -/
structure Env where
  sha256 : Bytes → { digest : Bytes // digest.length = 32 }
  base64Decode : String → Option Bytes
  base64Encode : Bytes → String
  uuidParse : String → Option String
  isSec1Key : Bytes → Bool
  isDerSignature : Bytes → Bool
  verify : Bytes → Bytes → Bytes → Bool
  serviceAccessToken : Option String
  livekitUrl : String
  livekitApiKey : String
  apnsFallbackEnvironment : Option ApnsEnvironment

namespace Env

def apnsConfigured (env : Env) : Bool := env.apnsFallbackEnvironment.isSome

def fingerprint (env : Env) (publicKey : Bytes) : String := lowercaseHex ((env.sha256 publicKey).1.take 12)

def stableId (env : Env) (value : String) : Nat := max (ofBe ((env.sha256 (utf8 value)).1.take 8)) 1

def digestHex (env : Env) (bytes : Bytes) : String := lowercaseHex (env.sha256 bytes).1

def decodePublicKey (env : Env) (encoded : String) : Except ApiError Bytes :=
  okOr (env.base64Decode encoded) (.badRequest "invalid public-key encoding")

def normalizeUuid (env : Env) (value field : String) : Except ApiError String :=
  okOr (env.uuidParse (trim value)) (.badRequest ("invalid " ++ field))

def verifySignature (env : Env) (publicKey signature : String) (message : Bytes) :
    Except ApiError Unit := do
  let publicKey ← env.decodePublicKey publicKey
  refuseIf (!env.isSec1Key publicKey) (.unauthorized "invalid device public key")
  let signature ← okOr (env.base64Decode signature) (.unauthorized "invalid signature encoding")
  refuseIf (!env.isDerSignature signature) (.unauthorized "invalid signature format")
  refuseIf (!env.verify publicKey message signature) (.unauthorized "device signature verification failed")

end Env

structure AccountRow where
  userId : String
  createdAt : Int
  deriving DecidableEq

structure DeviceRow where
  deviceId : String
  userId : String
  displayName : String
  signingPublicKey : String
  textEncryptionPublicKey : Option String
  keyFingerprint : String
  platform : String
  voipPushToken : Option String
  voipPushTokenRegisteredAtMs : Option Int
  alertPushToken : Option String
  alertPushTokenRegisteredAtMs : Option Int
  pushEnvironment : String
  capabilities : UInt8
  lastSeen : Int
  linkedAt : Int
  revokedAt : Option Int
  deriving DecidableEq

structure NicknameRow where
  nickname : String
  userId : String
  deviceId : String
  updatedAt : Int
  deriving DecidableEq

structure CallRow where
  callId : String
  clientCallId : Option String
  callUuid : String
  roomId : String
  callerUserId : String
  callerDeviceId : String
  calleeUserId : String
  calleeDeviceId : String
  calleeNickname : Option String
  callerName : String
  audio : Bool
  video : Bool
  status : CallStatus
  createdAt : Int
  answeredAt : Option Int
  answeredDeviceId : Option String
  endedAt : Option Int
  deriving DecidableEq

structure CallTargetRow where
  callId : String
  deviceId : String
  state : CallStatus
  deriving DecidableEq

structure LinkCodeRow where
  codeHash : String
  userId : String
  createdByDeviceId : String
  createdAt : Int
  expiresAt : Int
  consumedAt : Option Int
  deriving DecidableEq

structure NonceRow where
  deviceId : String
  nonce : String
  expiresAt : Int
  deriving DecidableEq

structure GroupChatRow where
  chatId : String
  title : String
  createdByUserId : String
  createdAt : Int
  deriving DecidableEq

structure GroupChatMemberRow where
  chatId : String
  userId : String
  nickname : String
  joinedAt : Int
  leftAt : Option Int
  deriving DecidableEq

structure GroupChatMessageRow where
  messageId : Nat
  chatId : String
  senderUserId : String
  senderDeviceId : String
  senderNickname : String
  clientMessageId : String
  text : String
  createdAt : Int
  deriving DecidableEq

structure GroupChatReadStateRow where
  chatId : String
  userId : String
  lastReadMessageId : Nat
  deriving DecidableEq

structure DirectMessageRow where
  messageId : Nat
  senderUserId : String
  senderDeviceId : String
  senderNickname : String
  senderSigningPublicKey : String
  senderKeyFingerprint : String
  recipientUserId : String
  recipientNickname : String
  clientMessageId : String
  createdAt : Int
  deriving DecidableEq

structure DirectMessageEnvelopeRow where
  messageId : Nat
  cryptoVersion : UInt8
  recipientDeviceId : String
  recipientKeyFingerprint : String
  ephemeralPublicKey : Bytes
  nonce : Bytes
  ciphertext : Bytes
  senderSignature : Bytes
  deriving DecidableEq

structure DirectMessageReadStateRow where
  ownerUserId : String
  peerUserId : String
  lastReadMessageId : Nat
  deriving DecidableEq

inductive OutboxKind
  | callInvite | directMessage
  deriving DecidableEq

def OutboxKind.text : OutboxKind → String
  | .callInvite => "call_invite"
  | .directMessage => "direct_message"

/-- The value of a `payload_json` column. -/
inductive OutboxPayload
  | callInvite (callId callUuid caller : String) (audio video : Bool)
  | directMessage (senderUserId senderNickname : String)
  deriving DecidableEq

structure OutboxRow where
  eventId : String
  eventKind : OutboxKind
  objectId : String
  targetDeviceId : String
  payload : OutboxPayload
  attempts : Nat
  nextAttemptAt : Int
  claimedAt : Option Int
  claimOwner : Option String
  blockedOwner : Option String
  deliveryEnvironment : Option String
  deliveryTokenDigest : Option String
  lastFailureKind : Option String
  lastStatus : Option Nat
  createdAt : Int
  deriving DecidableEq

def CallTargetRow.key (r : CallTargetRow) : String × String := (r.callId, r.deviceId)
def NonceRow.key (r : NonceRow) : String × String := (r.deviceId, r.nonce)
def GroupChatMemberRow.key (r : GroupChatMemberRow) : String × String := (r.chatId, r.userId)
def GroupChatReadStateRow.key (r : GroupChatReadStateRow) : String × String := (r.chatId, r.userId)
def DirectMessageEnvelopeRow.key (r : DirectMessageEnvelopeRow) : Nat × String :=
  (r.messageId, r.recipientDeviceId)
def DirectMessageReadStateRow.key (r : DirectMessageReadStateRow) : String × String :=
  (r.ownerUserId, r.peerUserId)

structure Db where
  accounts : Table AccountRow.userId := .empty
  devices : Table DeviceRow.deviceId := .empty
  nicknames : Table NicknameRow.nickname := .empty
  calls : Table CallRow.callId := .empty
  callTargets : Table CallTargetRow.key := .empty
  deviceLinkCodes : Table LinkCodeRow.codeHash := .empty
  requestNonces : Table NonceRow.key := .empty
  groupChats : Table GroupChatRow.chatId := .empty
  groupChatMembers : Table GroupChatMemberRow.key := .empty
  groupChatMessages : Table GroupChatMessageRow.messageId := .empty
  groupChatReadState : Table GroupChatReadStateRow.key := .empty
  directMessages : Table DirectMessageRow.messageId := .empty
  directMessageEnvelopes : Table DirectMessageEnvelopeRow.key := .empty
  directMessageReadState : Table DirectMessageReadStateRow.key := .empty
  apnsOutbox : Table OutboxRow.eventId := .empty
  deriving DecidableEq

structure AuthenticatedDevice where
  userId : String
  deviceId : String
  displayName : String
  signingPublicKey : String
  keyFingerprint : String
  capabilities : UInt8
  deriving DecidableEq

def requireIdentity (auth : AuthenticatedDevice) (userId deviceId : String) : Except ApiError Unit :=
  refuseIf (auth.userId != userId || auth.deviceId != deviceId)
    (.forbidden "signed device does not match request body")

theorem requireIdentity_eq_ok {auth : AuthenticatedDevice} {userId deviceId : String} {u : Unit} :
    requireIdentity auth userId deviceId = .ok u ↔ auth.userId = userId ∧ auth.deviceId = deviceId := by
  simp [requireIdentity]

/-- What a handler reads from outside the database while it runs: the wall
clock, one reading after the other, random bytes, and how many ids the database
leaves out. -/
structure Draw where
  clock : Nat → Int
  millis : Int
  random : Nat → Bytes
  uuid : String
  skipped : Nat

namespace Draw

def now (draw : Draw) : Int := draw.clock 0

def randomId (draw : Draw) (start : String) (i : Nat) : String := start ++ lowercaseHex (draw.random i)

end Draw

namespace Db

def nicknameOf (db : Db) (userId : String) : Option String :=
  (db.nicknames.rows.find? (fun r => r.userId = userId)).map NicknameRow.nickname

def userOfNickname (db : Db) (nickname : String) : Option String :=
  (db.nicknames.find nickname).map NicknameRow.userId

def activeDevices (db : Db) (userId : String) : List DeviceRow :=
  db.devices.select (fun r => r.userId = userId ∧ r.revokedAt = none)

end Db

end TriNet.CallApi
