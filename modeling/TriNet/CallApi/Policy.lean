import Mathlib.Algebra.Order.Ring.Int
import Mathlib.Tactic.Common

namespace TriNet.CallApi

inductive CallStatus
  | idle | ringing | active | ended | declined | cancelled | missed
  deriving DecidableEq, Repr

inductive MembershipStatus
  | active | revoked
  deriving DecidableEq, Repr

inductive ClaimStatus
  | rejected | meshLocal | verified
  deriving DecidableEq, Repr

/-- The `as u32` cast of an `i64`. -/
def asU32 (n : Int) : Nat := (n % 2 ^ 32).toNat

def u32TryFrom (n : Int) : Option Nat := if 0 ≤ n ∧ n < 2 ^ 32 then some n.toNat else none

def withinLifetime (ttl start now : Nat) : Bool := if now < start then false else now - start ≤ ttl

theorem withinLifetime_iff {ttl start now : Nat} :
    withinLifetime ttl start now = true ↔ start ≤ now ∧ now ≤ start + ttl := by
  rw [withinLifetime]
  split <;> simp <;> omega

theorem u32TryFrom_eq_some {n : Int} {m : Nat} (h : u32TryFrom n = some m) : (m : Int) = n := by
  rw [u32TryFrom] at h
  split at h
  · next hn =>
      rw [← Option.some.inj h]
      omega
  · cases h

namespace InternetCall

def capAudio : UInt8 := 1
def capVideo : UInt8 := 2
def capMesh : UInt8 := 4
def capWebrtc : UInt8 := 8
def inviteTtlSeconds : Nat := 30
def tokenTtlSeconds : Nat := 300
def requestSignatureTtlSeconds : Nat := 60
def requestSignatureMaxFutureSkewSeconds : Nat := 15
def presenceTtlSeconds : Nat := 90
def apnsVoipOutboxWorkers : Nat := 8
def apnsOutboxClaimLeaseSeconds : Nat := 120
def apnsOutboxRetryBaseSeconds : Nat := 2
def apnsOutboxRetryMaxSeconds : Nat := 300
def apnsOutboxRetryMaxJitterSeconds : Nat := 5
def callRateWindowSeconds : Nat := 60
def maxNewCallsPerDeviceWindow : Nat := 6
def maxPendingCallsPerDevice : Nat := 2

def deviceIsValid (userId deviceId keyFingerprint : Nat) (capabilities : UInt8) : Bool :=
  if userId = 0 ∨ deviceId = 0 ∨ keyFingerprint = 0 then false else capabilities &&& capAudio != 0

def supportsInternetCall (capabilities : UInt8) : Bool :=
  capabilities &&& capAudio != 0 && capabilities &&& capWebrtc != 0

def supportsVideoCall (capabilities : UInt8) : Bool :=
  supportsInternetCall capabilities && capabilities &&& capVideo != 0

def callMediaRequestIsValid (audioRequested videoRequested : Bool) (callerCapabilities : UInt8) : Bool :=
  ((audioRequested || videoRequested) && supportsInternetCall callerCapabilities) &&
    (!videoRequested || supportsVideoCall callerCapabilities)

def callTargetSupportsMedia (videoRequested : Bool) (targetCapabilities : UInt8) : Bool :=
  if videoRequested then supportsVideoCall targetCapabilities else supportsInternetCall targetCapabilities

def deviceIsOnline (lastSeen now : Nat) : Bool := withinLifetime presenceTtlSeconds lastSeen now

def inviteIsFresh (createdAt now : Nat) : Bool := withinLifetime inviteTtlSeconds createdAt now

def requestSignatureIsFresh (signedAt now : Nat) : Bool :=
  if signedAt > now then signedAt - now ≤ requestSignatureMaxFutureSkewSeconds
  else now - signedAt ≤ requestSignatureTtlSeconds

theorem le_of_requestSignatureIsFresh {signedAt now : Nat}
    (h : requestSignatureIsFresh signedAt now = true) :
    now ≤ signedAt + requestSignatureTtlSeconds := by
  rw [requestSignatureIsFresh] at h
  split at h <;> simp at h <;> omega

def mayAnswer (status : CallStatus) (inviteFresh deviceValid : Bool) : Bool :=
  status == .ringing && inviteFresh && deviceValid

def callTargetIsValid (callerUserId callerDeviceId calleeUserId calleeDeviceId : Nat)
    (calleeCapabilities : UInt8) : Bool :=
  if callerUserId = 0 ∨ callerDeviceId = 0 ∨ calleeUserId = 0 ∨ calleeDeviceId = 0 then false
  else if callerUserId = calleeUserId then false
  else supportsInternetCall calleeCapabilities

def callTargetIsAvailable (callerUserId callerDeviceId calleeUserId calleeDeviceId : Nat)
    (calleeCapabilities : UInt8) (online voipPushReachable : Bool) : Bool :=
  (online || voipPushReachable) &&
    callTargetIsValid callerUserId callerDeviceId calleeUserId calleeDeviceId calleeCapabilities

def voipPushMayBeSent (status : CallStatus) (inviteFresh tokenValid : Bool) : Bool :=
  status == .ringing && inviteFresh && tokenValid

def voipOutboxEventMayEnqueue (status : CallStatus)
    (inviteFresh tokenValid insertedNewCall : Bool) : Bool :=
  insertedNewCall && voipPushMayBeSent status inviteFresh tokenValid

def apnsOutboxBoundedJitterSeconds (jitterSeconds : Nat) : Nat :=
  if jitterSeconds > apnsOutboxRetryMaxJitterSeconds then apnsOutboxRetryMaxJitterSeconds
  else jitterSeconds

def apnsOutboxRetryDelaySeconds (attemptsCompleted jitterSeconds : Nat) : Nat :=
  let jitter := apnsOutboxBoundedJitterSeconds jitterSeconds
  match attemptsCompleted with
  | 0 | 1 => apnsOutboxRetryBaseSeconds + jitter
  | 2 => 4 + jitter
  | 3 => 8 + jitter
  | 4 => 16 + jitter
  | 5 => 32 + jitter
  | 6 => 64 + jitter
  | 7 => 128 + jitter
  | _ => apnsOutboxRetryMaxSeconds

def apnsOutboxClaimIsRecoverable (sameProcessOwner : Bool) (claimedAt now : Nat) : Bool :=
  if !sameProcessOwner then true
  else if now < claimedAt then false
  else now - claimedAt ≥ apnsOutboxClaimLeaseSeconds

def apnsOutboxBlockIsRecoverable (sameProcessOwner : Bool) : Bool := !sameProcessOwner

def newCallAdmissionIsAllowed (recentDeviceCalls pendingDeviceCalls pendingVoipEvents newVoipEvents : Nat)
    (apnsEnabled : Bool) : Bool :=
  if recentDeviceCalls ≥ maxNewCallsPerDeviceWindow ∨
      pendingDeviceCalls ≥ maxPendingCallsPerDevice then false
  else if !apnsEnabled then true
  else if pendingVoipEvents > apnsVoipOutboxWorkers then false
  else newVoipEvents ≤ apnsVoipOutboxWorkers - pendingVoipEvents

def joinIsAuthorized (requestUserId requestDeviceId calleeUserId calleeDeviceId : Nat)
    (status targetStatus : CallStatus) (inviteFresh deviceValid : Bool) : Bool :=
  requestUserId == calleeUserId && requestDeviceId == calleeDeviceId && targetStatus == .ringing &&
    mayAnswer status inviteFresh deviceValid

def joinRetryIsAuthorized (requestUserId requestDeviceId calleeUserId answeredDeviceId : Nat)
    (status : CallStatus) (deviceValid : Bool) : Bool :=
  requestUserId == calleeUserId && requestDeviceId == answeredDeviceId && status == .active && deviceValid

def calleeMayDecline (requestUserId requestDeviceId calleeUserId targetDeviceId : Nat)
    (callStatus targetStatus : CallStatus) : Bool :=
  if requestUserId ≠ calleeUserId ∨ requestDeviceId ≠ targetDeviceId then false
  else if targetStatus = .declined then true
  else callStatus == .ringing && targetStatus == .ringing

def statusAfterDecline (callStatus : CallStatus) (remainingRingingTargets : Nat) : CallStatus :=
  if callStatus = .ringing ∧ remainingRingingTargets = 0 then .declined else callStatus

def participantMayReadStatus (requestUserId requestDeviceId callerUserId callerDeviceId calleeUserId : Nat)
    (isCallTarget : Bool) : Bool :=
  let exactCaller := requestUserId == callerUserId && requestDeviceId == callerDeviceId
  let exactCallee := requestUserId == calleeUserId && isCallTarget
  exactCaller || exactCallee

def callShouldExpire (status : CallStatus) (inviteFresh : Bool) : Bool :=
  status == .ringing && !inviteFresh

def statusAfterExpiry (status : CallStatus) (inviteFresh : Bool) : CallStatus :=
  if callShouldExpire status inviteFresh then .missed else status

def statusAfterCallerEnd : CallStatus → CallStatus
  | .ringing => .cancelled
  | .active => .ended
  | status => status

def callIsTerminal (status : CallStatus) : Bool :=
  status == .ended || status == .declined || status == .cancelled || status == .missed

def livekitRoomCleanupShouldStart (status : CallStatus) (terminalStateCommitted : Bool) : Bool :=
  terminalStateCommitted && callIsTerminal status

def createRetryMatches (calleeMatches audioMatches videoMatches : Bool) : Bool :=
  calleeMatches && audioMatches && videoMatches

def createRetryMayIssueSession (exactCaller : Bool) (status : CallStatus) (inviteFresh : Bool) : Bool :=
  if !exactCaller then false
  else if status = .active then true
  else status == .ringing && inviteFresh

def callerMayEnd (requestUserId requestDeviceId callerUserId callerDeviceId : Nat)
    (status : CallStatus) : Bool :=
  requestUserId == callerUserId && requestDeviceId == callerDeviceId &&
    (status == .ringing || status == .active || callIsTerminal status)

def activeParticipantMayEnd (requestUserId requestDeviceId callerUserId callerDeviceId calleeUserId
    answeredDeviceId : Nat) (status : CallStatus) : Bool :=
  let exactCaller := requestUserId == callerUserId && requestDeviceId == callerDeviceId
  let exactAnswerer := requestUserId == calleeUserId && requestDeviceId == answeredDeviceId
  (exactCaller || exactAnswerer) && (status == .active || status == .ended)

def nextStatus (status : CallStatus) (accept : Bool) : CallStatus :=
  match status, accept with
  | .idle, _ => .ringing
  | .ringing, true => .active
  | .ringing, false => .ended
  | .active, false => .ended
  | status, _ => status

end InternetCall

namespace AccountIdentity

def linkCodeTtlSeconds : Nat := 600

def deviceMembershipIsValid (accountId deviceId keyFingerprint : Nat) (status : MembershipStatus) : Bool :=
  accountId != 0 && deviceId != 0 && keyFingerprint != 0 && status == .active

def linkCodeIsFresh (createdAt now : Nat) : Bool := withinLifetime linkCodeTtlSeconds createdAt now

def mayAdoptAccount (codeMatches codeUnused codeFresh sourceIsSingleDevice : Bool) : Bool :=
  codeMatches && codeUnused && codeFresh && sourceIsSingleDevice

def mayRevokeDevice (sameAccount targetActive : Bool) (activeDevices : Nat) : Bool :=
  sameAccount && targetActive && activeDevices > 1

end AccountIdentity

namespace NicknameDirectory

def nicknameMinLength : Nat := 3
def nicknameMaxLength : Nat := 20
def maxEditDistance : Nat := 1
def minConfusingPrefix : Nat := 4

def nicknameShapeIsValid (length : Nat) (startsWithLetter : Bool) (invalidCharacters : Nat) : Bool :=
  if length < nicknameMinLength ∨ length > nicknameMaxLength then false
  else startsWithLetter && invalidCharacters == 0

def nicknameIsConfusing (exactMatch : Bool) (editDistance sharedPrefix : Nat) : Bool :=
  if exactMatch then true
  else if editDistance ≤ maxEditDistance then true
  else sharedPrefix ≥ minConfusingPrefix && editDistance == 2

def claimStatus (shapeValid confusing registryReachable registryAccepts : Bool) : ClaimStatus :=
  if !shapeValid || confusing then .rejected
  else if registryReachable && registryAccepts then .verified
  else if !registryReachable then .meshLocal
  else .rejected

def nicknameOwnerMatches (claimAccountId deviceAccountId : Nat) : Bool :=
  claimAccountId != 0 && claimAccountId == deviceAccountId

end NicknameDirectory

def maxMessagePage : Nat := 100

def messagePageSize (requested : Nat) : Nat :=
  if requested = 0 then 1 else if requested > maxMessagePage then maxMessagePage else requested

def advanceReadCursor (currentMessageId observedMessageId : Nat) : Nat :=
  if observedMessageId > currentMessageId then observedMessageId else currentMessageId

def messageCountsAsUnread (messageId readCursor : Nat) (senderIsSelf : Bool) : Bool :=
  !senderIsSelf && messageId > readCursor

theorem messageCountsAsUnread_iff {messageId readCursor : Nat} {senderUserId userId : String} :
    messageCountsAsUnread messageId readCursor (senderUserId == userId) = true ↔
      senderUserId ≠ userId ∧ readCursor < messageId := by
  simp [messageCountsAsUnread]

namespace DirectMessage

def cryptoVersionV1 : UInt8 := 1
def x25519PublicKeyBytes : Nat := 32
def aeadNonceBytes : Nat := 12
def aeadTagBytes : Nat := 16
def maxCiphertextBytes : Nat := 4112
def maxRecipientDevices : Nat := 32

def textKeyIsValid (byteLength : Nat) (allZero : Bool) : Bool :=
  byteLength == x25519PublicKeyBytes && !allZero

def cryptoVersionIsSupported (cryptoVersion : UInt8) : Bool := cryptoVersion == cryptoVersionV1

def recipientMayResolve (senderIsRecipient senderHasNickname recipientHasNickname : Bool)
    (activeDevices keyedDevices : Nat) : Bool :=
  !senderIsRecipient && senderHasNickname && recipientHasNickname && activeDevices > 0 &&
    activeDevices ≤ maxRecipientDevices && keyedDevices == activeDevices

def envelopeIsValid (cryptoVersion : UInt8) (ephemeralKeyBytes : Nat) (ephemeralKeyAllZero : Bool)
    (nonceBytes ciphertextBytes : Nat) (signatureValid : Bool) : Bool :=
  cryptoVersionIsSupported cryptoVersion && textKeyIsValid ephemeralKeyBytes ephemeralKeyAllZero &&
    nonceBytes == aeadNonceBytes && ciphertextBytes > aeadTagBytes &&
    ciphertextBytes ≤ maxCiphertextBytes && signatureValid

def envelopeSetIsComplete (expectedDevices providedEnvelopes uniqueDevices : Nat) : Bool :=
  expectedDevices > 0 && expectedDevices == providedEnvelopes && expectedDevices == uniqueDevices &&
    expectedDevices ≤ maxRecipientDevices

def messageMayBeCommitted
    (recipientValid envelopeSetComplete everyEnvelopeValid clientMessageIdValid : Bool) : Bool :=
  recipientValid && envelopeSetComplete && everyEnvelopeValid && clientMessageIdValid

def messageRetryIsIdempotent (sameSenderAccount sameRecipient envelopeIntentMatches : Bool) : Bool :=
  sameSenderAccount && sameRecipient && envelopeIntentMatches

def pushAlertMayBeSent (senderIsRecipient tokenValid insertedNewMessage : Bool) : Bool :=
  !senderIsRecipient && tokenValid && insertedNewMessage

def pushAlertOutboxEventMayEnqueue (senderIsRecipient tokenValid insertedNewMessage : Bool) : Bool :=
  pushAlertMayBeSent senderIsRecipient tokenValid insertedNewMessage

end DirectMessage

namespace GroupChat

def maxGroupMembers : Nat := 32
def maxGroupTitleBytes : Nat := 80
def maxMessageBytes : Nat := 4096

def groupMayBeCreated (creatorValid : Bool) (requested resolved unique : Nat) : Bool :=
  if !creatorValid || requested == 0 then false
  else if requested ≠ resolved ∨ requested ≠ unique then false
  else requested < maxGroupMembers

def titleIsValid (byteLength : Nat) : Bool := byteLength > 0 && byteLength ≤ maxGroupTitleBytes

def memberMayRead (activeMember deviceValid : Bool) : Bool := activeMember && deviceValid

def messageMayBeSent (activeMember deviceValid : Bool) (byteLength : Nat) : Bool :=
  memberMayRead activeMember deviceValid && byteLength > 0 && byteLength ≤ maxMessageBytes

def pushAlertMayBeSent (senderIsRecipient activeMember tokenValid insertedNewMessage : Bool) : Bool :=
  !senderIsRecipient && activeMember && tokenValid && insertedNewMessage

end GroupChat

end TriNet.CallApi
