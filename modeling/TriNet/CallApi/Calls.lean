import TriNet.CallApi.Nicknames
import TriNet.CallApi.Outbox

namespace TriNet.CallApi

open Lib Lib.BigEndian

structure CreateCallRequest where
  clientCallId : String
  callee : String
  callerUserId : String
  callerDeviceId : String
  audio : Bool
  video : Bool

structure CallParticipantRequest where
  userId : String
  deviceId : String

structure LiveKitClaims where
  iss : String
  sub : String
  name : String
  nbf : Int
  exp : Int
  room : String
  deriving DecidableEq

/-- The token of a session is kept as the claims it signs. -/
structure InternetCallSession where
  callId : String
  roomId : String
  livekitUrl : String
  token : LiveKitClaims
  deriving DecidableEq

inductive CreateCallResponse
  | session (session : InternetCallSession)
  | conflict (callId status reason : String)

structure CallStatusResponse where
  callId : String
  callUuid : String
  status : String
  role : String
  targetStatus : Option String
  answeredHere : Bool
  createdAt : Int
  answeredAt : Option Int
  endedAt : Option Int

structure CallStatusRecord where
  roomId : String
  callUuid : String
  callerUserId : String
  callerDeviceId : String
  calleeUserId : String
  status : CallStatus
  createdAt : Int
  answeredAt : Option Int
  answeredDeviceId : Option String
  endedAt : Option Int
  targetStatus : Option CallStatus

def CallStatus.label : CallStatus → String
  | .idle => "idle"
  | .ringing => "ringing"
  | .active => "active"
  | .ended => "ended"
  | .declined => "declined"
  | .cancelled => "cancelled"
  | .missed => "missed"

def sessionFor (env : Env) (callId roomId : String) (device : AuthenticatedDevice)
    (participantName : String) (now : Int) : InternetCallSession :=
  ⟨callId, roomId, env.livekitUrl,
    ⟨env.livekitApiKey, device.deviceId, participantName, now - 5,
      now + InternetCall.tokenTtlSeconds, roomId⟩⟩

/-- `UPDATE calls SET status = .., ended_at = .. WHERE call_id = .. AND status = ..` -/
def closeCall (calls : Table CallRow.callId) (callId : String) (status next : CallStatus)
    (now : Int) : Table CallRow.callId :=
  calls.update (fun r => r.callId = callId ∧ r.status = status)
    (fun r => { r with status := next, endedAt := some now }) (fun _ => rfl)

def answerCall (calls : Table CallRow.callId) (callId : String) (next : CallStatus)
    (deviceId : String) (now : Int) : Table CallRow.callId :=
  calls.update (fun r => r.callId = callId ∧ r.status = .ringing)
    (fun r => { r with status := next, answeredAt := some now, answeredDeviceId := some deviceId })
    (fun _ => rfl)

def setTargets (targets : Table CallTargetRow.key) (p : CallTargetRow → Bool)
    (state : String → CallStatus) : Table CallTargetRow.key :=
  targets.update p (fun t => { t with state := state t.deviceId }) (fun _ => rfl)

def Db.countCalls (db : Db) (callId : String) (status : CallStatus) : Nat :=
  db.calls.count (fun r => r.callId = callId ∧ r.status = status)

/-- The two updates that take a call out of `status`; only ringing targets are
moved. -/
def Db.expireCall (db : Db) (callId : String) (status next : CallStatus) (now : Int) : Db :=
  { db with
    calls := closeCall db.calls callId status next now
    callTargets := setTargets db.callTargets (fun t => t.callId = callId ∧
      t.state = .ringing) (fun _ => .ended) }

def Db.endCall (db : Db) (callId : String) (status next : CallStatus) (now : Int) : Db :=
  { db with
    calls := closeCall db.calls callId status next now
    callTargets := setTargets db.callTargets (fun t => t.callId = callId) (fun _ => .ended) }

def expireRingingCall (db : Db) (callId : String) (now : Int) : Except ApiError Db := do
  refuseIf (db.countCalls callId .ringing != 1) (.conflict "call state changed while expiring")
  pure (db.expireCall callId .ringing .missed now)

def loadCallStatusRecord (db : Db) (callId requestDeviceId : String) :
    Except ApiError CallStatusRecord := do
  let c ← okOr (db.calls.find callId) (.forbidden "call is unavailable to this device")
  pure ⟨c.roomId, c.callUuid, c.callerUserId, c.callerDeviceId, c.calleeUserId, c.status,
    c.createdAt, c.answeredAt,
    c.answeredDeviceId, c.endedAt, (db.callTargets.find (callId, requestDeviceId)).map CallTargetRow.state⟩

def wrappedInviteFresh (createdAt now : Int) : Bool :=
  createdAt ≥ 0 && now ≥ 0 && InternetCall.inviteIsFresh (asU32 createdAt) (asU32 now)

def checkedInviteFresh (createdAt now : Int) : Bool :=
  match u32TryFrom createdAt, u32TryFrom now with
  | some createdAt, some current => InternetCall.inviteIsFresh createdAt current
  | _, _ => false

def refreshExpiredCall (db : Db) (callId : String) (record : CallStatusRecord) (now : Int) :
    Except ApiError (Db × CallStatusRecord) :=
  let nextStatus := InternetCall.statusAfterExpiry record.status (wrappedInviteFresh record.createdAt now)
  if nextStatus = record.status then pure (db, record)
  else do
    refuseIf (db.countCalls callId record.status != 1) (.conflict "call state changed while expiring")
    pure (db.expireCall callId record.status nextStatus now,
      { record with
        targetStatus := if record.targetStatus = some .ringing then some .ended else record.targetStatus
        status := nextStatus
        endedAt := some now })

def callStatusResponse (callId : String) (record : CallStatusRecord) (auth : AuthenticatedDevice) :
    CallStatusResponse where
  callId := callId
  callUuid := record.callUuid
  status := record.status.label
  role := if auth.userId = record.callerUserId ∧ auth.deviceId = record.callerDeviceId then "caller"
    else "callee"
  targetStatus := record.targetStatus.map CallStatus.label
  answeredHere := record.answeredDeviceId = some auth.deviceId
  createdAt := record.createdAt
  answeredAt := record.answeredAt
  endedAt := record.endedAt

def deviceIsOnline (lastSeen now : Int) : Bool :=
  lastSeen ≥ 0 && now ≥ 0 && InternetCall.deviceIsOnline (asU32 lastSeen) (asU32 now)

def voipPushIsReachable (env : Env) (target : DeviceRow) : Bool :=
  target.voipPushToken.any validApnsToken && env.apnsConfigured &&
    (ApnsEnvironment.parse target.pushEnvironment).isOk

def expireStaleCall (db : Db) (call : CallRow) (inviteFresh : Bool) (now : Int) :
    Except ApiError (Db × CallStatus) :=
  if InternetCall.callShouldExpire call.status inviteFresh then do
    let db ← expireRingingCall db call.callId now
    pure (db, .missed)
  else pure (db, call.status)

/-- The retry branch of `create_call`, for a call the device already has under
the client's id. -/
def retryCall (env : Env) (request : CreateCallRequest) (callee callerName : String)
    (auth : AuthenticatedDevice)
    (draw : Draw) (db : Db) (call : CallRow) : Except ApiError (Db × CreateCallResponse) := do
  refuseIf (call.callerUserId != auth.userId)
    (.forbidden "client_call_id belongs to the device's previous account")
  refuseIf (!InternetCall.createRetryMatches (call.calleeNickname == some callee)
      (call.audio == request.audio) (call.video == request.video))
    (.conflict "client_call_id was already used with different call intent")
  refuseIf (call.callerName != callerName)
    (.conflict "caller nickname changed after this call attempt was created")
  let inviteFresh := checkedInviteFresh call.createdAt draw.now
  let refreshed ← expireStaleCall db call inviteFresh draw.now
  if !InternetCall.createRetryMayIssueSession true refreshed.2 inviteFresh then
    pure (refreshed.1,
      .conflict call.callId refreshed.2.label "existing call cannot issue another media session")
  else pure (refreshed.1,
    .session (sessionFor env call.callId call.roomId auth call.callerName (draw.clock 1)))

def liveSince (since : Int) (call : CallRow) : Bool :=
  call.status = .active ∨ (call.status = .ringing ∧ call.createdAt ≥ since)

def busyDevice (db : Db) (freshSince : Int) (deviceId : String) : Bool :=
  db.calls.rows.any (fun c => liveSince freshSince c && (c.callerDeviceId = deviceId ||
    db.callTargets.rows.any (fun t => t.callId = c.callId ∧ t.deviceId = deviceId)))

/-- Every active device of the callee is looked at with a clock reading of its
own. -/
def availableTargets (env : Env) (request : CreateCallRequest) (auth : AuthenticatedDevice)
    (targetUserId : String) (draw : Draw) (db : Db) : List DeviceRow :=
  ((db.activeDevices targetUserId).zipIdx.filter (fun (target, i) =>
    !busyDevice db (draw.now - InternetCall.inviteTtlSeconds) target.deviceId &&
    InternetCall.callTargetSupportsMedia request.video target.capabilities &&
    InternetCall.callTargetIsAvailable (env.stableId auth.userId) (env.stableId auth.deviceId)
      (env.stableId targetUserId) (env.stableId target.deviceId) target.capabilities
      (deviceIsOnline target.lastSeen (draw.clock (i + 1))) (voipPushIsReachable env target))).map Prod.fst

def insertCall (calls : Table CallRow.callId) (row : CallRow) :
    Except ApiError (Table CallRow.callId) := do
  refuseIf (calls.rows.any (fun r => r.roomId == row.roomId))
    (.database "UNIQUE constraint failed: calls.room_id")
  refuseIf (calls.rows.any (fun r => r.callerDeviceId == row.callerDeviceId &&
    r.clientCallId == row.clientCallId))
    (.database "UNIQUE constraint failed: calls.caller_device_id, calls.client_call_id")
  okOr (calls.insert row) (.database "UNIQUE constraint failed: calls.call_id")

def ringTarget (env : Env) (call : CallRow) (db : Db) (target : DeviceRow) : Except ApiError Db := do
  let targets ← okOr (db.callTargets.insert ⟨call.callId, target.deviceId, .ringing⟩)
    (.database "UNIQUE constraint failed: call_targets.call_id, call_targets.device_id")
  let tokenValid := pushTokenValid target.voipPushToken target.pushEnvironment
  let outbox :=
    if InternetCall.voipOutboxEventMayEnqueue call.status true tokenValid true then
      enqueueApnsOutboxEvent env .callInvite call.callId target.deviceId
        (.callInvite call.callId call.callUuid call.callerName call.audio call.video)
        call.createdAt db.apnsOutbox
    else db.apnsOutbox
  pure { db with callTargets := targets, apnsOutbox := outbox }

def placeCall (env : Env) (request : CreateCallRequest) (callee callerName clientCallId : String)
    (auth : AuthenticatedDevice) (draw : Draw) (db : Db) : Except ApiError (Db × CreateCallResponse) := do
  let targetUserId ← okOr (db.userOfNickname callee) (.notFound "nickname not found")
  refuseIf (targetUserId == auth.userId) (.conflict "cannot call your own account")
  let targets := availableTargets env request auth targetUserId draw db
  let first ← okOr targets.head? (.conflict "destination is offline or cannot receive an Internet call")
  let recentDeviceCalls ← readCount 32 (db.calls.count (fun r =>
    r.callerDeviceId = auth.deviceId ∧ r.createdAt ≥ draw.now - InternetCall.callRateWindowSeconds))
  let pendingDeviceCalls ← readCount 32 (db.calls.count (fun r =>
    r.callerDeviceId = auth.deviceId ∧ r.status = .ringing ∧
      r.createdAt ≥ draw.now - InternetCall.inviteTtlSeconds))
  let pendingVoipEvents ← readCount 32 (db.apnsOutbox.count (fun r => r.eventKind = .callInvite))
  let newVoipEvents :=
    min (targets.countP (fun target => pushTokenValid target.voipPushToken target.pushEnvironment))
      (2 ^ 32 - 1)
  refuseIf (!InternetCall.newCallAdmissionIsAllowed recentDeviceCalls pendingDeviceCalls
      pendingVoipEvents newVoipEvents env.apnsConfigured)
    (.tooManyRequests "call rate or fresh VoIP delivery capacity exceeded; retry shortly")
  let readings := (db.activeDevices targetUserId).length
  let call : CallRow :=
    { callId := draw.randomId "call_" 0
      clientCallId := some clientCallId
      callUuid := draw.uuid
      roomId := draw.randomId "room_" 1
      callerUserId := auth.userId
      callerDeviceId := auth.deviceId
      calleeUserId := targetUserId
      calleeDeviceId := first.deviceId
      calleeNickname := some callee
      callerName := callerName
      audio := request.audio
      video := request.video
      status := InternetCall.nextStatus .idle true
      createdAt := draw.clock (readings + 1)
      answeredAt := none
      answeredDeviceId := none
      endedAt := none }
  let calls ← insertCall db.calls call
  let db ← targets.foldlM (ringTarget env call) { db with calls := calls }
  pure (db, .session (sessionFor env call.callId call.roomId auth callerName (draw.clock (readings + 2))))

def Db.callOf (db : Db) (deviceId clientCallId : String) : Option CallRow :=
  db.calls.rows.find? (fun r => r.callerDeviceId = deviceId ∧ r.clientCallId = some clientCallId)

def createCall (env : Env) (request : CreateCallRequest) (auth : AuthenticatedDevice) (draw : Draw)
    (db : Db) : Except ApiError (Db × CreateCallResponse) := do
  requireIdentity auth request.callerUserId request.callerDeviceId
  refuseIf (!InternetCall.callMediaRequestIsValid request.audio request.video auth.capabilities)
    (.badRequest "call requires audio or video supported by the caller device")
  let callee := normalizeNickname request.callee
  refuseIf (!nicknameShapeValid callee) (.badRequest "invalid callee nickname")
  let clientCallId ← env.normalizeUuid request.clientCallId "client_call_id"
  let callerName ← okOr (db.nicknameOf auth.userId) (.conflict "claim a nickname before calling")
  match db.callOf auth.deviceId clientCallId with
  | some call => retryCall env request callee callerName auth draw db call
  | none => placeCall env request callee callerName clientCallId auth draw db

/-- An expired invitation is marked missed and then refused: the refusal is
part of what is committed. -/
def joinCall (env : Env) (callId : String) (request : CallParticipantRequest) (auth : AuthenticatedDevice)
    (draw : Draw) (db : Db) : Except ApiError (Db × Except ApiError InternetCallSession) := do
  requireIdentity auth request.userId request.deviceId
  let call ← okOr (db.calls.find callId) (.forbidden "call is unavailable to this device")
  let target ← okOr (db.callTargets.find (callId, auth.deviceId))
      (.forbidden "call is unavailable to this device")
  let inviteFresh := wrappedInviteFresh call.createdAt draw.now
  let deviceValid := InternetCall.deviceIsValid (env.stableId auth.userId) (env.stableId auth.deviceId)
    (env.stableId auth.deviceId) auth.capabilities
  let exactCalleeTarget := auth.userId == call.calleeUserId && auth.deviceId == target.deviceId
  let exactAnswerRetry := call.answeredDeviceId == some auth.deviceId
  let session :=
    sessionFor env callId call.roomId auth (call.calleeNickname.getD "TRI-NET peer") (draw.clock 1)
  if exactCalleeTarget && exactAnswerRetry && InternetCall.joinRetryIsAuthorized (env.stableId auth.userId)
      (env.stableId auth.deviceId) (env.stableId call.calleeUserId)
      (env.stableId (call.answeredDeviceId.getD "")) call.status deviceValid then
    pure (db, .ok session)
  else if InternetCall.callShouldExpire call.status inviteFresh then do
    let db ← expireRingingCall db callId draw.now
    pure (db, .error (.forbidden "call invitation expired"))
  else do
    refuseIf (!exactCalleeTarget || !InternetCall.joinIsAuthorized (env.stableId auth.userId)
        (env.stableId auth.deviceId) (env.stableId call.calleeUserId)
        (env.stableId target.deviceId) call.status
        target.state inviteFresh deviceValid)
      (.forbidden "call is expired, already answered, or belongs to another device")
    refuseIf (db.countCalls callId .ringing != 1) (.conflict "call was answered on another device")
    pure ({ db with
        calls := answerCall db.calls callId (InternetCall.nextStatus call.status true)
          auth.deviceId draw.now
        callTargets := setTargets db.callTargets (fun t => t.callId = callId)
          (fun deviceId => if deviceId = auth.deviceId then .active else .ended) }, .ok session)

def mayReadStatus (env : Env) (auth : AuthenticatedDevice) (record : CallStatusRecord) : Bool :=
  InternetCall.participantMayReadStatus (env.stableId auth.userId) (env.stableId auth.deviceId)
    (env.stableId record.callerUserId) (env.stableId record.callerDeviceId)
    (env.stableId record.calleeUserId)
    record.targetStatus.isSome

def ringingAt (callId : String) (t : CallTargetRow) : Bool := t.callId = callId ∧ t.state = .ringing

def Db.declinedTargets (db : Db) (callId deviceId : String) : Table CallTargetRow.key :=
  setTargets db.callTargets (fun t => t.callId = callId ∧ t.deviceId = deviceId ∧
    t.state = .ringing) (fun _ => .declined)

def declineTarget (db : Db) (callId deviceId : String) (record : CallStatusRecord) (now : Int) :
    Except ApiError (Db × CallStatusRecord) := do
  let targets := db.declinedTargets callId deviceId
  let remaining ← readCount 16 (targets.count (ringingAt callId))
  let nextStatus := InternetCall.statusAfterDecline record.status remaining
  if nextStatus ≠ record.status then
    pure ({ db with
        callTargets := targets
        calls := closeCall db.calls callId record.status nextStatus now },
      { record with status := nextStatus, endedAt := some now, targetStatus := some .declined })
  else pure ({ db with callTargets := targets }, { record with targetStatus := some .declined })

def declineCall (env : Env) (callId : String) (request : CallParticipantRequest)
    (auth : AuthenticatedDevice)
    (draw : Draw) (db : Db) : Except ApiError (Db × CallStatusResponse) := do
  requireIdentity auth request.userId request.deviceId
  let record ← loadCallStatusRecord db callId auth.deviceId
  let exactTarget := auth.userId == record.calleeUserId && record.targetStatus.isSome
  refuseIf (!exactTarget || !mayReadStatus env auth record)
    (.forbidden "call is unavailable to this device")
  let refreshed ← refreshExpiredCall db callId record draw.now
  let db := refreshed.1
  let record := refreshed.2
  let targetStatus ← okOr record.targetStatus (.forbidden "call is unavailable to this device")
  let mayDecline := InternetCall.calleeMayDecline (env.stableId auth.userId) (env.stableId auth.deviceId)
    (env.stableId record.calleeUserId) (env.stableId auth.deviceId) record.status targetStatus
  if mayDecline ∧ record.status = .ringing ∧ targetStatus = .ringing then do
    let declined ← declineTarget db callId auth.deviceId record draw.now
    pure (declined.1, callStatusResponse callId declined.2 auth)
  else do
    refuseIf (!mayDecline && record.status == .ringing) (.conflict "call target can no longer be declined")
    pure (db, callStatusResponse callId record auth)

def callStatus (env : Env) (callId : String) (request : CallParticipantRequest)
    (auth : AuthenticatedDevice)
    (draw : Draw) (db : Db) : Except ApiError (Db × CallStatusResponse) := do
  requireIdentity auth request.userId request.deviceId
  let record ← loadCallStatusRecord db callId auth.deviceId
  let exactCaller := auth.userId == record.callerUserId && auth.deviceId == record.callerDeviceId
  let exactTarget := auth.userId == record.calleeUserId && record.targetStatus.isSome
  refuseIf (!(exactCaller || exactTarget) || !mayReadStatus env auth record)
    (.forbidden "call is unavailable to this device")
  let refreshed ← refreshExpiredCall db callId record draw.now
  pure (refreshed.1, callStatusResponse callId refreshed.2 auth)

/-- The room to clean up once the transaction is committed, if there is one. -/
def cleanupRoom (status : CallStatus) (roomId : String) : Option String :=
  if InternetCall.livekitRoomCleanupShouldStart status true then some roomId else none

def endCall (env : Env) (callId : String) (request : CallParticipantRequest) (auth : AuthenticatedDevice)
    (draw : Draw) (db : Db) : Except ApiError (Db × CallStatusResponse × Option String) := do
  requireIdentity auth request.userId request.deviceId
  let record ← loadCallStatusRecord db callId auth.deviceId
  let exactCaller := auth.userId == record.callerUserId && auth.deviceId == record.callerDeviceId
  let exactTarget := auth.userId == record.calleeUserId && record.targetStatus.isSome
  let exactAnswerer := auth.userId == record.calleeUserId && record.answeredDeviceId == some auth.deviceId
  refuseIf (!(exactCaller || exactTarget) || !mayReadStatus env auth record)
    (.forbidden "call is unavailable to this device")
  refuseIf (!(exactCaller || exactAnswerer) ||
    !InternetCall.activeParticipantMayEnd (env.stableId auth.userId)
      (env.stableId auth.deviceId) (env.stableId record.callerUserId) (env.stableId record.callerDeviceId)
      (env.stableId record.calleeUserId) (env.stableId (record.answeredDeviceId.getD "")) record.status)
    (.conflict "only the originating caller or answering callee may end an active call")
  if record.status = .active then do
    refuseIf (db.countCalls callId .active != 1) (.conflict "call state changed before hangup")
    let record := { record with
      status := .ended
      endedAt := some draw.now
      targetStatus := record.targetStatus.map (fun _ => .ended) }
    pure (db.endCall callId .active .ended draw.now, callStatusResponse callId record auth,
      cleanupRoom record.status record.roomId)
  else pure (db, callStatusResponse callId record auth, cleanupRoom record.status record.roomId)

def cancelCall (env : Env) (callId : String) (request : CallParticipantRequest)
    (auth : AuthenticatedDevice)
    (draw : Draw) (db : Db) : Except ApiError (Db × Option String) := do
  requireIdentity auth request.userId request.deviceId
  let call ← okOr (db.calls.find callId) (.forbidden "call is unavailable to this device")
  let exactOriginatingDevice := auth.userId == call.callerUserId && auth.deviceId == call.callerDeviceId
  refuseIf (!exactOriginatingDevice || !InternetCall.callerMayEnd (env.stableId auth.userId)
      (env.stableId auth.deviceId) (env.stableId call.callerUserId)
      (env.stableId call.callerDeviceId) call.status)
    (.forbidden "only the originating device may end this call")
  let nextStatus := InternetCall.statusAfterCallerEnd call.status
  if nextStatus ≠ call.status then do
    refuseIf (db.countCalls callId call.status != 1) (.conflict "call state changed before cancellation")
    pure (db.endCall callId call.status nextStatus draw.now, cleanupRoom nextStatus call.roomId)
  else pure (db, cleanupRoom nextStatus call.roomId)

end TriNet.CallApi
