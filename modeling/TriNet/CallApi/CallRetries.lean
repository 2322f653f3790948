import TriNet.CallApi.Traffic

namespace TriNet.CallApi

open Lib Lib.BigEndian

variable {env : Env} {auth : AuthenticatedDevice} {draw : Draw} {db db' : Db}

def CreateCallResponse.callId : CreateCallResponse → String
  | .session s => s.callId
  | .conflict callId _ _ => callId

/-- The call was placed for this intent, by this device under this name. -/
structure CallRow.Intended (call : CallRow) (userId deviceId clientCallId callerName : String)
    (request : CreateCallRequest) : Prop where
  device : call.callerDeviceId = deviceId
  client : call.clientCallId = some clientCallId
  account : call.callerUserId = userId
  callee : call.calleeNickname = some (normalizeNickname request.callee)
  audio : call.audio = request.audio
  video : call.video = request.video
  name : call.callerName = callerName

theorem CallRow.Intended.of_identity {call call' : CallRow}
    {userId deviceId clientCallId callerName : String}
    {request : CreateCallRequest} (h : call.Intended userId deviceId clientCallId callerName request)
    (hid : call'.identity = call.identity) :
    call'.Intended userId deviceId clientCallId callerName request := by
  simp only [CallRow.identity, CallRow.mk.injEq] at hid
  obtain ⟨_, hclient, _, _, huser, hdevice, _, _, hcallee, hname, haudio, hvideo, _⟩ := hid
  exact ⟨hdevice.trans h.device, hclient.trans h.client, huser.trans h.account,
    hcallee.trans h.callee, haudio.trans h.audio, hvideo.trans h.video, hname.trans h.name⟩

/-- The conditions under which `create_call` answers for a stored call. -/
structure CreateCallRequest.Repeats (request : CreateCallRequest) (auth : AuthenticatedDevice) (db : Db)
    (clientCallId : String) (call : CallRow) : Prop where
  identity : auth.userId = request.callerUserId ∧ auth.deviceId = request.callerDeviceId
  media : InternetCall.callMediaRequestIsValid request.audio request.video auth.capabilities = true
  shape : nicknameShapeValid (normalizeNickname request.callee) = true
  intended : ∃ callerName, db.nicknameOf auth.userId = some callerName ∧
    call.Intended auth.userId auth.deviceId clientCallId callerName request

theorem callOf_client {deviceId clientCallId : String} {call : CallRow}
    (h : db.callOf deviceId clientCallId = some call) : call.clientCallId = some clientCallId := by
  have hp := List.find?_some h
  simp only [decide_eq_true_eq] at hp
  exact hp.2

theorem countCalls_of_find {call : CallRow} (h : db.calls.find call.callId = some call) :
    db.countCalls call.callId call.status = 1 := by
  have hcount := Table.count_of_find (p := fun r => r.status = call.status) h (by simp)
  simpa only [Db.countCalls, decide_eq_true_eq] using hcount

/-- What a retry may change: a call that has rung too long is marked missed. -/
def Db.RefreshedCall (db : Db) (call : CallRow) (now : Int) (db' : Db) : Prop :=
  db' = db ∨ call.status = .ringing ∧ checkedInviteFresh call.createdAt now = false ∧
    db' = db.expireCall call.callId .ringing .missed now

theorem expireStaleCall_exists {call : CallRow} (hcall : db.calls.find call.callId = some call)
    (now : Int) :
    ∃ db' status, expireStaleCall db call (checkedInviteFresh call.createdAt now) now = .ok (db', status) ∧
      db.RefreshedCall call now db' := by
  rw [expireStaleCall]
  split
  · next hexpire =>
      simp only [InternetCall.callShouldExpire, Bool.and_eq_true, beq_iff_eq, Bool.not_eq_true'] at hexpire
      have hone : db.countCalls call.callId .ringing = 1 := hexpire.1 ▸ countCalls_of_find hcall
      refine ⟨_, .missed, ?_, .inr ⟨hexpire.1, hexpire.2, rfl⟩⟩
      rw [expireRingingCall, hone]
      rfl
  · exact ⟨db, call.status, rfl, .inl rfl⟩

theorem createCall_of_repeats {request : CreateCallRequest} {clientCallId : String} {call : CallRow}
    (huuid : env.normalizeUuid request.clientCallId "client_call_id" = .ok clientCallId)
    (hof : db.callOf auth.deviceId clientCallId = some call)
    (h : request.Repeats auth db clientCallId call) :
    ∃ db' response, createCall env request auth draw db = .ok (db', response) ∧
      response.callId = call.callId ∧ db.RefreshedCall call draw.now db' := by
  obtain ⟨callerName, hname, hintended⟩ := h.intended
  obtain ⟨db', status, hexpire, hrefreshed⟩ := expireStaleCall_exists (callOf_eq_some hof).1 draw.now
  have hretry : ∃ response,
      retryCall env request (normalizeNickname request.callee) callerName auth draw db call =
      .ok (db', response) ∧ response.callId = call.callId := by
    simp only [retryCall, hintended.account, hintended.callee, hintended.audio,
      hintended.video, hintended.name,
      bne_self_eq_false, beq_self_eq_true, InternetCall.createRetryMatches, Bool.and_self,
      Bool.not_true, refuseIf_false, ok_bind, hexpire]
    split
    · exact ⟨_, rfl, rfl⟩
    · exact ⟨_, rfl, rfl⟩
  obtain ⟨response, hretry, hid⟩ := hretry
  refine ⟨db', response, ?_, hid, hrefreshed⟩
  have hidentity : requireIdentity auth request.callerUserId request.callerDeviceId = .ok () :=
    requireIdentity_eq_ok.mpr h.identity
  simp only [createCall, hidentity, h.media, h.shape, huuid, hname, hof, Bool.not_true,
    refuseIf_false, okOr, ok_bind, hretry]

theorem retryCall_intended {request : CreateCallRequest} {callerName clientCallId : String}
    {call : CallRow}
    {response : CreateCallResponse} (hof : db.callOf auth.deviceId clientCallId = some call)
    (h : retryCall env request (normalizeNickname request.callee) callerName auth draw db call =
      .ok (db', response)) :
    call.Intended auth.userId auth.deviceId clientCallId callerName request ∧
      response.callId = call.callId := by
  simp only [retryCall, bind_eq_ok, refuseIf_eq_ok, bne_eq_false_iff_eq, Bool.not_eq_false',
    InternetCall.createRetryMatches, Bool.and_eq_true, beq_iff_eq] at h
  obtain ⟨_, haccount, _, ⟨⟨hcallee, haudio⟩, hvideo⟩, _, hname, _, _, h⟩ := h
  refine ⟨⟨(callOf_eq_some hof).2, callOf_client hof, haccount, hcallee, haudio, hvideo, hname⟩, ?_⟩
  split at h <;> cases h <;> rfl

theorem placeCall_intended {request : CreateCallRequest} {callerName clientCallId : String}
    {response : CreateCallResponse}
    (h : placeCall env request (normalizeNickname request.callee) callerName clientCallId auth draw db =
      .ok (db', response)) :
    ∃ call, db'.calls.find response.callId = some call ∧
      call.Intended auth.userId auth.deviceId clientCallId callerName request := by
  simp only [placeCall, bind_eq_ok] at h
  obtain ⟨_, _, _, _, _, _, _, _, _, _, _, _, _, _, calls, hinsert, _, hring, hp⟩ := h
  cases hp
  obtain ⟨_, _, _, rfl⟩ := ringTargets_ok hring
  refine ⟨_, (Table.find_insert (insertCall_ok hinsert) _).trans (if_pos rfl), ?_⟩
  exact ⟨rfl, rfl, rfl, rfl, rfl, rfl, rfl⟩

theorem createCall_intended {request : CreateCallRequest} {response : CreateCallResponse}
    (h : createCall env request auth draw db = .ok (db', response)) :
    ∃ clientCallId callerName call,
      env.normalizeUuid request.clientCallId "client_call_id" = .ok clientCallId ∧
      db.nicknameOf auth.userId = some callerName ∧
        nicknameShapeValid (normalizeNickname request.callee) = true ∧
      db'.calls.find response.callId = some call ∧
      call.Intended auth.userId auth.deviceId clientCallId callerName request := by
  simp only [createCall, bind_eq_ok, okOr_eq_ok, refuseIf_eq_ok, Bool.not_eq_false'] at h
  obtain ⟨_, _, _, _, _, hshape, clientCallId, huuid, callerName, hname, h⟩ := h
  split at h
  · next call hof =>
      obtain ⟨hintended, hid⟩ := retryCall_intended hof h
      have hcall := (callOf_eq_some hof).1
      have hkept := (retryCall_lapse hcall h).update.identity call.callId
      rw [hcall, Option.map_some] at hkept
      obtain ⟨call', hcall', hidentity⟩ := Option.map_eq_some_iff.mp hkept
      exact ⟨clientCallId, callerName, call', huuid, hname, hshape, hid ▸ hcall',
        hintended.of_identity hidentity⟩
  · obtain ⟨call, hcall, hintended⟩ := placeCall_intended h
    exact ⟨clientCallId, callerName, call, huuid, hname, hshape, hcall, hintended⟩

theorem createCall_repeats {request : CreateCallRequest} {response : CreateCallResponse}
    {clientCallId : String}
    {call : CallRow} (huuid : env.normalizeUuid request.clientCallId "client_call_id" = .ok clientCallId)
    (hof : db.callOf auth.deviceId clientCallId = some call)
    (h : createCall env request auth draw db = .ok (db', response)) :
    request.Repeats auth db clientCallId call := by
  simp only [createCall, bind_eq_ok, okOr_eq_ok, refuseIf_eq_ok, Bool.not_eq_false',
    requireIdentity_eq_ok, huuid, Except.ok.injEq] at h
  obtain ⟨_, hidentity, _, hmedia, _, hshape, _, rfl, callerName, hname, h⟩ := h
  rw [hof] at h
  exact ⟨hidentity, hmedia, hshape, callerName, hname, (retryCall_intended hof h).1⟩

end TriNet.CallApi
