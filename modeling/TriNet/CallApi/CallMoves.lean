import TriNet.CallApi.Effects

namespace TriNet.CallApi

open Lib Lib.BigEndian

variable {env : Env} {auth : AuthenticatedDevice} {draw : Draw} {db db' : Db}

def Db.answer (db : Db) (callId deviceId : String) (now : Int) : Db :=
  { db with
    calls := answerCall db.calls callId .active deviceId now
    callTargets := setTargets db.callTargets (fun t => t.callId = callId)
      (fun d => if d = deviceId then .active else .ended) }

/-- Everything the transaction of a call handler can do to calls and targets. -/
inductive CallMove (db : Db) : Db → Prop
  | stay : CallMove db db
  | expire {call : CallRow} (callId : String) (now : Int) (hcall : db.calls.find callId = some call)
      (hring : call.status = .ringing) : CallMove db (db.expireCall callId .ringing .missed now)
  | answer {call : CallRow} {target : CallTargetRow} (callId deviceId : String) (now : Int)
      (hcall : db.calls.find callId = some call) (hring : call.status = .ringing)
      (htarget : db.callTargets.find (callId, deviceId) = some target) :
      CallMove db (db.answer callId deviceId now)
  | decline {call : CallRow} (callId deviceId : String) (hcall : db.calls.find callId = some call)
      (hring : call.status = .ringing)
      (hleft : (db.declinedTargets callId deviceId).count (ringingAt callId) ≠ 0) :
      CallMove db { db with callTargets := db.declinedTargets callId deviceId }
  | declineLast {call : CallRow} (callId deviceId : String) (now : Int)
      (hcall : db.calls.find callId = some call)
      (hring : call.status = .ringing)
      (hleft : (db.declinedTargets callId deviceId).count (ringingAt callId) = 0) :
      CallMove db { db with
        callTargets := db.declinedTargets callId deviceId
        calls := closeCall db.calls callId .ringing .declined now }
  | close {call : CallRow} {status next : CallStatus} (callId : String) (now : Int)
      (hcall : db.calls.find callId = some call) (hstatus : call.status = status)
      (hnext : status = .ringing ∧ next = .cancelled ∨ status = .active ∧ next = .ended) :
      CallMove db (db.endCall callId status next now)
  | place {call : CallRow} {calls : Table CallRow.callId} {targets : Table CallTargetRow.key}
      {outbox : Table OutboxRow.eventId} {ids : List String} (hinsert : db.calls.insert call = some calls)
      (hring : call.status = .ringing) (hanswered : call.answeredDeviceId = none)
      (hended : call.endedAt = none)
      (hids : ids ≠ [])
      (htargets : ∀ k, targets.find k =
        if k.1 = call.callId ∧ k.2 ∈ ids then some ⟨call.callId, k.2, .ringing⟩
        else db.callTargets.find k) :
      CallMove db { db with calls := calls, callTargets := targets, apnsOutbox := outbox }

theorem CallMove.frame (h : CallMove db db') :
    ∃ calls targets outbox,
      db' = { db with calls := calls, callTargets := targets, apnsOutbox := outbox } := by
  cases h <;> exact ⟨_, _, _, rfl⟩

def CallRow.identity (call : CallRow) : CallRow :=
  { call with status := .idle, answeredAt := none, answeredDeviceId := none, endedAt := none }

/-- A move on the calls there are: it places none and enqueues nothing. -/
structure CallUpdate (db db' : Db) : Prop where
  move : CallMove db db'
  identity : ∀ id, (db'.calls.find id).map CallRow.identity = (db.calls.find id).map CallRow.identity
  outbox : db'.apnsOutbox = db.apnsOutbox

section CallUpdate

theorem identity_update (calls : Table CallRow.callId) (p : CallRow → Bool) {f : CallRow → CallRow}
    (hf : ∀ r, (f r).callId = r.callId) (hid : ∀ r, (f r).identity = r.identity) (id : String) :
    ((calls.update p f hf).find id).map CallRow.identity = (calls.find id).map CallRow.identity := by
  have hsame : CallRow.identity ∘ (fun r => if p r then f r else r) = CallRow.identity := by
    funext r
    by_cases h : p r <;> simp [h, hid]
  rw [Table.find_update, Option.map_map, hsame]

theorem identity_closeCall (calls : Table CallRow.callId) (callId : String)
    (status next : CallStatus) (now : Int) (id : String) :
    ((closeCall calls callId status next now).find id).map CallRow.identity =
      (calls.find id).map CallRow.identity := by
  rw [closeCall, identity_update]
  exact fun _ => rfl

theorem identity_answerCall (calls : Table CallRow.callId) (callId : String) (next : CallStatus)
    (deviceId : String) (now : Int) (id : String) :
    ((answerCall calls callId next deviceId now).find id).map CallRow.identity =
      (calls.find id).map CallRow.identity := by
  rw [answerCall, identity_update]
  exact fun _ => rfl

variable {call : CallRow} (callId deviceId : String) (now : Int)

theorem CallUpdate.stay : CallUpdate db db := ⟨.stay, fun _ => rfl, rfl⟩

theorem CallUpdate.expire (hcall : db.calls.find callId = some call)
    (hring : call.status = .ringing) : CallUpdate db (db.expireCall callId .ringing .missed now) :=
  ⟨.expire callId now hcall hring, identity_closeCall _ _ _ _ _, rfl⟩

theorem CallUpdate.answer {target : CallTargetRow} (hcall : db.calls.find callId = some call)
    (hring : call.status = .ringing) (htarget : db.callTargets.find (callId, deviceId) = some target) :
    CallUpdate db (db.answer callId deviceId now) :=
  ⟨.answer callId deviceId now hcall hring htarget, identity_answerCall _ _ _ _ _, rfl⟩

inductive CallLapse (db : Db) : Db → Prop
  | stay : CallLapse db db
  | expire {call : CallRow} (callId : String) (now : Int) (hcall : db.calls.find callId = some call)
      (hring : call.status = .ringing) : CallLapse db (db.expireCall callId .ringing .missed now)
  | decline {call : CallRow} (callId deviceId : String) (hcall : db.calls.find callId = some call)
      (hring : call.status = .ringing)
      (hleft : (db.declinedTargets callId deviceId).count (ringingAt callId) ≠ 0) :
      CallLapse db { db with callTargets := db.declinedTargets callId deviceId }
  | declineLast {call : CallRow} (callId deviceId : String) (now : Int)
      (hcall : db.calls.find callId = some call)
      (hring : call.status = .ringing)
      (hleft : (db.declinedTargets callId deviceId).count (ringingAt callId) = 0) :
      CallLapse db { db with
        callTargets := db.declinedTargets callId deviceId
        calls := closeCall db.calls callId .ringing .declined now }
  | close {call : CallRow} {status next : CallStatus} (callId : String) (now : Int)
      (hcall : db.calls.find callId = some call) (hstatus : call.status = status)
      (hnext : status = .ringing ∧ next = .cancelled ∨ status = .active ∧ next = .ended) :
      CallLapse db (db.endCall callId status next now)

theorem CallLapse.update (h : CallLapse db db') : CallUpdate db db' := by
  cases h with
  | stay => exact .stay
  | expire callId now hcall hring => exact .expire callId now hcall hring
  | decline callId deviceId hcall hring hleft =>
      exact ⟨.decline callId deviceId hcall hring hleft, fun _ => rfl, rfl⟩
  | declineLast callId deviceId now hcall hring hleft =>
      exact ⟨.declineLast callId deviceId now hcall hring hleft, identity_closeCall _ _ _ _ _, rfl⟩
  | close callId now hcall hstatus hnext =>
      exact ⟨.close callId now hcall hstatus hnext, identity_closeCall _ _ _ _ _, rfl⟩

end CallUpdate

theorem ringTarget_ok {call : CallRow} {target : DeviceRow} (h : ringTarget env call db target = .ok db') :
    ∃ targets outbox, db.callTargets.insert ⟨call.callId, target.deviceId, .ringing⟩ = some targets ∧
      db' = { db with callTargets := targets, apnsOutbox := outbox } := by
  simp only [ringTarget, bind_eq_ok, okOr_eq_ok] at h
  obtain ⟨targets, htargets, hp⟩ := h
  cases hp
  exact ⟨targets, _, htargets, rfl⟩

theorem ringTargets_ok {call : CallRow} {devices : List DeviceRow}
    (h : devices.foldlM (ringTarget env call) db = .ok db') :
    ∃ targets outbox,
      (∀ k, targets.find k = if k.1 = call.callId ∧ k.2 ∈ devices.map DeviceRow.deviceId
        then some ⟨call.callId, k.2, .ringing⟩ else db.callTargets.find k) ∧
      db' = { db with callTargets := targets, apnsOutbox := outbox } := by
  induction devices generalizing db with
  | nil =>
      cases h
      exact ⟨_, _, by simp, rfl⟩
  | cons device devices ih =>
      rw [List.foldlM_cons, bind_eq_ok] at h
      obtain ⟨db₁, hone, hrest⟩ := h
      obtain ⟨targets₁, outbox₁, hinsert, rfl⟩ := ringTarget_ok hone
      obtain ⟨targets, outbox, hfind, rfl⟩ := ih hrest
      refine ⟨targets, outbox, ?_, rfl⟩
      intro k
      rw [hfind, Table.find_insert hinsert]
      by_cases hcall : k.1 = call.callId
      · by_cases hmem : k.2 ∈ devices.map DeviceRow.deviceId
        · simp [hcall, hmem]
        · by_cases hdev : device.deviceId = k.2
          · have hk : CallTargetRow.key ⟨call.callId, device.deviceId, .ringing⟩ = k :=
              Prod.ext hcall.symm hdev
            simp [hcall, hk, ← hdev]
          · have hk : CallTargetRow.key ⟨call.callId, device.deviceId, .ringing⟩ ≠ k :=
              fun he => hdev (congrArg Prod.snd he)
            simp [hcall, hmem, hk, Ne.symm hdev]
      · have hk : CallTargetRow.key ⟨call.callId, device.deviceId, .ringing⟩ ≠ k :=
          fun he => hcall (congrArg Prod.fst he).symm
        simp [hcall, hk]

theorem insertCall_ok {calls calls' : Table CallRow.callId} {call : CallRow}
    (h : insertCall calls call = .ok calls') : calls.insert call = some calls' := by
  simp only [insertCall, bind_eq_ok, okOr_eq_ok] at h
  obtain ⟨_, _, _, _, hinsert⟩ := h
  exact hinsert

theorem expireStaleCall_ok {call : CallRow} {inviteFresh : Bool} {now : Int} {status : CallStatus}
    (h : expireStaleCall db call inviteFresh now = .ok (db', status)) :
    (db' = db ∧ status = call.status) ∨
      (db' = db.expireCall call.callId .ringing .missed now ∧ status = .missed ∧
        call.status = .ringing) := by
  rw [expireStaleCall] at h
  split at h
  · next hexpire =>
      simp only [InternetCall.callShouldExpire, Bool.and_eq_true, beq_iff_eq] at hexpire
      rw [bind_eq_ok] at h
      obtain ⟨_, hexpired, hp⟩ := h
      cases hp
      exact .inr ⟨expireRingingCall_ok hexpired, rfl, hexpire.1⟩
  · cases h
    exact .inl ⟨rfl, rfl⟩

theorem createRetryMayIssueSession_iff {status : CallStatus} {fresh : Bool} :
    InternetCall.createRetryMayIssueSession true status fresh = true ↔
      status = .active ∨ status = .ringing ∧ fresh = true := by
  cases status <;> simp [InternetCall.createRetryMayIssueSession]

theorem retryCall_ok {request : CreateCallRequest} {callee callerName : String} {call : CallRow}
    {response : CreateCallResponse} (hcall : db.calls.find call.callId = some call)
    (h : retryCall env request callee callerName auth draw db call = .ok (db', response)) :
    CallMove db db' ∧ ∀ session, response = .session session →
      db' = db ∧ session.callId = call.callId ∧ session.token.sub = auth.deviceId ∧
      (call.status = .active ∨ call.status = .ringing ∧
        checkedInviteFresh call.createdAt draw.now = true) := by
  simp only [retryCall, bind_eq_ok] at h
  obtain ⟨_, _, _, _, _, _, ⟨db₁, status⟩, hrefresh, h⟩ := h
  obtain ⟨rfl, rfl⟩ | ⟨rfl, rfl, hring⟩ := expireStaleCall_ok hrefresh
  · split at h
    · cases h
      exact ⟨.stay, fun _ hs => by cases hs⟩
    · next hmay =>
        cases h
        refine ⟨.stay, ?_⟩
        intro session hs
        cases hs
        exact ⟨rfl, rfl, rfl, createRetryMayIssueSession_iff.mp (by simpa using hmay)⟩
  · cases h
    exact ⟨.expire call.callId draw.now hcall hring, fun _ hs => by cases hs⟩

theorem placeCall_ok {request : CreateCallRequest} {callee callerName clientCallId : String}
    {response : CreateCallResponse}
    (h : placeCall env request callee callerName clientCallId auth draw db = .ok (db', response)) :
    CallMove db db' ∧ ∃ call session at', db'.calls.find call.callId = some call ∧ call.status = .ringing ∧
      call.callerDeviceId = auth.deviceId ∧ call.createdAt = draw.clock at' ∧
        db.calls.find call.callId = none ∧
      response = .session session ∧ session.callId = call.callId ∧ session.token.sub = auth.deviceId := by
  simp only [placeCall, bind_eq_ok, okOr_eq_ok] at h
  obtain ⟨_, _, _, _, first, hfirst, _, _, _, _, _, _, _, _, calls, hinsert, _, hring, hp⟩ := h
  cases hp
  replace hinsert := insertCall_ok hinsert
  obtain ⟨targets, outbox, htargets, rfl⟩ := ringTargets_ok hring
  refine ⟨.place hinsert rfl rfl rfl ?_ htargets, _, _, _, ?_, rfl, rfl, rfl,
    (Table.insert_eq_some hinsert).1, rfl, rfl, rfl⟩
  · intro hempty
    rw [List.map_eq_nil_iff.mp hempty] at hfirst
    cases hfirst
  · rw [Table.find_insert hinsert, if_pos rfl]

def CallRow.InLifetime (call : CallRow) (now : Int) : Prop :=
  call.createdAt ≤ now ∧ now ≤ call.createdAt + InternetCall.inviteTtlSeconds

theorem inLifetime_of_checked {call : CallRow} {now : Int}
    (h : checkedInviteFresh call.createdAt now = true) : call.InLifetime now := by
  rw [checkedInviteFresh] at h
  split at h
  · next created current hcreated hcurrent =>
      have hc := u32TryFrom_eq_some hcreated
      have hn := u32TryFrom_eq_some hcurrent
      obtain ⟨hle, hlate⟩ := withinLifetime_iff.mp h
      rw [CallRow.InLifetime]
      omega
  · cases h

/-- The cast to `u32` makes an old invitation fresh again only after 2^32
seconds. -/
theorem le_of_wrappedInviteFresh {createdAt now : Int} (hfresh : wrappedInviteFresh createdAt now = true)
    (hwrap : now < createdAt + 2 ^ 32) : now ≤ createdAt + InternetCall.inviteTtlSeconds := by
  simp only [wrappedInviteFresh, Bool.and_eq_true] at hfresh
  obtain ⟨hle, httl⟩ := withinLifetime_iff.mp hfresh.2
  simp only [asU32] at hle httl
  omega

theorem callOf_eq_some {deviceId clientCallId : String} {call : CallRow}
    (h : db.callOf deviceId clientCallId = some call) :
    db.calls.find call.callId = some call ∧ call.callerDeviceId = deviceId := by
  have hp := List.find?_some h
  simp only [decide_eq_true_eq] at hp
  exact ⟨Table.mem_rows.mp (List.mem_of_find?_eq_some h), hp.1⟩

/-- A session given to a caller is for a call of that device: either a stored
one, still good at the clock reading of the retry, or one just placed. -/
theorem createCall_ok {request : CreateCallRequest} {response : CreateCallResponse}
    (h : createCall env request auth draw db = .ok (db', response)) :
    CallMove db db' ∧ ∀ session, response = .session session →
      session.token.sub = auth.deviceId ∧
      ∃ call, db'.calls.find session.callId = some call ∧ call.callerDeviceId = auth.deviceId ∧
        (db' = db ∧ (call.status = .active ∨ call.status = .ringing ∧ call.InLifetime draw.now) ∨
          db.calls.find session.callId = none ∧ call.status = .ringing ∧
            ∃ i, call.createdAt = draw.clock i) := by
  simp only [createCall, bind_eq_ok] at h
  obtain ⟨_, _, _, _, _, _, _, _, _, _, h⟩ := h
  split at h
  · next call hof =>
      obtain ⟨hcall, hcaller⟩ := callOf_eq_some hof
      obtain ⟨hmove, hsession⟩ := retryCall_ok hcall h
      refine ⟨hmove, ?_⟩
      intro session hs
      obtain ⟨rfl, hid, hsub, hstatus⟩ := hsession session hs
      refine ⟨hsub, call, by rw [hid, hcall], hcaller, ?_⟩
      exact .inl ⟨rfl, hstatus.imp_right (fun hring => ⟨hring.1, inLifetime_of_checked hring.2⟩)⟩
  · obtain ⟨hmove, call, session, at', hcall, hring, hcaller, hcreated, hnew, rfl, hid, hsub⟩ :=
      placeCall_ok h
    refine ⟨hmove, ?_⟩
    intro session' hs
    cases hs
    exact ⟨hsub, call, by rw [hid, hcall], hcaller, .inr ⟨by rw [hid, hnew], hring, at', hcreated⟩⟩

theorem joinCall_ok {callId : String} {request : CallParticipantRequest}
    {response : Except ApiError InternetCallSession}
    (h : joinCall env callId request auth draw db = .ok (db', response)) :
    ∃ call, db.calls.find callId = some call ∧
      ((db' = db ∧ call.status = .active ∧ call.answeredDeviceId = some auth.deviceId ∧
          ∃ session, response = .ok session ∧ session.callId = callId ∧
            session.token.sub = auth.deviceId) ∨
        (db' = db.expireCall callId .ringing .missed draw.now ∧ call.status = .ringing ∧
          ∃ e, response = .error e) ∨
        (db' = db.answer callId auth.deviceId draw.now ∧ call.status = .ringing ∧
          wrappedInviteFresh call.createdAt draw.now = true ∧
          (∃ target, db.callTargets.find (callId, auth.deviceId) = some target ∧ target.state = .ringing) ∧
          ∃ session, response = .ok session ∧ session.callId = callId ∧
            session.token.sub = auth.deviceId)) := by
  simp only [joinCall, bind_eq_ok, okOr_eq_ok] at h
  obtain ⟨_, _, call, hcall, target, htarget, h⟩ := h
  refine ⟨call, hcall, ?_⟩
  split at h
  · next hretry =>
      cases h
      simp only [InternetCall.joinRetryIsAuthorized, Bool.and_eq_true, beq_iff_eq] at hretry
      exact .inl ⟨rfl, hretry.2.1.2, hretry.1.2, _, rfl, rfl, rfl⟩
  · split at h
    · next hexpire =>
        simp only [InternetCall.callShouldExpire, Bool.and_eq_true, beq_iff_eq] at hexpire
        simp only [bind_eq_ok] at h
        obtain ⟨_, hexpired, hp⟩ := h
        cases hp
        exact .inr (.inl ⟨expireRingingCall_ok hexpired, hexpire.1, _, rfl⟩)
    · simp only [bind_eq_ok, refuseIf_eq_ok, Bool.or_eq_false_iff, Bool.not_eq_false',
        InternetCall.joinIsAuthorized, InternetCall.mayAnswer, Bool.and_eq_true, beq_iff_eq] at h
      obtain ⟨_, ⟨_, ⟨_, htstate⟩, ⟨hring, hfresh⟩, _⟩, _, _, hp⟩ := h
      cases hp
      refine .inr (.inr ⟨?_, hring, hfresh, ⟨target, htarget, htstate⟩, _, rfl, rfl, rfl⟩)
      rw [hring]
      rfl

theorem declineTarget_ok {callId deviceId : String} {record record' : CallStatusRecord}
    {now : Int} {call : CallRow}
    (hcall : db.calls.find callId = some call) (hring : call.status = .ringing)
    (hrecord : record.status = .ringing)
    (h : declineTarget db callId deviceId record now = .ok (db', record')) : CallLapse db db' := by
  simp only [declineTarget, bind_eq_ok, readCount_eq_ok, hrecord,
    InternetCall.statusAfterDecline, true_and] at h
  obtain ⟨_, ⟨_, rfl⟩, h⟩ := h
  by_cases hzero : (db.declinedTargets callId deviceId).count (ringingAt callId) = 0
  · simp only [if_pos hzero] at h
    cases h
    exact .declineLast callId deviceId now hcall hring hzero
  · simp only [if_neg hzero] at h
    cases h
    exact .decline callId deviceId hcall hring hzero

theorem declineCall_ok {callId : String} {request : CallParticipantRequest} {response : CallStatusResponse}
    (h : declineCall env callId request auth draw db = .ok (db', response)) : CallLapse db db' := by
  simp only [declineCall, bind_eq_ok] at h
  obtain ⟨_, _, record, hload, _, _, ⟨db₁, record₁⟩, hrefresh, _, _, h⟩ := h
  obtain ⟨call, hcall, hstatus, _⟩ := loadCallStatusRecord_ok hload
  obtain ⟨rfl, rfl⟩ | ⟨hring, hmissed, rfl⟩ := refreshExpiredCall_ok hrefresh
  · split at h
    · next hdecline =>
        rw [bind_eq_ok] at h
        obtain ⟨_, hdeclined, hp⟩ := h
        cases hp
        exact declineTarget_ok hcall (hstatus ▸ hdecline.2.1) hdecline.2.1 hdeclined
    · rw [bind_eq_ok] at h
      obtain ⟨_, _, hp⟩ := h
      cases hp
      exact .stay
  · split at h
    · next hdecline => exact absurd (hmissed.symm.trans hdecline.2.1) (by decide)
    · rw [bind_eq_ok] at h
      obtain ⟨_, _, hp⟩ := h
      cases hp
      exact .expire callId draw.now hcall (hstatus ▸ hring)

theorem callStatus_ok {callId : String} {request : CallParticipantRequest} {response : CallStatusResponse}
    (h : callStatus env callId request auth draw db = .ok (db', response)) : CallLapse db db' := by
  simp only [callStatus, bind_eq_ok] at h
  obtain ⟨_, _, record, hload, _, _, ⟨db₁, record₁⟩, hrefresh, hp⟩ := h
  cases hp
  obtain ⟨call, hcall, hstatus, _⟩ := loadCallStatusRecord_ok hload
  obtain ⟨rfl, rfl⟩ | ⟨hring, _, rfl⟩ := refreshExpiredCall_ok hrefresh
  · exact .stay
  · exact .expire callId draw.now hcall (hstatus ▸ hring)

theorem endCall_ok {callId : String} {request : CallParticipantRequest}
    {response : CallStatusResponse × Option String}
    (h : endCall env callId request auth draw db = .ok (db', response)) : CallLapse db db' := by
  simp only [endCall, bind_eq_ok] at h
  obtain ⟨_, _, record, hload, _, _, _, _, h⟩ := h
  obtain ⟨call, hcall, hstatus, _⟩ := loadCallStatusRecord_ok hload
  split at h
  · next hactive =>
      simp only [bind_eq_ok] at h
      obtain ⟨_, _, hp⟩ := h
      cases hp
      exact .close callId draw.now hcall (hstatus ▸ hactive) (.inr ⟨rfl, rfl⟩)
  · cases h
    exact .stay

theorem cancelCall_ok {callId : String} {request : CallParticipantRequest} {response : Option String}
    (h : cancelCall env callId request auth draw db = .ok (db', response)) : CallLapse db db' := by
  simp only [cancelCall, bind_eq_ok, okOr_eq_ok] at h
  obtain ⟨_, _, call, hcall, _, _, h⟩ := h
  split at h
  · next hnext =>
      simp only [bind_eq_ok] at h
      obtain ⟨_, _, hp⟩ := h
      cases hp
      apply CallLapse.close callId draw.now hcall rfl
      revert hnext
      cases call.status <;> simp [InternetCall.statusAfterCallerEnd]
  · cases h
    exact .stay

end TriNet.CallApi
