import TriNet.CallApi.Server

namespace TriNet.CallApi

open Lib Lib.BigEndian

variable {env : Env} {auth : AuthenticatedDevice} {draw : Draw} {db db' : Db}

theorem registerDevice_ok {request : DeviceRegistrationRequest}
    (h : registerDevice env request auth draw db = .ok db') :
    ∃ row accounts, row.deviceId = auth.deviceId ∧ row.userId = auth.userId ∧ row.revokedAt = none ∧
      auth.deviceId = request.deviceId ∧ auth.userId = request.userId ∧
      (db.devices.find auth.deviceId = none → db.devices.count (otherMember request) = 0) ∧
      db' = { db with accounts := accounts, devices := storeRow db.devices row } := by
  simp only [registerDevice, bind_eq_ok, refuseIf_eq_ok, readCount_eq_ok, Bool.or_eq_false_iff,
    bne_eq_false_iff_eq] at h
  obtain ⟨device, _, _, ⟨hd, hu⟩, _, ⟨_, rfl⟩, _, hmembers, hp⟩ := h
  cases hp
  refine ⟨registeredRow request device draw.now draw.millis, _, hd.symm, hu.symm, rfl, hd, hu, ?_, rfl⟩
  intro hnone
  rw [hd] at hnone
  rw [hnone] at hmembers
  simpa using hmembers

theorem createLinkCode_ok {request : AccountRequest} {response : LinkCodeResponse}
    (h : createLinkCode env request auth draw db = .ok (db', response)) :
    request = ⟨auth.userId, auth.deviceId⟩ ∧ ∃ codes,
      (db.deviceLinkCodes.delete (fun r => r.expiresAt < draw.now ∨
        r.createdByDeviceId = auth.deviceId)).insert
        ⟨env.digestHex (utf8 (draw.randomId "link_" 0)), auth.userId, auth.deviceId, draw.now,
          draw.now + AccountIdentity.linkCodeTtlSeconds, none⟩ = some codes ∧
      db' = { db with deviceLinkCodes := codes } := by
  simp only [createLinkCode, bind_eq_ok, okOr_eq_ok, requireIdentity_eq_ok] at h
  obtain ⟨_, ⟨huser, hdevice⟩, codes, hcodes, hp⟩ := h
  cases hp
  exact ⟨by rw [huser, hdevice], codes, hcodes, rfl⟩

theorem linkDevice_ok {request : LinkDeviceRequest} {response : AccountSnapshotResponse}
    (h : linkDevice env request auth draw db = .ok (db', response)) :
    ∃ code nicknames accounts,
      db.deviceLinkCodes.find (env.digestHex (utf8 request.linkCode)) = some code ∧
      code.consumedAt = none ∧ codeIsFresh code draw.now = true ∧
      db.devices.count (memberRow auth) = 1 ∧ db' = { db with
        devices := moveDevice db.devices auth code.userId draw.now
        deviceLinkCodes := consumeCode db.deviceLinkCodes (env.digestHex (utf8 request.linkCode)) draw.now
        nicknames := nicknames
        accounts := accounts } := by
  simp only [linkDevice, bind_eq_ok, okOr_eq_ok, refuseIf_eq_ok, readCount_eq_ok] at h
  obtain ⟨_, _, _, _, code, hcode, _, _, _, ⟨_, rfl⟩, _, hadopt, _, hmember, _, _, hp⟩ := h
  cases hp
  simp only [AccountIdentity.mayAdoptAccount, Bool.not_eq_false', Bool.and_eq_true] at hadopt
  exact ⟨code, _, _, hcode, by simpa using hadopt.1.1.2, hadopt.1.2, by simpa using hmember, rfl⟩

theorem revokeDevice_ok {targetDeviceId : String} {request : AccountRequest}
    (h : revokeDevice targetDeviceId request auth draw db = .ok db') :
    db' = { db with devices := revokeRows db.devices targetDeviceId draw.now } := by
  simp only [revokeDevice, bind_eq_ok] at h
  obtain ⟨_, _, _, _, _, _, _, _, hp⟩ := h
  cases hp
  rfl

section Calls

theorem expireRingingCall_ok {callId : String} {now : Int}
    (h : expireRingingCall db callId now = .ok db') :
    db' = db.expireCall callId .ringing .missed now := by
  simp only [expireRingingCall, bind_eq_ok] at h
  obtain ⟨_, _, hp⟩ := h
  cases hp
  rfl

theorem statusAfterExpiry_ne {status : CallStatus} {fresh : Bool}
    (h : InternetCall.statusAfterExpiry status fresh ≠ status) :
    status = .ringing ∧ InternetCall.statusAfterExpiry status fresh = .missed := by
  rw [InternetCall.statusAfterExpiry] at h ⊢
  split at h
  · next hexpire =>
      rw [if_pos hexpire]
      simp only [InternetCall.callShouldExpire, Bool.and_eq_true, beq_iff_eq] at hexpire
      exact ⟨hexpire.1, rfl⟩
  · exact absurd rfl h

theorem refreshExpiredCall_ok {callId : String} {record record' : CallStatusRecord} {now : Int}
    (h : refreshExpiredCall db callId record now = .ok (db', record')) :
    (db' = db ∧ record' = record) ∨
      (record.status = .ringing ∧ record'.status = .missed ∧
        db' = db.expireCall callId .ringing .missed now) := by
  simp only [refreshExpiredCall] at h
  by_cases hsame : InternetCall.statusAfterExpiry record.status
    (wrappedInviteFresh record.createdAt now) = record.status
  · rw [if_pos hsame] at h
    cases h
    exact .inl ⟨rfl, rfl⟩
  · obtain ⟨hring, hmissed⟩ := statusAfterExpiry_ne hsame
    rw [if_neg hsame, bind_eq_ok] at h
    obtain ⟨_, _, hp⟩ := h
    cases hp
    exact .inr ⟨hring, hmissed, by rw [hmissed, hring]⟩

theorem loadCallStatusRecord_ok {callId deviceId : String} {record : CallStatusRecord}
    (h : loadCallStatusRecord db callId deviceId = .ok record) :
    ∃ call, db.calls.find callId = some call ∧ record.status = call.status ∧
      record.targetStatus = (db.callTargets.find (callId, deviceId)).map CallTargetRow.state := by
  simp only [loadCallStatusRecord, bind_eq_ok, okOr_eq_ok] at h
  obtain ⟨call, hcall, hp⟩ := h
  cases hp
  exact ⟨call, hcall, rfl, rfl⟩

end Calls

end TriNet.CallApi
