import TriNet.CallApi.CallMoves

namespace TriNet.CallApi

open Lib Lib.BigEndian

variable {env : Env} {auth : AuthenticatedDevice} {draw : Draw} {db db' : Db}

/-- What a committed body has done to the database. Only the account handlers
write devices or link codes, and only the call handlers write calls. -/
inductive Footprint (env : Env) (auth : AuthenticatedDevice) (draw : Draw) (db : Db) : Request → Db → Prop
  | register {request : DeviceRegistrationRequest} {row : DeviceRow} {accounts : Table AccountRow.userId}
      (hdevice : row.deviceId = auth.deviceId) (huser : row.userId = auth.userId)
      (hactive : row.revokedAt = none)
      (hmatches : auth.deviceId = request.deviceId ∧ auth.userId = request.userId)
      (hmembers : db.devices.find auth.deviceId = none → db.devices.count (otherMember request) = 0) :
      Footprint env auth draw db (.registerDevice request)
        { db with accounts := accounts, devices := storeRow db.devices row }
  | linkCode {codes : Table LinkCodeRow.codeHash}
      (hinsert :
        (db.deviceLinkCodes.delete (fun r => r.expiresAt < draw.now ∨
          r.createdByDeviceId = auth.deviceId)).insert
          ⟨env.digestHex (utf8 (draw.randomId "link_" 0)), auth.userId, auth.deviceId, draw.now,
            draw.now + AccountIdentity.linkCodeTtlSeconds, none⟩ = some codes) :
      Footprint env auth draw db (.createLinkCode ⟨auth.userId, auth.deviceId⟩)
        { db with deviceLinkCodes := codes }
  | link {request : LinkDeviceRequest} {code : LinkCodeRow} {nicknames : Table NicknameRow.nickname}
      {accounts : Table AccountRow.userId}
      (hcode : db.deviceLinkCodes.find (env.digestHex (utf8 request.linkCode)) = some code)
      (hunused : code.consumedAt = none) (hfresh : codeIsFresh code draw.now = true)
      (hmember : db.devices.count (memberRow auth) = 1) :
      Footprint env auth draw db (.linkDevice request)
        { db with
          devices := moveDevice db.devices auth code.userId draw.now
          deviceLinkCodes :=
            consumeCode db.deviceLinkCodes (env.digestHex (utf8 request.linkCode)) draw.now
          nicknames := nicknames
          accounts := accounts }
  | revoke (targetDeviceId : String) {request : AccountRequest} :
      Footprint env auth draw db (.revokeDevice targetDeviceId request)
        { db with devices := revokeRows db.devices targetDeviceId draw.now }
  | call {request : Request} {db' : Db} (hmove : CallMove db db') : Footprint env auth draw db request db'
  | content {request : Request} {nicknames : Table NicknameRow.nickname}
    {chats : Table GroupChatRow.chatId}
      {members : Table GroupChatMemberRow.key} {groupMessages : Table GroupChatMessageRow.messageId}
      {groupCursors : Table GroupChatReadStateRow.key} {messages : Table DirectMessageRow.messageId}
      {envelopes : Table DirectMessageEnvelopeRow.key} {cursors : Table DirectMessageReadStateRow.key}
      {outbox : Table OutboxRow.eventId} :
      Footprint env auth draw db request
        { db with
          nicknames := nicknames
          groupChats := chats
          groupChatMembers := members
          groupChatMessages := groupMessages
          groupChatReadState := groupCursors
          directMessages := messages
          directMessageEnvelopes := envelopes
          directMessageReadState := cursors
          apnsOutbox := outbox }

theorem joinCall_update {callId : String} {request : CallParticipantRequest}
    {response : Except ApiError InternetCallSession}
    (h : joinCall env callId request auth draw db = .ok (db', response)) : CallUpdate db db' := by
  obtain ⟨call, hcall, ⟨rfl, _⟩ | ⟨rfl, hring, _⟩ | ⟨rfl, hring, _, ⟨target, htarget, _⟩, _⟩⟩ :=
    joinCall_ok h
  · exact .stay
  · exact .expire callId draw.now hcall hring
  · exact .answer callId auth.deviceId draw.now hcall hring htarget

def Request.Writes (db db' : Db) : Request → Prop
  | .registerDevice _ => ∃ accounts devices, db' = { db with accounts := accounts, devices := devices }
  | .createLinkCode _ => ∃ codes, db' = { db with deviceLinkCodes := codes }
  | .linkDevice _ => ∃ accounts devices nicknames codes, db' = { db with
      accounts := accounts, devices := devices, nicknames := nicknames, deviceLinkCodes := codes }
  | .revokeDevice .. => ∃ devices, db' = { db with devices := devices }
  | .claimNickname _ => ∃ nicknames, db' = { db with nicknames := nicknames }
  | .createCall _ | .joinCall .. | .declineCall .. | .callStatus .. | .endCall .. | .cancelCall .. =>
      ∃ calls targets outbox,
        db' = { db with calls := calls, callTargets := targets, apnsOutbox := outbox }
  | .sendDirectMessage _ => ∃ messages envelopes outbox, db' = { db with
      directMessages := messages, directMessageEnvelopes := envelopes, apnsOutbox := outbox }
  | .markDirectMessagesRead _ => ∃ cursors, db' = { db with directMessageReadState := cursors }
  | .createGroupChat _ => ∃ chats members cursors, db' = { db with
      groupChats := chats, groupChatMembers := members, groupChatReadState := cursors }
  | .sendGroupMessage .. => ∃ messages, db' = { db with groupChatMessages := messages }
  | .markGroupChatRead .. => ∃ cursors, db' = { db with groupChatReadState := cursors }
  | .query _ => db' = db

theorem body_writes {request : Request} {reply : Reply}
    (h : request.body env auth draw db = .ok (db', reply)) : request.Writes db db' := by
  cases request <;> simp only [Request.body, bind_eq_ok] at h
  case query => cases h; rfl
  all_goals
    obtain ⟨_, h, hp⟩ := h
    cases hp
  case registerDevice =>
    obtain ⟨_, accounts, _, _, _, _, _, _, he⟩ := registerDevice_ok h
    exact ⟨accounts, _, he⟩
  case createLinkCode =>
    obtain ⟨_, codes, _, he⟩ := createLinkCode_ok h
    exact ⟨codes, he⟩
  case linkDevice =>
    obtain ⟨_, nicknames, accounts, _, _, _, _, he⟩ := linkDevice_ok h
    exact ⟨accounts, _, nicknames, _, he⟩
  case revokeDevice => exact ⟨_, revokeDevice_ok h⟩
  case claimNickname => exact claimNickname_frame h
  case createCall => exact (createCall_ok h).1.frame
  case joinCall => exact (joinCall_update h).move.frame
  case declineCall => exact (declineCall_ok h).update.move.frame
  case callStatus => exact (callStatus_ok h).update.move.frame
  case endCall => exact (endCall_ok h).update.move.frame
  case cancelCall => exact (cancelCall_ok h).update.move.frame
  case sendDirectMessage => exact sendDirectMessage_frame h
  case markDirectMessagesRead => exact markDirectMessagesRead_frame h
  case createGroupChat => exact createGroupChat_frame h
  case sendGroupMessage => exact sendGroupMessage_frame h
  case markGroupChatRead => exact markGroupChatRead_frame h

theorem body_footprint {request : Request} {reply : Reply}
    (h : request.body env auth draw db = .ok (db', reply)) :
    Footprint env auth draw db request db' := by
  have hwrites := body_writes h
  cases request <;> simp only [Request.body, bind_eq_ok] at h
  case query => cases h; exact .content
  all_goals
    obtain ⟨_, h, hp⟩ := h
    cases hp
  case registerDevice =>
    obtain ⟨row, accounts, hdevice, huser, hactive, hid, hrequest, hmembers, rfl⟩ := registerDevice_ok h
    exact .register hdevice huser hactive ⟨hid, hrequest⟩ hmembers
  case createLinkCode =>
    obtain ⟨hrequest, codes, hinsert, he⟩ := createLinkCode_ok h
    rw [he, hrequest]
    exact .linkCode hinsert
  case linkDevice =>
    obtain ⟨code, nicknames, accounts, hcode, hunused, hfresh, hmember, he⟩ := linkDevice_ok h
    rw [he]
    exact .link hcode hunused hfresh hmember
  case revokeDevice =>
    cases revokeDevice_ok h
    exact .revoke _
  case createCall => exact .call (createCall_ok h).1
  case joinCall => exact .call (joinCall_update h).move
  case declineCall => exact .call (declineCall_ok h).update.move
  case callStatus => exact .call (callStatus_ok h).update.move
  case endCall => exact .call (endCall_ok h).update.move
  case cancelCall => exact .call (cancelCall_ok h).update.move
  case claimNickname | markDirectMessagesRead | sendGroupMessage | markGroupChatRead =>
    obtain ⟨_, he⟩ := hwrites
    rw [he]
    exact .content
  case sendDirectMessage | createGroupChat =>
    obtain ⟨_, _, _, he⟩ := hwrites
    rw [he]
    exact .content

theorem Footprint.requestNonces {request : Request} (h : Footprint env auth draw db request db') :
    db'.requestNonces = db.requestNonces := by
  cases h with
  | call hmove =>
      obtain ⟨_, _, _, rfl⟩ := hmove.frame
      rfl
  | _ => rfl

end TriNet.CallApi
