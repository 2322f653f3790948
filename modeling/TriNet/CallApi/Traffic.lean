import TriNet.CallApi.Footprints

namespace TriNet.CallApi

open Lib Lib.BigEndian

variable {env : Env} {auth : AuthenticatedDevice} {draw : Draw} {db db' : Db}

structure OutboxRow.Queued (env : Env) (eventKind : OutboxKind) (objectId : String)
    (r : OutboxRow) : Prop where
  kind : r.eventKind = eventKind
  object : r.objectId = objectId
  id : r.eventId = apnsOutboxEventId env eventKind objectId r.targetDeviceId
  unclaimed : r.claimedAt = none ∧ r.claimOwner = none
  unblocked : r.blockedOwner = none

/-- The outbox after some events of one object have been enqueued. -/
inductive Enqueues (env : Env) (eventKind : OutboxKind) (objectId : String)
    (outbox : Table OutboxRow.eventId) :
    Table OutboxRow.eventId → Prop
  | none : Enqueues env eventKind objectId outbox outbox
  | one {outbox' : Table OutboxRow.eventId} (deviceId : String) (payload : OutboxPayload)
      (now : Int) (h : Enqueues env eventKind objectId outbox outbox') :
      Enqueues env eventKind objectId outbox
        (enqueueApnsOutboxEvent env eventKind objectId deviceId payload now outbox')

section Enqueues

variable {eventKind : OutboxKind} {objectId : String} {outbox outbox' outbox'' : Table OutboxRow.eventId}

theorem Enqueues.trans (h : Enqueues env eventKind objectId outbox outbox')
    (h' : Enqueues env eventKind objectId outbox' outbox'') :
    Enqueues env eventKind objectId outbox outbox'' := by
  induction h' with
  | none => exact h
  | one deviceId payload now _ ih => exact .one deviceId payload now ih

theorem enqueue_rows (deviceId : String) (payload : OutboxPayload) (now : Int) :
    enqueueApnsOutboxEvent env eventKind objectId deviceId payload now outbox = outbox ∨
      ∃ r, (enqueueApnsOutboxEvent env eventKind objectId deviceId payload now outbox).rows =
        outbox.rows ++ [r] ∧
        r.Queued env eventKind objectId ∧ ∀ s ∈ outbox.rows, s.triple ≠ r.triple := by
  rw [enqueueApnsOutboxEvent]
  split
  · exact .inl rfl
  · next hunique =>
      obtain hsame | hrows := Table.rows_insertOrIgnore outbox _
      · exact .inl hsame
      · refine .inr ⟨_, hrows, ⟨rfl, rfl, rfl, ⟨rfl, rfl⟩, rfl⟩, ?_⟩
        intro s hs htriple
        apply hunique
        refine List.any_eq_true.mpr ⟨s, hs, ?_⟩
        simpa [OutboxRow.triple] using htriple

theorem Enqueues.rows (h : Enqueues env eventKind objectId outbox outbox') :
    ∃ new, outbox'.rows = outbox.rows ++ new ∧ (∀ r ∈ new, r.Queued env eventKind objectId) ∧
      (new.map OutboxRow.triple).Nodup := by
  induction h with
  | none => exact ⟨[], by simp⟩
  | one deviceId payload now _ ih =>
      obtain ⟨new, hrows, hqueued, hnodup⟩ := ih
      obtain hsame | ⟨r, hone, hr, hunique⟩ := enqueue_rows deviceId payload now
      · rw [hsame]
        exact ⟨new, hrows, hqueued, hnodup⟩
      · refine ⟨new ++ [r], by rw [hone, hrows, List.append_assoc], ?_, ?_⟩
        · intro s hs
          obtain hs | hs := List.mem_append.mp hs
          · exact hqueued s hs
          · rwa [List.mem_singleton.mp hs]
        · rw [List.map_append, List.map_singleton, ← List.concat_eq_append]
          refine hnodup.concat ?_
          intro hmem
          obtain ⟨s, hs, htriple⟩ := List.mem_map.mp hmem
          exact hunique s (hrows ▸ List.mem_append_right _ hs) htriple

end Enqueues

/-- What a transaction does to calls, direct messages and the outbox. Events are
only enqueued for the call or the message the transaction has just made. -/
inductive Traffic (env : Env) (db db' : Db) : Prop
  | keep (hcalls : ∀ id, (db'.calls.find id).map CallRow.identity =
      (db.calls.find id).map CallRow.identity) (hmessages : db'.directMessages = db.directMessages)
      (henvelopes : db'.directMessageEnvelopes = db.directMessageEnvelopes)
      (houtbox : db'.apnsOutbox = db.apnsOutbox)
  | place {call : CallRow} {clientCallId : String} (hinsert : db.calls.insert call = some db'.calls)
      (hclient : call.clientCallId = some clientCallId)
      (hnew : db.callOf call.callerDeviceId clientCallId = none)
      (hmessages : db'.directMessages = db.directMessages)
      (henvelopes : db'.directMessageEnvelopes = db.directMessageEnvelopes)
      (houtbox : Enqueues env .callInvite call.callId db.apnsOutbox db'.apnsOutbox)
  | post {message : DirectMessageRow} {envelopes : List NormalizedDirectMessageEnvelope}
      (hinsert : db.directMessages.insert message = some db'.directMessages)
      (hid : message.messageId = nextMessageId (db.directMessages.rows.map DirectMessageRow.messageId))
      (hnew : db.directMessageOf message.senderDeviceId message.clientMessageId = none)
      (henvelopes : envelopes.foldlM (insertEnvelope message.messageId) db.directMessageEnvelopes =
        .ok db'.directMessageEnvelopes)
      (hcalls : db'.calls = db.calls)
      (houtbox : Enqueues env .directMessage (toString message.messageId) db.apnsOutbox db'.apnsOutbox)

theorem CallUpdate.traffic (h : CallUpdate db db') : Traffic env db db' := by
  have hmove := h.move.frame
  obtain ⟨calls, targets, outbox, hdb⟩ := hmove
  exact .keep h.identity (by rw [hdb]) (by rw [hdb]) h.outbox

theorem ringTarget_enqueues {call : CallRow} {target : DeviceRow}
    (h : ringTarget env call db target = .ok db') :
    Enqueues env .callInvite call.callId db.apnsOutbox db'.apnsOutbox := by
  simp only [ringTarget, bind_eq_ok] at h
  obtain ⟨_, _, hp⟩ := h
  cases hp
  dsimp only
  split
  · exact .one _ _ _ .none
  · exact .none

theorem ringTargets_enqueues {call : CallRow} {devices : List DeviceRow}
    (h : devices.foldlM (ringTarget env call) db = .ok db') :
    Enqueues env .callInvite call.callId db.apnsOutbox db'.apnsOutbox := by
  induction devices generalizing db with
  | nil =>
      cases h
      exact .none
  | cons device devices ih =>
      rw [List.foldlM_cons, bind_eq_ok] at h
      obtain ⟨db₁, hone, hrest⟩ := h
      exact (ringTarget_enqueues hone).trans (ih hrest)

theorem alertRecipient_enqueues (recipientUserId : String) (messageId : Nat)
    (payload : OutboxPayload) (now : Int)
    (outbox : Table OutboxRow.eventId) (device : DirectMessageRecipientDevice) :
    Enqueues env .directMessage (toString messageId) outbox
      (alertRecipient env db recipientUserId messageId payload now outbox device) := by
  rw [alertRecipient]
  split
  · exact .none
  · split
    · exact .one _ _ _ .none
    · exact .none

theorem alertRecipients_enqueues (recipientUserId : String) (messageId : Nat)
    (payload : OutboxPayload) (now : Int)
    (outbox : Table OutboxRow.eventId) (devices : List DirectMessageRecipientDevice) :
    Enqueues env .directMessage (toString messageId) outbox
      (devices.foldl (alertRecipient env db recipientUserId messageId payload now) outbox) := by
  induction devices generalizing outbox with
  | nil => exact .none
  | cons device devices ih =>
      exact (alertRecipient_enqueues recipientUserId messageId payload now outbox device).trans (ih _)

theorem retryCall_lapse {request : CreateCallRequest} {callee callerName : String} {call : CallRow}
    {response : CreateCallResponse} (hcall : db.calls.find call.callId = some call)
    (h : retryCall env request callee callerName auth draw db call = .ok (db', response)) :
    CallLapse db db' := by
  simp only [retryCall, bind_eq_ok] at h
  obtain ⟨_, _, _, _, _, _, ⟨db₁, status⟩, hrefresh, h⟩ := h
  have hdb : db' = db₁ := by
    split at h <;> cases h <;> rfl
  obtain ⟨rfl, _⟩ | ⟨rfl, _, hring⟩ := expireStaleCall_ok hrefresh
  · rw [hdb]
    exact .stay
  · rw [hdb]
    exact .expire call.callId draw.now hcall hring

theorem placeCall_traffic {request : CreateCallRequest} {callee callerName clientCallId : String}
    {response : CreateCallResponse} (hnew : db.callOf auth.deviceId clientCallId = none)
    (h : placeCall env request callee callerName clientCallId auth draw db = .ok (db', response)) :
    Traffic env db db' := by
  simp only [placeCall, bind_eq_ok] at h
  obtain ⟨_, _, _, _, _, _, _, _, _, _, _, _, _, _, calls, hinsert, _, hring, hp⟩ := h
  cases hp
  have henqueues := ringTargets_enqueues hring
  obtain ⟨targets, outbox, _, rfl⟩ := ringTargets_ok hring
  exact .place (insertCall_ok hinsert) rfl hnew rfl rfl henqueues

theorem createCall_traffic {request : CreateCallRequest} {response : CreateCallResponse}
    (h : createCall env request auth draw db = .ok (db', response)) : Traffic env db db' := by
  simp only [createCall, bind_eq_ok] at h
  obtain ⟨_, _, _, _, _, _, _, _, _, _, h⟩ := h
  split at h
  · next call hof => exact (retryCall_lapse (callOf_eq_some hof).1 h).update.traffic
  · next hof => exact placeCall_traffic hof h

theorem sendDirectMessage_traffic {request : SendDirectMessageRequest}
    {response : DirectMessageSendResponse}
    (h : sendDirectMessage env request auth draw db = .ok (db', response)) : Traffic env db db' := by
  obtain ⟨_, _, rfl | ⟨_, _, hof, hcommit⟩⟩ := sendDirectMessage_cases h
  · exact CallUpdate.stay.traffic
  · simp only [commitDirectMessage, bind_eq_ok, okOr_eq_ok] at hcommit
    obtain ⟨_, _, _, _, _, _, messages, hmessages, stored, hstored, hp⟩ := hcommit
    cases hp
    exact .post hmessages rfl hof hstored rfl (alertRecipients_enqueues ..)

theorem traffic_of_frame (hcalls : db'.calls = db.calls)
    (hmessages : db'.directMessages = db.directMessages)
    (henvelopes : db'.directMessageEnvelopes = db.directMessageEnvelopes)
    (houtbox : db'.apnsOutbox = db.apnsOutbox) : Traffic env db db' :=
  .keep (fun _ => by rw [hcalls]) hmessages henvelopes houtbox

theorem body_traffic {request : Request} {reply : Reply}
    (h : request.body env auth draw db = .ok (db', reply)) : Traffic env db db' := by
  have hwrites := body_writes h
  cases request <;> simp only [Request.body, bind_eq_ok] at h
  case query =>
    cases h
    exact traffic_of_frame rfl rfl rfl rfl
  all_goals
    obtain ⟨_, h, hp⟩ := h
    cases hp
  case createCall => exact createCall_traffic h
  case joinCall => exact (joinCall_update h).traffic
  case declineCall => exact (declineCall_ok h).update.traffic
  case callStatus => exact (callStatus_ok h).update.traffic
  case endCall => exact (endCall_ok h).update.traffic
  case cancelCall => exact (cancelCall_ok h).update.traffic
  case sendDirectMessage => exact sendDirectMessage_traffic h
  case registerDevice =>
    obtain ⟨_, _, he⟩ := hwrites
    rw [he]
    exact traffic_of_frame rfl rfl rfl rfl
  case linkDevice =>
    obtain ⟨_, _, _, _, he⟩ := hwrites
    rw [he]
    exact traffic_of_frame rfl rfl rfl rfl
  case createGroupChat =>
    obtain ⟨_, _, _, he⟩ := hwrites
    rw [he]
    exact traffic_of_frame rfl rfl rfl rfl
  case createLinkCode | revokeDevice | claimNickname | markDirectMessagesRead | sendGroupMessage |
      markGroupChatRead =>
    obtain ⟨_, he⟩ := hwrites
    rw [he]
    exact traffic_of_frame rfl rfl rfl rfl

theorem Server.step_traffic (env : Env) (s : Server) (e : Event) : Traffic env s.db (s.step env e).db := by
  have h := Server.step_spec env s e
  generalize s.step env e = t at h ⊢
  cases h with
  | quiet hdb => apply traffic_of_frame <;> rw [hdb]
  | authenticate hw hauth =>
      obtain ⟨_, _, _, rfl⟩ := authenticateUnderLock_ok hauth
      exact traffic_of_frame rfl rfl rfl rfl
  | body hp hbody => exact body_traffic hbody

end TriNet.CallApi
