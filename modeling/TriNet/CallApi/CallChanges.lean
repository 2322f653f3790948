import TriNet.CallApi.CallLifecycle
import TriNet.CallApi.Traffic

namespace TriNet.CallApi

open Lib Lib.BigEndian

variable {env : Env} {auth : AuthenticatedDevice} {draw : Draw} {db db' : Db}

def Db.invites (db : Db) : Nat := db.apnsOutbox.count (fun r => r.eventKind = .callInvite)

def Db.Targets (db : Db) (callId deviceId : String) : Prop :=
  (db.callTargets.find (callId, deviceId)).isSome

/-- What a transaction can make of a call there is. Only `join_call` makes it
active, and only on a fresh invitation. -/
structure CallRow.Becomes (draw : Draw) (request : Request) (r r' : CallRow) : Prop where
  identity : r'.identity = r.identity
  ringing : r'.status = .ringing → r.status = .ringing
  active : r'.status = .active → r.status = .active ∨
    r.status = .ringing ∧ wrappedInviteFresh r.createdAt draw.now = true ∧
      ∃ participant, request = .joinCall r.callId participant

/-- What a transaction does to the calls: it changes those there are, or it
places one that it has admitted by its first clock reading. -/
inductive CallChange (env : Env) (draw : Draw) (db db' : Db) : Request → Prop
  | keep {request : Request} (f : CallRow → CallRow) (hrows : db'.calls.rows = db.calls.rows.map f)
      (hf : ∀ r ∈ db.calls.rows, r.Becomes draw request (f r))
      (htargets : ∀ id d, db'.Targets id d ↔ db.Targets id d) (hinvites : db'.invites = db.invites) :
      CallChange env draw db db' request
  | place {request : CreateCallRequest} {call : CallRow} {ids : List String}
      (hinsert : db.calls.insert call = some db'.calls) (hring : call.status = .ringing)
      (hcreated : ∃ i, call.createdAt = draw.clock i)
      (hrecent : db.calls.count (fun r => r.callerDeviceId = call.callerDeviceId ∧
        r.createdAt ≥ draw.now - InternetCall.callRateWindowSeconds) <
          InternetCall.maxNewCallsPerDeviceWindow)
      (hpending : db.calls.count (fun r => r.callerDeviceId = call.callerDeviceId ∧ r.status = .ringing ∧
        r.createdAt ≥ draw.now - InternetCall.inviteTtlSeconds) < InternetCall.maxPendingCallsPerDevice)
      (hfree : ∀ d ∈ ids, busyDevice db (draw.now - InternetCall.inviteTtlSeconds) d = false)
      (htargets : ∀ id d, db'.Targets id d ↔ id = call.callId ∧ d ∈ ids ∨ db.Targets id d)
      (hinvites : env.apnsConfigured = true → db'.invites ≤ InternetCall.apnsVoipOutboxWorkers) :
      CallChange env draw db db' (.createCall request)

namespace CallRow.Becomes

variable {request : Request} {r r' : CallRow}

theorem refl (request : Request) (r : CallRow) : r.Becomes draw request r := ⟨rfl, id, .inl⟩

theorem callId (h : r.Becomes draw request r') : r'.callId = r.callId := by
  have hid := congrArg CallRow.callId h.identity
  exact hid

theorem callerDeviceId (h : r.Becomes draw request r') : r'.callerDeviceId = r.callerDeviceId := by
  have hid := congrArg CallRow.callerDeviceId h.identity
  exact hid

theorem createdAt (h : r.Becomes draw request r') : r'.createdAt = r.createdAt := by
  have hid := congrArg CallRow.createdAt h.identity
  exact hid

end CallRow.Becomes

theorem CallChange.same (request : Request) (hcalls : db'.calls = db.calls)
    (htargets : db'.callTargets = db.callTargets)
    (hinvites : db'.invites = db.invites) : CallChange env draw db db' request :=
  .keep id (by rw [hcalls, List.map_id]) (fun r _ => .refl request r)
    (fun _ _ => by rw [Db.Targets, Db.Targets, htargets]) hinvites

section Update

variable {call : CallRow} {callId : String} (request : Request)

theorem becomes_closed {status next : CallStatus} {now : Int}
    (hnext : next ≠ .ringing ∧ next ≠ .active) (r : CallRow) :
    r.Becomes draw request
      (if decide (r.callId = callId ∧ r.status = status) then
        { r with status := next, endedAt := some now } else r) := by
  split
  · exact ⟨rfl, fun h => absurd h hnext.1, fun h => absurd h hnext.2⟩
  · exact .refl request r

theorem isSome_setTargets (targets : Table CallTargetRow.key) (p : CallTargetRow → Bool)
    (state : String → CallStatus)
    (k : String × String) : ((setTargets targets p state).find k).isSome = (targets.find k).isSome := by
  rw [find_setTargets, Option.isSome_map]

theorem CallLapse.targets (h : CallLapse db db') (id d : String) : db'.Targets id d ↔ db.Targets id d := by
  cases h with
  | stay => exact Iff.rfl
  | expire | decline | declineLast | close =>
      simp only [Db.Targets, Db.expireCall, Db.declinedTargets, Db.endCall, isSome_setTargets]

theorem CallLapse.change (h : CallLapse db db') : CallChange env draw db db' request := by
  have htargets := h.targets
  cases h with
  | stay => exact .same request rfl rfl rfl
  | decline => exact .keep id (List.map_id _).symm (fun r _ => .refl request r) htargets rfl
  | expire | declineLast =>
      exact .keep _ rfl (fun r _ => becomes_closed request (by decide) r) htargets rfl
  | close callId now hcall hstatus hnext =>
      refine .keep _ rfl (fun r _ => becomes_closed request ?_ r) htargets rfl
      obtain ⟨_, rfl⟩ | ⟨_, rfl⟩ := hnext <;> decide

theorem joinCall_change {participant : CallParticipantRequest}
    {response : Except ApiError InternetCallSession}
    (h : joinCall env callId participant auth draw db = .ok (db', response)) :
    CallChange env draw db db' (.joinCall callId participant) := by
  obtain ⟨call, hcall, ⟨rfl, _⟩ | ⟨rfl, hring, _⟩ | ⟨rfl, hring, hfresh, _⟩⟩ := joinCall_ok h
  · exact .same _ rfl rfl rfl
  · exact (CallLapse.expire callId draw.now hcall hring).change _
  · refine .keep _ rfl ?_ (fun id d => by simp only [Db.Targets, Db.answer, isSome_setTargets]) rfl
    intro r hr
    dsimp only
    split
    · next hthis =>
        rw [decide_eq_true_eq] at hthis
        have hfound := Table.mem_rows.mp hr
        rw [hthis.1, hcall] at hfound
        obtain rfl := Option.some.inj hfound
        refine ⟨rfl, ?_, fun _ => .inr ⟨hring, hfresh, participant, ?_⟩⟩
        · intro hringing
          cases hringing
        · rw [hthis.1]
    · exact .refl _ r

end Update

section Place

variable {call : CallRow}

theorem invites_enqueue (objectId deviceId : String) (payload : OutboxPayload) (now : Int)
    (outbox : Table OutboxRow.eventId) :
    (enqueueApnsOutboxEvent env .callInvite objectId deviceId payload now outbox).count
      (fun r => r.eventKind = .callInvite) ≤ outbox.count (fun r => r.eventKind = .callInvite) + 1 := by
  have hrows := @enqueue_rows env .callInvite objectId outbox deviceId payload now
  obtain hsame | ⟨r, hrows, _⟩ := hrows
  · rw [hsame]
    exact Nat.le_succ _
  · rw [Table.count, hrows, List.countP_append]
    exact Nat.add_le_add_left List.countP_le_length _

def hasVoipToken (target : DeviceRow) : Bool := pushTokenValid target.voipPushToken target.pushEnvironment

theorem ringTarget_invites {target : DeviceRow} (h : ringTarget env call db target = .ok db') :
    db'.invites ≤ db.invites + if hasVoipToken target then 1 else 0 := by
  simp only [ringTarget, bind_eq_ok] at h
  obtain ⟨_, _, hp⟩ := h
  cases hp
  rw [Db.invites]
  dsimp only
  split
  · next hmay =>
      have htoken : hasVoipToken target = true := by
        simp only [InternetCall.voipOutboxEventMayEnqueue, InternetCall.voipPushMayBeSent,
          Bool.and_eq_true] at hmay
        exact hmay.2.2
      rw [if_pos htoken]
      exact invites_enqueue ..
  · exact Nat.le_add_right ..

theorem ringTargets_invites {devices : List DeviceRow}
    (h : devices.foldlM (ringTarget env call) db = .ok db') :
    db'.invites ≤ db.invites + devices.countP hasVoipToken := by
  induction devices generalizing db with
  | nil =>
      cases h
      exact Nat.le_refl _
  | cons device devices ih =>
      rw [List.foldlM_cons, bind_eq_ok] at h
      obtain ⟨db₁, hone, hrest⟩ := h
      have hone := ringTarget_invites hone
      have hrest := ih hrest
      rw [List.countP_cons]
      omega

theorem admission_limits {recent pending queued new : Nat} {push : Bool}
    (h : InternetCall.newCallAdmissionIsAllowed recent pending queued new push = true) :
    recent < InternetCall.maxNewCallsPerDeviceWindow ∧ pending < InternetCall.maxPendingCallsPerDevice ∧
      (push = true → queued + new ≤ InternetCall.apnsVoipOutboxWorkers) := by
  rw [InternetCall.newCallAdmissionIsAllowed] at h
  split at h
  · cases h
  · next hcounts =>
      refine ⟨by omega, by omega, ?_⟩
      rintro rfl
      simp only [Bool.not_true, Bool.false_eq_true, if_false] at h
      split at h
      · cases h
      · next hqueued =>
          rw [decide_eq_true_eq] at h
          omega

theorem mem_availableTargets {request : CreateCallRequest} {targetUserId : String}
    {target : DeviceRow} (h : target ∈ availableTargets env request auth targetUserId draw db) :
    busyDevice db (draw.now - InternetCall.inviteTtlSeconds) target.deviceId = false := by
  obtain ⟨⟨_, i⟩, hmem, rfl⟩ := List.mem_map.mp h
  have hp := (List.mem_filter.mp hmem).2
  simp only [Bool.and_eq_true, Bool.not_eq_true'] at hp
  exact hp.1.1

theorem placeCall_change {request : CreateCallRequest} {callee callerName clientCallId : String}
    {response : CreateCallResponse}
    (h : placeCall env request callee callerName clientCallId auth draw db = .ok (db', response)) :
    CallChange env draw db db' (.createCall request) := by
  simp only [placeCall, bind_eq_ok, okOr_eq_ok, readCount_eq_ok, refuseIf_eq_ok, Bool.not_eq_false'] at h
  obtain ⟨user, _, _, _, _, _, _, ⟨_, rfl⟩, _, ⟨_, rfl⟩, _, ⟨_, rfl⟩, _, hadmitted, calls,
      hinsert, _, hring, hp⟩ := h
  cases hp
  obtain ⟨hrecent, hpending, hqueued⟩ := admission_limits hadmitted
  have hinvites := ringTargets_invites hring
  obtain ⟨targets, outbox, htargets, rfl⟩ := ringTargets_ok hring
  have hfree : ∀ d ∈ (availableTargets env request auth user draw db).map DeviceRow.deviceId,
      busyDevice db (draw.now - InternetCall.inviteTtlSeconds) d = false := by
    intro d hd
    obtain ⟨target, htarget, rfl⟩ := List.mem_map.mp hd
    exact mem_availableTargets htarget
  refine .place (insertCall_ok hinsert) rfl ⟨_, rfl⟩ hrecent hpending hfree ?_ ?_
  · intro id d
    simp only [Db.Targets, htargets]
    split
    · next hnew => exact iff_of_true rfl (.inl hnew)
    · next hold => exact (or_iff_right hold).symm
  · intro hpush
    -- The count of new events is cut at the largest `u32`, far above the limit.
    have hsum : db.invites +
        min ((availableTargets env request auth user draw db).countP hasVoipToken) (2 ^ 32 - 1) ≤ 8 :=
      hqueued hpush
    have hbefore : Db.invites { db with calls := calls } = db.invites := rfl
    rw [hbefore] at hinvites
    rw [InternetCall.apnsVoipOutboxWorkers]
    omega

theorem createCall_change {request : CreateCallRequest} {response : CreateCallResponse}
    (h : createCall env request auth draw db = .ok (db', response)) :
    CallChange env draw db db' (.createCall request) := by
  simp only [createCall, bind_eq_ok] at h
  obtain ⟨_, _, _, _, _, _, _, _, _, _, h⟩ := h
  split at h
  · next call hof => exact (retryCall_lapse (callOf_eq_some hof).1 h).change _
  · exact placeCall_change h

end Place

theorem invites_of_enqueues {objectId : String}
    (h : Enqueues env .directMessage objectId db.apnsOutbox db'.apnsOutbox) :
    db'.invites = db.invites := by
  obtain ⟨new, hrows, hqueued, _⟩ := h.rows
  have hnone : new.countP (fun r => r.eventKind = .callInvite) = 0 := by
    apply List.countP_eq_zero.mpr
    intro r hr
    rw [(hqueued r hr).kind]
    decide
  rw [Db.invites, Table.count, hrows, List.countP_append, hnone]
  rfl

theorem sendDirectMessage_change {request : SendDirectMessageRequest}
    {response : DirectMessageSendResponse}
    (h : sendDirectMessage env request auth draw db = .ok (db', response)) :
    CallChange env draw db db' (.sendDirectMessage request) := by
  obtain ⟨_, _, rfl | ⟨_, _, _, hcommit⟩⟩ := sendDirectMessage_cases h
  · exact .same _ rfl rfl rfl
  · simp only [commitDirectMessage, bind_eq_ok] at hcommit
    obtain ⟨_, _, _, _, _, _, _, _, _, _, hp⟩ := hcommit
    cases hp
    exact .same _ rfl rfl (invites_of_enqueues (alertRecipients_enqueues ..))

theorem body_change {request : Request} {reply : Reply}
    (h : request.body env auth draw db = .ok (db', reply)) :
    CallChange env draw db db' request := by
  have hwrites := body_writes h
  cases request <;> simp only [Request.body, bind_eq_ok] at h
  case query =>
    cases h
    exact .same _ rfl rfl rfl
  all_goals
    obtain ⟨_, h, hp⟩ := h
    cases hp
  case createCall => exact createCall_change h
  case joinCall => exact joinCall_change h
  case declineCall => exact (declineCall_ok h).change _
  case callStatus => exact (callStatus_ok h).change _
  case endCall => exact (endCall_ok h).change _
  case cancelCall => exact (cancelCall_ok h).change _
  case sendDirectMessage => exact sendDirectMessage_change h
  case registerDevice =>
    obtain ⟨_, _, he⟩ := hwrites
    rw [he]
    exact .same _ rfl rfl rfl
  case linkDevice =>
    obtain ⟨_, _, _, _, he⟩ := hwrites
    rw [he]
    exact .same _ rfl rfl rfl
  case createGroupChat =>
    obtain ⟨_, _, _, he⟩ := hwrites
    rw [he]
    exact .same _ rfl rfl rfl
  case createLinkCode | revokeDevice | claimNickname | markDirectMessagesRead | sendGroupMessage |
      markGroupChatRead =>
    obtain ⟨_, he⟩ := hwrites
    rw [he]
    exact .same _ rfl rfl rfl

theorem Server.step_change (env : Env) (s : Server) (e : Event) :
    ((s.step env e).db.calls = s.db.calls ∧ (s.step env e).db.callTargets = s.db.callTargets ∧
      (s.step env e).db.apnsOutbox = s.db.apnsOutbox) ∨
    ∃ i draw p, e = .body i draw ∧ s.pending[i]? = some p ∧
      CallChange env draw s.db (s.step env e).db p.request := by
  have h := Server.step_spec env s e
  generalize s.step env e = t at h ⊢
  cases h with
  | quiet hdb => exact .inl (by rw [hdb]; exact ⟨rfl, rfl, rfl⟩)
  | authenticate hw hauth =>
      obtain ⟨_, _, _, rfl⟩ := authenticateUnderLock_ok hauth
      exact .inl ⟨rfl, rfl, rfl⟩
  | body hp hbody => exact .inr ⟨_, _, _, rfl, hp, body_change hbody⟩

end TriNet.CallApi
