import TriNet.CallApi.OutboxHistory
import TriNet.CallApi.CallRetries
import TriNet.CallApi.MessageRetries

namespace TriNet.CallApi

open Lib Lib.BigEndian Lib.Runs

variable {env : Env} {db db' : Db}

/-- A device uses a client id for one call and one message only. -/
structure Db.Distinct (db : Db) : Prop where
  calls : ∀ call ∈ db.calls.rows, ∀ call' ∈ db.calls.rows, call.callerDeviceId = call'.callerDeviceId →
    ∀ clientCallId, call.clientCallId = some clientCallId → call'.clientCallId = some clientCallId →
      call.callId = call'.callId
  messages : ∀ m ∈ db.directMessages.rows, ∀ m' ∈ db.directMessages.rows,
    m.senderDeviceId = m'.senderDeviceId →
    m.clientMessageId = m'.clientMessageId → m.messageId = m'.messageId
  envelopes : db.EnvelopesOwned

theorem callOf_eq_none {deviceId clientCallId : String} (h : db.callOf deviceId clientCallId = none)
    {call : CallRow} (hcall : call ∈ db.calls.rows) (hdevice : call.callerDeviceId = deviceId) :
    call.clientCallId ≠ some clientCallId := by
  intro hclient
  have := List.find?_eq_none.mp h call hcall
  simp [hdevice, hclient] at this

theorem directMessageOf_eq_none {deviceId clientMessageId : String}
    (h : db.directMessageOf deviceId clientMessageId = none) {m : DirectMessageRow}
    (hm : m ∈ db.directMessages.rows)
    (hdevice : m.senderDeviceId = deviceId) : m.clientMessageId ≠ clientMessageId := by
  intro hclient
  have := List.find?_eq_none.mp h m hm
  simp [hdevice, hclient] at this

theorem Traffic.call (h : Traffic env db db') {callId : String} {call : CallRow}
    (hcall : db.calls.find callId = some call) :
    ∃ call', db'.calls.find callId = some call' ∧ call'.identity = call.identity := by
  cases h with
  | keep hcalls =>
      have hkept := hcalls callId
      rw [hcall, Option.map_some] at hkept
      exact Option.map_eq_some_iff.mp hkept
  | place hinsert =>
      refine ⟨call, ?_, rfl⟩
      rw [Table.find_insert hinsert, if_neg]
      · exact hcall
      · rintro rfl
        cases (Table.insert_eq_some hinsert).1.symm.trans hcall
  | post hinsert hid hnew henvelopes hcalls => exact ⟨call, hcalls ▸ hcall, rfl⟩

theorem Traffic.message (h : Traffic env db db') {messageId : Nat} {m : DirectMessageRow}
    (hm : db.directMessages.find messageId = some m) :
    db'.directMessages.find messageId = some m ∧ db'.envelopesOf messageId = db.envelopesOf messageId := by
  cases h with
  | keep hcalls hmessages henvelopes =>
      rw [hmessages, Db.envelopesOf, henvelopes]
      exact ⟨hm, rfl⟩
  | place hinsert hclient hnew hmessages henvelopes =>
      rw [hmessages, Db.envelopesOf, henvelopes]
      exact ⟨hm, rfl⟩
  | @post message _ hinsert hid hnew henvelopes =>
      have hne : message.messageId ≠ messageId := by
        rintro rfl
        cases (Table.insert_eq_some hinsert).1.symm.trans hm
      obtain ⟨new, hrows, hids, _⟩ := insertEnvelopes_rows henvelopes
      refine ⟨by rw [Table.find_insert hinsert, if_neg hne, hm], ?_⟩
      rw [envelopesOf_append db db' messageId hrows, List.append_right_eq_self]
      apply List.filter_eq_nil_iff.mpr
      intro r hr
      simp [hids r hr, hne]

theorem CallRow.keys_of_identity {call call' : CallRow} (h : call.identity = call'.identity) :
    call.callId = call'.callId ∧ call.callerDeviceId = call'.callerDeviceId ∧
      call.clientCallId = call'.clientCallId := by
  simp only [CallRow.identity, CallRow.mk.injEq] at h
  exact ⟨h.1, h.2.2.2.2.2.1, h.2.1⟩

theorem Traffic.distinctCalls (h : Traffic env db db') (hdb : db.Distinct) :
    ∀ call ∈ db'.calls.rows, ∀ call' ∈ db'.calls.rows, call.callerDeviceId = call'.callerDeviceId →
      ∀ clientCallId, call.clientCallId = some clientCallId →
        call'.clientCallId = some clientCallId → call.callId = call'.callId := by
  cases h with
  | keep hcalls =>
      have hback : ∀ call ∈ db'.calls.rows, ∃ old ∈ db.calls.rows, old.identity = call.identity := by
        intro call hcall
        have hkept := hcalls call.callId
        rw [Table.mem_rows.mp hcall, Option.map_some] at hkept
        obtain ⟨old, hold, hid⟩ := Option.map_eq_some_iff.mp hkept.symm
        exact ⟨old, (Table.find_eq_some.mp hold).1, hid⟩
      intro call hcall call' hcall' hdevice clientCallId hclient hclient'
      obtain ⟨old, hold, hid⟩ := hback call hcall
      obtain ⟨old', hold', hid'⟩ := hback call' hcall'
      obtain ⟨hkey, hold_device, hold_client⟩ := CallRow.keys_of_identity hid
      obtain ⟨hkey', hold_device', hold_client'⟩ := CallRow.keys_of_identity hid'
      have hsame := hdb.calls old hold old' hold'
        (hold_device.trans (hdevice.trans hold_device'.symm)) clientCallId
        (hold_client.trans hclient) (hold_client'.trans hclient')
      exact hkey.symm.trans (hsame.trans hkey')
  | @place new _ hinsert hclient hnew =>
      rw [(Table.insert_eq_some hinsert).2]
      intro call hcall call' hcall' hdevice clientCallId hid hid'
      simp only [List.mem_append, List.mem_singleton] at hcall hcall'
      obtain hcall | rfl := hcall <;> obtain hcall' | rfl := hcall'
      · exact hdb.calls call hcall call' hcall' hdevice clientCallId hid hid'
      · exact absurd (hid.trans (hid'.symm.trans hclient)) (callOf_eq_none hnew hcall hdevice)
      · exact absurd (hid'.trans (hid.symm.trans hclient)) (callOf_eq_none hnew hcall' hdevice.symm)
      · rfl
  | post hinsert hid hnew henvelopes hcalls =>
      rw [hcalls]
      exact hdb.calls

theorem Traffic.distinct (h : Traffic env db db') (hdb : db.Distinct) : db'.Distinct := by
  refine ⟨h.distinctCalls hdb, ?_, ?_⟩
  · cases h with
    | keep hcalls hmessages =>
        rw [hmessages]
        exact hdb.messages
    | place hinsert hclient hnew hmessages =>
        rw [hmessages]
        exact hdb.messages
    | post hinsert hid hnew =>
        rw [(Table.insert_eq_some hinsert).2]
        intro m hm m' hm' hdevice hclient
        simp only [List.mem_append, List.mem_singleton] at hm hm'
        obtain hm | rfl := hm <;> obtain hm' | rfl := hm'
        · exact hdb.messages m hm m' hm' hdevice hclient
        · exact absurd hclient (directMessageOf_eq_none hnew hm hdevice)
        · exact absurd hclient.symm (directMessageOf_eq_none hnew hm' hdevice.symm)
        · rfl
  · cases h with
    | keep hcalls hmessages henvelopes =>
        rw [Db.EnvelopesOwned, hmessages, henvelopes]
        exact hdb.envelopes
    | place hinsert hclient hnew hmessages henvelopes =>
        rw [Db.EnvelopesOwned, hmessages, henvelopes]
        exact hdb.envelopes
    | @post message _ hinsert hid hnew henvelopes =>
        obtain ⟨new, hrows, hids, _⟩ := insertEnvelopes_rows henvelopes
        intro r hr
        rw [hrows] at hr
        rw [Table.find_insert hinsert]
        obtain hr | hr := List.mem_append.mp hr
        · obtain ⟨m, hm⟩ := hdb.envelopes r hr
          exact (Decidable.em _).elim (fun he => ⟨message, if_pos he⟩)
            (fun he => ⟨m, (if_neg he).trans hm⟩)
        · exact ⟨message, if_pos (hids r hr).symm⟩

theorem Db.Distinct.callOf (h : db.Distinct) {deviceId clientCallId : String} {call : CallRow}
    (hcall : call ∈ db.calls.rows) (hdevice : call.callerDeviceId = deviceId)
    (hclient : call.clientCallId = some clientCallId) : db.callOf deviceId clientCallId = some call := by
  cases hof : db.callOf deviceId clientCallId with
  | none => exact absurd hclient (callOf_eq_none hof hcall hdevice)
  | some found =>
      obtain ⟨hfound, hfdevice⟩ := callOf_eq_some hof
      have hmem := (Table.find_eq_some.mp hfound).1
      have hsame := h.calls call hcall found hmem (hdevice.trans hfdevice.symm) clientCallId
        hclient (callOf_client hof)
      rw [← hsame, Table.mem_rows.mp hcall] at hfound
      exact hfound.symm

theorem Db.Distinct.directMessageOf (h : db.Distinct) {deviceId clientMessageId : String}
    {m : DirectMessageRow} (hm : m ∈ db.directMessages.rows) (hdevice : m.senderDeviceId = deviceId)
    (hclient : m.clientMessageId = clientMessageId) :
    db.directMessageOf deviceId clientMessageId = some m := by
  cases hof : db.directMessageOf deviceId clientMessageId with
  | none => exact absurd hclient (directMessageOf_eq_none hof hm hdevice)
  | some found =>
      obtain ⟨hfound, hfdevice, hfclient⟩ := directMessageOf_eq_some hof
      have hmem := (Table.find_eq_some.mp hfound).1
      have hsame := h.messages m hm found hmem (hdevice.trans hfdevice.symm) (hclient.trans hfclient.symm)
      rw [← hsame, Table.mem_rows.mp hm] at hfound
      exact hfound.symm

theorem mapM_length {α β : Type} {f : α → Except ApiError β} {l : List α} {m : List β}
    (h : l.mapM f = .ok m) : m.length = l.length := by
  induction l generalizing m with
  | nil =>
      cases h
      rfl
  | cons a l ih =>
      rw [List.mapM_cons, bind_eq_ok] at h
      obtain ⟨b, _, h⟩ := h
      rw [bind_eq_ok] at h
      obtain ⟨bs, hbs, hp⟩ := h
      cases hp
      rw [List.length_cons, List.length_cons, ih hbs]

/-- A later call request that says the same as an earlier one, from a caller
that still has its name and can still send what it asks for. -/
structure SameCall (auth auth' : AuthenticatedDevice) (request request' : CreateCallRequest)
    (callerName callerName' : Option String) : Prop where
  identity : auth'.userId = request'.callerUserId ∧ auth'.deviceId = request'.callerDeviceId
  media : InternetCall.callMediaRequestIsValid request'.audio request'.video auth'.capabilities = true
  account : auth'.userId = auth.userId
  callee : normalizeNickname request'.callee = normalizeNickname request.callee
  audio : request'.audio = request.audio
  video : request'.video = request.video
  name : callerName' = callerName

/-- A later message that says the same as an earlier one: its envelopes may come
in any order and be signed anew. -/
structure SameMessage (env : Env) (clientMessageId : String) (auth auth' : AuthenticatedDevice)
    (request request' : SendDirectMessageRequest) : Prop where
  identity : auth'.userId = request'.userId ∧ auth'.deviceId = request'.deviceId
  account : auth'.userId = auth.userId
  recipient : normalizeNickname request'.recipient = normalizeNickname request.recipient
  envelopes : ∃ sent sent', request.normalized env auth clientMessageId = .ok sent ∧
    request'.normalized env auth' clientMessageId = .ok sent' ∧
    (sent'.map NormalizedDirectMessageEnvelope.content).Perm
      (sent.map NormalizedDirectMessageEnvelope.content)

section Repeat

variable {auth auth' : AuthenticatedDevice} {clientId : String}

theorem repeats_iff_sameCall {request request' : CreateCallRequest} {call : CallRow}
    {callerName : String} (hdevice : auth'.deviceId = auth.deviceId)
    (hintended : call.Intended auth.userId auth.deviceId clientId callerName request)
    (hshape : nicknameShapeValid (normalizeNickname request.callee) = true) :
    request'.Repeats auth' db clientId call ↔
      SameCall auth auth' request request' (some callerName) (db.nicknameOf auth'.userId) := by
  constructor
  · intro h
    obtain ⟨callerName', hname', hintended'⟩ := h.intended
    refine ⟨h.identity, h.media, hintended'.account.symm.trans hintended.account, ?_,
      hintended'.audio.symm.trans hintended.audio, hintended'.video.symm.trans hintended.video, ?_⟩
    · exact Option.some.inj (hintended'.callee.symm.trans hintended.callee)
    · rw [hname', ← hintended'.name, hintended.name]
  · intro h
    refine ⟨h.identity, h.media, by rw [h.callee, hshape], callerName, h.name,
      hintended.device.trans hdevice.symm,
      hintended.client, hintended.account.trans h.account.symm, by rw [h.callee, hintended.callee],
      hintended.audio.trans h.audio.symm, hintended.video.trans h.video.symm, hintended.name⟩

theorem SameMessage.wellFormed {request request' : SendDirectMessageRequest}
    {sent : List NormalizedDirectMessageEnvelope}
    (h : SameMessage env clientId auth auth' request request')
    (hsent : request.WellFormed env auth clientId sent) :
    ∃ sent', request'.WellFormed env auth' clientId sent' ∧
      (sent'.map NormalizedDirectMessageEnvelope.content).Perm
        (sent.map NormalizedDirectMessageEnvelope.content) := by
  obtain ⟨first, sent', hfirst, hsent', hperm⟩ := h.envelopes
  cases hsent.normalized.symm.trans hfirst
  have hlength : sent'.length = sent.length := by simpa using hperm.length_eq
  have hcount : request'.envelopes.length = request.envelopes.length := by
    rw [← mapM_length hsent', ← mapM_length hsent.normalized, hlength]
  have hdevices : (sent'.map NormalizedDirectMessageEnvelope.recipientDeviceId).Perm
      (sent.map NormalizedDirectMessageEnvelope.recipientDeviceId) := by
    have := hperm.map (fun c => c.2.1)
    rwa [List.map_map, List.map_map] at this
  have hempty : request'.envelopes.isEmpty = request.envelopes.isEmpty := by
    rw [Bool.eq_iff_iff, List.isEmpty_iff_length_eq_zero, List.isEmpty_iff_length_eq_zero, hcount]
  refine ⟨sent', ⟨h.identity, by rw [h.recipient, hsent.shape], ?_, hsent', ?_⟩, hperm⟩
  · rw [hempty, hcount, hsent.fanout]
  · rw [hdevices.dedup.length_eq, hsent.unique, hlength]

end Repeat

namespace Service

variable {ι : Type} [DecidableEq ι]

theorem step_traffic (env : Env) (s : Service ι) (e : Event ι) :
    ∃ outbox, Traffic env s.server.db { (step env s e).server.db with apnsOutbox := outbox } := by
  obtain ⟨e, rfl⟩ | ⟨_, _, hdb⟩ := step_handler_or_frame env s e
  · exact ⟨_, s.server.step_traffic env e⟩
  · rw [hdb]
    exact ⟨s.server.db.apnsOutbox, traffic_of_frame rfl rfl rfl rfl⟩

theorem run_distinct (env : Env) (s : Service ι) (es : List (Event ι)) (h : s.server.db.Distinct) :
    (run (step env) s es).server.db.Distinct := by
  apply run_invariant (step env) (fun s => s.server.db.Distinct) _ s es h
  intro s e hs
  obtain ⟨_, htraffic⟩ := step_traffic env s e
  have hnext := htraffic.distinct hs
  exact ⟨hnext.calls, hnext.messages, hnext.envelopes⟩

theorem run_call (env : Env) (s : Service ι) (es : List (Event ι)) {callId : String}
    {call : CallRow} (hcall : s.server.db.calls.find callId = some call) :
    ∃ call', (run (step env) s es).server.db.calls.find callId = some call' ∧
      call'.identity = call.identity := by
  apply run_invariant (step env)
    (fun s => ∃ call', s.server.db.calls.find callId = some call' ∧ call'.identity = call.identity) _ s es
    ⟨call, hcall, rfl⟩
  rintro s e ⟨c, hc, hid⟩
  obtain ⟨_, htraffic⟩ := step_traffic env s e
  obtain ⟨c', hc', hid'⟩ := htraffic.call hc
  exact ⟨c', hc', hid'.trans hid⟩

theorem run_message (env : Env) (s : Service ι) (es : List (Event ι)) {messageId : Nat}
    {m : DirectMessageRow} (hm : s.server.db.directMessages.find messageId = some m) :
    (run (step env) s es).server.db.directMessages.find messageId = some m ∧
      (run (step env) s es).server.db.envelopesOf messageId = s.server.db.envelopesOf messageId := by
  apply run_invariant (step env) (fun t => t.server.db.directMessages.find messageId = some m ∧
    t.server.db.envelopesOf messageId = s.server.db.envelopesOf messageId) _ s es ⟨hm, rfl⟩
  rintro t e ⟨ht, henvelopes⟩
  obtain ⟨_, htraffic⟩ := step_traffic env t e
  obtain ⟨hnext, hsame⟩ := htraffic.message ht
  exact ⟨hnext, hsame.trans henvelopes⟩

omit [DecidableEq ι] in
theorem distinct_start (clock : Int) (owner : String) : (start ι clock owner).server.db.Distinct := by
  refine ⟨?_, ?_, ?_⟩
  · intro call hcall
    cases hcall
  · intro m hm
    cases hm
  · intro r hr
    cases hr

/-- The event lets a handler commit its transaction with this reply. -/
def Commits (env : Env) (s : Service ι) (e : Event ι) (auth : AuthenticatedDevice)
    (request : Request) (reply : Reply) : Prop :=
  ∃ i draw db, e = .handler (.body i draw) ∧ s.server.pending[i]? = some ⟨auth, request⟩ ∧
    request.body env auth draw s.server.db = .ok (db, reply)

theorem Commits.body {s : Service ι} {e : Event ι} {auth : AuthenticatedDevice} {request : Request}
    {reply : Reply} (h : s.Commits env e auth request reply) :
    ∃ draw, request.body env auth draw s.server.db = .ok ((step env s e).server.db, reply) := by
  obtain ⟨i, draw, db, rfl, hpending, hbody⟩ := h
  refine ⟨draw, ?_⟩
  rw [hbody, step, Server.step, hpending]
  dsimp only
  rw [hbody]

theorem createCall_repeated {s : Service ι} {e : Event ι} (es : List (Event ι))
    {auth auth' : AuthenticatedDevice}
    {request request' : CreateCallRequest} {response : CreateCallResponse} (draw : Draw)
    (hs : s.server.db.Distinct) (h : s.Commits env e auth (.createCall request) (.call response))
    (hdevice : auth'.deviceId = auth.deviceId)
    (hclient : env.normalizeUuid request'.clientCallId "client_call_id" =
      env.normalizeUuid request.clientCallId "client_call_id") :
    (SameCall auth auth' request request' (s.server.db.nicknameOf auth.userId)
        ((run (step env) (step env s e) es).server.db.nicknameOf auth'.userId) →
      ∃ call db' response',
        (run (step env) (step env s e) es).server.db.calls.find response.callId = some call ∧
        createCall env request' auth' draw (run (step env) (step env s e) es).server.db =
          .ok (db', response') ∧
        response'.callId = response.callId ∧
        (run (step env) (step env s e) es).server.db.RefreshedCall call draw.now db') ∧
    (¬ SameCall auth auth' request request' (s.server.db.nicknameOf auth.userId)
        ((run (step env) (step env s e) es).server.db.nicknameOf auth'.userId) →
      ∃ error, createCall env request' auth' draw (run (step env) (step env s e) es).server.db =
        .error error) := by
  obtain ⟨first, hbody⟩ := h.body
  simp only [Request.body, bind_eq_ok] at hbody
  obtain ⟨⟨db₁, _⟩, hcreate, hp⟩ := hbody
  cases hp
  obtain ⟨clientCallId, callerName, placed, huuid, hname, hshape, hplaced, hintended⟩ :=
    createCall_intended hcreate
  have hdistinct := run_distinct env s (e :: es) hs
  obtain ⟨call, hcall, hid⟩ := run_call env (step env s e) es hplaced
  replace hintended := hintended.of_identity hid
  have hmem := (Table.find_eq_some.mp hcall).1
  have hkey := Table.key_of_find hcall
  change (run (step env) (step env s e) es).server.db.Distinct at hdistinct
  generalize run (step env) (step env s e) es = t at hcall hdistinct hmem ⊢
  have hof := hdistinct.callOf hmem (hintended.device.trans hdevice.symm) hintended.client
  rw [hname, ← repeats_iff_sameCall hdevice hintended hshape]
  constructor
  · intro hrepeats
    obtain ⟨db', response', hagain, hsame, hrefreshed⟩ :=
      createCall_of_repeats (hclient.trans huuid) hof hrepeats
    exact ⟨call, db', response', hcall, hagain, hsame.trans hkey, hrefreshed⟩
  · intro hdiffers
    cases hagain : createCall env request' auth' draw t.server.db with
    | error error => exact ⟨error, rfl⟩
    | ok result => exact absurd (createCall_repeats (hclient.trans huuid) hof hagain) hdiffers

theorem sendDirectMessage_repeated {s : Service ι} {e : Event ι} (es : List (Event ι))
    {auth auth' : AuthenticatedDevice} {request request' : SendDirectMessageRequest}
    {response : DirectMessageSendResponse} (draw : Draw) {clientMessageId : String}
    (hs : s.server.db.Distinct)
    (h : s.Commits env e auth (.sendDirectMessage request) (.directMessage response))
    (hdevice : auth'.deviceId = auth.deviceId)
    (hfirst : env.normalizeUuid request.clientMessageId "client_message_id" = .ok clientMessageId)
    (hagain : env.normalizeUuid request'.clientMessageId "client_message_id" = .ok clientMessageId) :
    (SameMessage env clientMessageId auth auth' request request' →
      ∃ response', sendDirectMessage env request' auth' draw (run (step env) (step env s e) es).server.db =
          .ok ((run (step env) (step env s e) es).server.db, response') ∧
        response'.messageId = response.messageId) ∧
    (¬ SameMessage env clientMessageId auth auth' request request' →
      ∃ error, sendDirectMessage env request' auth' draw (run (step env) (step env s e) es).server.db =
        .error error) := by
  obtain ⟨first, hbody⟩ := h.body
  simp only [Request.body, bind_eq_ok] at hbody
  obtain ⟨⟨db₁, _⟩, hsend, hp⟩ := hbody
  cases hp
  obtain ⟨clientId, sent, m, huuid, hwell, hm, hintended, hstored⟩ :=
    sendDirectMessage_intended hs.envelopes hsend
  cases hfirst.symm.trans huuid
  have hdistinct := run_distinct env s (e :: es) hs
  obtain ⟨hm', henvelopes⟩ := run_message env (step env s e) es hm
  rw [← henvelopes] at hstored
  have hmem := (Table.find_eq_some.mp hm').1
  have hkey := Table.key_of_find hm'
  change (run (step env) (step env s e) es).server.db.Distinct at hdistinct
  generalize run (step env) (step env s e) es = t at hm' hdistinct hmem hstored ⊢
  have hof := hdistinct.directMessageOf hmem (hintended.device.trans hdevice.symm) hintended.client
  constructor
  · intro hsame
    obtain ⟨sent', hwell', hperm⟩ := hsame.wellFormed hwell
    refine ⟨_, (sendDirectMessage_again hagain hof).mpr ⟨⟨sent', hwell', ?_⟩, ?_, rfl⟩, hkey⟩
    · rw [hkey]
      exact hstored.trans hperm.symm
    · exact ⟨hintended.device.trans hdevice.symm, hintended.client,
        hintended.account.trans hsame.account.symm, hintended.recipient.trans hsame.recipient.symm⟩
  · intro hdiffers
    cases hresult : sendDirectMessage env request' auth' draw t.server.db with
    | error error => exact ⟨error, rfl⟩
    | ok result =>
        obtain ⟨⟨sent', hwell', hperm⟩, hintended', _⟩ := (sendDirectMessage_again hagain hof).mp hresult
        rw [hkey] at hperm
        refine absurd ⟨hwell'.identity, hintended'.account.symm.trans hintended.account,
          hintended'.recipient.symm.trans hintended.recipient, sent, sent', hwell.normalized,
            hwell'.normalized, ?_⟩
          hdiffers
        exact hperm.symm.trans hstored

def reached (env : Env) (clock : Int) (owner : String) (es : List (Event ι)) : Service ι :=
  run (step env) (start ι clock owner) es

theorem reached_split (env : Env) (clock : Int) (owner : String) (es : List (Event ι)) (e : Event ι)
    (es' : List (Event ι)) :
    reached env clock owner (es ++ e :: es') =
      run (step env) (step env (reached env clock owner es) e) es' := by
  rw [reached, reached, run_append]
  rfl

/-- However handlers and workers interleave: a device has at most one call and
one message per client id; a later request under the same id is answered for
that call or message if it says the same, with no change but that a call which
rang too long is marked missed; it is refused otherwise; and no event enters the
outbox twice. -/
theorem requests_idempotent (env : Env) (clock : Int) (owner : String) (es : List (Event ι)) :
    (∀ deviceId clientId,
      (reached env clock owner es).server.db.calls.count
        (fun r => r.callerDeviceId = deviceId ∧ r.clientCallId = some clientId) ≤ 1 ∧
      (reached env clock owner es).server.db.directMessages.count
        (fun r => r.senderDeviceId = deviceId ∧ r.clientMessageId = clientId) ≤ 1) ∧
    (∀ past e later auth auth' request request' response draw, es = past ++ e :: later →
      (reached env clock owner past).Commits env e auth (.createCall request) (.call response) →
      auth'.deviceId = auth.deviceId →
      env.normalizeUuid request'.clientCallId "client_call_id" =
        env.normalizeUuid request.clientCallId "client_call_id" →
      (SameCall auth auth' request request'
        ((reached env clock owner past).server.db.nicknameOf auth.userId)
          ((reached env clock owner es).server.db.nicknameOf auth'.userId) →
        ∃ call db' response', (reached env clock owner es).server.db.calls.find response.callId =
          some call ∧
          createCall env request' auth' draw (reached env clock owner es).server.db =
            .ok (db', response') ∧
          response'.callId = response.callId ∧
          (reached env clock owner es).server.db.RefreshedCall call draw.now db') ∧
      (¬ SameCall auth auth' request request'
        ((reached env clock owner past).server.db.nicknameOf auth.userId)
          ((reached env clock owner es).server.db.nicknameOf auth'.userId) →
        ∃ error, createCall env request' auth' draw (reached env clock owner es).server.db =
          .error error)) ∧
    (∀ past e later auth auth' request request' response draw clientMessageId, es = past ++ e :: later →
      (reached env clock owner past).Commits env e auth (.sendDirectMessage request)
        (.directMessage response) →
      auth'.deviceId = auth.deviceId →
      env.normalizeUuid request.clientMessageId "client_message_id" = .ok clientMessageId →
      env.normalizeUuid request'.clientMessageId "client_message_id" = .ok clientMessageId →
      (SameMessage env clientMessageId auth auth' request request' →
        ∃ response', sendDirectMessage env request' auth' draw (reached env clock owner es).server.db =
            .ok ((reached env clock owner es).server.db, response') ∧
          response'.messageId = response.messageId) ∧
      (¬ SameMessage env clientMessageId auth auth' request request' →
        ∃ error, sendDirectMessage env request' auth' draw (reached env clock owner es).server.db =
          .error error)) ∧
    (history env (start ι clock owner) es).Nodup := by
  have hdistinct (es : List (Event ι)) : (reached env clock owner es).server.db.Distinct :=
    run_distinct env _ es (distinct_start clock owner)
  refine ⟨?_, ?_, ?_, (history_nodup env _ es).1⟩
  · intro deviceId clientId
    constructor
    · apply Table.count_le_one
      intro r hr r' hr' hmatch hmatch'
      simp only [decide_eq_true_eq] at hmatch hmatch'
      exact List.inj_on_of_nodup_map (Table.nodup _) hr hr' ((hdistinct es).calls r hr r' hr'
        (hmatch.1.trans hmatch'.1.symm) clientId hmatch.2 hmatch'.2)
    · apply Table.count_le_one
      intro r hr r' hr' hmatch hmatch'
      simp only [decide_eq_true_eq] at hmatch hmatch'
      exact List.inj_on_of_nodup_map (Table.nodup _) hr hr' ((hdistinct es).messages r hr r' hr'
        (hmatch.1.trans hmatch'.1.symm) (hmatch.2.trans hmatch'.2.symm))
  · rintro past e later auth auth' request request' response draw rfl hcommits hdevice hclient
    rw [reached_split]
    exact createCall_repeated later draw (hdistinct past) hcommits hdevice hclient
  · rintro past e later auth auth' request request' response draw clientMessageId rfl hcommits
      hdevice hfirst hagain
    rw [reached_split]
    exact sendDirectMessage_repeated later draw (hdistinct past) hcommits hdevice hfirst hagain

/-- The device `a` of the next run. -/
def alice : AuthenticatedDevice := ⟨"u", "a", "a", "key-a", plainEnv.fingerprint (utf8 "key-a"), 9⟩

/-- Device `a` is about to call the account of `b`. -/
def aboutToCall : List (Event Bool) :=
  (Server.serve "key-a" "a" "nonce-a-00000001" "register a" 0 (plainRegistration "u" "a" "key-a") ++
    Server.serve "key-a" "a" "nonce-a-00000002" "name a" 1 (.claimNickname ⟨"alice", "u", "a"⟩) ++
    Server.serve "key-b" "b" "nonce-b-00000001" "register b" 2 (plainRegistration "w" "b" "key-b") ++
    Server.serve "key-b" "b" "nonce-b-00000002" "name b" 3 (.claimNickname ⟨"robert", "w", "b"⟩) ++
    (Server.serve "key-a" "a" "nonce-a-00000003" "call" 4
      (.createCall ⟨"uuid", "robert", "u", "a", true, false⟩)).take 2).map .handler

def callThenRename : List (Event Bool) :=
  (CallApi.Event.body 0 (plainDraw 1000 4) ::
    Server.serve "key-a" "a" "nonce-a-00000004" "rename a" 5
      (.claimNickname ⟨"wonderland", "u", "a"⟩)).map .handler

/-- The same request is refused once its caller goes by another name. -/
theorem retry_refused_after_rename :
    (reached plainEnv 1000 "owner" aboutToCall).server.pending.map Pending.auth = [alice] ∧
    (createCall plainEnv ⟨"uuid", "robert", "u", "a", true, false⟩ alice (plainDraw 1000 4)
      (reached plainEnv 1000 "owner" aboutToCall).server.db).map (fun r => r.2.callId) =
        .ok (plainCallId 4) ∧
    (createCall plainEnv ⟨"uuid", "robert", "u", "a", true, false⟩ alice (plainDraw 1000 6)
      (reached plainEnv 1000 "owner" (aboutToCall ++ callThenRename)).server.db).map
        (fun r => r.2.callId) =
      .error (.conflict "caller nickname changed after this call attempt was created") := by
  decide +kernel

end Service

end TriNet.CallApi
