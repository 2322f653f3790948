import Mathlib.Data.List.Dedup
import TriNet.Lib.KeySort
import TriNet.CallApi.Traffic

namespace TriNet.CallApi

open Lib Lib.BigEndian Lib.KeySort

variable {env : Env} {auth : AuthenticatedDevice} {draw : Draw} {db db' : Db}

abbrev EnvelopeContent : Type := UInt8 × String × String × Bytes × Bytes × Bytes

def NormalizedDirectMessageEnvelope.content (e : NormalizedDirectMessageEnvelope) : EnvelopeContent :=
  (e.cryptoVersion, e.recipientDeviceId, e.recipientKeyFingerprint, e.ephemeralPublicKey,
    e.nonce, e.ciphertext)

def DirectMessageEnvelopeRow.content (r : DirectMessageEnvelopeRow) : EnvelopeContent :=
  (r.cryptoVersion, r.recipientDeviceId, r.recipientKeyFingerprint, r.ephemeralPublicKey,
    r.nonce, r.ciphertext)

def Db.envelopesOf (db : Db) (messageId : Nat) : List DirectMessageEnvelopeRow :=
  db.directMessageEnvelopes.select (fun r => r.messageId = messageId)

instance totalStringLe : Std.Total (fun a b : String => a ≤ b) := ⟨String.le_total⟩

instance transStringLe : IsTrans String (fun a b => a ≤ b) := ⟨fun _ _ _ => String.le_trans⟩

instance antisymmStringLe : Std.Antisymm (fun a b : String => a ≤ b) := ⟨fun _ _ => String.le_antisymm⟩

theorem all_zip_iff {α β γ : Type} {f : α → γ} {g : β → γ} {p : α × β → Bool}
    (hp : ∀ a b, p (a, b) = true ↔ f a = g b) (l : List α) (m : List β) :
    (l.length == m.length && (l.zip m).all p) = true ↔ l.map f = m.map g := by
  induction l generalizing m with
  | nil => cases m <;> simp
  | cons a l ih =>
      cases m with
      | nil => simp
      | cons b m =>
          have ih := ih m
          simp only [Bool.and_eq_true, beq_iff_eq] at ih
          simp only [List.length_cons, List.zip_cons_cons, List.all_cons, Bool.and_eq_true,
            beq_iff_eq, hp, List.map_cons, List.cons.injEq, Nat.succ.injEq, ← ih]
          tauto

/-- The comparison of a retry with the stored message does not see the order of
the envelopes, nor their signatures. -/
theorem intentMatches_iff {messageId : Nat} {envelopes : List NormalizedDirectMessageEnvelope}
    (hunique : (envelopes.map NormalizedDirectMessageEnvelope.recipientDeviceId).Nodup) :
    directMessageEnvelopeIntentMatches db messageId
        (envelopes.insertionSort (fun e f => e.recipientDeviceId ≤ f.recipientDeviceId)) = true ↔
      ((db.envelopesOf messageId).map DirectMessageEnvelopeRow.content).Perm
        (envelopes.map NormalizedDirectMessageEnvelope.content) := by
  have hkeys : ((envelopes.map NormalizedDirectMessageEnvelope.content).map (fun c => c.2.1)).Nodup := by
    rw [List.map_map]
    exact hunique
  rw [← map_byKey_eq_iff_perm (fun a b : String => a ≤ b) DirectMessageEnvelopeRow.content
    NormalizedDirectMessageEnvelope.content (fun c => c.2.1) hkeys]
  rw [directMessageEnvelopeIntentMatches]
  apply all_zip_iff
  intro r e
  simp [DirectMessageEnvelopeRow.content, NormalizedDirectMessageEnvelope.content, and_assoc]

def Db.EnvelopesOwned (db : Db) : Prop :=
  ∀ r ∈ db.directMessageEnvelopes.rows, ∃ m, db.directMessages.find r.messageId = some m

theorem insertEnvelopes_rows {messageId : Nat} {envelopes : List NormalizedDirectMessageEnvelope}
    {table table' : Table DirectMessageEnvelopeRow.key}
    (h : envelopes.foldlM (insertEnvelope messageId) table = .ok table') :
    ∃ new, table'.rows = table.rows ++ new ∧ (∀ r ∈ new, r.messageId = messageId) ∧
      new.map DirectMessageEnvelopeRow.content =
        envelopes.map NormalizedDirectMessageEnvelope.content := by
  induction envelopes generalizing table with
  | nil =>
      cases h
      exact ⟨[], by simp⟩
  | cons e envelopes ih =>
      rw [List.foldlM_cons, bind_eq_ok] at h
      obtain ⟨table₁, hone, hrest⟩ := h
      obtain ⟨new, hrows, hids, hcontent⟩ := ih hrest
      have hrow := (Table.insert_eq_some (okOr_eq_ok.mp hone)).2
      refine ⟨_ :: new, by rw [hrows, hrow, List.append_assoc]; rfl, ?_, ?_⟩
      · intro r hr
        obtain rfl | hr := List.mem_cons.mp hr
        · rfl
        · exact hids r hr
      · rw [List.map_cons, List.map_cons, hcontent]
        rfl

theorem envelopesOf_append (db db' : Db) (messageId : Nat) {new : List DirectMessageEnvelopeRow}
    (hrows : db'.directMessageEnvelopes.rows = db.directMessageEnvelopes.rows ++ new) :
    db'.envelopesOf messageId =
      db.envelopesOf messageId ++ new.filter (fun r => r.messageId = messageId) := by
  rw [Db.envelopesOf, Db.envelopesOf, Table.select, Table.select, hrows, List.filter_append]

structure DirectMessageRow.Intended (message : DirectMessageRow)
    (userId deviceId clientMessageId recipient : String) :
    Prop where
  device : message.senderDeviceId = deviceId
  client : message.clientMessageId = clientMessageId
  account : message.senderUserId = userId
  recipient : message.recipientNickname = recipient

/-- The envelopes of a request as they are stored, in the order of the request. -/
def SendDirectMessageRequest.normalized (env : Env) (auth : AuthenticatedDevice) (clientMessageId : String)
    (request : SendDirectMessageRequest) : Except ApiError (List NormalizedDirectMessageEnvelope) :=
  request.envelopes.mapM
    (normalizeDirectMessageEnvelope env auth (normalizeNickname request.recipient) clientMessageId)

/-- What `send_direct_message` checks of a request before it looks for a stored
message. -/
structure SendDirectMessageRequest.WellFormed (env : Env) (auth : AuthenticatedDevice)
    (clientMessageId : String)
    (request : SendDirectMessageRequest) (envelopes : List NormalizedDirectMessageEnvelope) : Prop where
  identity : auth.userId = request.userId ∧ auth.deviceId = request.deviceId
  shape : nicknameShapeValid (normalizeNickname request.recipient) = true
  fanout : (request.envelopes.isEmpty ||
    request.envelopes.length > DirectMessage.maxRecipientDevices) = false
  normalized : request.normalized env auth clientMessageId = .ok envelopes
  unique : (envelopes.map NormalizedDirectMessageEnvelope.recipientDeviceId).dedup.length =
    envelopes.length

theorem SendDirectMessageRequest.WellFormed.nodup {clientMessageId : String}
    {request : SendDirectMessageRequest}
    {envelopes : List NormalizedDirectMessageEnvelope}
    (h : request.WellFormed env auth clientMessageId envelopes) :
    (envelopes.map NormalizedDirectMessageEnvelope.recipientDeviceId).Nodup := by
  have hall := (List.dedup_sublist _).eq_of_length (h.unique.trans (List.length_map _).symm)
  exact hall ▸ List.nodup_dedup _

theorem sendDirectMessage_wellFormed {request : SendDirectMessageRequest}
    {result : Db × DirectMessageSendResponse} {clientMessageId : String}
    (huuid : env.normalizeUuid request.clientMessageId "client_message_id" = .ok clientMessageId) :
    sendDirectMessage env request auth draw db = .ok result ↔
      ∃ envelopes, request.WellFormed env auth clientMessageId envelopes ∧
        (match db.directMessageOf auth.deviceId clientMessageId with
          | some existing => resendDirectMessage (normalizeNickname request.recipient)
              (envelopes.insertionSort (fun e f => e.recipientDeviceId ≤ f.recipientDeviceId)) auth
                db existing
          | none => commitDirectMessage env (normalizeNickname request.recipient) clientMessageId
              (envelopes.insertionSort (fun e f => e.recipientDeviceId ≤ f.recipientDeviceId))
              (envelopes.map NormalizedDirectMessageEnvelope.recipientDeviceId).dedup.length auth
                draw db) =
          .ok result := by
  simp only [sendDirectMessage, bind_eq_ok, refuseIf_eq_ok, requireIdentity_eq_ok, huuid,
    Bool.not_eq_false', bne_eq_false_iff_eq, Except.ok.injEq]
  constructor
  · rintro ⟨_, hidentity, _, hshape, _, rfl, _, hfanout, envelopes, hnormalized, _, hunique, h⟩
    exact ⟨envelopes, ⟨hidentity, hshape, hfanout, hnormalized, hunique⟩, h⟩
  · rintro ⟨envelopes, hwell, h⟩
    exact ⟨(), hwell.identity, (), hwell.shape, clientMessageId, rfl, (), hwell.fanout, envelopes,
      hwell.normalized, (), hwell.unique, h⟩

theorem directMessageOf_eq_some {deviceId clientMessageId : String} {message : DirectMessageRow}
    (h : db.directMessageOf deviceId clientMessageId = some message) :
    db.directMessages.find message.messageId = some message ∧ message.senderDeviceId = deviceId ∧
      message.clientMessageId = clientMessageId := by
  have hp := List.find?_some h
  simp only [decide_eq_true_eq] at hp
  exact ⟨Table.mem_rows.mp (List.mem_of_find?_eq_some h), hp⟩

/-- A request under the client id of a stored message is answered for exactly
that message, and only if it says the same. -/
theorem sendDirectMessage_again {request : SendDirectMessageRequest}
    {result : Db × DirectMessageSendResponse}
    {clientMessageId : String} {message : DirectMessageRow}
    (huuid : env.normalizeUuid request.clientMessageId "client_message_id" = .ok clientMessageId)
    (hof : db.directMessageOf auth.deviceId clientMessageId = some message) :
    sendDirectMessage env request auth draw db = .ok result ↔
      (∃ envelopes, request.WellFormed env auth clientMessageId envelopes ∧
        ((db.envelopesOf message.messageId).map DirectMessageEnvelopeRow.content).Perm
          (envelopes.map NormalizedDirectMessageEnvelope.content)) ∧
      message.Intended auth.userId auth.deviceId clientMessageId (normalizeNickname request.recipient) ∧
      result = (db, ⟨message.messageId, message.clientMessageId, message.recipientUserId,
        message.recipientNickname, message.createdAt, false⟩) := by
  obtain ⟨_, hdevice, hclient⟩ := directMessageOf_eq_some hof
  rw [sendDirectMessage_wellFormed huuid, hof]
  simp only [resendDirectMessage, bind_eq_ok, refuseIf_eq_ok, bne_eq_false_iff_eq, Bool.not_eq_false',
    DirectMessage.messageRetryIsIdempotent, Bool.and_eq_true, beq_iff_eq, true_and]
  constructor
  · rintro ⟨envelopes, hwell, _, haccount, _, ⟨hrecipient, hmatches⟩, hp⟩
    cases hp
    exact ⟨⟨envelopes, hwell, (intentMatches_iff hwell.nodup).mp hmatches⟩,
      ⟨hdevice, hclient, haccount, hrecipient⟩, rfl⟩
  · rintro ⟨⟨envelopes, hwell, hperm⟩, hintended, rfl⟩
    exact ⟨envelopes, hwell, (), hintended.account, (),
      ⟨hintended.recipient, (intentMatches_iff hwell.nodup).mpr hperm⟩, rfl⟩

theorem loadDirectMessageRecipient_nickname {nickname : String}
    {recipient : DirectMessageRecipientResponse}
    (h : loadDirectMessageRecipient env db auth nickname = .ok recipient) :
    recipient.nickname = nickname := by
  simp only [loadDirectMessageRecipient, bind_eq_ok] at h
  obtain ⟨_, _, _, _, _, _, hp⟩ := h
  cases hp
  rfl

theorem commitDirectMessage_intended {recipient clientMessageId : String}
    {envelopes : List NormalizedDirectMessageEnvelope} {uniqueDevices : Nat}
    {response : DirectMessageSendResponse}
    (howned : db.EnvelopesOwned)
    (h : commitDirectMessage env recipient clientMessageId envelopes uniqueDevices auth draw db =
      .ok (db', response)) :
    ∃ message, db'.directMessages.find response.messageId = some message ∧
      message.Intended auth.userId auth.deviceId clientMessageId recipient ∧
      (db'.envelopesOf response.messageId).map DirectMessageEnvelopeRow.content =
        envelopes.map NormalizedDirectMessageEnvelope.content := by
  simp only [commitDirectMessage, bind_eq_ok, okOr_eq_ok] at h
  obtain ⟨loaded, hload, _, _, _, _, messages, hmessages, stored, hstored, hp⟩ := h
  cases hp
  obtain ⟨new, hrows, hids, hcontent⟩ := insertEnvelopes_rows hstored
  refine ⟨_, (Table.find_insert hmessages _).trans (if_pos rfl),
    ⟨rfl, rfl, rfl, loadDirectMessageRecipient_nickname hload⟩, ?_⟩
  have hnone := (Table.insert_eq_some hmessages).1
  -- no envelope stored before can be one of a message that did not exist
  have hold : db.envelopesOf
      (nextMessageId (db.directMessages.rows.map DirectMessageRow.messageId)) = [] := by
    apply List.filter_eq_nil_iff.mpr
    intro r hr hid
    obtain ⟨m, hm⟩ := howned r hr
    rw [of_decide_eq_true hid] at hm
    cases hnone.symm.trans hm
  rw [envelopesOf_append db _ _ hrows, hold, List.nil_append, List.filter_eq_self.mpr ?_]
  · exact hcontent
  · exact fun r hr => decide_eq_true (hids r hr)

theorem sendDirectMessage_intended {request : SendDirectMessageRequest}
    {response : DirectMessageSendResponse}
    (howned : db.EnvelopesOwned) (h : sendDirectMessage env request auth draw db = .ok (db', response)) :
    ∃ clientMessageId envelopes message,
      env.normalizeUuid request.clientMessageId "client_message_id" = .ok clientMessageId ∧
      request.WellFormed env auth clientMessageId envelopes ∧
      db'.directMessages.find response.messageId = some message ∧
      message.Intended auth.userId auth.deviceId clientMessageId (normalizeNickname request.recipient) ∧
      ((db'.envelopesOf response.messageId).map DirectMessageEnvelopeRow.content).Perm
        (envelopes.map NormalizedDirectMessageEnvelope.content) := by
  obtain ⟨clientMessageId, huuid, _⟩ := sendDirectMessage_cases h
  refine ⟨clientMessageId, ?_⟩
  cases hof : db.directMessageOf auth.deviceId clientMessageId with
  | some message =>
      obtain ⟨⟨envelopes, hwell, hperm⟩, hintended, he⟩ := (sendDirectMessage_again huuid hof).mp h
      cases he
      exact ⟨envelopes, message, huuid, hwell, (directMessageOf_eq_some hof).1, hintended, hperm⟩
  | none =>
      obtain ⟨envelopes, hwell, hcommit⟩ := (sendDirectMessage_wellFormed huuid).mp h
      rw [hof] at hcommit
      obtain ⟨message, hfind, hintended, hcontent⟩ := commitDirectMessage_intended howned hcommit
      refine ⟨envelopes, message, huuid, hwell, hfind, hintended, ?_⟩
      rw [hcontent]
      exact (List.perm_insertionSort _ _).map _

end TriNet.CallApi
