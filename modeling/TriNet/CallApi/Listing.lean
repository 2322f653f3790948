import TriNet.Lib.Paging
import TriNet.CallApi.GroupChats

namespace TriNet.CallApi

open Lib Lib.BigEndian Lib.Paging

structure DirectMessageInboxRequest where
  userId : String
  deviceId : String
  afterMessageId : Int
  limit : Nat

structure DirectMessageInboxMessage where
  messageId : Nat
  clientMessageId : String
  senderUserId : String
  senderDeviceId : String
  senderNickname : String
  senderSigningPublicKey : String
  senderKeyFingerprint : String
  recipientNickname : String
  cryptoVersion : UInt8
  recipientDeviceId : String
  recipientKeyFingerprint : String
  ephemeralPublicKey : String
  nonce : String
  ciphertext : String
  senderSignature : String
  createdAt : Int
  read : Bool
  deriving DecidableEq

structure DirectMessageInboxResponse where
  messages : List DirectMessageInboxMessage
  totalUnreadCount : Nat

structure GroupMessagesRequest where
  userId : String
  deviceId : String
  afterMessageId : Int
  limit : Nat

structure GroupMessagesResponse where
  messages : List GroupChatMessage

def directMessageFromRow (env : Env) (m : DirectMessageRow) (e : DirectMessageEnvelopeRow)
    (readCursor : Nat) :
    DirectMessageInboxMessage where
  messageId := m.messageId
  clientMessageId := m.clientMessageId
  senderUserId := m.senderUserId
  senderDeviceId := m.senderDeviceId
  senderNickname := m.senderNickname
  senderSigningPublicKey := m.senderSigningPublicKey
  senderKeyFingerprint := m.senderKeyFingerprint
  recipientNickname := m.recipientNickname
  cryptoVersion := e.cryptoVersion
  recipientDeviceId := e.recipientDeviceId
  recipientKeyFingerprint := e.recipientKeyFingerprint
  ephemeralPublicKey := env.base64Encode e.ephemeralPublicKey
  nonce := env.base64Encode e.nonce
  ciphertext := env.base64Encode e.ciphertext
  senderSignature := env.base64Encode e.senderSignature
  createdAt := m.createdAt
  read := m.messageId ≤ readCursor

/-- The messages to an account, each with the envelope for one device. -/
def Db.inbox (db : Db) (userId deviceId : String) : List (DirectMessageRow × DirectMessageEnvelopeRow) :=
  (db.directMessages.select (fun m => m.recipientUserId = userId)).filterMap (fun m =>
    (db.directMessageEnvelopes.find (m.messageId, deviceId)).map (fun e => (m, e)))

/-- A row of the inbox as it is shown, with the cursor it is joined with. -/
def showInbox (env : Env) (db : Db) (row : DirectMessageRow × DirectMessageEnvelopeRow) :
    DirectMessageInboxMessage :=
  directMessageFromRow env row.1 row.2 ((db.directCursor row.1.recipientUserId row.1.senderUserId).getD 0)

def listDirectMessages (env : Env) (request : DirectMessageInboxRequest)
    (auth : AuthenticatedDevice) (db : Db) : Except ApiError DirectMessageInboxResponse := do
  requireIdentity auth request.userId request.deviceId
  refuseIf (request.afterMessageId < 0) (.badRequest "after_message_id must not be negative")
  let limit := messagePageSize request.limit
  let rows := page (fun row => (row.1.messageId : Int)) (db.inbox auth.userId auth.deviceId)
    request.afterMessageId limit
  pure ⟨rows.map (showInbox env db), directUnreadCountForDevice db auth.userId auth.deviceId⟩

def groupChatMessageFromRow (m : GroupChatMessageRow) : GroupChatMessage :=
  ⟨m.messageId, m.chatId, m.senderUserId, m.senderNickname, m.text, m.createdAt⟩

def Db.messagesOfChat (db : Db) (chatId : String) : List GroupChatMessageRow :=
  db.groupChatMessages.select (fun m => m.chatId = chatId)

def listGroupMessages (chatId : String) (request : GroupMessagesRequest)
    (auth : AuthenticatedDevice) (db : Db) : Except ApiError GroupMessagesResponse := do
  requireIdentity auth request.userId request.deviceId
  let activeMember := activeGroupMember db chatId auth.userId
  refuseIf (!GroupChat.memberMayRead activeMember true)
    (.forbidden "device account is not a member of this group")
  let afterMessageId := max request.afterMessageId 0
  let limit := messagePageSize request.limit
  let rows := page (fun m => (m.messageId : Int)) (db.messagesOfChat chatId) afterMessageId limit
  pure ⟨rows.map groupChatMessageFromRow⟩

theorem messagePageSize_pos (requested : Nat) : 0 < messagePageSize requested := by
  rw [messagePageSize]
  split
  · exact Nat.one_pos
  · split
    · decide
    · omega

theorem toOption_eq_some {ε α : Type} {x : Except ε α} {a : α} : x.toOption = some a ↔ x = .ok a := by
  cases x <;> simp [Except.toOption]

def inboxPage (env : Env) (auth : AuthenticatedDevice) (db : Db) (after : Int) (limit : Nat) :
    Option (List DirectMessageInboxMessage) :=
  (listDirectMessages env ⟨auth.userId, auth.deviceId, after, limit⟩ auth db).toOption.map
    DirectMessageInboxResponse.messages

def chatPage (chatId : String) (auth : AuthenticatedDevice) (db : Db) (after : Int) (limit : Nat) :
    Option (List GroupChatMessage) :=
  (listGroupMessages chatId ⟨auth.userId, auth.deviceId, after, limit⟩ auth db).toOption.map
    GroupMessagesResponse.messages

section Inbox

variable {env : Env} {auth : AuthenticatedDevice} {db : Db} {userId deviceId : String}

theorem mem_inbox {row : DirectMessageRow × DirectMessageEnvelopeRow} :
    row ∈ db.inbox userId deviceId ↔
      row.1 ∈ db.directMessages.rows ∧ row.1.recipientUserId = userId ∧
        db.directMessageEnvelopes.find (row.1.messageId, deviceId) = some row.2 := by
  obtain ⟨m, e⟩ := row
  simp only [Db.inbox, Table.select, List.mem_filterMap, List.mem_filter, decide_eq_true_eq,
    Option.map_eq_some_iff, Prod.mk.injEq]
  constructor
  · rintro ⟨m', ⟨hm, huser⟩, e', he, rfl, rfl⟩
    exact ⟨hm, huser, he⟩
  · rintro ⟨hm, huser, he⟩
    exact ⟨m, ⟨hm, huser⟩, e, he, rfl, rfl⟩

theorem map_fst_inbox (db : Db) (userId deviceId : String) :
    (db.inbox userId deviceId).map Prod.fst = db.deliveredTo userId deviceId := by
  have hguard (m : DirectMessageRow) :
      ((db.directMessageEnvelopes.find (m.messageId, deviceId)).map (fun e => (m, e))).map Prod.fst =
        Option.guard (fun m => (db.directMessageEnvelopes.find (m.messageId, deviceId)).isSome) m := by
    rw [Option.guard]
    cases db.directMessageEnvelopes.find (m.messageId, deviceId) <;> rfl
  rw [Db.inbox, Db.deliveredTo, Table.select, Table.select, List.map_filterMap]
  simp only [hguard]
  rw [List.filterMap_eq_filter, List.filter_filter]
  apply List.filter_congr
  intro m _
  simp [Bool.and_comm]

theorem inbox_ids_nodup (db : Db) (userId deviceId : String) :
    ((db.inbox userId deviceId).map (fun row => (row.1.messageId : Int))).Nodup := by
  have hids : ((db.deliveredTo userId deviceId).map DirectMessageRow.messageId).Nodup :=
    db.directMessages.nodup.sublist (List.filter_sublist.map _)
  have hcast : (fun row : DirectMessageRow × DirectMessageEnvelopeRow => (row.1.messageId : Int)) =
      (Nat.cast ∘ DirectMessageRow.messageId) ∘ Prod.fst := rfl
  rw [hcast, ← List.map_map, map_fst_inbox, ← List.map_map]
  exact hids.map Nat.cast_injective

theorem inbox_serves (env : Env) (auth : AuthenticatedDevice) :
    Serves (inboxPage env auth) (fun m => (m.messageId : Int)) 0 (fun db =>
      db.inbox auth.userId auth.deviceId) (fun row => (row.1.messageId : Int)) (showInbox env) where
  key_render _ _ := rfl
  page db after limit entries _ h := by
    obtain ⟨response, hresponse, rfl⟩ := Option.map_eq_some_iff.mp h
    rw [toOption_eq_some] at hresponse
    simp only [listDirectMessages, bind_eq_ok] at hresponse
    obtain ⟨_, _, _, _, hp⟩ := hresponse
    cases hp
    exact ⟨messagePageSize limit, messagePageSize_pos limit, rfl⟩

theorem isSome_inboxPage (limit : Nat) {after : Int} (h : 0 ≤ after) :
    (inboxPage env auth db after limit).isSome = true := by
  have hidentity : requireIdentity auth auth.userId auth.deviceId = .ok () :=
    requireIdentity_eq_ok.mpr ⟨rfl, rfl⟩
  have hafter : decide (after < 0) = false := decide_eq_false (Int.not_lt.mpr h)
  simp only [inboxPage, listDirectMessages, hidentity, hafter]
  rfl

theorem directUnread_eq (db : Db) (userId deviceId : String) (h : db.directMessages.rows.length < 2 ^ 32) :
    directUnreadCountForDevice db userId deviceId = (db.inbox userId deviceId).countP (fun row =>
      row.1.senderUserId ≠ userId ∧
        (db.directCursor userId row.1.senderUserId).getD 0 < row.1.messageId) := by
  have hfew (p : DirectMessageRow → Bool) : (db.deliveredTo userId deviceId).countP p < 2 ^ 32 :=
    Nat.lt_of_le_of_lt (List.countP_le_length.trans List.filter_sublist.length_le) h
  rw [directUnreadCountForDevice, Nat.min_eq_left (Nat.le_sub_one_of_lt (hfew _)),
    ← map_fst_inbox, List.countP_map]
  apply List.countP_congr
  intro row _
  rw [Function.comp_apply, messageCountsAsUnread_iff, decide_eq_true_eq]

end Inbox

section Chat

variable {auth : AuthenticatedDevice} {db : Db} {chatId : String}

theorem mem_messagesOfChat {m : GroupChatMessageRow} :
    m ∈ db.messagesOfChat chatId ↔ m ∈ db.groupChatMessages.rows ∧ m.chatId = chatId := by
  rw [Db.messagesOfChat, Table.select, List.mem_filter, decide_eq_true_eq]

theorem chat_ids_nodup (db : Db) (chatId : String) :
    ((db.messagesOfChat chatId).map (fun m => (m.messageId : Int))).Nodup := by
  have hids : ((db.messagesOfChat chatId).map GroupChatMessageRow.messageId).Nodup :=
    db.groupChatMessages.nodup.sublist (List.filter_sublist.map _)
  have hcast : (fun m : GroupChatMessageRow => (m.messageId : Int)) =
      Nat.cast ∘ GroupChatMessageRow.messageId := rfl
  rw [hcast, ← List.map_map]
  exact hids.map Nat.cast_injective

theorem chat_serves (chatId : String) (auth : AuthenticatedDevice) :
    Serves (chatPage chatId auth) (fun m => (m.messageId : Int)) 0 (fun db => db.messagesOfChat chatId)
      (fun m => (m.messageId : Int)) (fun _ => groupChatMessageFromRow) where
  key_render _ _ := rfl
  page db after limit entries hafter h := by
    obtain ⟨response, hresponse, rfl⟩ := Option.map_eq_some_iff.mp h
    rw [toOption_eq_some] at hresponse
    simp only [listGroupMessages, bind_eq_ok, Int.max_eq_left hafter] at hresponse
    obtain ⟨_, _, _, _, hp⟩ := hresponse
    cases hp
    exact ⟨messagePageSize limit, messagePageSize_pos limit, rfl⟩

theorem isSome_chatPage (hmember : activeGroupMember db chatId auth.userId = true) (after : Int)
    (limit : Nat) : (chatPage chatId auth db after limit).isSome = true := by
  have hidentity : requireIdentity auth auth.userId auth.deviceId = .ok () :=
    requireIdentity_eq_ok.mpr ⟨rfl, rfl⟩
  simp only [chatPage, listGroupMessages, hidentity, hmember]
  rfl

theorem chatUnread_eq (db : Db) (chatId userId : String) (h : db.groupChatMessages.rows.length < 2 ^ 32) :
    unreadCountForChat db chatId userId = (db.messagesOfChat chatId).countP (fun m =>
      m.senderUserId ≠ userId ∧ db.groupCursor chatId userId < m.messageId) := by
  have hfew (p q : GroupChatMessageRow → Bool) : (db.groupChatMessages.select q).countP p < 2 ^ 32 :=
    Nat.lt_of_le_of_lt (List.countP_le_length.trans List.filter_sublist.length_le) h
  simp only [unreadCountForChat]
  rw [Nat.min_eq_left (Nat.le_sub_one_of_lt (hfew _ _))]
  simp only [Db.messagesOfChat, Table.select, List.countP_filter]
  apply List.countP_congr
  intro m _
  simp only [Bool.and_eq_true, messageCountsAsUnread_iff, decide_eq_true_eq]
  tauto

end Chat

end TriNet.CallApi
