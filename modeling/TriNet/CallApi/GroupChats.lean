import TriNet.CallApi.DirectMessages

namespace TriNet.CallApi

open Lib Lib.BigEndian

structure CreateGroupChatRequest where
  creatorUserId : String
  creatorDeviceId : String
  title : Option String
  members : List String

structure SendGroupMessageRequest where
  userId : String
  deviceId : String
  clientMessageId : String
  text : String

structure MarkGroupChatReadRequest where
  userId : String
  deviceId : String
  throughMessageId : Int

structure GroupChatSummary where
  chatId : String
  title : String
  members : List String
  createdAt : Int
  lastMessage : Option String
  lastMessageAt : Option Int
  unreadCount : Nat

structure GroupChatMessage where
  messageId : Nat
  chatId : String
  senderUserId : String
  senderNickname : String
  text : String
  createdAt : Int
  deriving DecidableEq

structure AlertJob where
  deviceId : String
  token : String
  environment : String
  badge : Nat

def appendMembers (title : String) : List String → String
  | [] => title
  | member :: members =>
      let fragment := ", @" ++ member
      if title.utf8ByteSize + fragment.utf8ByteSize > GroupChat.maxGroupTitleBytes - 3 then title ++ "..."
      else appendMembers (title ++ fragment) members

def defaultGroupTitle (creator : String) (members : List String) : String :=
  appendMembers ("@" ++ creator) members

def activeGroupMember (db : Db) (chatId userId : String) : Bool :=
  (db.groupChatMembers.find (chatId, userId)).any (fun r => r.leftAt = none)

def Db.groupCursor (db : Db) (chatId userId : String) : Nat :=
  ((db.groupChatReadState.find (chatId, userId)).map GroupChatReadStateRow.lastReadMessageId).getD 0

def unreadCountForChat (db : Db) (chatId userId : String) : Nat :=
  let readCursor := db.groupCursor chatId userId
  min ((db.groupChatMessages.select (fun m => m.chatId = chatId ∧ m.messageId > readCursor)).countP
    (fun m => messageCountsAsUnread m.messageId readCursor (m.senderUserId == userId))) (2 ^ 32 - 1)

def totalUnreadCountForUser (db : Db) (userId : String) : Nat :=
  ((db.groupChatMembers.select (fun r => r.userId = userId ∧ r.leftAt = none)).map
    (fun r => unreadCountForChat db r.chatId userId)).foldl (fun total n => min (total + n) (2 ^ 32 - 1)) 0

def totalBadgeCountForDevice (db : Db) (userId deviceId : String) : Nat :=
  min (totalUnreadCountForUser db userId + directUnreadCountForDevice db userId deviceId) (2 ^ 32 - 1)

def loadGroupChatSummary (db : Db) (chatId userId : String) : Except ApiError GroupChatSummary := do
  let chat ← okOr (db.groupChats.find chatId) (.notFound "group chat not found")
  let members := (db.groupChatMembers.select (fun r => r.chatId = chatId ∧ r.leftAt = none)).map
    (fun r => (db.nicknameOf r.userId).getD r.nickname)
  let newest := (db.groupChatMessages.select (fun m => m.chatId = chatId)).foldl
    (fun (best : Option GroupChatMessageRow) m =>
      if best.any (fun b => b.messageId > m.messageId) then best else some m)
    none
  pure ⟨chatId, chat.title, members.insertionSort (· ≤ ·), chat.createdAt,
    newest.map GroupChatMessageRow.text,
    newest.map GroupChatMessageRow.createdAt, unreadCountForChat db chatId userId⟩

def addMember (chatId : String) (now : Int) (db : Db) (member : String × String) : Except ApiError Db := do
  let members ← okOr (db.groupChatMembers.insert ⟨chatId, member.1, member.2, now, none⟩)
    (.database "UNIQUE constraint failed: group_chat_members.chat_id, group_chat_members.user_id")
  let cursors ← okOr (db.groupChatReadState.insert ⟨chatId, member.1, 0⟩)
    (.database "UNIQUE constraint failed: group_chat_read_state.chat_id, group_chat_read_state.user_id")
  pure { db with groupChatMembers := members, groupChatReadState := cursors }

def resolveMember (db : Db) (nickname : String) : Except ApiError (String × String) := do
  let userId ← okOr (db.userOfNickname nickname) (.notFound ("nickname @" ++ nickname ++ " was not found"))
  pure (userId, nickname)

def createGroupChat (request : CreateGroupChatRequest) (auth : AuthenticatedDevice) (draw : Draw)
    (db : Db) : Except ApiError (Db × Except ApiError GroupChatSummary) := do
  requireIdentity auth request.creatorUserId request.creatorDeviceId
  refuseIf (request.members.length ≥ GroupChat.maxGroupMembers) (.badRequest "group has too many members")
  let requestedMembers := request.members.map normalizeNickname
  refuseIf (requestedMembers.any (fun nickname => !nicknameShapeValid nickname))
    (.badRequest "group contains an invalid nickname")
  refuseIf (requestedMembers.dedup.length != requestedMembers.length)
    (.badRequest "group contains duplicate nicknames")
  let creatorNickname ← okOr (db.nicknameOf auth.userId)
      (.conflict "create your nickname before creating a group")
  let resolvedMembers ← requestedMembers.mapM (resolveMember db)
  let uniqueAccounts := ((resolvedMembers.map Prod.fst).filter (· != auth.userId)).dedup.length
  refuseIf (!GroupChat.groupMayBeCreated true requestedMembers.length resolvedMembers.length
    uniqueAccounts) (.badRequest "group must contain distinct accounts other than your own")
  let title := (nonBlank request.title).getD (defaultGroupTitle creatorNickname requestedMembers)
  refuseIf (!GroupChat.titleIsValid (min title.utf8ByteSize 65535))
    (.badRequest "group title must be 1-80 bytes")
  let chatId := draw.randomId "chat_" 0
  let chats ← okOr (db.groupChats.insert ⟨chatId, title, auth.userId, draw.now⟩)
    (.database "UNIQUE constraint failed: group_chats.chat_id")
  let db ← ((auth.userId, creatorNickname) :: resolvedMembers).foldlM (addMember chatId draw.now)
    { db with groupChats := chats }
  pure (db, loadGroupChatSummary db chatId auth.userId)

def alertPushIsReachable (env : Env) (token environment : String) : Bool :=
  validApnsToken token && env.apnsConfigured && (ApnsEnvironment.parse environment).isOk

def alertJobs (env : Env) (db : Db) (chatId : String) (auth : AuthenticatedDevice)
    (inserted : Bool) : List AlertJob :=
  (db.groupChatMembers.select (fun r => r.chatId = chatId ∧ r.leftAt = none)).flatMap (fun member =>
    (db.activeDevices member.userId).filterMap (fun r => r.alertPushToken.bind (fun token =>
      if GroupChat.pushAlertMayBeSent (member.userId == auth.userId) true
          (alertPushIsReachable env token r.pushEnvironment) inserted then
        some ⟨r.deviceId, token, r.pushEnvironment, totalBadgeCountForDevice db member.userId r.deviceId⟩
      else none)))

def Db.groupMessageOf (db : Db) (chatId senderDeviceId clientMessageId : String) :
    Option GroupChatMessageRow :=
  db.groupChatMessages.rows.find? (fun r =>
    r.chatId = chatId ∧ r.senderDeviceId = senderDeviceId ∧ r.clientMessageId = clientMessageId)

def sendGroupMessage (env : Env) (chatId : String) (request : SendGroupMessageRequest)
    (auth : AuthenticatedDevice)
    (draw : Draw) (db : Db) : Except ApiError (Db × GroupChatMessage × List AlertJob) := do
  requireIdentity auth request.userId request.deviceId
  refuseIf (request.clientMessageId.utf8ByteSize < 8 || request.clientMessageId.utf8ByteSize > 64 ||
      !isAscii request.clientMessageId)
    (.badRequest "invalid client message ID")
  let text := trim request.text
  let activeMember := activeGroupMember db chatId auth.userId
  refuseIf (!GroupChat.messageMayBeSent activeMember true (min text.utf8ByteSize 65535))
    (if activeMember then .badRequest "message must be 1-4096 bytes"
     else .forbidden "device account is not a member of this group")
  let senderNickname := (db.nicknameOf auth.userId).getD auth.displayName
  match db.groupMessageOf chatId auth.deviceId request.clientMessageId with
  | some m =>
      pure (db, ⟨m.messageId, m.chatId, m.senderUserId, m.senderNickname, m.text, m.createdAt⟩, [])
  | none => do
      -- an insert that was ignored may have used up an id
      let messageId :=
        nextMessageId (db.groupChatMessages.rows.map GroupChatMessageRow.messageId) + draw.skipped
      let messages ← okOr
        (db.groupChatMessages.insert ⟨messageId, chatId, auth.userId, auth.deviceId, senderNickname,
          request.clientMessageId, text, draw.now⟩)
        (.database "UNIQUE constraint failed: group_chat_messages.message_id")
      let db := { db with groupChatMessages := messages }
      pure (db, ⟨messageId, chatId, auth.userId, senderNickname, text, draw.now⟩,
        if env.apnsConfigured then alertJobs env db chatId auth true else [])

def markGroupChatRead (chatId : String) (request : MarkGroupChatReadRequest)
    (auth : AuthenticatedDevice) (db : Db) : Except ApiError Db := do
  requireIdentity auth request.userId request.deviceId
  refuseIf (request.throughMessageId < 0) (.badRequest "through_message_id must not be negative")
  refuseIf (!activeGroupMember db chatId auth.userId)
    (.forbidden "device account is not a member of this group")
  let observed := ((db.groupChatMessages.select (fun m =>
    m.chatId = chatId ∧ (m.messageId : Int) ≤ request.throughMessageId)).map
      GroupChatMessageRow.messageId).foldr max 0
  let next := min (advanceReadCursor (db.groupCursor chatId auth.userId) observed) (2 ^ 63 - 1)
  pure { db with
    groupChatReadState := db.groupChatReadState.upsert ⟨chatId, auth.userId, next⟩
      (fun r => { r with lastReadMessageId := next }) (fun _ => rfl) }

theorem addMember_frame {chatId : String} {now : Int} {db db' : Db} {member : String × String}
    (h : addMember chatId now db member = .ok db') :
    ∃ members cursors, db' = { db with groupChatMembers := members, groupChatReadState := cursors } := by
  simp only [addMember, bind_eq_ok] at h
  obtain ⟨members, _, cursors, _, hp⟩ := h
  cases hp
  exact ⟨members, cursors, rfl⟩

theorem addMembers_frame {chatId : String} {now : Int} {members : List (String × String)}
    {db db' : Db} (h : members.foldlM (addMember chatId now) db = .ok db') :
    ∃ rows cursors, db' = { db with groupChatMembers := rows, groupChatReadState := cursors } := by
  induction members generalizing db with
  | nil =>
      cases h
      exact ⟨_, _, rfl⟩
  | cons member members ih =>
      rw [List.foldlM_cons, bind_eq_ok] at h
      obtain ⟨db₁, hone, hrest⟩ := h
      obtain ⟨_, _, rfl⟩ := addMember_frame hone
      obtain ⟨rows, cursors, rfl⟩ := ih hrest
      exact ⟨rows, cursors, rfl⟩

theorem createGroupChat_frame {request : CreateGroupChatRequest} {auth : AuthenticatedDevice}
    {draw : Draw} {db db' : Db} {response : Except ApiError GroupChatSummary}
    (h : createGroupChat request auth draw db = .ok (db', response)) :
    ∃ chats members cursors, db' = { db with
      groupChats := chats, groupChatMembers := members, groupChatReadState := cursors } := by
  simp only [createGroupChat, bind_eq_ok] at h
  obtain ⟨_, _, _, _, _, _, _, _, _, _, _, _, _, _, _, _, chats, _, added, hadd, hp⟩ := h
  cases hp
  obtain ⟨members, cursors, rfl⟩ := addMembers_frame hadd
  exact ⟨chats, members, cursors, rfl⟩

theorem sendGroupMessage_frame {env : Env} {chatId : String} {request : SendGroupMessageRequest}
    {auth : AuthenticatedDevice} {draw : Draw} {db db' : Db} {response : GroupChatMessage × List AlertJob}
    (h : sendGroupMessage env chatId request auth draw db = .ok (db', response)) :
    ∃ messages, db' = { db with groupChatMessages := messages } := by
  simp only [sendGroupMessage, bind_eq_ok] at h
  obtain ⟨_, _, _, _, _, _, h⟩ := h
  split at h
  · cases h
    exact ⟨_, rfl⟩
  · simp only [bind_eq_ok] at h
    obtain ⟨messages, _, hp⟩ := h
    cases hp
    exact ⟨messages, rfl⟩

theorem markGroupChatRead_frame {chatId : String} {request : MarkGroupChatReadRequest}
    {auth : AuthenticatedDevice}
    {db db' : Db} (h : markGroupChatRead chatId request auth db = .ok db') :
    ∃ cursors, db' = { db with groupChatReadState := cursors } := by
  simp only [markGroupChatRead, bind_eq_ok] at h
  obtain ⟨_, _, _, _, _, _, hp⟩ := h
  cases hp
  exact ⟨_, rfl⟩

end TriNet.CallApi
