import TriNet.CallApi.Idempotency
import TriNet.CallApi.Listing

namespace TriNet.CallApi

open Lib Lib.BigEndian Lib.Runs Lib.Paging

variable {env : Env} {auth : AuthenticatedDevice} {draw : Draw} {db db' : Db}

def Db.newestDirect (db : Db) (ownerUserId peerUserId : String) : Nat :=
  ((db.directMessages.select (fun m => m.recipientUserId = ownerUserId ∧
    m.senderUserId = peerUserId)).map DirectMessageRow.messageId).foldr max 0

def Db.newestInChat (db : Db) (chatId : String) : Nat :=
  ((db.messagesOfChat chatId).map GroupChatMessageRow.messageId).foldr max 0

def Db.groupReadCursor (db : Db) (chatId userId : String) : Option Nat :=
  (db.groupChatReadState.find (chatId, userId)).map GroupChatReadStateRow.lastReadMessageId

/-- What a transaction does to the cursors and to the messages of groups. -/
inductive ReadMove (db db' : Db) : Prop
  | keep (hdirect : db'.directMessageReadState = db.directMessageReadState)
      (hmessages : db'.groupChatMessages = db.groupChatMessages)
      (hgroup : db'.groupChatReadState = db.groupChatReadState)
  | readDirect {ownerUserId peerUserId : String} {next : Nat}
      (hupsert : db'.directMessageReadState =
        db.directMessageReadState.upsert ⟨ownerUserId, peerUserId, next⟩
        (fun r => { r with lastReadMessageId := next }) (fun _ => rfl))
      (hahead : ∀ c, db.directCursor ownerUserId peerUserId = some c → c < next)
      (hseen : next ≤ db.newestDirect ownerUserId peerUserId)
      (hmessages : db'.groupChatMessages = db.groupChatMessages)
      (hgroup : db'.groupChatReadState = db.groupChatReadState)
  | openChat {new : List GroupChatReadStateRow}
      (hrows : db'.groupChatReadState.rows = db.groupChatReadState.rows ++ new)
      (hnew : ∀ r ∈ new, r.lastReadMessageId = 0)
      (hdirect : db'.directMessageReadState = db.directMessageReadState)
      (hmessages : db'.groupChatMessages = db.groupChatMessages)
  | postGroup {m : GroupChatMessageRow}
      (hinsert : db.groupChatMessages.insert m = some db'.groupChatMessages) (hid : 0 < m.messageId)
      (hdirect : db'.directMessageReadState = db.directMessageReadState)
      (hgroup : db'.groupChatReadState = db.groupChatReadState)
  | readGroup {chatId userId : String} {observed : Nat}
      (hupsert : db'.groupChatReadState = db.groupChatReadState.upsert
        ⟨chatId, userId, min (advanceReadCursor (db.groupCursor chatId userId) observed) (2 ^ 63 - 1)⟩
        (fun r => { r with
          lastReadMessageId :=
            min (advanceReadCursor (db.groupCursor chatId userId) observed) (2 ^ 63 - 1) })
        (fun _ => rfl))
      (hseen : observed ≤ db.newestInChat chatId)
      (hdirect : db'.directMessageReadState = db.directMessageReadState)
      (hmessages : db'.groupChatMessages = db.groupChatMessages)

theorem advanceReadCursor_eq_max (current observed : Nat) :
    advanceReadCursor current observed = max current observed := by
  rw [advanceReadCursor]
  split <;> omega

theorem foldr_max_mono {ids ids' : List Nat} (h : ids ⊆ ids') : ids.foldr max 0 ≤ ids'.foldr max 0 :=
  foldr_max_le_iff.mpr (fun n hn => foldr_max_le_iff.mp (Nat.le_refl _) n (h hn))

section Handlers

theorem markDirectMessagesRead_move {request : MarkDirectMessageReadRequest}
    {response : DirectMessageReadResponse}
    (h : markDirectMessagesRead request auth db = .ok (db', response)) : ReadMove db db' := by
  simp only [markDirectMessagesRead, bind_eq_ok] at h
  obtain ⟨_, _, _, _, _, _, _, _, hp⟩ := h
  cases hp
  split
  · next hset =>
      refine .readDirect rfl ?_ ?_ rfl rfl
      · intro c hc
        simpa [hc] using hset.2
      · have hobserved : (((db.deliveredTo auth.userId auth.deviceId).filter (fun m =>
            m.senderUserId = request.senderUserId ∧ (m.messageId : Int) ≤ request.throughMessageId)).map
              DirectMessageRow.messageId).foldr max 0 ≤
                db.newestDirect auth.userId request.senderUserId := by
          refine foldr_max_mono (List.map_subset _ ?_)
          intro m hm
          obtain ⟨hm, hsender⟩ := List.mem_filter.mp hm
          obtain ⟨hm, hrecipient⟩ := List.mem_filter.mp hm
          exact List.mem_filter.mpr
            ⟨hm, decide_eq_true ⟨(of_decide_eq_true hrecipient).1, (of_decide_eq_true hsender).1⟩⟩
        -- a cursor that is stored is ahead of the old one, so it is an id that was observed
        rw [advanceReadCursor_eq_max] at hset ⊢
        cases hcurrent : db.directCursor auth.userId request.senderUserId with
        | none =>
            rw [Option.getD_none]
            omega
        | some c =>
            simp only [hcurrent, reduceCtorEq, false_or, Option.getD_some] at hset ⊢
            omega
  · exact .keep rfl rfl rfl

theorem addMembers_cursors {chatId : String} {now : Int} {members : List (String × String)}
    (h : members.foldlM (addMember chatId now) db = .ok db') :
    ∃ new, db'.groupChatReadState.rows = db.groupChatReadState.rows ++ new ∧
      ∀ r ∈ new, r.lastReadMessageId = 0 := by
  induction members generalizing db with
  | nil =>
      cases h
      exact ⟨[], by simp⟩
  | cons member members ih =>
      rw [List.foldlM_cons, bind_eq_ok] at h
      obtain ⟨db₁, hone, hrest⟩ := h
      obtain ⟨new, hrows, hnew⟩ := ih hrest
      simp only [addMember, bind_eq_ok, okOr_eq_ok] at hone
      obtain ⟨_, _, cursors, hinsert, hp⟩ := hone
      cases hp
      refine ⟨⟨chatId, member.1, 0⟩ :: new, ?_, ?_⟩
      · rw [hrows, (Table.insert_eq_some hinsert).2, List.append_assoc, List.singleton_append]
      · exact List.forall_mem_cons.mpr ⟨rfl, hnew⟩

theorem createGroupChat_move {request : CreateGroupChatRequest}
    {response : Except ApiError GroupChatSummary}
    (h : createGroupChat request auth draw db = .ok (db', response)) : ReadMove db db' := by
  obtain ⟨chats, members, cursors, hframe⟩ := createGroupChat_frame h
  simp only [createGroupChat, bind_eq_ok] at h
  obtain ⟨_, _, _, _, _, _, _, _, _, _, _, _, _, _, _, _, _, _, added, hadd, hp⟩ := h
  cases hp
  obtain ⟨new, hrows, hnew⟩ := addMembers_cursors hadd
  exact .openChat hrows hnew (by rw [hframe]) (by rw [hframe])

theorem sendGroupMessage_move {chatId : String} {request : SendGroupMessageRequest}
    {response : GroupChatMessage × List AlertJob}
    (h : sendGroupMessage env chatId request auth draw db = .ok (db', response)) : ReadMove db db' := by
  simp only [sendGroupMessage, bind_eq_ok] at h
  obtain ⟨_, _, _, _, _, _, h⟩ := h
  split at h
  · cases h
    exact .keep rfl rfl rfl
  · simp only [bind_eq_ok, okOr_eq_ok] at h
    obtain ⟨messages, hinsert, hp⟩ := h
    cases hp
    exact .postGroup hinsert (Nat.add_pos_left (Nat.succ_pos _) _) rfl rfl

theorem markGroupChatRead_move {chatId : String} {request : MarkGroupChatReadRequest}
    (h : markGroupChatRead chatId request auth db = .ok db') : ReadMove db db' := by
  simp only [markGroupChatRead, bind_eq_ok] at h
  obtain ⟨_, _, _, _, _, _, hp⟩ := h
  cases hp
  refine .readGroup rfl (foldr_max_mono (List.map_subset _ ?_)) rfl rfl
  intro m hm
  obtain ⟨hm, hp⟩ := List.mem_filter.mp hm
  exact mem_messagesOfChat.mpr ⟨hm, (of_decide_eq_true hp).1⟩

theorem body_readMove {request : Request} {reply : Reply}
    (h : request.body env auth draw db = .ok (db', reply)) : ReadMove db db' := by
  have hwrites := body_writes h
  cases request <;> simp only [Request.body, bind_eq_ok] at h
  case query =>
    cases h
    exact .keep rfl rfl rfl
  all_goals
    obtain ⟨_, h, hp⟩ := h
    cases hp
  case markDirectMessagesRead => exact markDirectMessagesRead_move h
  case createGroupChat => exact createGroupChat_move h
  case sendGroupMessage => exact sendGroupMessage_move h
  case markGroupChatRead => exact markGroupChatRead_move h
  case registerDevice =>
    obtain ⟨_, _, he⟩ := hwrites
    rw [he]
    exact .keep rfl rfl rfl
  case linkDevice =>
    obtain ⟨_, _, _, _, he⟩ := hwrites
    rw [he]
    exact .keep rfl rfl rfl
  case createCall | joinCall | declineCall | callStatus | endCall | cancelCall | sendDirectMessage =>
    obtain ⟨_, _, _, he⟩ := hwrites
    rw [he]
    exact .keep rfl rfl rfl
  case createLinkCode | revokeDevice | claimNickname =>
    obtain ⟨_, he⟩ := hwrites
    rw [he]
    exact .keep rfl rfl rfl

theorem Server.step_readMove (env : Env) (s : Server) (e : Event) : ReadMove s.db (s.step env e).db := by
  have h := Server.step_spec env s e
  generalize s.step env e = t at h ⊢
  cases h with
  | quiet hdb => rw [hdb]; exact .keep rfl rfl rfl
  | authenticate hw hauth =>
      obtain ⟨_, _, _, rfl⟩ := authenticateUnderLock_ok hauth
      exact .keep rfl rfl rfl
  | body hp hbody => exact body_readMove hbody

theorem Service.step_readMove {ι : Type} [DecidableEq ι] (env : Env) (s : Service ι) (e : Event ι) :
    ReadMove s.server.db (step env s e).server.db := by
  obtain ⟨e, rfl⟩ | ⟨_, _, hdb⟩ := step_handler_or_frame env s e
  · exact s.server.step_readMove env e
  · rw [hdb]
    exact .keep rfl rfl rfl

end Handlers

structure Db.CursorsRise (db db' : Db) : Prop where
  direct : ∀ ownerUserId peerUserId c, db.directCursor ownerUserId peerUserId = some c →
    ∃ c', db'.directCursor ownerUserId peerUserId = some c' ∧ c ≤ c'
  group : ∀ chatId userId c, db.groupReadCursor chatId userId = some c →
    ∃ c', db'.groupReadCursor chatId userId = some c' ∧ c ≤ c'

/-- No stored cursor is past the messages of its conversation. -/
structure Db.CursorsSeen (db : Db) : Prop where
  direct : ∀ ownerUserId peerUserId c, db.directCursor ownerUserId peerUserId = some c →
    c ≤ db.newestDirect ownerUserId peerUserId
  group : ∀ chatId userId c, db.groupReadCursor chatId userId = some c → c ≤ db.newestInChat chatId

/-- The cursors of groups fit an `i64`; they are cut there each time they are
stored. -/
def Db.GroupCursorsFit (db : Db) : Prop :=
  ∀ chatId userId c, db.groupReadCursor chatId userId = some c → c < 2 ^ 63

theorem Db.CursorsRise.refl (db : Db) : db.CursorsRise db :=
  ⟨fun _ _ c h => ⟨c, h, Nat.le_refl c⟩, fun _ _ c h => ⟨c, h, Nat.le_refl c⟩⟩

theorem Db.CursorsRise.trans {db'' : Db} (h : db.CursorsRise db') (h' : db'.CursorsRise db'') :
    db.CursorsRise db'' where
  direct owner peer c hc := by
    obtain ⟨c', hc', hle⟩ := h.direct owner peer c hc
    obtain ⟨c'', hc'', hle'⟩ := h'.direct owner peer c' hc'
    exact ⟨c'', hc'', hle.trans hle'⟩
  group chatId userId c hc := by
    obtain ⟨c', hc', hle⟩ := h.group chatId userId c hc
    obtain ⟨c'', hc'', hle'⟩ := h'.group chatId userId c' hc'
    exact ⟨c'', hc'', hle.trans hle'⟩

namespace ReadMove

theorem directCursor (h : ReadMove db db') (owner peer : String) :
    db'.directCursor owner peer = db.directCursor owner peer ∨
      ∃ next, db'.directCursor owner peer = some next ∧ next ≤ db.newestDirect owner peer ∧
        ∀ c, db.directCursor owner peer = some c → c < next := by
  cases h with
  | keep hdirect | openChat _ _ hdirect | postGroup _ _ hdirect | readGroup _ _ hdirect =>
      exact .inl (by rw [Db.directCursor, hdirect]; rfl)
  | @readDirect owner' peer' next hupsert hahead hseen =>
      have hcursor : db'.directCursor owner peer =
          if (owner', peer') = (owner, peer) then some next else db.directCursor owner peer := by
        rw [Db.directCursor, hupsert]
        exact Table.map_find_upsert db.directMessageReadState ⟨owner', peer', next⟩
          (fun r => { r with lastReadMessageId := next }) (fun _ => rfl)
          DirectMessageReadStateRow.lastReadMessageId (fun _ => rfl) (owner, peer)
      by_cases hsame : (owner', peer') = (owner, peer)
      · rw [if_pos hsame] at hcursor
        cases hsame
        exact .inr ⟨next, hcursor, hseen, hahead⟩
      · rw [if_neg hsame] at hcursor
        exact .inl hcursor

theorem groupReadCursor (h : ReadMove db db') (chatId userId : String) :
    db'.groupReadCursor chatId userId = db.groupReadCursor chatId userId ∨
      db.groupReadCursor chatId userId = none ∧ db'.groupReadCursor chatId userId = some 0 ∨
      ∃ observed, observed ≤ db.newestInChat chatId ∧
        db'.groupReadCursor chatId userId =
          some (min (max (db.groupCursor chatId userId) observed) (2 ^ 63 - 1)) := by
  cases h with
  | keep _ _ hgroup | readDirect _ _ _ _ hgroup | postGroup _ _ _ hgroup =>
      exact .inl (by rw [Db.groupReadCursor, hgroup]; rfl)
  | @openChat new hrows hnew =>
      by_cases hopened : ∃ r ∈ new, r.key = (chatId, userId)
      · obtain ⟨r, hr, hkey⟩ := hopened
        have hnone := Table.find_of_appended hrows hr
        have hfound : db'.groupChatReadState.find (chatId, userId) = some r :=
          Table.find_eq_some.mpr ⟨by rw [hrows]; exact List.mem_append_right _ hr, hkey⟩
        rw [hkey] at hnone
        refine .inr (.inl ⟨by rw [Db.groupReadCursor, hnone]; rfl, ?_⟩)
        rw [Db.groupReadCursor, hfound, Option.map_some, hnew r hr]
      · have hsame := Table.find_append hrows (fun r hr hkey => hopened ⟨r, hr, hkey⟩)
        exact .inl (by rw [Db.groupReadCursor, hsame]; rfl)
  | @readGroup chatId' userId' observed hupsert hseen =>
      rw [advanceReadCursor_eq_max] at hupsert
      generalize hnext : min (max (db.groupCursor chatId' userId') observed) (2 ^ 63 - 1) = next at hupsert
      have hcursor : db'.groupReadCursor chatId userId =
          if (chatId', userId') = (chatId, userId) then
            some next else db.groupReadCursor chatId userId := by
        rw [Db.groupReadCursor, hupsert]
        exact Table.map_find_upsert db.groupChatReadState ⟨chatId', userId', next⟩
          (fun r => { r with lastReadMessageId := next }) (fun _ => rfl)
          GroupChatReadStateRow.lastReadMessageId (fun _ => rfl) (chatId, userId)
      by_cases hsame : (chatId', userId') = (chatId, userId)
      · rw [if_pos hsame] at hcursor
        cases hsame
        exact .inr (.inr ⟨observed, hseen, hcursor.trans (congrArg some hnext.symm)⟩)
      · rw [if_neg hsame] at hcursor
        exact .inl hcursor

theorem rise (h : ReadMove db db') (hfit : db.GroupCursorsFit) : db.CursorsRise db' where
  direct owner peer c hc := by
    obtain hsame | ⟨next, hnext, _, hahead⟩ := h.directCursor owner peer
    · exact ⟨c, hsame.trans hc, Nat.le_refl c⟩
    · exact ⟨next, hnext, (hahead c hc).le⟩
  group chatId userId c hc := by
    obtain hsame | ⟨hnone, _⟩ | ⟨observed, _, hnext⟩ := h.groupReadCursor chatId userId
    · exact ⟨c, hsame.trans hc, Nat.le_refl c⟩
    · cases hnone.symm.trans hc
    · refine ⟨_, hnext, ?_⟩
      have hcurrent : db.groupCursor chatId userId = c := congrArg (Option.getD · 0) hc
      have hbound := hfit chatId userId c hc
      omega

theorem groupCursorsFit (h : ReadMove db db') (hfit : db.GroupCursorsFit) : db'.GroupCursorsFit := by
  intro chatId userId c hc
  obtain hsame | ⟨_, hzero⟩ | ⟨observed, _, hnext⟩ := h.groupReadCursor chatId userId
  · exact hfit chatId userId c (hsame.symm.trans hc)
  · cases hzero.symm.trans hc
    decide
  · cases hnext.symm.trans hc
    omega

theorem groupMessages_subset (h : ReadMove db db') :
    db.groupChatMessages.rows ⊆ db'.groupChatMessages.rows := by
  cases h with
  | keep _ hmessages | readDirect _ _ _ hmessages | openChat _ _ _ hmessages | readGroup _ _ _ hmessages =>
      rw [hmessages]
      exact List.Subset.refl _
  | postGroup hinsert =>
      rw [(Table.insert_eq_some hinsert).2]
      exact List.subset_append_left _ _

theorem newestInChat_le (h : ReadMove db db') (chatId : String) :
    db.newestInChat chatId ≤ db'.newestInChat chatId := by
  refine foldr_max_mono (List.map_subset _ ?_)
  intro m hm
  obtain ⟨hm, hchat⟩ := mem_messagesOfChat.mp hm
  exact mem_messagesOfChat.mpr ⟨h.groupMessages_subset hm, hchat⟩

theorem seen (h : ReadMove db db')
    (hnewest : ∀ owner peer, db.newestDirect owner peer ≤ db'.newestDirect owner peer)
    (hseen : db.CursorsSeen) : db'.CursorsSeen where
  direct owner peer c hc := by
    apply Nat.le_trans _ (hnewest owner peer)
    obtain hsame | ⟨next, hnext, hle, _⟩ := h.directCursor owner peer
    · exact hseen.direct owner peer c (hsame.symm.trans hc)
    · cases hnext.symm.trans hc
      exact hle
  group chatId userId c hc := by
    apply Nat.le_trans _ (h.newestInChat_le chatId)
    obtain hsame | ⟨_, hzero⟩ | ⟨observed, hle, hnext⟩ := h.groupReadCursor chatId userId
    · exact hseen.group chatId userId c (hsame.symm.trans hc)
    · cases hzero.symm.trans hc
      exact Nat.zero_le _
    · cases hnext.symm.trans hc
      -- the cursor there was is itself no larger than the newest message
      have hcurrent : db.groupCursor chatId userId ≤ db.newestInChat chatId := by
        rw [Db.groupCursor]
        cases hold : db.groupReadCursor chatId userId with
        | none =>
            rw [Db.groupReadCursor] at hold
            rw [hold]
            exact Nat.zero_le _
        | some c =>
            have hle := hseen.group chatId userId c hold
            rw [Db.groupReadCursor] at hold
            rw [hold]
            exact hle
      omega

end ReadMove

theorem Traffic.directMessages_subset (h : Traffic env db db') :
    db.directMessages.rows ⊆ db'.directMessages.rows :=
  fun _ hm => Table.mem_rows.mpr (h.message (Table.mem_rows.mp hm)).1

theorem Traffic.newestDirect_le (h : Traffic env db db') (owner peer : String) :
    db.newestDirect owner peer ≤ db'.newestDirect owner peer := by
  refine foldr_max_mono (List.map_subset _ ?_)
  intro m hm
  obtain ⟨hm, hp⟩ := List.mem_filter.mp hm
  exact List.mem_filter.mpr ⟨h.directMessages_subset hm, hp⟩

theorem Traffic.idsPositive (htraffic : Traffic env db db')
    (h : ∀ m ∈ db.directMessages.rows, 0 < m.messageId) :
    ∀ m ∈ db'.directMessages.rows, 0 < m.messageId := by
  cases htraffic with
  | keep _ hmessages | place _ _ _ hmessages =>
      rw [hmessages]
      exact h
  | post hinsert hid =>
      rw [(Table.insert_eq_some hinsert).2, List.forall_mem_append, List.forall_mem_singleton, hid]
      exact ⟨h, Nat.succ_pos _⟩

theorem ReadMove.idsPositive (hread : ReadMove db db')
    (h : ∀ m ∈ db.groupChatMessages.rows, 0 < m.messageId) :
    ∀ m ∈ db'.groupChatMessages.rows, 0 < m.messageId := by
  cases hread with
  | keep _ hmessages | readDirect _ _ _ hmessages | openChat _ _ _ hmessages | readGroup _ _ _ hmessages =>
      rw [hmessages]
      exact h
  | postGroup hinsert hid =>
      rw [(Table.insert_eq_some hinsert).2, List.forall_mem_append, List.forall_mem_singleton]
      exact ⟨h, hid⟩

end TriNet.CallApi
