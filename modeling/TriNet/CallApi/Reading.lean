import TriNet.CallApi.Fanout
import TriNet.CallApi.ReadState

namespace TriNet.CallApi

open Lib Lib.BigEndian Lib.Runs Lib.Paging

structure Db.ReadSound (db : Db) : Prop where
  seen : db.CursorsSeen
  fit : db.GroupCursorsFit
  directIds : ∀ m ∈ db.directMessages.rows, 0 < m.messageId
  groupIds : ∀ m ∈ db.groupChatMessages.rows, 0 < m.messageId

section Above

variable {db : Db} {userId deviceId chatId : String}

theorem Db.ReadSound.inbox_above (h : db.ReadSound) :
    ∀ row ∈ db.inbox userId deviceId, (0 : Int) < row.1.messageId :=
  fun row hrow => Int.ofNat_lt.mpr (h.directIds row.1 (mem_inbox.mp hrow).1)

theorem Db.ReadSound.chat_above (h : db.ReadSound) :
    ∀ m ∈ db.messagesOfChat chatId, (0 : Int) < m.messageId :=
  fun m hm => Int.ofNat_lt.mpr (h.groupIds m (mem_messagesOfChat.mp hm).1)

end Above

namespace Service

variable {ι : Type} [DecidableEq ι] {env : Env} {s : Service ι}

section Runs

theorem step_readSound (h : s.server.db.ReadSound) (e : Event ι) :
    (step env s e).server.db.ReadSound ∧ s.server.db.CursorsRise (step env s e).server.db := by
  have hread := step_readMove env s e
  obtain ⟨_, htraffic⟩ := step_traffic env s e
  exact ⟨⟨hread.seen htraffic.newestDirect_le h.seen, hread.groupCursorsFit h.fit,
    htraffic.idsPositive h.directIds, hread.idsPositive h.groupIds⟩, hread.rise h.fit⟩

theorem run_readSound (h : s.server.db.ReadSound) (es : List (Event ι)) :
    (run (step env) s es).server.db.ReadSound ∧
      s.server.db.CursorsRise (run (step env) s es).server.db := by
  apply run_invariant (step env) (fun t => t.server.db.ReadSound ∧
    s.server.db.CursorsRise t.server.db) _ s es ⟨h, .refl _⟩
  rintro t e ⟨hsound, hrise⟩
  obtain ⟨hnext, hstep⟩ := step_readSound hsound e
  exact ⟨hnext, hrise.trans hstep⟩

omit [DecidableEq ι] in
theorem readSound_start (clock : Int) (owner : String) : (start ι clock owner).server.db.ReadSound := by
  refine ⟨⟨?_, ?_⟩, ?_, ?_, ?_⟩
  · intro _ _ c hc
    cases hc
  · intro _ _ c hc
    cases hc
  · intro _ _ c hc
    cases hc
  · intro m hm
    cases hm
  · intro m hm
    cases hm

def Later (env : Env) (s t : Service ι) : Prop := ∃ es, t = run (step env) s es

theorem Later.inbox_subset {t : Service ι} (h : Later env s t) (userId deviceId : String) :
    s.server.db.inbox userId deviceId ⊆ t.server.db.inbox userId deviceId := by
  obtain ⟨es, rfl⟩ := h
  intro row hrow
  obtain ⟨hm, hrecipient, henvelope⟩ := mem_inbox.mp hrow
  obtain ⟨hkept, henvelopes⟩ := run_message env s es (Table.mem_rows.mp hm)
  refine mem_inbox.mpr ⟨Table.mem_rows.mpr hkept, hrecipient, ?_⟩
  obtain ⟨he, hkey⟩ := Table.find_eq_some.mp henvelope
  have hof : row.2 ∈ s.server.db.envelopesOf row.1.messageId :=
    List.mem_filter.mpr ⟨he, decide_eq_true (Prod.mk.inj hkey).1⟩
  rw [← henvelopes] at hof
  exact Table.find_eq_some.mpr ⟨List.mem_of_mem_filter hof, hkey⟩

theorem Later.chat_subset {t : Service ι} (h : Later env s t) (chatId : String) :
    s.server.db.messagesOfChat chatId ⊆ t.server.db.messagesOfChat chatId := by
  obtain ⟨es, rfl⟩ := h
  apply run_invariant (step env)
    (fun t => s.server.db.messagesOfChat chatId ⊆ t.server.db.messagesOfChat chatId) _ s es
    (List.Subset.refl _)
  intro t e ht m hm
  obtain ⟨hm, hchat⟩ := mem_messagesOfChat.mp (ht hm)
  exact mem_messagesOfChat.mpr ⟨(step_readMove env t e).groupMessages_subset hm, hchat⟩

end Runs

def ReadsInbox (env : Env) (auth : AuthenticatedDevice) (next : Service ι → Service ι → Prop)
    (s : Service ι) (limits : List Nat) (entries : List DirectMessageInboxMessage) : Prop :=
  Fetch (fun s => inboxPage env auth s.server.db) (fun m => (m.messageId : Int)) next s 0 limits entries

/-- A member reads the messages of a group from the start to an empty page. -/
def ReadsChat (chatId : String) (auth : AuthenticatedDevice) (next : Service ι → Service ι → Prop)
    (s : Service ι) (limits : List Nat) (entries : List GroupChatMessage) : Prop :=
  Fetch (fun s => chatPage chatId auth s.server.db) (fun m => (m.messageId : Int)) next s 0 limits entries

section Inbox

variable {auth : AuthenticatedDevice} {limits : List Nat} {entries : List DirectMessageInboxMessage}

theorem ReadsInbox.complete (hs : s.server.db.ReadSound)
    (h : ReadsInbox env auth (Later env) s limits entries) :
    entries.Pairwise (fun m m' => m.messageId < m'.messageId) ∧
      ∀ row ∈ s.server.db.inbox auth.userId auth.deviceId, ∃ readCursor,
        directMessageFromRow env row.1 row.2 readCursor ∈ entries := by
  have hserves := (inbox_serves env auth).comap (fun s : Service ι => s.server.db)
  have hkeys (s : Service ι) := inbox_ids_nodup s.server.db auth.userId auth.deviceId
  refine ⟨(h.pairwise hserves hkeys (Int.le_refl 0)).imp Int.ofNat_lt.mp, ?_⟩
  intro row hrow
  obtain ⟨t, _, hshown⟩ :=
    h.covers hserves hkeys (fun _ _ hlater => hlater.inbox_subset _ _) (Int.le_refl 0) row hrow
    (hs.inbox_above row hrow)
  exact ⟨_, hshown⟩

omit [DecidableEq ι] in
theorem ReadsInbox.unread (hs : s.server.db.ReadSound)
    (hfew : s.server.db.directMessages.rows.length < 2 ^ 32)
    (h : ReadsInbox env auth Eq s limits entries) :
    directUnreadCountForDevice s.server.db auth.userId auth.deviceId = entries.countP (fun m =>
      m.senderUserId ≠ auth.userId ∧
        (s.server.db.directCursor auth.userId m.senderUserId).getD 0 < m.messageId) := by
  have hserves := (inbox_serves env auth).comap (fun s : Service ι => s.server.db)
  have hkeys (s : Service ι) := inbox_ids_nodup s.server.db auth.userId auth.deviceId
  rw [directUnread_eq _ _ _ hfew, h.countP_eq hserves hkeys hs.inbox_above (Int.le_refl 0)]
  rfl

omit [DecidableEq ι] in
theorem exists_readsInbox (env : Env) (auth : AuthenticatedDevice) (s : Service ι) (sizes : Nat → Nat) :
    ∃ n entries, ReadsInbox env auth Eq s ((List.range n).map sizes) entries :=
  Fetch.exists_of_isSome ((inbox_serves env auth).comap (fun s : Service ι => s.server.db)) rfl
    (fun _ limit hafter => isSome_inboxPage limit hafter) sizes (Int.le_refl 0)

end Inbox

section Chat

variable {chatId : String} {auth : AuthenticatedDevice} {limits : List Nat}
  {entries : List GroupChatMessage}

theorem ReadsChat.complete (hs : s.server.db.ReadSound)
    (h : ReadsChat chatId auth (Later env) s limits entries) :
    entries.Pairwise (fun m m' => m.messageId < m'.messageId) ∧
      ∀ m ∈ s.server.db.messagesOfChat chatId, groupChatMessageFromRow m ∈ entries := by
  have hserves := (chat_serves chatId auth).comap (fun s : Service ι => s.server.db)
  have hkeys (s : Service ι) := chat_ids_nodup s.server.db chatId
  refine ⟨(h.pairwise hserves hkeys (Int.le_refl 0)).imp Int.ofNat_lt.mp, ?_⟩
  intro m hm
  obtain ⟨t, _, hshown⟩ :=
    h.covers hserves hkeys (fun _ _ hlater => hlater.chat_subset _) (Int.le_refl 0) m hm
    (hs.chat_above m hm)
  exact hshown

omit [DecidableEq ι] in
theorem ReadsChat.unread (hs : s.server.db.ReadSound)
    (hfew : s.server.db.groupChatMessages.rows.length < 2 ^ 32)
    (h : ReadsChat chatId auth Eq s limits entries) :
    unreadCountForChat s.server.db chatId auth.userId = entries.countP (fun m =>
      m.senderUserId ≠ auth.userId ∧ s.server.db.groupCursor chatId auth.userId < m.messageId) := by
  have hserves := (chat_serves chatId auth).comap (fun s : Service ι => s.server.db)
  have hkeys (s : Service ι) := chat_ids_nodup s.server.db chatId
  rw [chatUnread_eq _ _ _ hfew, h.countP_eq hserves hkeys hs.chat_above (Int.le_refl 0)]
  rfl

omit [DecidableEq ι] in
theorem exists_readsChat (hmember : activeGroupMember s.server.db chatId auth.userId = true)
    (sizes : Nat → Nat) :
    ∃ n entries, ReadsChat chatId auth Eq s ((List.range n).map sizes) entries :=
  Fetch.exists_of_isSome ((chat_serves chatId auth).comap (fun s : Service ι => s.server.db)) rfl
    (fun after limit _ => isSome_chatPage hmember after limit) sizes (Int.le_refl 0)

end Chat

/-- However sends, lists and receipts interleave: stored cursors only rise and stay
within their conversation; reading page by page, with anything happening between
two pages, gives what was there before the first page once each and in the order
of the ids, and comes to its end if nothing new arrives; and in a state with
fewer than 2^32 messages the unread counts are those of a full listing. -/
theorem reading_consistent (env : Env) (clock : Int) (owner : String) (es : List (Event ι)) :
    ((reached env clock owner es).server.db.CursorsSeen ∧
      ∀ fs, (reached env clock owner es).server.db.CursorsRise
        (reached env clock owner (es ++ fs)).server.db) ∧
    ((∀ auth limits entries, ReadsInbox env auth (Later env) (reached env clock owner es) limits entries →
        entries.Pairwise (fun m m' => m.messageId < m'.messageId) ∧
        ∀ row ∈ (reached env clock owner es).server.db.inbox auth.userId auth.deviceId,
          ∃ readCursor, directMessageFromRow env row.1 row.2 readCursor ∈ entries) ∧
      (∀ chatId auth limits entries,
        ReadsChat chatId auth (Later env) (reached env clock owner es) limits entries →
        entries.Pairwise (fun m m' => m.messageId < m'.messageId) ∧
        ∀ m ∈ (reached env clock owner es).server.db.messagesOfChat chatId,
          groupChatMessageFromRow m ∈ entries)) ∧
    ((∀ auth sizes, ∃ n entries,
      ReadsInbox env auth Eq (reached env clock owner es) ((List.range n).map sizes) entries) ∧
      (∀ chatId auth sizes,
        activeGroupMember (reached env clock owner es).server.db chatId auth.userId = true →
        ∃ n entries, ReadsChat chatId auth Eq (reached env clock owner es)
          ((List.range n).map sizes) entries)) ∧
    ((reached env clock owner es).server.db.directMessages.rows.length < 2 ^ 32 →
      ∀ auth limits entries, ReadsInbox env auth Eq (reached env clock owner es) limits entries →
        directUnreadCountForDevice (reached env clock owner es).server.db auth.userId auth.deviceId =
          entries.countP (fun m => m.senderUserId ≠ auth.userId ∧
            ((reached env clock owner es).server.db.directCursor auth.userId m.senderUserId).getD
              0 < m.messageId)) ∧
    ((reached env clock owner es).server.db.groupChatMessages.rows.length < 2 ^ 32 →
      ∀ chatId auth limits entries, ReadsChat chatId auth Eq (reached env clock owner es) limits entries →
        unreadCountForChat (reached env clock owner es).server.db chatId auth.userId =
          entries.countP (fun m => m.senderUserId ≠ auth.userId ∧
            (reached env clock owner es).server.db.groupCursor chatId auth.userId < m.messageId)) := by
  have hsound : (reached env clock owner es).server.db.ReadSound :=
    (run_readSound (readSound_start clock owner) es).1
  refine ⟨⟨hsound.seen, ?_⟩,
    ⟨fun _ _ _ => ReadsInbox.complete hsound, fun _ _ _ _ => ReadsChat.complete hsound⟩,
    ⟨fun auth sizes => exists_readsInbox env auth _ sizes, fun _ _ sizes hmember =>
      exists_readsChat hmember sizes⟩,
    fun hfew _ _ _ => ReadsInbox.unread hsound hfew, fun hfew _ _ _ _ => ReadsChat.unread hsound hfew⟩
  intro fs
  have hlater : reached env clock owner (es ++ fs) =
      run (step env) (reached env clock owner es) fs := run_append ..
  rw [hlater]
  exact (run_readSound hsound fs).2

/-- `a` writes to `b` and opens a group with a message; `b` has read the former. -/
def exchange : List (Event Unit) :=
  aboutToSend ++ [.handler (.body 0 (plainDraw 1000 4))] ++
    (Server.serve "key-b" "b" "nonce-b-00000003" "read" 5 (.markDirectMessagesRead ⟨"w", "b", "u", 1⟩) ++
      Server.serve "key-a" "a" "nonce-a-00000004" "open" 6
        (.createGroupChat ⟨"u", "a", none, ["robert"]⟩) ++
      Server.serve "key-a" "a" "nonce-a-00000005" "post" 7
        (.sendGroupMessage openedChat ⟨"u", "a", "client-1", "hello"⟩)).map .handler
where
  openedChat : String := "chat_" ++ lowercaseHex (List.replicate 16 6)

def robert : AuthenticatedDevice := ⟨"w", "b", "b", "key-b", plainEnv.fingerprint (utf8 "key-b"), 3⟩

def exchanged : Service Unit := reached trustingEnv 1000 "owner" exchange

def delivered : DirectMessageInboxMessage where
  messageId := 1
  clientMessageId := "uuid"
  senderUserId := "u"
  senderDeviceId := "a"
  senderNickname := "alice"
  senderSigningPublicKey := "key-a"
  senderKeyFingerprint := plainEnv.fingerprint (utf8 "key-a")
  recipientNickname := "robert"
  cryptoVersion := 1
  recipientDeviceId := "b"
  recipientKeyFingerprint := plainEnv.fingerprint (utf8 textKey)
  ephemeralPublicKey := "fedcba9876543210fedcba9876543210"
  nonce := "nonce-000001"
  ciphertext := "ciphertext-with-tag"
  senderSignature := "signature"
  createdAt := 1000
  read := true

def posted : GroupChatMessage := ⟨1, exchange.openedChat, "u", "alice", "hello", 1000⟩

theorem exchanged_facts :
    (inboxPage trustingEnv robert exchanged.server.db 0 7 = some ([] ++ [delivered]) ∧
      inboxPage trustingEnv robert exchanged.server.db delivered.messageId 0 = some [] ∧
      exchanged.server.db.directCursor "w" "u" = some 1 ∧
        exchanged.server.db.directMessages.rows.length < 2 ^ 32) ∧
    (chatPage exchange.openedChat robert exchanged.server.db 0 1 = some ([] ++ [posted]) ∧
      chatPage exchange.openedChat robert exchanged.server.db posted.messageId 2 = some [] ∧
      exchanged.server.db.groupCursor exchange.openedChat "w" = 0 ∧
      exchanged.server.db.groupChatMessages.rows.length < 2 ^ 32) := by
  decide +kernel

/-- `b` reads both in two pages each: nothing is unread from `a`, and one message
in the group. -/
theorem reading_consistent_exchange :
    1 ≤ exchanged.server.db.newestDirect "w" "u" ∧
      directUnreadCountForDevice exchanged.server.db "w" "b" = 0 ∧
      unreadCountForChat exchanged.server.db exchange.openedChat "w" = 1 := by
  have hconsistent := reading_consistent trustingEnv 1000 "owner" exchange
  rw [← exchanged] at hconsistent
  obtain ⟨⟨hseen, _⟩, _, _, hdirect, hgroup⟩ := hconsistent
  obtain ⟨⟨hinbox, hinboxEnd, hcursor, hfewDirect⟩, hchat, hchatEnd, hgroupCursor, hfewGroup⟩ :=
    exchanged_facts
  have hread : ReadsInbox trustingEnv robert Eq exchanged [7, 0] ([] ++ [delivered]) :=
    Fetch.of_page hinbox rfl hinboxEnd
  have hreadChat : ReadsChat exchange.openedChat robert Eq exchanged [1, 2] ([] ++ [posted]) :=
    Fetch.of_page hchat rfl hchatEnd
  have hnone := hdirect hfewDirect robert _ _ hread
  have hone := hgroup hfewGroup exchange.openedChat robert _ _ hreadChat
  refine ⟨hseen.direct "w" "u" 1 hcursor, hnone.trans ?_, hone.trans ?_⟩
  · simp [delivered, robert, hcursor]
  · simp [posted, robert, hgroupCursor]

end Service

end TriNet.CallApi
