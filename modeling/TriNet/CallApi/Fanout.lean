import TriNet.CallApi.Idempotency

namespace TriNet.CallApi

open Lib Lib.BigEndian Lib.Runs

variable {env : Env} {auth : AuthenticatedDevice} {draw : Draw} {db db' : Db}

def DeviceRow.textKeyFingerprint (env : Env) (r : DeviceRow) : Option String :=
  r.textEncryptionPublicKey.bind (fun key => (env.base64Decode key).map env.fingerprint)

def DirectMessageEnvelopeRow.addressee (r : DirectMessageEnvelopeRow) : String × Option String :=
  (r.recipientDeviceId, some r.recipientKeyFingerprint)

def DeviceRow.addressee (env : Env) (r : DeviceRow) : String × Option String :=
  (r.deviceId, r.textKeyFingerprint env)

/-- The envelopes of a message are one for each device that is active in the
account of its recipient, made for the key stored for it, and no others. -/
def DirectMessageRow.FansOut (env : Env) (db : Db) (m : DirectMessageRow) : Prop :=
  ((db.envelopesOf m.messageId).map DirectMessageEnvelopeRow.addressee).Perm
    ((db.activeDevices m.recipientUserId).map (DeviceRow.addressee env))

def DirectMessageRecipientDevice.addressee (d : DirectMessageRecipientDevice) : String × Option String :=
  (d.deviceId, some d.textEncryptionKeyFingerprint)

theorem loadRecipientDevice_addressee {r : DeviceRow} {d : DirectMessageRecipientDevice}
    (h : loadRecipientDevice env r = .ok d) : d.addressee = r.addressee env := by
  simp only [loadRecipientDevice, bind_eq_ok, okOr_eq_ok] at h
  obtain ⟨key, hkey, decoded, hdecoded, _, _, hp⟩ := h
  cases hp
  simp only [DirectMessageRecipientDevice.addressee, DeviceRow.addressee,
    DeviceRow.textKeyFingerprint, hkey, hdecoded, Option.bind_some, Option.map_some]

theorem loadRecipientDevices_addressees {rows : List DeviceRow}
    {devices : List DirectMessageRecipientDevice}
    (h : rows.mapM (loadRecipientDevice env) = .ok devices) :
    devices.map DirectMessageRecipientDevice.addressee = rows.map (DeviceRow.addressee env) := by
  induction rows generalizing devices with
  | nil =>
      cases h
      rfl
  | cons r rows ih =>
      simp only [List.mapM_cons, bind_eq_ok] at h
      obtain ⟨d, hone, rest, hrest, hp⟩ := h
      cases hp
      rw [List.map_cons, List.map_cons, loadRecipientDevice_addressee hone, ih hrest]

theorem loadDirectMessageRecipient_addressees {nickname : String}
    {recipient : DirectMessageRecipientResponse}
    (h : loadDirectMessageRecipient env db auth nickname = .ok recipient) :
    (recipient.devices.map DirectMessageRecipientDevice.addressee).Perm
      ((db.activeDevices recipient.userId).map (DeviceRow.addressee env)) := by
  simp only [loadDirectMessageRecipient, bind_eq_ok] at h
  obtain ⟨userId, _, _, _, devices, hdevices, hp⟩ := h
  cases hp
  rw [loadRecipientDevices_addressees hdevices]
  exact (List.perm_insertionSort _ _).map _

def NormalizedDirectMessageEnvelope.addressee (e : NormalizedDirectMessageEnvelope) :
    String × Option String :=
  (e.recipientDeviceId, some e.recipientKeyFingerprint)

/-- As many envelopes as devices, for different devices, each with a device and
its key: then they are for exactly these. -/
theorem addressees_perm {envelopes : List NormalizedDirectMessageEnvelope}
    {devices : List DirectMessageRecipientDevice}
    (hunique : (envelopes.map NormalizedDirectMessageEnvelope.recipientDeviceId).Nodup)
    (hlength : devices.length = envelopes.length)
    (hkeys : envelopes.all (fun e => devices.any (fun device =>
      device.deviceId == e.recipientDeviceId &&
        device.textEncryptionKeyFingerprint == e.recipientKeyFingerprint)) = true) :
    (envelopes.map NormalizedDirectMessageEnvelope.addressee).Perm
      (devices.map DirectMessageRecipientDevice.addressee) := by
  have hnodup : (envelopes.map NormalizedDirectMessageEnvelope.addressee).Nodup := by
    apply List.Nodup.of_map Prod.fst
    rw [List.map_map]
    exact hunique
  have hsubset : envelopes.map NormalizedDirectMessageEnvelope.addressee ⊆
      devices.map DirectMessageRecipientDevice.addressee := by
    intro addressee hmem
    obtain ⟨e, he, rfl⟩ := List.mem_map.mp hmem
    obtain ⟨device, hdevice, hmatch⟩ := List.any_eq_true.mp (List.all_eq_true.mp hkeys e he)
    simp only [Bool.and_eq_true, beq_iff_eq] at hmatch
    refine List.mem_map.mpr ⟨device, hdevice, ?_⟩
    rw [DirectMessageRecipientDevice.addressee, NormalizedDirectMessageEnvelope.addressee, hmatch.1,
      hmatch.2]
  apply (List.subperm_of_subset hnodup hsubset).perm_of_length_le
  rw [List.length_map, List.length_map, hlength]

theorem length_eq_of_complete {devices envelopes unique : Nat}
    (h : DirectMessage.envelopeSetIsComplete (min devices 65535) (min envelopes 65535) unique = true) :
    devices = envelopes := by
  have hmax : DirectMessage.maxRecipientDevices = 32 := rfl
  simp only [DirectMessage.envelopeSetIsComplete, Bool.and_eq_true, beq_iff_eq, decide_eq_true_eq] at h
  omega

theorem commitDirectMessage_fansOut {recipient clientMessageId : String}
    {envelopes : List NormalizedDirectMessageEnvelope} {uniqueDevices : Nat}
    {response : DirectMessageSendResponse}
    (howned : db.EnvelopesOwned)
    (hunique : (envelopes.map NormalizedDirectMessageEnvelope.recipientDeviceId).Nodup)
    (h : commitDirectMessage env recipient clientMessageId envelopes uniqueDevices auth draw db =
      .ok (db', response)) :
    ∃ m, db.directMessages.insert m = some db'.directMessages ∧ m.FansOut env db' := by
  obtain ⟨_, _, _, hcontent⟩ := commitDirectMessage_intended howned h
  have hsent : (db'.envelopesOf response.messageId).map DirectMessageEnvelopeRow.addressee =
      envelopes.map NormalizedDirectMessageEnvelope.addressee := by
    have haddress := congrArg (List.map (fun c : EnvelopeContent => (c.2.1, some c.2.2.1))) hcontent
    rwa [List.map_map, List.map_map] at haddress
  simp only [commitDirectMessage, bind_eq_ok, okOr_eq_ok, refuseIf_eq_ok, Bool.not_eq_false',
    DirectMessage.messageMayBeCommitted, Bool.and_eq_true] at h
  obtain ⟨loaded, hload, _, ⟨⟨⟨_, hcomplete⟩, hkeys⟩, _⟩, _, _, messages, hmessages, _, _, hp⟩ := h
  cases hp
  refine ⟨_, hmessages, ?_⟩
  refine (List.Perm.of_eq hsent).trans
    ((addressees_perm hunique (length_eq_of_complete hcomplete) hkeys).trans ?_)
  exact loadDirectMessageRecipient_addressees hload

theorem sendDirectMessage_fansOut {request : SendDirectMessageRequest}
    {response : DirectMessageSendResponse}
    (howned : db.EnvelopesOwned) (h : sendDirectMessage env request auth draw db = .ok (db', response)) :
    db' = db ∨ ∃ m, db.directMessages.insert m = some db'.directMessages ∧ m.FansOut env db' := by
  obtain ⟨clientMessageId, huuid, hsame | ⟨_, _, hof, _⟩⟩ := sendDirectMessage_cases h
  · exact .inl hsame
  · obtain ⟨envelopes, hwell, hcommit⟩ := (sendDirectMessage_wellFormed huuid).mp h
    rw [hof] at hcommit
    refine .inr (commitDirectMessage_fansOut howned ?_ hcommit)
    exact ((List.perm_insertionSort _ envelopes).map _).nodup_iff.mpr hwell.nodup

theorem body_fansOut {request : Request} {reply : Reply} (howned : db.EnvelopesOwned)
    (h : request.body env auth draw db = .ok (db', reply)) :
    db'.directMessages = db.directMessages ∨
      ∃ m, db.directMessages.insert m = some db'.directMessages ∧ m.FansOut env db' := by
  have hwrites := body_writes h
  cases request with
  | sendDirectMessage request =>
      simp only [Request.body, bind_eq_ok] at h
      obtain ⟨_, h, hp⟩ := h
      cases hp
      exact (sendDirectMessage_fansOut howned h).imp_left (congrArg Db.directMessages)
  | registerDevice =>
      obtain ⟨_, _, rfl⟩ := hwrites
      exact .inl rfl
  | linkDevice =>
      obtain ⟨_, _, _, _, rfl⟩ := hwrites
      exact .inl rfl
  | createCall | joinCall | declineCall | callStatus | endCall | cancelCall | createGroupChat =>
      obtain ⟨_, _, _, rfl⟩ := hwrites
      exact .inl rfl
  | createLinkCode | revokeDevice | claimNickname | markDirectMessagesRead | sendGroupMessage
  | markGroupChatRead =>
      obtain ⟨_, rfl⟩ := hwrites
      exact .inl rfl
  | query => exact .inl (congrArg Db.directMessages hwrites)

namespace Service

variable {ι : Type} [DecidableEq ι]

theorem step_fansOut {s : Service ι} (howned : s.server.db.EnvelopesOwned) (e : Event ι)
    {m : DirectMessageRow}
    (hm : m ∈ (step env s e).server.db.directMessages.rows)
    (hnew : m ∉ s.server.db.directMessages.rows) : m.FansOut env (step env s e).server.db := by
  have hkept (h : (step env s e).server.db.directMessages = s.server.db.directMessages) :
      m.FansOut env (step env s e).server.db := absurd (h ▸ hm) hnew
  obtain ⟨e, rfl⟩ | ⟨_, _, hdb⟩ := step_handler_or_frame env s e
  · have hstep := s.server.step_spec env e
    have hserver : (step env s (.handler e)).server = s.server.step env e := rfl
    rw [hserver] at hm hkept ⊢
    generalize s.server.step env e = t at hstep hm hkept ⊢
    cases hstep with
    | quiet hdb => exact hkept (by rw [hdb])
    | authenticate hw hauth =>
        obtain ⟨_, _, _, rfl⟩ := authenticateUnderLock_ok hauth
        exact hkept rfl
    | body hp hbody =>
        obtain hsame | ⟨m', hinsert, hfans⟩ := body_fansOut howned hbody
        · exact hkept hsame
        · rw [(Table.insert_eq_some hinsert).2] at hm
          obtain hold | hone := List.mem_append.mp hm
          · exact absurd hold hnew
          · rwa [List.mem_singleton.mp hone]
  · exact hkept (by rw [hdb])

/-- However sends interleave with registrations, links, revocations and changes
of keys: a message is committed with one envelope for each device that is active
in the recipient's account at that moment, made for the key then stored for it,
and with no other. -/
theorem messages_fan_out (env : Env) (clock : Int) (owner : String) (es : List (Event ι)) (e : Event ι)
    (m : DirectMessageRow)
    (hm : m ∈ (step env (reached env clock owner es) e).server.db.directMessages.rows)
    (hnew : m ∉ (reached env clock owner es).server.db.directMessages.rows) :
    m.FansOut env (step env (reached env clock owner es) e).server.db :=
  step_fansOut (run_distinct env _ es (distinct_start clock owner)).envelopes e hm hnew

def trustingEnv : Env := { plainEnv with verify := fun _ _ _ => true }

def textKey : String := "0123456789abcdef0123456789abcdef"

def keyedRegistration (userId deviceId key : String) : Request :=
  .registerDevice
    { userId, deviceId
      displayName := deviceId
      signingPublicKey := key
      textEncryptionPublicKey := some textKey
      keyFingerprint := plainEnv.fingerprint (utf8 key)
      platform := "ios"
      voipPushToken := none
      alertPushToken := none
      pushEnvironment := none
      capabilities := ["audio", "webrtc"] }

def envelopeTo (deviceId : String) : DirectMessageEnvelopeRequest where
  cryptoVersion := 1
  recipientDeviceId := deviceId
  recipientKeyFingerprint := plainEnv.fingerprint (utf8 textKey)
  ephemeralPublicKey := "fedcba9876543210fedcba9876543210"
  nonce := "nonce-000001"
  ciphertext := "ciphertext-with-tag"
  senderSignature := "signature"

/-- Device `a` is about to send a message to the account of `b`. -/
def aboutToSend : List (Event Unit) :=
  (Server.serve "key-a" "a" "nonce-a-00000001" "register a" 0 (plainRegistration "u" "a" "key-a") ++
    Server.serve "key-a" "a" "nonce-a-00000002" "name a" 1 (.claimNickname ⟨"alice", "u", "a"⟩) ++
    Server.serve "key-b" "b" "nonce-b-00000001" "register b" 2 (keyedRegistration "w" "b" "key-b") ++
    Server.serve "key-b" "b" "nonce-b-00000002" "name b" 3 (.claimNickname ⟨"robert", "w", "b"⟩) ++
    (Server.serve "key-a" "a" "nonce-a-00000003" "send" 4
      (.sendDirectMessage ⟨"u", "a", "robert", "uuid", [envelopeTo "b"]⟩)).take 2).map .handler

def firstMessage : DirectMessageRow :=
  ⟨1, "u", "a", "alice", "key-a", plainEnv.fingerprint (utf8 "key-a"), "w", "robert", "uuid", 1000⟩

theorem messages_fan_out_first :
    firstMessage ∈ (step trustingEnv (reached trustingEnv 1000 "owner" aboutToSend)
        (.handler (.body 0 (plainDraw 1000 4)))).server.db.directMessages.rows ∧
      firstMessage ∉ (reached trustingEnv 1000 "owner" aboutToSend).server.db.directMessages.rows ∧
      firstMessage.FansOut trustingEnv (step trustingEnv (reached trustingEnv 1000 "owner" aboutToSend)
        (.handler (.body 0 (plainDraw 1000 4)))).server.db := by
  obtain ⟨hm, hnew⟩ :
      firstMessage ∈ (step trustingEnv (reached trustingEnv 1000 "owner" aboutToSend)
        (.handler (.body 0 (plainDraw 1000 4)))).server.db.directMessages.rows ∧
      firstMessage ∉ (reached trustingEnv 1000 "owner" aboutToSend).server.db.directMessages.rows := by
    decide +kernel
  exact ⟨hm, hnew, messages_fan_out trustingEnv 1000 "owner" aboutToSend _ firstMessage hm hnew⟩

end Service

end TriNet.CallApi
