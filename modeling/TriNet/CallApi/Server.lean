import TriNet.Lib.Runs
import TriNet.CallApi.Calls
import TriNet.CallApi.GroupChats

namespace TriNet.CallApi

open Lib Lib.BigEndian Lib.Runs

/-- The requests to handlers that write; a query is any of the others. -/
inductive Request
  | registerDevice (request : DeviceRegistrationRequest)
  | createLinkCode (request : AccountRequest)
  | linkDevice (request : LinkDeviceRequest)
  | revokeDevice (targetDeviceId : String) (request : AccountRequest)
  | claimNickname (request : NicknameClaimRequest)
  | createCall (request : CreateCallRequest)
  | joinCall (callId : String) (request : CallParticipantRequest)
  | declineCall (callId : String) (request : CallParticipantRequest)
  | callStatus (callId : String) (request : CallParticipantRequest)
  | endCall (callId : String) (request : CallParticipantRequest)
  | cancelCall (callId : String) (request : CallParticipantRequest)
  | sendDirectMessage (request : SendDirectMessageRequest)
  | markDirectMessagesRead (request : MarkDirectMessageReadRequest)
  | createGroupChat (request : CreateGroupChatRequest)
  | sendGroupMessage (chatId : String) (request : SendGroupMessageRequest)
  | markGroupChatRead (chatId : String) (request : MarkGroupChatReadRequest)
  | query (path : String)

inductive Reply
  | noContent
  | linkCode (response : LinkCodeResponse)
  | account (response : AccountSnapshotResponse)
  | nickname (response : NicknameClaimResponse)
  | call (response : CreateCallResponse)
  | joined (session : Except ApiError InternetCallSession)
  | callStatus (response : CallStatusResponse)
  | ended (response : CallStatusResponse) (cleanup : Option String)
  | cancelled (cleanup : Option String)
  | directMessage (response : DirectMessageSendResponse)
  | directRead (response : DirectMessageReadResponse)
  | groupChat (response : Except ApiError GroupChatSummary)
  | groupMessage (message : GroupChatMessage) (alerts : List AlertJob)

namespace Request

def path : Request → String
  | .registerDevice _ => "/v1/devices/register"
  | .createLinkCode _ => "/v1/account/link-code"
  | .linkDevice _ => "/v1/account/link"
  | .revokeDevice targetDeviceId _ => "/v1/account/devices/" ++ targetDeviceId ++ "/revoke"
  | .claimNickname _ => "/v1/directory/nicknames/claim"
  | .createCall _ => "/v1/calls"
  | .joinCall callId _ => "/v1/calls/" ++ callId ++ "/join"
  | .declineCall callId _ => "/v1/calls/" ++ callId ++ "/decline"
  | .callStatus callId _ => "/v1/calls/" ++ callId ++ "/status"
  | .endCall callId _ => "/v1/calls/" ++ callId ++ "/end"
  | .cancelCall callId _ => "/v1/calls/" ++ callId ++ "/cancel"
  | .sendDirectMessage _ => "/v1/direct-messages"
  | .markDirectMessagesRead _ => "/v1/direct-messages/read"
  | .createGroupChat _ => "/v1/chats"
  | .sendGroupMessage chatId _ => "/v1/chats/" ++ chatId ++ "/messages"
  | .markGroupChatRead chatId _ => "/v1/chats/" ++ chatId ++ "/read"
  | .query path => path

def bootstrap : Request → Option Bootstrap
  | .registerDevice request => some ⟨request.userId, request.signingPublicKey⟩
  | _ => none

def precheck (env : Env) : Request → Except ApiError Unit
  | .registerDevice request => do
      let _ ← checkRegistration env request
      pure ()
  | _ => pure ()

def isLink : Request → Bool
  | .linkDevice _ => true
  | _ => false

/-- The transaction a handler runs after `authenticate` has returned. -/
def body (env : Env) (auth : AuthenticatedDevice) (draw : Draw) (db : Db) :
    Request → Except ApiError (Db × Reply)
  | .registerDevice request => do
      let db ← CallApi.registerDevice env request auth draw db
      pure (db, .noContent)
  | .createLinkCode request => do
      let r ← CallApi.createLinkCode env request auth draw db
      pure (r.1, .linkCode r.2)
  | .linkDevice request => do
      let r ← CallApi.linkDevice env request auth draw db
      pure (r.1, .account r.2)
  | .revokeDevice targetDeviceId request => do
      let db ← CallApi.revokeDevice targetDeviceId request auth draw db
      pure (db, .noContent)
  | .claimNickname request => do
      let r ← CallApi.claimNickname env request auth draw db
      pure (r.1, .nickname r.2)
  | .createCall request => do
      let r ← CallApi.createCall env request auth draw db
      pure (r.1, .call r.2)
  | .joinCall callId request => do
      let r ← CallApi.joinCall env callId request auth draw db
      pure (r.1, .joined r.2)
  | .declineCall callId request => do
      let r ← CallApi.declineCall env callId request auth draw db
      pure (r.1, .callStatus r.2)
  | .callStatus callId request => do
      let r ← CallApi.callStatus env callId request auth draw db
      pure (r.1, .callStatus r.2)
  | .endCall callId request => do
      let r ← CallApi.endCall env callId request auth draw db
      pure (r.1, .ended r.2.1 r.2.2)
  | .cancelCall callId request => do
      let r ← CallApi.cancelCall env callId request auth draw db
      pure (r.1, .cancelled r.2)
  | .sendDirectMessage request => do
      let r ← CallApi.sendDirectMessage env request auth draw db
      pure (r.1, .directMessage r.2)
  | .markDirectMessagesRead request => do
      let r ← CallApi.markDirectMessagesRead request auth db
      pure (r.1, .directRead r.2)
  | .createGroupChat request => do
      let r ← CallApi.createGroupChat request auth draw db
      pure (r.1, .groupChat r.2)
  | .sendGroupMessage chatId request => do
      let r ← CallApi.sendGroupMessage env chatId request auth draw db
      pure (r.1, .groupMessage r.2.1 r.2.2)
  | .markGroupChatRead chatId request => do
      let db ← CallApi.markGroupChatRead chatId request auth db
      pure (db, .noContent)
  | .query _ => .ok (db, .noContent)

end Request

/-- A request as the service receives it; `request` is what its path and body
decode to. -/
structure Incoming where
  headers : Headers
  body : Bytes
  request : Request

structure SignedRequest where
  deviceId : String
  method : String
  path : String
  timestamp : String
  nonce : String
  bodyHash : String
  deriving DecidableEq

structure Waiting where
  ticket : Ticket
  incoming : Incoming

structure Pending where
  auth : AuthenticatedDevice
  request : Request

def receive (env : Env) (incoming : Incoming) (now : Int) : Except ApiError Waiting := do
  incoming.request.precheck env
  let ticket ← authenticateBeforeLock env incoming.headers now
  pure ⟨ticket, incoming⟩

namespace Waiting

def authenticate (env : Env) (w : Waiting) (db : Db) : Except ApiError (Db × AuthenticatedDevice) :=
  authenticateUnderLock env "POST" w.incoming.request.path w.incoming.body
    w.incoming.request.bootstrap w.ticket db

def signed (env : Env) (w : Waiting) : SignedRequest where
  deviceId := w.ticket.deviceId
  method := "POST"
  path := w.incoming.request.path
  timestamp := w.ticket.timestampText
  nonce := w.ticket.nonce
  bodyHash := env.digestHex w.incoming.body

end Waiting

/-- The service with all its running handlers. Some wait for the database to
authenticate their request and some to run their body. The last two fields are
history: the requests that passed `authenticate`, and the latest clock reading
one of them purged nonces with. -/
structure Server where
  clock : Int
  db : Db
  waiting : List Waiting := []
  pending : List Pending := []
  passed : List SignedRequest := []
  purgedTo : Nat := 0

inductive Event
  | tick (seconds : Nat)
  | arrive (incoming : Incoming)
  | authenticate (i : Nat)
  | body (i : Nat) (draw : Draw)

namespace Server

def step (env : Env) (s : Server) : Event → Server
  | .tick seconds => { s with clock := s.clock + seconds }
  | .arrive incoming =>
      match receive env incoming s.clock with
      | .ok w => { s with waiting := s.waiting ++ [w] }
      | .error _ => s
  | .authenticate i =>
      match s.waiting[i]? with
      | none => s
      | some w =>
          match w.authenticate env s.db with
          | .ok (db, auth) =>
              { s with
                db := db
                waiting := s.waiting.eraseIdx i
                pending := s.pending ++ [⟨auth, w.incoming.request⟩]
                passed := s.passed ++ [w.signed env]
                purgedTo := max s.purgedTo w.ticket.now }
          | .error _ => { s with waiting := s.waiting.eraseIdx i }
  | .body i draw =>
      match s.pending[i]? with
      | none => s
      | some p =>
          match p.request.body env p.auth draw s.db with
          | .ok (db, _) => { s with db := db, pending := s.pending.eraseIdx i }
          | .error _ => { s with pending := s.pending.eraseIdx i }

/-- All that one event can do: nothing to the database, or one transaction of a
handler. -/
inductive Step (env : Env) (s : Server) : Event → Server → Prop
  | quiet {e : Event} {t : Server} (hdb : t.db = s.db) (hpending : t.pending ⊆ s.pending)
      (hpassed : t.passed = s.passed) (hpurged : t.purgedTo = s.purgedTo) : Step env s e t
  | authenticate {i : Nat} {w : Waiting} {db : Db} {auth : AuthenticatedDevice}
      (hw : s.waiting[i]? = some w) (hauth : w.authenticate env s.db = .ok (db, auth)) :
      Step env s (.authenticate i)
        { s with
          db := db
          waiting := s.waiting.eraseIdx i
          pending := s.pending ++ [⟨auth, w.incoming.request⟩]
          passed := s.passed ++ [w.signed env]
          purgedTo := max s.purgedTo w.ticket.now }
  | body {i : Nat} {draw : Draw} {p : Pending} {db : Db} {reply : Reply} (hp : s.pending[i]? = some p)
      (hbody : p.request.body env p.auth draw s.db = .ok (db, reply)) :
      Step env s (.body i draw) { s with db := db, pending := s.pending.eraseIdx i }

theorem step_spec (env : Env) (s : Server) (e : Event) : Step env s e (step env s e) := by
  have hsame : s.pending ⊆ s.pending := fun _ hq => hq
  cases e with
  | tick seconds => exact .quiet rfl hsame rfl rfl
  | arrive incoming =>
      rw [step]
      split <;> exact .quiet rfl hsame rfl rfl
  | authenticate i =>
      rw [step]
      split
      · exact .quiet rfl hsame rfl rfl
      · next w hw =>
          split
          · next hauth => exact .authenticate hw hauth
          · exact .quiet rfl hsame rfl rfl
  | body i draw =>
      rw [step]
      split
      · exact .quiet rfl hsame rfl rfl
      · next p hp =>
          split
          · next hbody => exact .body hp hbody
          · exact .quiet rfl (fun _ hq => List.mem_of_mem_eraseIdx hq) rfl rfl

end Server

/-- The simplest crates for runs on fixed requests: a text encodes its own
bytes, and a signature is the key followed by the message, with tabs for the
newlines that a header cannot hold. -/
def plainEnv : Env where
  sha256 bytes := ⟨(bytes ++ List.replicate 32 0).take 32, length_take_digest bytes⟩
  base64Decode s := some (utf8 s)
  base64Encode bytes := String.ofList (bytes.map (fun b => Char.ofNat b.toNat))
  uuidParse := some
  isSec1Key _ := true
  isDerSignature _ := true
  verify key message signature := signature == key ++ message.map (fun b => if b = 10 then 9 else b)
  serviceAccessToken := none
  livekitUrl := "wss://livekit"
  livekitApiKey := "api-key"
  apnsFallbackEnvironment := none

def plainIncoming (key deviceId timestamp nonce body : String) (request : Request) : Incoming where
  headers :=
    { authorization := none
      deviceId := some deviceId
      timestamp := some timestamp
      nonce := some nonce
      signature := some (key ++ "POST\t" ++ request.path ++ "\t" ++ timestamp ++ "\t" ++ nonce ++ "\t" ++
        plainEnv.digestHex (utf8 body)) }
  body := utf8 body
  request := request

def plainRegistration (userId deviceId key : String) : Request :=
  .registerDevice
    { userId, deviceId
      displayName := deviceId
      signingPublicKey := key
      textEncryptionPublicKey := none
      keyFingerprint := plainEnv.fingerprint (utf8 key)
      platform := "ios"
      voipPushToken := none
      alertPushToken := none
      pushEnvironment := none
      capabilities := ["audio", "webrtc"] }

def plainDraw (now : Int) (seed : UInt8) : Draw :=
  ⟨fun _ => now, now * 1000, fun _ => List.replicate 16 seed, "uuid", 0⟩

/-- A request whose handler runs to its end before anything else happens. -/
def Server.serve (key deviceId nonce body : String) (seed : UInt8) (request : Request) : List Event :=
  [.arrive (plainIncoming key deviceId "1000" nonce body request), .authenticate 0,
    .body 0 (plainDraw 1000 seed)]

def plainLinkCode (seed : UInt8) : String := "link_" ++ lowercaseHex (List.replicate 16 seed)

def plainCallId (seed : UInt8) : String := "call_" ++ lowercaseHex (List.replicate 16 seed)

end TriNet.CallApi
