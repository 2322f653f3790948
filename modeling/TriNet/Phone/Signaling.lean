import TriNet.Lib.Lines
import TriNet.Lib.Reading
import TriNet.Lib.Runs
import TriNet.Phone.Foundation
import TriNet.Phone.ReplayStore
import Mathlib.Logic.Function.Basic

namespace TriNet.Phone

open CallApi Lib Lib.BigEndian Lib.Reading

structure InternetCallMedia where
  audio : Bool
  video : Bool
  deriving DecidableEq

def InternetCallMedia.audioVideo : InternetCallMedia := ⟨true, true⟩

structure MeshCallInvite where
  version : UInt8
  callID : String
  nickname : String
  displayName : String
  userID : String
  deviceID : String
  publicKey : String
  keyFingerprint : String
  mediaPort : UInt16
  media : InternetCallMedia
  timestamp : Int
  nonce : String
  signature : String
  deriving DecidableEq

inductive MeshCallControlKind
  | accepted
  | cancelled
  deriving DecidableEq

def MeshCallControlKind.rawValue : MeshCallControlKind → String
  | accepted => "accepted"
  | cancelled => "cancelled"

theorem singleLine_rawValue (kind : MeshCallControlKind) : Lines.SingleLine kind.rawValue := by
  cases kind <;> decide

structure MeshCallControl where
  version : UInt8
  kind : MeshCallControlKind
  callID : String
  recipientDeviceID : String
  senderUserID : String
  senderDeviceID : String
  publicKey : String
  keyFingerprint : String
  timestamp : Int
  nonce : String
  signature : String
  deriving DecidableEq

/-- The libraries, with the decoding of the two JSON messages. -/
structure Platform extends Foundation where
  decodeInvite : Bytes → Option MeshCallInvite
  decodeControl : Bytes → Option MeshCallControl

/-- The device itself. `keyID` names its pair of public keys and `openBox` is
the opening of a sealed box under the key derived from a header. -/
structure DeviceIdentity where
  deviceID : String
  signingPublicKey : String
  keyFingerprint : String
  keyID : Bytes
  openBox : (header box : Bytes) → Option Bytes

def signalingMediaPort : UInt16 := 7000

namespace MeshCallInvite

def signedPayload (P : Platform) (i : MeshCallInvite) : Bytes :=
  utf8 (Lines.join ["mesh-invite-v1", i.callID, P.normalize i.nickname, i.displayName, i.userID,
    i.deviceID, toString i.mediaPort.toNat, toString i.timestamp, i.nonce])

def signedPayloadV2 (P : Platform) (i : MeshCallInvite) : Bytes :=
  utf8 (Lines.join ["mesh-invite-v2", i.callID, P.normalize i.nickname, i.displayName, i.userID,
    i.deviceID, toString i.mediaPort.toNat, if i.media.audio then "audio=1" else "audio=0",
    if i.media.video then "video=1" else "video=0", toString i.timestamp, i.nonce])

/-- The payload of the version the invite claims, if it may claim it. -/
def payload (P : Platform) (i : MeshCallInvite) : Option Bytes :=
  if i.version = 1 then if i.media = .audioVideo then some (i.signedPayload P) else none
  else if i.version = 2 then if i.media.audio then some (i.signedPayloadV2 P) else none
  else none

def signatureIsValid (P : Platform) (i : MeshCallInvite) : Bool :=
  i.mediaPort = signalingMediaPort && (P.validationError i.nickname).isNone &&
    P.fingerprint i.publicKey = some i.keyFingerprint &&
    (i.payload P).any (fun payload => P.verifyMessage payload i.signature i.publicKey)

def isAcceptable (P : Platform) (me : DeviceIdentity) (now : Int) (i : MeshCallInvite) : Bool :=
  MeshCallTimestampPolicy.isFresh i.timestamp now && i.deviceID != me.deviceID && i.signatureIsValid P

end MeshCallInvite

namespace MeshCallControl

def signedControlPayload (c : MeshCallControl) : Bytes :=
  utf8 (Lines.join ["mesh-control-v1", c.kind.rawValue, c.callID, c.recipientDeviceID,
    c.senderUserID, c.senderDeviceID, toString c.timestamp, c.nonce])

def signatureIsValid (P : Platform) (c : MeshCallControl) : Bool :=
  c.version = 1 && !c.callID.isEmpty && !c.recipientDeviceID.isEmpty && !c.senderUserID.isEmpty &&
    !c.senderDeviceID.isEmpty && P.fingerprint c.publicKey = some c.keyFingerprint &&
    P.verifyMessage c.signedControlPayload c.signature c.publicKey

def isAcceptable (P : Platform) (me : DeviceIdentity) (now : Int) (c : MeshCallControl) : Bool :=
  MeshCallTimestampPolicy.isFresh c.timestamp now && c.recipientDeviceID = me.deviceID &&
    c.senderDeviceID != me.deviceID && c.signatureIsValid P

end MeshCallControl

structure TextFields where
  senderNickname : String
  senderUserID : String
  senderDeviceID : String
  senderPublicKey : String
  senderFingerprint : String
  recipientDeviceID : String
  timestamp : Int
  nonce : String
  text : String
  deriving DecidableEq

/-- A parsed plaintext, with the bytes its fields were read from and the header
they came under. -/
structure MeshText where
  header : Bytes
  fields : TextFields
  body : Bytes
  signature : Bytes
  deriving DecidableEq

namespace MeshTextEnvelope

def magic : Bytes := [0xFD, 0x13]
def version : UInt8 := 1
def maximumWireBytes : Nat := 1200
def maximumTextBytes : Nat := 768
def maximumSkewMilliseconds : Int := 60000
def keyIDLength : Nat := 16
def headerLength : Nat := 2 + 1 + 16 + 32
def signatureLengthField : Nat := 2
def signatureDomain : Bytes := utf8 "tri-net/mesh-text/v1/signature\x00"

def isFresh (timestamp now : Int) : Bool :=
  timestamp != 0 && withinWindow maximumSkewMilliseconds maximumSkewMilliseconds timestamp now

def readString : Reader String := do
  let length ← uint 2
  lift (decodeUtf8 (← take length))

def readInt64 : Reader Int := do
  let bits ← uint 8
  return if bits < 2 ^ 63 then (bits : Int) else bits - 2 ^ 64

def readFields (P : Platform) : Reader TextFields := do
  let senderNickname ← readString
  require (P.normalize senderNickname == senderNickname && (P.validationError senderNickname).isNone)
  let senderUserID ← readString
  let senderDeviceID ← readString
  let senderPublicKey ← readString
  let senderFingerprint ← readString
  let recipientDeviceID ← readString
  let timestamp ← readInt64
  let nonce ← readString
  require (uuidIsValid nonce)
  let text ← readString
  require (!text.isEmpty && (utf8 text).length ≤ maximumTextBytes)
  return { senderNickname, senderUserID, senderDeviceID, senderPublicKey, senderFingerprint,
           recipientDeviceID, timestamp, nonce, text }

def parsePlaintext (P : Platform) (header plaintext : Bytes) : Option MeshText := do
  let (fields, rest) ← readFields P plaintext
  let (signatureLength, signature) ← uint signatureLengthField rest
  if signatureLength = signature.length then
    some ⟨header, fields, plaintext.take (plaintext.length - rest.length), signature⟩
  else none

def signaturePayload (header body : Bytes) : Bytes := signatureDomain ++ header ++ body

/-- What `open` asks of a parsed text. -/
def isAcceptable (P : Platform) (me : DeviceIdentity) (now : Int) (t : MeshText) : Bool :=
  t.fields.recipientDeviceID = me.deviceID && isFresh t.fields.timestamp now &&
    P.fingerprint t.fields.senderPublicKey = some t.fields.senderFingerprint &&
    P.verifyMessage (signaturePayload t.header t.body) (Base64.encode t.signature) t.fields.senderPublicKey

def openWire (P : Platform) (me : DeviceIdentity) (wire : Bytes) (now : Int) : Option MeshText :=
  if wire.length ≤ headerLength + 28 + signatureLengthField || wire.length > maximumWireBytes then none
  else if wire.take 2 ≠ magic || wire[2]? ≠ some version then none
  else if P.fingerprint me.signingPublicKey ≠ some me.keyFingerprint then none
  else if (wire.drop 3).take keyIDLength ≠ me.keyID then none
  else do
    let header := wire.take headerLength
    let text ← (← me.openBox header (wire.drop headerLength)) |> parsePlaintext P header
    if isAcceptable P me now text then some text else none

end MeshTextEnvelope

inductive SignedMessage
  | text (t : MeshText)
  | invite (i : MeshCallInvite)
  | control (c : MeshCallControl)
  deriving DecidableEq

inductive SignedKind
  | text
  | invite
  | control
  deriving DecidableEq

inductive ReplayDomain
  | signal
  | text
  deriving DecidableEq

def SignedKind.store : SignedKind → ReplayDomain
  | text => .text
  | invite => .signal
  | control => .signal

namespace ReplayDomain

def reading : ReplayDomain → Nat → Int
  | text, clock => clock
  | signal, clock => (clock / 1000 : Nat)

def maximumSkew : ReplayDomain → Int
  | text => MeshTextEnvelope.maximumSkewMilliseconds
  | signal => max MeshCallTimestampPolicy.maxPastAge MeshCallTimestampPolicy.maxFutureSkew

end ReplayDomain

namespace SignedMessage

def kind : SignedMessage → SignedKind
  | text _ => .text
  | invite _ => .invite
  | control _ => .control

def store (m : SignedMessage) : ReplayDomain := m.kind.store

def domain : SignedMessage → String
  | text _ => "text"
  | invite _ => "invite"
  | control c => "control:" ++ c.kind.rawValue

def fingerprint : SignedMessage → String
  | text t => t.fields.senderFingerprint
  | invite i => i.keyFingerprint
  | control c => c.keyFingerprint

def nonce : SignedMessage → String
  | text t => t.fields.nonce
  | invite i => i.nonce
  | control c => c.nonce

def timestamp : SignedMessage → Int
  | text t => t.fields.timestamp
  | invite i => i.timestamp
  | control c => c.timestamp

/-- The key a message was signed with and the bytes that were signed. -/
def signed (P : Platform) : SignedMessage → String × Option Bytes
  | text t => (t.fields.senderPublicKey, some (MeshTextEnvelope.signaturePayload t.header t.body))
  | invite i => (i.publicKey, i.payload P)
  | control c => (c.publicKey, some c.signedControlPayload)

def entry (m : SignedMessage) : MeshReplayEntry := ⟨replayID m.domain m.fingerprint m.nonce, m.timestamp⟩

/-- The replay window of a message is over by the clock of its store. -/
def expired (m : SignedMessage) (clock : Nat) : Bool :=
  m.entry.expired m.store.maximumSkew (m.store.reading clock)

/-- What a datagram is taken for, and whether that is acceptable now. -/
def check (P : Platform) (me : DeviceIdentity) (data : Bytes) (now : Int) :
    SignedKind → Option SignedMessage
  | .text => if data.take 2 = MeshTextEnvelope.magic then
      (MeshTextEnvelope.openWire P me data now).map text else none
  | .invite => ((P.decodeInvite data).filter (MeshCallInvite.isAcceptable P me now)).map invite
  | .control => ((P.decodeControl data).filter (MeshCallControl.isAcceptable P me now)).map control

end SignedMessage

/-- Where a receiver is with its datagram: it tries the kinds in turn; for a
message that passed the checks it first reads the clock and then asks the
replay store. -/
inductive ReceiveStage
  | tries (kind : SignedKind)
  | checked (m : SignedMessage)
  | stamped (m : SignedMessage) (now : Int)
  deriving DecidableEq

/-- What a receiver goes on with when a datagram is not accepted as one kind. -/
def SignedKind.next : SignedKind → Option ReceiveStage
  | text => some (.tries .invite)
  | invite => some (.tries .control)
  | control => none

/-- `clock` is in milliseconds; `callbacks` is what `onText`, `onInvite` and
`onControl` were given. -/
structure Signaling (ι : Type) where
  clock : Nat
  stores : ReplayDomain → MeshReplayStore
  receivers : ι → Option (Bytes × ReceiveStage)
  callbacks : List SignedMessage

inductive SignalEvent (ι : Type)
  | tick (milliseconds : Nat)
  | arrive (i : ι) (data : Bytes)
  | advance (i : ι)
  | restart

namespace Signaling

variable {ι : Type} [DecidableEq ι]

def start (clock : Nat) (stores : ReplayDomain → MeshReplayStore) : Signaling ι :=
  ⟨clock, stores, fun _ => none, []⟩

def put (s : Signaling ι) (i : ι) (data : Bytes) (stage : Option ReceiveStage) : Signaling ι :=
  { s with receivers := Function.update s.receivers i (stage.map (data, ·)) }

def withStore (s : Signaling ι) (d : ReplayDomain) (store : MeshReplayStore) : Signaling ι :=
  { s with stores := Function.update s.stores d store }

def callback (s : Signaling ι) (m : SignedMessage) : Signaling ι :=
  { s with callbacks := s.callbacks ++ [m] }

def decide (s : Signaling ι) (i : ι) (data : Bytes) (m : SignedMessage) (now : Int) : Signaling ι :=
  match (s.stores m.store).accept m.domain m.fingerprint m.nonce m.timestamp now m.store.maximumSkew with
  | (store, true) => ((s.withStore m.store store).put i data none).callback m
  | (store, false) => (s.withStore m.store store).put i data m.kind.next

def advance (P : Platform) (me : DeviceIdentity) (s : Signaling ι) (i : ι) (data : Bytes) :
    ReceiveStage → Signaling ι
  | .tries kind =>
      match SignedMessage.check P me data (kind.store.reading s.clock) kind with
      | some m => s.put i data (some (.checked m))
      | none => s.put i data kind.next
  | .checked m => s.put i data (some (.stamped m (m.store.reading s.clock)))
  | .stamped m now => s.decide i data m now

def step (P : Platform) (me : DeviceIdentity) (s : Signaling ι) : SignalEvent ι → Signaling ι
  | .tick milliseconds => { s with clock := s.clock + milliseconds }
  | .arrive i data =>
      match s.receivers i with
      | none => s.put i data (some (.tries .text))
      | some _ => s
  | .advance i =>
      match s.receivers i with
      | none => s
      | some (data, stage) => s.advance P me i data stage
  | .restart => { s with stores := fun d => (s.stores d).reload, receivers := fun _ => none }

end Signaling

end TriNet.Phone
