import TriNet.Phone.Signaling
import Mathlib.Data.Set.Basic

namespace TriNet.Phone

open CallApi Lib Lib.BigEndian Lib.Lines

/-- What the TXT record of a device claims under its signature. -/
structure MeshDirectoryEntry where
  nickname : String
  userID : String
  deviceID : String
  port : UInt16
  textEncryptionPublicKey : String
  deriving DecidableEq

def MeshDirectoryEntry.signedPayload (P : Platform) (d : MeshDirectoryEntry) : Bytes :=
  utf8 (Lines.join ["mesh-directory-v2", P.normalize d.nickname, d.userID, d.deviceID,
    toString d.port.toNat, d.textEncryptionPublicKey])

/-- The kinds of message that are signed as joined lines. -/
inductive MeshSignedKind
  | inviteV1
  | inviteV2
  | control
  | directory
  deriving DecidableEq

def MeshSignedKind.tag : MeshSignedKind → String
  | inviteV1 => "mesh-invite-v1"
  | inviteV2 => "mesh-invite-v2"
  | control => "mesh-control-v1"
  | directory => "mesh-directory-v2"

inductive MeshSigned
  | inviteV1 (i : MeshCallInvite)
  | inviteV2 (i : MeshCallInvite)
  | control (c : MeshCallControl)
  | directory (d : MeshDirectoryEntry)

namespace MeshSigned

def payload (P : Platform) : MeshSigned → Bytes
  | inviteV1 i => i.signedPayload P
  | inviteV2 i => i.signedPayloadV2 P
  | control c => c.signedControlPayload
  | directory d => d.signedPayload P

/-- The same kind of message with the same signed fields, nicknames up to
normalisation. -/
def Same (P : Platform) : MeshSigned → MeshSigned → Prop
  | inviteV1 i, inviteV1 j =>
      i.callID = j.callID ∧ P.normalize i.nickname = P.normalize j.nickname ∧
        i.displayName = j.displayName ∧
        i.userID = j.userID ∧ i.deviceID = j.deviceID ∧ i.mediaPort = j.mediaPort ∧
        i.timestamp = j.timestamp ∧ i.nonce = j.nonce
  | inviteV2 i, inviteV2 j =>
      i.callID = j.callID ∧ P.normalize i.nickname = P.normalize j.nickname ∧
        i.displayName = j.displayName ∧
        i.userID = j.userID ∧ i.deviceID = j.deviceID ∧ i.mediaPort = j.mediaPort ∧
        i.media = j.media ∧ i.timestamp = j.timestamp ∧ i.nonce = j.nonce
  | control c, control d =>
      c.kind = d.kind ∧ c.callID = d.callID ∧ c.recipientDeviceID = d.recipientDeviceID ∧
        c.senderUserID = d.senderUserID ∧ c.senderDeviceID = d.senderDeviceID ∧
        c.timestamp = d.timestamp ∧ c.nonce = d.nonce
  | directory d, directory e =>
      P.normalize d.nickname = P.normalize e.nickname ∧ d.userID = e.userID ∧ d.deviceID = e.deviceID ∧
        d.port = e.port ∧ d.textEncryptionPublicKey = e.textEncryptionPublicKey
  | _, _ => False

def texts (P : Platform) : MeshSigned → List String
  | inviteV1 i => [i.callID, P.normalize i.nickname, i.displayName, i.userID, i.deviceID, i.nonce]
  | inviteV2 i => [i.callID, P.normalize i.nickname, i.displayName, i.userID, i.deviceID, i.nonce]
  | control c => [c.callID, c.recipientDeviceID, c.senderUserID, c.senderDeviceID, c.nonce]
  | directory d => [P.normalize d.nickname, d.userID, d.deviceID, d.textEncryptionPublicKey]

def Over (P : Platform) (alphabet : Set Char) (m : MeshSigned) : Prop :=
  ∀ s ∈ m.texts P, ∀ c ∈ s.toList, c ∈ alphabet

def kind : MeshSigned → MeshSignedKind
  | inviteV1 _ => .inviteV1
  | inviteV2 _ => .inviteV2
  | control _ => .control
  | directory _ => .directory

def audioLine (audio : Bool) : String := if audio then "audio=1" else "audio=0"

def videoLine (video : Bool) : String := if video then "video=1" else "video=0"

def fields (P : Platform) : MeshSigned → List String
  | inviteV1 i => [i.callID, P.normalize i.nickname, i.displayName, i.userID, i.deviceID,
      toString i.mediaPort.toNat, toString i.timestamp, i.nonce]
  | inviteV2 i => [i.callID, P.normalize i.nickname, i.displayName, i.userID, i.deviceID,
      toString i.mediaPort.toNat,
      audioLine i.media.audio, videoLine i.media.video, toString i.timestamp, i.nonce]
  | control c => [c.kind.rawValue, c.callID, c.recipientDeviceID, c.senderUserID, c.senderDeviceID,
      toString c.timestamp, c.nonce]
  | directory d => [P.normalize d.nickname, d.userID, d.deviceID, toString d.port.toNat,
      d.textEncryptionPublicKey]

section Binding

variable {P : Platform} {m m' : MeshSigned}

theorem payload_eq (P : Platform) (m : MeshSigned) :
    m.payload P = utf8 (Lines.join (m.kind.tag :: m.fields P)) := by
  cases m <;> rfl

theorem fields_ne_nil (P : Platform) (m : MeshSigned) : m.fields P ≠ [] := by
  cases m <;> exact List.cons_ne_nil _ _

theorem singleLine_tag (kind : MeshSignedKind) : SingleLine kind.tag := by
  cases kind <;> decide

theorem eq_of_tag {a b : MeshSignedKind} (h : a.tag = b.tag) : a = b := by
  cases a <;> cases b <;> first | exact absurd h (by decide) | rfl

theorem singleLine_natLine (n : Nat) : SingleLine (toString n) := notMem_repr rfl n

theorem singleLine_audioLine (audio : Bool) : SingleLine (audioLine audio) := by
  cases audio <;> decide

theorem singleLine_videoLine (video : Bool) : SingleLine (videoLine video) := by
  cases video <;> decide

theorem singleLine_fields (h : ∀ s ∈ m.texts P, SingleLine s) : ∀ s ∈ m.fields P, SingleLine s := by
  cases m <;>
    simp only [texts, fields, List.forall_mem_cons, singleLine_natLine, singleLine_toString,
      singleLine_rawValue, singleLine_audioLine, singleLine_videoLine, true_and] at h ⊢ <;>
    exact h

theorem eq_of_toString_port {a b : UInt16} (h : toString a.toNat = toString b.toNat) : a = b :=
  UInt16.toNat_inj.mp (eq_of_repr_eq h)

theorem eq_of_rawValue {a b : MeshCallControlKind} (h : a.rawValue = b.rawValue) : a = b := by
  cases a <;> cases b <;> first | exact absurd h (by decide) | rfl

theorem eq_of_mediaLines {a b : InternetCallMedia} (haudio : audioLine a.audio = audioLine b.audio)
    (hvideo : videoLine a.video = videoLine b.video) : a = b := by
  obtain ⟨_ | _, _ | _⟩ := a <;> obtain ⟨_ | _, _ | _⟩ := b <;>
    first | exact absurd haudio (by decide) | exact absurd hvideo (by decide) | rfl

theorem same_of_fields (hkind : m.kind = m'.kind) (hfields : m.fields P = m'.fields P) : Same P m m' := by
  cases m <;> cases m' <;> try cases hkind
  case inviteV1.inviteV1 i j =>
      simp only [fields, List.cons.injEq, and_true] at hfields
      obtain ⟨hcall, hnick, hname, huser, hdevice, hport, htime, hnonce⟩ := hfields
      exact ⟨hcall, hnick, hname, huser, hdevice, eq_of_toString_port hport,
        eq_of_toString_int_eq htime, hnonce⟩
  case inviteV2.inviteV2 i j =>
      simp only [fields, List.cons.injEq, and_true] at hfields
      obtain ⟨hcall, hnick, hname, huser, hdevice, hport, haudio, hvideo, htime, hnonce⟩ := hfields
      exact ⟨hcall, hnick, hname, huser, hdevice, eq_of_toString_port hport,
        eq_of_mediaLines haudio hvideo, eq_of_toString_int_eq htime, hnonce⟩
  case control.control c d =>
      simp only [fields, List.cons.injEq, and_true] at hfields
      obtain ⟨hkind, hcall, hrecipient, huser, hdevice, htime, hnonce⟩ := hfields
      exact ⟨eq_of_rawValue hkind, hcall, hrecipient, huser, hdevice, eq_of_toString_int_eq htime, hnonce⟩
  case directory.directory d e =>
      simp only [fields, List.cons.injEq, and_true] at hfields
      obtain ⟨hnick, huser, hdevice, hport, hkey⟩ := hfields
      exact ⟨hnick, huser, hdevice, eq_of_toString_port hport, hkey⟩

theorem length_fields (P : Platform) (h : m.kind = m'.kind) :
    (m.fields P).length = (m'.fields P).length := by
  cases m <;> cases m' <;> cases h <;> rfl

theorem same_of_payload_eq (hm : ∀ s ∈ m.texts P, SingleLine s) (h : m.payload P = m'.payload P) :
    Same P m m' := by
  rw [payload_eq, payload_eq] at h
  obtain ⟨htag, hjoin⟩ :=
    join_cons_inj (singleLine_tag _) (singleLine_tag _) (m.fields_ne_nil P) (m'.fields_ne_nil P)
    (utf8_inj h)
  have hkind := eq_of_tag htag
  exact same_of_fields hkind (join_inj (length_fields P hkind) (singleLine_fields hm) hjoin)

/-- A signed payload stands for one message exactly as long as no text may hold a
newline: a newline can move from a text into the one next to it. -/
theorem payloads_bind_iff (P : Platform) :
    (∀ alphabet : Set Char,
      (∀ m m' : MeshSigned, m.Over P alphabet → m'.Over P alphabet → m.payload P = m'.payload P →
        Same P m m') ↔ '\n' ∉ alphabet) ∧
    ∀ m m' : MeshSigned, m.Over P {c | c ≠ '\n'} → m.payload P = m'.payload P → Same P m m' := by
  have hsingle {alphabet : Set Char} {m : MeshSigned} (hline : '\n' ∉ alphabet) (hm : m.Over P alphabet) :
      ∀ s ∈ m.texts P, SingleLine s := fun s hs hc => hline (hm s hs '\n' hc)
  refine ⟨fun alphabet => ⟨?_, ?_⟩, ?_⟩
  · intro hbind hline
    have hsame := hbind (.control ⟨1, .accepted, "\n", "", "", "", "", "", 0, "", ""⟩)
      (.control ⟨1, .accepted, "", "\n", "", "", "", "", 0, "", ""⟩) (by simpa [Over, texts] using hline)
      (by simpa [Over, texts] using hline) rfl
    exact absurd hsame.2.1 (by decide)
  · intro hline m m' hm _ h
    exact same_of_payload_eq (hsingle hline hm) h
  · intro m m' hm h
    exact same_of_payload_eq (hsingle (show '\n' ∉ {c | c ≠ '\n'} from fun hc => hc rfl) hm) h

theorem payloads_bind_iff_cancelled :
    ∃ (P : Platform) (m : MeshSigned), m.Over P {c | c ≠ '\n'} ∧ ∀ m', m.payload P = m'.payload P →
      Same P m m' := by
  refine ⟨⟨plainFoundation, fun _ => none, fun _ => none⟩,
    .control ⟨1, .cancelled, "call", "device", "user", "phone", "key", "print", 1700000000,
      "nonce", "sig"⟩, ?_, ?_⟩
  · simp [Over, texts]
  · intro m' h
    exact (payloads_bind_iff _).2 _ m' (by simp [Over, texts]) h

/-- Two invites from different users with one signature: a newline of the display
name is taken for the one that ends it. -/
theorem payloads_meet :
    ∃ i j : MeshCallInvite, i.userID ≠ j.userID ∧
      ∀ P : Platform, (inviteV1 i).payload P = (inviteV1 j).payload P ∧
        ¬ Same P (.inviteV1 i) (.inviteV1 j) ∧ i.signatureIsValid P = j.signatureIsValid P := by
  refine ⟨⟨1, "call", "eve", "Eve\nmallory", "u1", "device", "key", "print", 7000, .audioVideo,
    1700000000, "nonce", "sig"⟩,
    ⟨1, "call", "eve", "Eve", "mallory\nu1", "device", "key", "print", 7000, .audioVideo,
    1700000000, "nonce", "sig"⟩, by decide, fun P => ?_⟩
  have hmoved : join ["Eve\nmallory", "u1", "device", toString (7000 : UInt16).toNat,
      toString (1700000000 : Int), "nonce"] =
      join ["Eve", "mallory\nu1", "device", toString (7000 : UInt16).toNat,
        toString (1700000000 : Int), "nonce"] := by
    decide +kernel
  have hpayload := congrArg utf8 (join_cons_congr "mesh-invite-v1" (by simp) (by simp)
    (join_cons_congr "call" (by simp) (by simp)
      (join_cons_congr (P.normalize "eve") (by simp) (by simp) hmoved)))
  refine ⟨hpayload, fun hsame => absurd hsame.2.2.1 (by decide), ?_⟩
  simp only [MeshCallInvite.signatureIsValid, MeshCallInvite.payload,
    MeshCallInvite.signedPayload, if_true, hpayload]

end Binding

end MeshSigned

end TriNet.Phone
