import TriNet.Lib.Runs
import TriNet.Mesh.Session

namespace TriNet.Mesh

open Lib.BigEndian Lib.Symbolic Lib.Runs

variable {κ : Type} [DecidableEq κ]

inductive Side
  | initiator
  | responder
  deriving DecidableEq

namespace Side

def peer : Side → Side
  | initiator => responder
  | responder => initiator

def dir : Side → UInt8
  | initiator => 0
  | responder => 1

theorem peer_peer (s : Side) : s.peer.peer = s := by cases s <;> rfl

theorem peer_ne (s : Side) : s.peer ≠ s := by cases s <;> decide

theorem dir_inj {s t : Side} (h : s.dir = t.dir) : s = t := by
  cases s <;> cases t <;> first | rfl | exact absurd h (by decide)

theorem opposite_dir (s : Side) : 1 - s.dir = s.peer.dir := by cases s <;> rfl

end Side

/-- One successful seal call: the encryption it made, who made it after how
many ratchet steps and under which counter, and the frame it put on the wire. -/
structure Sealed (κ : Type) extends Encryption κ where
  side : Side
  turn : Nat
  counter : Nat
  frame : Bytes
  deriving DecidableEq

/-- Two peer sessions and what passed between them. The sessions are all the
code keeps; turns, seal calls and acceptances are the history of the run. -/
structure World (κ : Type) where
  sessions : Side → Session κ
  turns : Side → Nat
  made : List (Sealed κ)
  accepted : List (Sealed κ)

/-- Calls on the sessions, in any order. The attacker chooses the bytes that
are opened; nothing ties them to a sealed frame. -/
inductive Event
  | sealFrame (side : Side) (aad plaintext : Bytes)
  | ratchet (side : Side)
  | openFrame (side : Side) (aad frame : Bytes)

namespace World

def start (H : Hkdf κ) (shared : Bytes) : World κ where
  sessions s := .fromShared H shared (s = .initiator)
  turns _ := 0
  made := []
  accepted := []

def encryptions (w : World κ) : List (Encryption κ) := w.made.map Sealed.toEncryption

/-- The number of ratchet steps behind the key of the next seal call. -/
def nextTurn (w : World κ) (s : Side) : Nat :=
  if (w.sessions s).txCounter ≥ rekeyEveryFrames then w.turns s + 1 else w.turns s

def sealAt (H : Hkdf κ) (encrypt : κ → Bytes → Bytes → Bytes → Bytes) (w : World κ) (s : Side)
    (aad plaintext : Bytes) : World κ :=
  let (sess, result) := (w.sessions s).sealFrame H encrypt aad plaintext
  match result with
  | .error _ => { w with sessions := Function.update w.sessions s sess }
  | .ok frame =>
      let counter := sess.txCounter - 1
      { w with
        sessions := Function.update w.sessions s sess
        turns := Function.update w.turns s (w.nextTurn s)
        made := w.made ++ [{ key := sess.cipher, nonce := makeNonce sess.txDir sess.epoch counter,
                             aad, plaintext, ciphertext := frame.drop 12, side := s,
                             turn := w.nextTurn s, counter, frame }] }

def ratchetAt (H : Hkdf κ) (w : World κ) (s : Side) : World κ :=
  { w with
    sessions := Function.update w.sessions s ((w.sessions s).ratchet H)
    turns := Function.update w.turns s (w.turns s + 1) }

def opened (w : World κ) (s : Side) (aad frame : Bytes) : Session κ × Except MeshError Bytes :=
  (w.sessions s).openFrame (decrypt w.encryptions) aad frame

/-- The seal call whose ciphertext opens under the nonce of a frame. -/
def source (w : World κ) (s : Side) (aad frame : Bytes) : Option (Sealed κ) :=
  w.made.find? (fun e =>
    decide (e.Matches (w.sessions s).cipher ((w.sessions s).rxNonce frame) aad (frame.drop 12)))

def openAt (w : World κ) (s : Side) (aad frame : Bytes) : World κ :=
  let (sess, result) := w.opened s aad frame
  { w with
    sessions := Function.update w.sessions s sess
    accepted := w.accepted ++ (match result with
      | .ok _ => (w.source s aad frame).toList
      | .error _ => []) }

def step (H : Hkdf κ) (encrypt : κ → Bytes → Bytes → Bytes → Bytes) (w : World κ) : Event → World κ
  | .sealFrame s aad plaintext => w.sealAt H encrypt s aad plaintext
  | .ratchet s => w.ratchetAt H s
  | .openFrame s aad frame => w.openAt s aad frame

def madeBy (w : World κ) (s : Side) (turn : Nat) : List (Sealed κ) :=
  w.made.filter (fun e => e.side = s ∧ e.turn = turn)

end World

end TriNet.Mesh
