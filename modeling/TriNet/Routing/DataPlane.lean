import TriNet.Lib.Runs
import TriNet.Routing.Router

namespace TriNet.Routing

open Lib Lib.Runs Lib.BigEndian Lib.Symbolic Mesh

variable {κ : Type}

/-- A frame on a link. `packet` numbers the call that originated it and
`session` is the sender's end of the link just after sealing; neither is on
the wire. -/
structure Transmission (κ : Type) where
  packet : Nat
  sender : NodeId
  receiver : NodeId
  frame : Bytes
  session : Option (Session κ)

structure Handling where
  packet : Nat
  node : NodeId
  delivery : Delivery
  deriving DecidableEq

/-- Every node id has a router; one outside the network is a router without
links. -/
structure Plane (κ : Type) where
  routers : NodeId → MeshRouter κ
  id_routers : ∀ n, (routers n).id = n
  originated : Nat
  sent : List (Transmission κ)
  inFlight : List (Transmission κ)
  handled : List Handling

inductive TableCall (κ : Type)
  | addLink (peer : NodeId) (session : Session κ)
  | observe (peer : NodeId) (weHeard theyHeard : Bool)
  | addRoute (dst nextHop : NodeId)
  | learnRoute (dst nextHop : NodeId) (advEtx : WithTop ℚ)
  | learnRouteForRanked (dst nextHop : NodeId) (advEtx : WithTop ℚ)
  | forceDead (peer : NodeId)

def TableCall.apply (R : Rounding) (r : MeshRouter κ) : TableCall κ → MeshRouter κ
  | addLink peer session => r.addLink peer session
  | observe peer weHeard theyHeard => r.observe R peer weHeard theyHeard
  | addRoute dst nextHop => r.addRoute dst nextHop
  | learnRoute dst nextHop advEtx => (r.learnRoute R dst nextHop advEtx).1
  | learnRouteForRanked dst nextHop advEtx => r.learnRouteForRanked R dst nextHop advEtx
  | forceDead peer => r.forceDead R peer

@[simp] theorem MeshRouter.recomputeRankedHops_id (R : Rounding) (r : MeshRouter κ) (dst : NodeId) :
    (r.recomputeRankedHops R dst).id = r.id := rfl

theorem MeshRouter.forceDead_id (R : Rounding) (r : MeshRouter κ) (peer : NodeId) :
    (r.forceDead R peer).id = r.id := by
  have hfold (dsts : List NodeId) (r : MeshRouter κ) :
      (dsts.foldl (recomputeRankedHops R) r).id = r.id := by
    induction dsts generalizing r with
    | nil => rfl
    | cons dst dsts ih => exact ih _
  exact hfold _ _

@[simp] theorem TableCall.apply_id (R : Rounding) (r : MeshRouter κ) (call : TableCall κ) :
    (call.apply R r).id = r.id := by
  cases call with
  | addLink | observe | addRoute | learnRouteForRanked => rfl
  | learnRoute dst nextHop advEtx =>
      simp only [apply, MeshRouter.learnRoute]
      split <;> rfl
  | forceDead peer => exact r.forceDead_id R peer

inductive PlaneEvent (κ : Type)
  | table (node : NodeId) (call : TableCall κ)
  | sendIp (node dst : NodeId) (payload : Bytes)
  | sendDirect (node peer : NodeId) (payload : Bytes)
  | deliver (index : Nat)
  | lose (index : Nat)

namespace Plane

def start (routers : NodeId → MeshRouter κ) (h : ∀ n, (routers n).id = n) : Plane κ :=
  ⟨routers, h, 0, [], [], []⟩

def put (s : Plane κ) (n : NodeId) (r : MeshRouter κ) (h : r.id = n) : Plane κ :=
  { s with
    routers := Function.update s.routers n r
    id_routers := by
      rw [Function.forall_update_iff s.routers (fun m x => x.id = m)]
      exact ⟨h, fun m _ => s.id_routers m⟩ }

def transmissions (n : NodeId) (packet : Nat) (o : Handled κ) : List (Transmission κ) :=
  o.sent.toList.map (fun x => ⟨packet, n, x.1, x.2, o.router.links.lookup x.1⟩)

def act (s : Plane κ) (n : NodeId) (packet : Nat) (o : Handled κ)
    (h : o.router.id = (s.routers n).id) : Plane κ :=
  { s.put n o.router (h.trans (s.id_routers n)) with
    sent := s.sent ++ transmissions n packet o
    inFlight := s.inFlight ++ transmissions n packet o }

def originate (s : Plane κ) (n : NodeId) (o : Handled κ) (h : o.router.id = (s.routers n).id) : Plane κ :=
  { s.act n s.originated o h with originated := s.originated + 1 }

def discard (s : Plane κ) (index : Nat) : Plane κ := { s with inFlight := s.inFlight.eraseIdx index }

variable (R : Rounding) (H : Hkdf κ) (A : Aead κ)

def handle (s : Plane κ) (t : Transmission κ) : Plane κ :=
  let o := (s.routers t.receiver).handleFrame R H A t.sender t.frame
  { s.act t.receiver t.packet o (MeshRouter.handleFrame_id ..) with
    handled := s.handled ++ [⟨t.packet, t.receiver, o.delivery⟩] }

/-- A frame leaves the wire when it is handled, so it is handled at most once. -/
def step (s : Plane κ) : PlaneEvent κ → Plane κ
  | .table n call => s.put n (call.apply R (s.routers n)) ((call.apply_id R _).trans (s.id_routers n))
  | .sendIp n dst payload =>
      s.originate n ((s.routers n).sendIp R H A dst payload) (MeshRouter.sendIp_id ..)
  | .sendDirect n peer payload =>
      s.originate n ((s.routers n).sendDirect H A peer payload) (MeshRouter.sendDirect_id ..)
  | .deliver i =>
      match s.inFlight[i]? with
      | some t => (s.discard i).handle R H A t
      | none => s
  | .lose i => s.discard i

def transmissionsOf (s : Plane κ) (packet : Nat) : Nat := s.sent.countP (fun t => t.packet = packet)

def flightOf (s : Plane κ) (packet : Nat) : List (Transmission κ) :=
  s.inFlight.filter (fun t => t.packet = packet)

def handlingsOf (s : Plane κ) (packet : Nat) : Nat := s.handled.countP (fun h => h.packet = packet)

end Plane

end TriNet.Routing
