import TriNet.Lib.Runs
import TriNet.Routing.EtxTable
import Mathlib.Data.Prod.Lex
import Mathlib.Logic.Relation

namespace TriNet.Routing

open Lib Lib.Runs EtxTable

structure Advert where
  sender : NodeId
  dst : NodeId
  metric : WithTop ℚ
  deriving DecidableEq

/-- The nodes of a network are those with a table; a next hop may also be some
host outside it. Adverts stay deliverable for ever once they are sent. -/
structure Network where
  tables : NodeId → Option EtxTable
  sent : List Advert

inductive Event
  | observe (node neighbor : NodeId) (weHeardThem theyHeardUs : Bool)
  | forceDead (node neighbor : NodeId)
  | advertise (node dst : NodeId)
  | deliver (node : NodeId) (index : Nat)

namespace Network

def fresh (windows : NodeId → Option Nat) : Network := ⟨fun x => (windows x).map .new, []⟩

def route (net : Network) (x dst : NodeId) : Option PathRoute := (net.tables x).bind (·.pathRoute dst)

def modify (net : Network) (x : NodeId) (f : EtxTable → EtxTable) : Network :=
  { net with tables := Function.update net.tables x ((net.tables x).map f) }

def advertisement (net : Network) (x dst : NodeId) : Option Advert :=
  (net.tables x).bind (fun t =>
    if x = dst then some ⟨x, dst, 0⟩ else (t.pathRoute dst).map (fun r => ⟨x, dst, r.pathEtx⟩))

def receive (R : Rounding) (t : EtxTable) (a : Advert) : EtxTable :=
  (t.learnRoute a.dst a.sender (t.computePathEtx R a.sender a.metric)).1

def step (R : Rounding) (net : Network) : Event → Network
  | .observe x n weHeardThem theyHeardUs => net.modify x (·.record R n weHeardThem theyHeardUs)
  | .forceDead x n => net.modify x (·.forceDead n)
  | .advertise x dst => { net with sent := net.sent ++ (net.advertisement x dst).toList }
  | .deliver x i =>
      match net.sent[i]? with
      | some a => net.modify x (receive R · a)
      | none => net

def Hop (net : Network) (dst x y : NodeId) : Prop := ∃ r, net.route x dst = some r ∧ r.nextHop = y

def Acyclic (net : Network) (dst : NodeId) : Prop := ∀ x, ¬ Relation.TransGen (net.Hop dst) x x

end Network

end TriNet.Routing
