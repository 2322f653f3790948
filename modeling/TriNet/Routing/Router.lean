import TriNet.Mesh.Session
import TriNet.Routing.Wire

namespace TriNet.Routing

open Lib Lib.BigEndian Lib.Symbolic Mesh

variable {κ : Type}

def defaultTtl : UInt8 := 8

inductive DropReason
  | noRoute
  | ttlExpired
  | unopened (e : MeshError)
  | sealFailed (e : MeshError)
  | srcSpoof
  deriving DecidableEq

inductive Delivery
  | «local» (payload : Bytes)
  | forwarded (nextHop : NodeId)
  | dropped (reason : DropReason)
  deriving DecidableEq

structure RankedNextHops where
  primary : Option NodeId
  backup : Option NodeId
  deriving DecidableEq

def RankedNextHops.new : RankedNextHops := ⟨none, none⟩

/-- A link is its session: what the transport takes is part of each call's
result. The order of an association list stands for the iteration order of
the source's hash map. -/
structure MeshRouter (κ : Type) where
  id : NodeId
  etx : EtxTable
  links : AList (fun _ : NodeId => Session κ)
  routes : AList (fun _ : NodeId => NodeId)
  rankedHops : AList (fun _ : NodeId => RankedNextHops)
  rankedCandidates : AList (fun _ : NodeId => List (NodeId × WithTop ℚ))

/-- What a call leaves behind: the router, its result, and the frame it put on
a link's transport, if any. -/
structure Handled (κ : Type) where
  router : MeshRouter κ
  delivery : Delivery
  sent : Option (NodeId × Bytes)

namespace EtxTable

variable (R : Rounding)

def isAlive (t : EtxTable) (n : NodeId) : Bool :=
  match t.etx R n with
  | some etx => etx ≠ ⊤
  | none => false

def isDead (t : EtxTable) (n : NodeId) : Bool :=
  match t.etx R n with
  | some etx => etx = ⊤
  | none => false

end EtxTable

namespace MeshRouter

section Tables

variable (R : Rounding)

def new (id : NodeId) (etxWindow : Nat) : MeshRouter κ := ⟨id, .new etxWindow, ∅, ∅, ∅, ∅⟩

def addLink (r : MeshRouter κ) (peer : NodeId) (session : Session κ) : MeshRouter κ :=
  { r with links := r.links.insert peer session }

def observe (r : MeshRouter κ) (peer : NodeId) (weHeard theyHeard : Bool) : MeshRouter κ :=
  { r with etx := r.etx.record R peer weHeard theyHeard }

def addRoute (r : MeshRouter κ) (dst nextHop : NodeId) : MeshRouter κ :=
  { r with routes := r.routes.insert dst nextHop }

/-- The candidate next hops of a destination: those learned for ranking, the
feasible path route unless it is one of them, and without either the live
neighbours. -/
def candidateHops (r : MeshRouter κ) (dst : NodeId) : AList (fun _ : NodeId => WithTop ℚ) :=
  let ranked := ((r.rankedCandidates.lookup dst).getD []).foldl
    (fun (byNh : AList (fun _ : NodeId => WithTop ℚ)) c => byNh.insert c.1 c.2) ∅
  let byNh :=
    match r.etx.pathRoute dst with
    | some route => if route.nextHop ∈ ranked then ranked else ranked.insert route.nextHop route.pathEtx
    | none => ranked
  if !byNh.entries.isEmpty then byNh
  else
    r.links.keys.foldl (fun byNh nextHop =>
      if nextHop = dst ∨ nextHop = r.id then byNh
      else
        match r.etx.etx R nextHop with
        | some (linkEtx : ℚ) => byNh.insert nextHop linkEtx
        | _ => byNh) byNh

def recomputeRankedHops (r : MeshRouter κ) (dst : NodeId) : MeshRouter κ :=
  let live := (r.candidateHops R dst).entries.filter (fun e => !r.etx.isDead R e.1)
  let ranked : RankedNextHops :=
    match live.mergeSort (fun a b => a.2 ≤ b.2) with
    | [] => .new
    | [primary] => ⟨some primary.1, none⟩
    | primary :: backup :: _ => ⟨some primary.1, some backup.1⟩
  { r with rankedHops := r.rankedHops.insert dst ranked }

def learnRoute (r : MeshRouter κ) (dst nextHop : NodeId) (advEtx : WithTop ℚ) : MeshRouter κ × Bool :=
  let (etx, learned) := r.etx.learnRoute dst nextHop (r.etx.computePathEtx R nextHop advEtx)
  let r := { r with etx }
  (if learned then r.recomputeRankedHops R dst else r, learned)

def learnRouteForRanked (r : MeshRouter κ) (dst nextHop : NodeId) (advEtx : WithTop ℚ) : MeshRouter κ :=
  let pathEtx := r.etx.computePathEtx R nextHop advEtx
  let candidates := (r.rankedCandidates.lookup dst).getD []
  let candidates :=
    if candidates.any (fun c => c.1 = nextHop) then
      candidates.modify (candidates.findIdx (fun c => c.1 = nextHop)) (fun c => (c.1, pathEtx))
    else candidates ++ [(nextHop, pathEtx)]
  recomputeRankedHops R { r with rankedCandidates := r.rankedCandidates.insert dst candidates } dst

def hotSwap (peer : NodeId) (ranked : RankedNextHops) : RankedNextHops :=
  if ranked.primary = some peer then ⟨ranked.backup, none⟩
  else if ranked.backup = some peer then { ranked with backup := none }
  else ranked

def forceDead (r : MeshRouter κ) (peer : NodeId) : MeshRouter κ :=
  let r := { r with etx := r.etx.forceDead peer }
  let affected :=
    (r.rankedCandidates.entries.filter (fun e => e.2.any (fun c => c.1 = peer))).map Sigma.fst
  let toUpdate := (r.rankedHops.entries.filter (fun e => e.2.primary = some peer)).map Sigma.fst
  let swapped := r.rankedHops.entries.foldl
    (fun (hops : AList (fun _ : NodeId => RankedNextHops)) e => hops.insert e.1 (hotSwap peer e.2))
    r.rankedHops
  (affected ++ toUpdate).foldl (recomputeRankedHops R) { r with rankedHops := swapped }

def rankedHopsFor (r : MeshRouter κ) (dst : NodeId) : RankedNextHops := (r.rankedHops.lookup dst).getD .new

/-- The ranked next hop: the primary while it lives, else its live backup. -/
def rankedHop (r : MeshRouter κ) (dst : NodeId) : Option NodeId :=
  match (r.rankedHopsFor dst).primary with
  | none => none
  | some primary => if r.etx.isAlive R primary then some primary
      else (r.rankedHopsFor dst).backup.filter (r.etx.isAlive R)

def nextHop (r : MeshRouter κ) (dst : NodeId) : Option NodeId :=
  if dst = r.id then none
  else if dst ∈ r.links ∧ !r.etx.isDead R dst then some dst
  else
    match r.routes.lookup dst with
    | some nh => some nh
    | none =>
        match (r.etx.pathRoute dst).filter (fun route => r.etx.isAlive R route.nextHop) with
        | some route => some route.nextHop
        | none => (r.rankedHop R dst).or ((r.etx.bestNextHop R).map Prod.fst)

end Tables

section Frames

variable (R : Rounding) (H : Hkdf κ) (A : Aead κ)

def drop (r : MeshRouter κ) (reason : DropReason) : Handled κ := ⟨r, .dropped reason, none⟩

def sealTo (r : MeshRouter κ) (nh : NodeId) (header : Header) (payload : Bytes) : Handled κ :=
  match r.links.lookup nh with
  | none => r.drop .noRoute
  | some session =>
      let (session, sealed) := session.sealFrame H A.encrypt header.toBytes payload
      let r := { r with links := r.links.insert nh session }
      match sealed with
      | .ok sealed => ⟨r, .forwarded nh, some (nh, header.toBytes ++ sealed)⟩
      | .error e => r.drop (.sealFailed e)

def sendIp (r : MeshRouter κ) (dst : NodeId) (payload : Bytes) : Handled κ :=
  match r.nextHop R dst with
  | none => r.drop .noRoute
  | some nh => r.sealTo H A nh ⟨.data, r.id, dst, defaultTtl⟩ payload

def sendDirect (r : MeshRouter κ) (peer : NodeId) (payload : Bytes) : Handled κ :=
  if peer ∉ r.links then r.drop .noRoute
  else r.sealTo H A peer ⟨.data, r.id, peer, defaultTtl⟩ payload

def forward (r : MeshRouter κ) (sender : NodeId) (hdr : Header) (payload : Bytes) : Handled κ :=
  if hdr.kind = .hello ∧ hdr.src ≠ sender then r.drop .srcSpoof
  else if hdr.dst = r.id then ⟨r, .local payload, none⟩
  else if hdr.ttl = 0 then r.drop .ttlExpired
  else
    match r.nextHop R hdr.dst with
    | none => r.drop .noRoute
    | some nh => r.sealTo H A nh ⟨.data, hdr.src, hdr.dst, hdr.ttl - 1⟩ payload

def handleFrame (r : MeshRouter κ) (sender : NodeId) (raw : Bytes) : Handled κ :=
  if raw.length < headerLen then r.drop (.unopened .shortFrame)
  else
    let hdrBytes := raw.take headerLen
    let body := raw.drop headerLen
    match r.links.lookup sender with
    | none => r.drop (.unopened .auth)
    | some session =>
        let (session, opened) := session.openFrame A.decrypt hdrBytes body
        let r := { r with links := r.links.insert sender session }
        match opened with
        | .error e => r.drop (.unopened e)
        | .ok payload =>
            match Header.parse hdrBytes with
            | none => r.drop (.unopened .auth)
            | some hdr => r.forward R H A sender hdr payload

end Frames

end MeshRouter

def afterSeal (H : Hkdf κ) (s : Session κ) : Session κ :=
  { s.rekeyed H with txCounter := (s.rekeyed H).txCounter + 1 }

/-- The receiver can open the frame its sender has just sealed: it holds the
key, faces the other way and has not seen the counter. -/
structure LinkInStep (sender receiver : Session κ) : Prop where
  key : receiver.cipher = sender.cipher
  direction : 1 - receiver.txDir = sender.txDir
  fresh : (receiver.rx.checkAndSet (sender.txCounter - 1)).2 = true

section Crypto

variable {H : Hkdf κ} {A : Aead κ} {s s' t : Session κ} {aad pt sealed : Bytes}

theorem LinkInStep.opens (h : LinkInStep s' t) (hs : s.txCounter < rekeyHardCap)
    (hseal : s.sealFrame H A.encrypt aad pt = (s', .ok sealed)) :
    ∃ rx, t.openFrame A.decrypt aad sealed = ({ t with rx }, .ok pt) := by
  rw [sealFrame_of_lt H A.encrypt s hs, Prod.mk.injEq, Except.ok.injEq] at hseal
  obtain ⟨rfl, rfl⟩ := hseal
  have hcounter := rekeyed_txCounter_lt H s
  generalize s.rekeyed H = u at h hcounter ⊢
  have hlt : u.txCounter < 256 ^ 8 := hcounter.trans (by simp [rekeyEveryFrames])
  have hepoch (rest : Bytes) : Session.frameEpoch (beBytes 4 u.epoch ++ beBytes 8 u.txCounter ++
      rest) = u.epoch % 256 ^ 4 := by
    rw [Session.frameEpoch, List.append_assoc, List.take_left' (beBytes_length 4 _), ofBe_beBytes]
  have hctr (rest : Bytes) :
      Session.frameCounter (beBytes 4 u.epoch ++ beBytes 8 u.txCounter ++ rest) = u.txCounter := by
    rw [Session.frameCounter, List.append_assoc, List.drop_left' (beBytes_length 4 _),
      List.take_left' (beBytes_length 8 _), ofBe_beBytes_of_lt hlt]
  have hnonce (rest : Bytes) : t.rxNonce (beBytes 4 u.epoch ++ beBytes 8 u.txCounter ++ rest) =
      makeNonce u.txDir u.epoch u.txCounter := by
    rw [Session.rxNonce, hepoch, hctr, h.direction, makeNonce_eq, makeNonce_eq, beBytes_mod]
  have hbody (rest : Bytes) : (beBytes 4 u.epoch ++ beBytes 8 u.txCounter ++ rest).drop 12 = rest :=
    List.drop_left' (by simp)
  have hfresh : (t.rx.checkAndSet u.txCounter).2 = true := h.fresh
  have hlen (rest : Bytes) : ¬ (beBytes 4 u.epoch ++ beBytes 8 u.txCounter ++ rest).length < 12 := by
    simp only [List.length_append, beBytes_length]
    omega
  refine ⟨(t.rx.checkAndSet u.txCounter).1, ?_⟩
  simp only [Session.openFrame, hlen, if_false, hnonce, hbody, h.key, A.decrypt_encrypt,
    hctr, hfresh, if_true]

end Crypto

namespace MeshRouter

section Specs

variable {R : Rounding} {H : Hkdf κ} {A : Aead κ} {r : MeshRouter κ}

@[simp] theorem drop_router (reason : DropReason) : (r.drop reason).router = r := rfl
@[simp] theorem drop_sent (reason : DropReason) : (r.drop reason).sent = none := rfl

@[simp] theorem sealTo_id (nh : NodeId) (header : Header) (payload : Bytes) :
    (r.sealTo H A nh header payload).router.id = r.id := by
  unfold sealTo
  split
  · rfl
  · dsimp only
    split <;> rfl

@[simp] theorem sendIp_id (dst : NodeId) (payload : Bytes) :
    (r.sendIp R H A dst payload).router.id = r.id := by
  unfold sendIp
  split
  · rfl
  · exact sealTo_id ..

@[simp] theorem sendDirect_id (peer : NodeId) (payload : Bytes) :
    (r.sendDirect H A peer payload).router.id = r.id := by
  unfold sendDirect
  split
  · rfl
  · exact sealTo_id ..

@[simp] theorem forward_id (sender : NodeId) (hdr : Header) (payload : Bytes) :
    (r.forward R H A sender hdr payload).router.id = r.id := by
  unfold forward
  split_ifs
  · rfl
  · rfl
  · rfl
  · split
    · rfl
    · exact sealTo_id ..

@[simp] theorem handleFrame_id (sender : NodeId) (raw : Bytes) :
    (r.handleFrame R H A sender raw).router.id = r.id := by
  unfold handleFrame
  split
  · rfl
  · split
    · rfl
    · dsimp only
      split
      · rfl
      · split
        · rfl
        · exact forward_id ..

@[simp] theorem nextHop_self : r.nextHop R r.id = none := if_pos rfl

theorem nextHop_insert_link {peer : NodeId} (h : peer ∈ r.links) (session : Session κ) (dst : NodeId) :
    nextHop R { r with links := r.links.insert peer session } dst = r.nextHop R dst := by
  have hmem : dst ∈ r.links.insert peer session ↔ dst ∈ r.links := by
    rw [AList.mem_insert, or_iff_right_of_imp]
    rintro rfl
    exact h
  simp only [nextHop, hmem, rankedHop, rankedHopsFor]

theorem sealTo_of_link {nh : NodeId} {s : Session κ} (hlink : r.links.lookup nh = some s)
    (hs : s.txCounter < rekeyHardCap) (header : Header) (payload : Bytes) :
    ∃ sealed, s.sealFrame H A.encrypt header.toBytes payload = (afterSeal H s, .ok sealed) ∧
      r.sealTo H A nh header payload =
        ⟨{ r with links := r.links.insert nh (afterSeal H s) }, .forwarded nh,
          some (nh, header.toBytes ++ sealed)⟩ := by
  refine ⟨_, sealFrame_of_lt H A.encrypt s hs header.toBytes payload, ?_⟩
  simp only [sealTo, hlink, sealFrame_of_lt H A.encrypt s hs, afterSeal]

theorem handleFrame_of_opens {sender : NodeId} {t t' : Session κ} {hdr : Header}
    {sealed payload : Bytes} (hlink : r.links.lookup sender = some t)
    (hopen : t.openFrame A.decrypt hdr.toBytes sealed = (t', .ok payload)) :
    r.handleFrame R H A sender (hdr.toBytes ++ sealed) =
      forward R H A { r with links := r.links.insert sender t' } sender hdr payload := by
  have hlen : ¬ (hdr.toBytes ++ sealed).length < headerLen := by simp
  have hparse : Header.parse hdr.toBytes = some hdr := by
    simpa using Header.parse_toBytes hdr []
  simp only [handleFrame, hlen, if_false, List.take_left' hdr.toBytes_length,
    List.drop_left' hdr.toBytes_length, hlink, hopen, hparse]

end Specs

end MeshRouter

end TriNet.Routing
