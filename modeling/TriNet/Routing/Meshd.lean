import TriNet.Routing.Discovery
import TriNet.Routing.ForceDead

namespace TriNet.Routing

open Lib Lib.Runs Lib.BigEndian Lib.Symbolic Mesh

def Hello.authenticated (A : TagCipher) (src : NodeId) (seq : UInt32) (heard : List NodeId)
    (macKey : Option MacKey) (now : UInt64) : Hello :=
  ⟨src, seq, now, heard, computeMac A src seq now heard macKey⟩

def Hello.reportsHearing (h : Hello) (me : NodeId) : Bool := h.heard.contains me

namespace Meshd

def etxWindow : Nat := 3

def fastFailMisses : UInt32 := 2

def helloType : UInt8 := 0

/-- Where the receiving thread is: it checks the sender, has the router handle
the datagram, and only then looks at the delivery. -/
inductive Receiver
  | waiting
  | admitted (sender : NodeId) (datagram : Bytes)
  | handled (sender : NodeId) (delivery : Delivery)

/-- What a tick goes by: the peers heard since the last one, the last report of
each, and the simulated failures. -/
structure Interval where
  seen : List NodeId
  they : AList (fun _ : NodeId => Bool)
  dset : List NodeId

inductive Ticker
  | sleeping
  | taken (seen : List NodeId) (they : AList (fun _ : NodeId => Bool))
  | refreshed (interval : Interval)

def Interval.heard (i : Interval) (peer : NodeId) : Bool := i.seen.contains peer && !i.dset.contains peer

def Interval.reported (i : Interval) (peer : NodeId) : Bool :=
  (i.they.lookup peer).getD false && !i.dset.contains peer

/-- The daemon. `sent` and `intervals`, the last one first, are the history of its
run; the rest is what the process keeps. -/
structure Daemon (κ α : Type) where
  peers : List NodeId
  addrToId : α → Option NodeId
  router : MeshRouter κ
  seen : List NodeId
  theyHeard : AList (fun _ : NodeId => Bool)
  dropped : List NodeId
  misses : AList (fun _ : NodeId => UInt32)
  seq : UInt32
  receiver : Receiver
  ticker : Ticker
  sent : List (NodeId × Bytes)
  intervals : List Interval

/-- The turns of the two threads, in any order, and packets sent by others. -/
inductive Event (α : Type)
  | datagram (addr : α) (bytes : Bytes)
  | handle
  | dispatch
  | take
  | refresh (dset : List NodeId)
  | tick (now : UInt64)
  | sendIp (dst : NodeId) (payload : Bytes)

variable {κ α : Type}

abbrev Observed (κ : Type) := MeshRouter κ × AList (fun _ : NodeId => UInt32)

def observePeer (R : Rounding) (i : Interval) (s : Observed κ) (peer : NodeId) : Observed κ :=
  let router := s.1.observe R peer (i.heard peer) (i.reported peer)
  if i.heard peer then (router, s.2.insert peer 0)
  else
    let m := (s.2.lookup peer).getD 0 + 1
    (if m ≥ fastFailMisses then router.forceDead R peer else router, s.2.insert peer m)

namespace Daemon

variable (R : Rounding) (H : Hkdf κ) (A : Aead κ) (T : TagCipher)

/-- `shared peer` is the secret of this node's key with the peer's. -/
def start (me : NodeId) (peers : List NodeId) (addrToId : α → Option NodeId)
    (shared : NodeId → Bytes) : Daemon κ α where
  peers
  addrToId
  router := peers.foldl (fun r peer => r.addLink peer (.fromShared H (shared peer) (me < peer)))
    (.new me etxWindow)
  seen := []
  theyHeard := ∅
  dropped := []
  misses := ∅
  seq := 0
  receiver := .waiting
  ticker := .sleeping
  sent := []
  intervals := []

def receive (d : Daemon κ α) (addr : α) (bytes : Bytes) : Daemon κ α :=
  match d.receiver with
  | .waiting =>
      match d.addrToId addr with
      | none => d
      | some sender => if d.dropped.contains sender then d
          else { d with receiver := .admitted sender bytes }
  | _ => d

def handle (d : Daemon κ α) : Daemon κ α :=
  match d.receiver with
  | .admitted sender bytes =>
      let o := d.router.handleFrame R H A sender bytes
      { d with
        router := o.router
        sent := d.sent ++ o.sent.toList
        receiver := .handled sender o.delivery }
  | _ => d

/-- Only a beacon is noted; it counts for the last hop, whoever wrote it. -/
def dispatch (d : Daemon κ α) : Daemon κ α :=
  match d.receiver with
  | .handled sender (.local p) =>
      let d := { d with receiver := .waiting }
      if p.head? = some helloType then
        match Hello.parse (p.drop 1) with
        | some h =>
            { d with
              seen := d.seen.insert sender
              theyHeard := d.theyHeard.insert sender (h.reportsHearing d.router.id) }
        | none => d
      else d
  | .handled _ _ => { d with receiver := .waiting }
  | _ => d

def take (d : Daemon κ α) : Daemon κ α :=
  match d.ticker with
  | .sleeping => { d with seen := [], ticker := .taken d.seen d.theyHeard }
  | _ => d

def refresh (d : Daemon κ α) (dset : List NodeId) : Daemon κ α :=
  match d.ticker with
  | .taken seen they => { d with dropped := dset, ticker := .refreshed ⟨seen, they, dset⟩ }
  | _ => d

def beacon (payload : Bytes) (i : Interval) (s : MeshRouter κ × List (NodeId × Bytes))
    (peer : NodeId) : MeshRouter κ × List (NodeId × Bytes) :=
  if i.dset.contains peer then s
  else
    let o := s.1.sendDirect H A peer payload
    (o.router, s.2 ++ o.sent.toList)

def tick (d : Daemon κ α) (now : UInt64) : Daemon κ α :=
  match d.ticker with
  | .refreshed i =>
      let seq := d.seq + 1
      let (router, misses) := d.peers.foldl (observePeer R i) (d.router, d.misses)
      let hello := Hello.authenticated T router.id seq (i.seen.mergeSort (fun a b => a ≤ b)) none now
      let (router, sent) := d.peers.foldl (beacon H A (helloType :: hello.toBytes) i) (router, d.sent)
      { d with router, misses, seq, sent, ticker := .sleeping, intervals := i :: d.intervals }
  | _ => d

def sendIp (d : Daemon κ α) (dst : NodeId) (payload : Bytes) : Daemon κ α :=
  let o := d.router.sendIp R H A dst payload
  { d with router := o.router, sent := d.sent ++ o.sent.toList }

def step (d : Daemon κ α) : Event α → Daemon κ α
  | .datagram addr bytes => d.receive addr bytes
  | .handle => d.handle R H A
  | .dispatch => d.dispatch
  | .take => d.take
  | .refresh dset => d.refresh dset
  | .tick now => d.tick R H A T now
  | .sendIp dst payload => d.sendIp R H A dst payload

end Daemon

def quiet (peer : NodeId) : List Interval → Nat
  | [] => 0
  | i :: is => if i.heard peer then 0 else quiet peer is + 1

section Tables

variable {R : Rounding} {H : Hkdf κ} {A : Aead κ} {r r' : MeshRouter κ}

/-- Frames that are sent or taken in leave the tables alone. -/
structure SameTables (r r' : MeshRouter κ) : Prop where
  etx : r'.etx = r.etx
  routes : r'.routes = r.routes

theorem SameTables.refl (r : MeshRouter κ) : SameTables r r := ⟨rfl, rfl⟩

theorem sameTables_sealTo (nh : NodeId) (header : Header) (payload : Bytes) :
    SameTables r (r.sealTo H A nh header payload).router := by
  rw [MeshRouter.sealTo]
  split
  · exact .refl r
  · dsimp only
    split <;> exact ⟨rfl, rfl⟩

theorem sameTables_sendIp (dst : NodeId) (payload : Bytes) :
    SameTables r (r.sendIp R H A dst payload).router := by
  rw [MeshRouter.sendIp]
  split
  · exact .refl r
  · exact sameTables_sealTo ..

theorem sameTables_sendDirect (peer : NodeId) (payload : Bytes) :
    SameTables r (r.sendDirect H A peer payload).router := by
  rw [MeshRouter.sendDirect]
  split
  · exact .refl r
  · exact sameTables_sealTo ..

theorem sameTables_forward (sender : NodeId) (hdr : Header) (payload : Bytes) :
    SameTables r (r.forward R H A sender hdr payload).router := by
  rw [MeshRouter.forward]
  repeat' split
  all_goals first | exact .refl r | exact sameTables_sealTo ..

theorem sameTables_handleFrame (sender : NodeId) (raw : Bytes) :
    SameTables r (r.handleFrame R H A sender raw).router := by
  rw [MeshRouter.handleFrame]
  split
  · exact .refl r
  · dsimp only
    split
    · exact .refl r
    · split
      · exact ⟨rfl, rfl⟩
      · split
        · exact ⟨rfl, rfl⟩
        · exact ⟨(sameTables_forward ..).etx, (sameTables_forward ..).routes⟩

end Tables

section Tick

variable {R : Rounding} {i : Interval} {is : List Interval} {s : Observed κ} {p q : NodeId}

/-- The peer's link estimate was zeroed and has not been fed since. -/
def Killed (t : EtxTable) (p : NodeId) : Prop := ∃ l, t.links.lookup p = some l ∧ l.reverse.est = 0

/-- The count of misses is right until it kills the link; after that it may wrap
around, and the estimate stays at zero. -/
structure Follows (R : Rounding) (is : List Interval) (s : Observed κ) (p : NodeId) : Prop where
  misses : Killed s.1.etx p ∨ ((s.2.lookup p).getD 0).toNat = quiet p is ∧ quiet p is ≤ 1
  alive : ∀ i, is.head? = some i → i.heard p = true → i.reported p = true → s.1.etx.isAlive R p = true

theorem isDead_of_killed {t : EtxTable} (h : Killed t p) : t.isDead R p = true := by
  obtain ⟨l, hl, hest⟩ := h
  have heps : 1 / 8 ≤ LinkStats.deadEps R := R.le_round dyadic24_eighth (by norm_num)
  have hlow : l.reverse.est < LinkStats.deadEps R := by
    rw [hest]
    exact lt_of_lt_of_le (by norm_num) heps
  rw [EtxTable.isDead, EtxTable.etx, hl, Option.map_some, LinkStats.etx, if_pos (.inr hlow)]
  rfl

theorem Killed.record {t : EtxTable} (h : Killed t p) (theyHeardUs : Bool) :
    Killed (t.record R p false theyHeardUs) p := by
  obtain ⟨l, hl, hest⟩ := h
  refine ⟨_, by rw [EtxTable.record, AList.lookup_insert], ?_⟩
  simp [hl, DeliveryRatio.record, hest, R.exact 0 dyadic24_zero]

theorem killed_forceDead {t : EtxTable} (h : p ∈ t.links) : Killed (t.forceDead p) p := by
  obtain ⟨l, hl⟩ := Option.isSome_iff_exists.mp (AList.lookup_isSome.mpr h)
  refine ⟨l.kill, ?_, rfl⟩
  rw [EtxTable.forceDead, hl, AList.lookup_insert]

theorem lookup_forceDead_ne {t : EtxTable} (h : q ≠ p) :
    (t.forceDead p).links.lookup q = t.links.lookup q := by
  rw [EtxTable.forceDead]
  split
  · exact AList.lookup_insert_ne h
  · rfl

theorem deadEps_le_record {r : DeliveryRatio} (h : r.Bounded) :
    LinkStats.deadEps R ≤ (r.record R true).est := by
  have heps : LinkStats.deadEps R ≤ 1 / 4 := R.round_le dyadic24_quarter (by norm_num)
  have hfresh : 1 / 4 ≤ R.round (r.alpha * 1) := R.le_round dyadic24_quarter (by linarith [h.alpha.1])
  have hkeep : 0 ≤ R.round (1 - r.alpha) := R.le_round dyadic24_zero (by linarith [h.alpha.2])
  have hold : 0 ≤ R.round (R.round (1 - r.alpha) * r.est) :=
    R.le_round dyadic24_zero (mul_nonneg hkeep h.est.1)
  exact heps.trans (R.le_round dyadic24_quarter (add_le_add hfresh hold |>.trans' (by norm_num)))

theorem isAlive_record {t : EtxTable} (h : t.LinksBounded) :
    (t.record R p true true).isAlive R p = true := by
  have hold : ((t.links.lookup p).getD (.new R t.window)).Bounded := by
    cases hp : t.links.lookup p with
    | none => exact ⟨DeliveryRatio.new_bounded R t.window, DeliveryRatio.new_bounded R t.window⟩
    | some l => exact h p l hp
  rw [EtxTable.isAlive, EtxTable.etx, EtxTable.record, AList.lookup_insert, Option.map_some,
    LinkStats.etx, if_neg]
  · simp
  · exact not_or.mpr ⟨(deadEps_le_record hold.forward).not_gt, (deadEps_le_record hold.reverse).not_gt⟩

theorem forceDead_eq (r : MeshRouter κ) (p : NodeId) :
    ∃ hops, r.forceDead R p = { r with etx := r.etx.forceDead p, rankedHops := hops } :=
  (MeshRouter.forceDeadIn_eq R .stored r p).imp fun _ h => h.1

theorem Follows.observePeer (h : Follows R is s p ∨ Follows R (i :: is) s p)
    (hb : s.1.etx.LinksBounded) : Follows R (i :: is) (observePeer R i s p) p := by
  rw [Meshd.observePeer]
  dsimp only
  by_cases hheard : i.heard p = true
  · have hquiet : quiet p (i :: is) = 0 := if_pos hheard
    rw [if_pos hheard]
    refine ⟨.inr ⟨by rw [hquiet, AList.lookup_insert]; rfl, by omega⟩, fun j hj _ hreported => ?_⟩
    obtain rfl := Option.some.inj hj
    rw [hheard, hreported]
    exact isAlive_record hb
  · have hsilent : i.heard p = false := Bool.eq_false_iff.mpr hheard
    have hnext : quiet p (i :: is) = quiet p is + 1 := if_neg hheard
    obtain ⟨hops, heq⟩ := forceDead_eq (R := R) (s.1.observe R p (i.heard p) (i.reported p)) p
    have hobserved : p ∈ (s.1.observe R p (i.heard p) (i.reported p)).etx.links :=
      (AList.mem_insert _).mpr (.inl rfl)
    rw [if_neg hheard]
    refine ⟨?_, fun j hj hup _ => ?_⟩
    · dsimp only
      split
      · rw [heq]
        exact .inl (killed_forceDead hobserved)
      · next hfew =>
          -- a second miss would have killed the link, so this is the first
          rw [ge_iff_le, fastFailMisses, UInt32.le_iff_toNat_le, UInt32.toNat_add] at hfew
          have hone : (1 : UInt32).toNat = 1 := rfl
          have htwo : (2 : UInt32).toNat = 2 := rfl
          by_cases hkilled : Killed s.1.etx p
          · rw [hsilent]
            exact .inl (hkilled.record _)
          · have hcount := h.imp (·.misses.resolve_left hkilled) (·.misses.resolve_left hkilled)
            rw [AList.lookup_insert, Option.getD_some, UInt32.toNat_add]
            right
            omega
    · obtain rfl := Option.some.inj hj
      exact absurd hup hheard

theorem observePeer_frame (hb : s.1.etx.LinksBounded) :
    (observePeer R i s p).1.routes = s.1.routes ∧ (observePeer R i s p).1.etx.LinksBounded ∧
      ∀ q ≠ p, (observePeer R i s p).1.etx.links.lookup q = s.1.etx.links.lookup q ∧
        (observePeer R i s p).2.lookup q = s.2.lookup q := by
  have hrecord := hb.record (R := R) p (i.heard p) (i.reported p)
  have hother : ∀ q ≠ p, (s.1.etx.record R p (i.heard p) (i.reported p)).links.lookup q =
      s.1.etx.links.lookup q :=
    fun q hq => AList.lookup_insert_ne hq
  obtain ⟨hops, heq⟩ := forceDead_eq (R := R) (s.1.observe R p (i.heard p) (i.reported p)) p
  rw [observePeer]
  dsimp only
  split_ifs
  · exact ⟨rfl, hrecord, fun q hq => ⟨hother q hq, AList.lookup_insert_ne hq⟩⟩
  · rw [heq]
    exact ⟨rfl, hrecord.forceDead p, fun q hq => ⟨(lookup_forceDead_ne hq).trans (hother q hq),
      AList.lookup_insert_ne hq⟩⟩
  · exact ⟨rfl, hrecord, fun q hq => ⟨hother q hq, AList.lookup_insert_ne hq⟩⟩

theorem Follows.of_eq {s' : Observed κ} (h : Follows R is s p)
    (hlinks : s'.1.etx.links.lookup p = s.1.etx.links.lookup p)
    (hmisses : s'.2.lookup p = s.2.lookup p) : Follows R is s' p := by
  refine ⟨?_, ?_⟩
  · rw [hmisses, Killed, hlinks]
    exact h.misses
  · rw [EtxTable.isAlive, EtxTable.etx, hlinks]
    exact h.alive

theorem foldl_observePeer (is : List Interval) (ps : List NodeId) (hb : s.1.etx.LinksBounded) :
    let s' := ps.foldl (observePeer R i) s
    s'.1.routes = s.1.routes ∧ s'.1.etx.LinksBounded ∧
      ∀ q, Follows R (i :: is) s q ∨ Follows R is s q ∧ q ∈ ps → Follows R (i :: is) s' q := by
  induction ps generalizing s with
  | nil => exact ⟨rfl, hb, fun q h => h.resolve_right fun h => List.not_mem_nil h.2⟩
  | cons p ps ih =>
      obtain ⟨hroutes, hbounded, hother⟩ := observePeer_frame (R := R) (i := i) (p := p) hb
      obtain ⟨hroutes', hbounded', hfollows⟩ := ih hbounded
      refine ⟨hroutes'.trans hroutes, hbounded', fun q h => hfollows q ?_⟩
      by_cases hqp : q = p
      · subst hqp
        exact .inl (.observePeer (h.symm.imp_left And.left) hb)
      · obtain ⟨hlinks, hmisses⟩ := hother q hqp
        exact h.imp (·.of_eq hlinks hmisses) fun h =>
          ⟨h.1.of_eq hlinks hmisses, List.mem_of_ne_of_mem hqp h.2⟩

end Tick

section Runs

variable {R : Rounding} {H : Hkdf κ} {A : Aead κ} {T : TagCipher} {d : Daemon κ α}

structure Kept (R : Rounding) (peers : List NodeId) (d : Daemon κ α) : Prop where
  config : d.peers = peers
  routes : d.router.routes = ∅
  bounded : d.router.etx.LinksBounded
  follows : ∀ p ∈ peers, Follows R d.intervals (d.router, d.misses) p

variable {peers : List NodeId}

theorem kept_start (me : NodeId) (addrToId : α → Option NodeId) (shared : NodeId → Bytes) :
    Kept R peers (Daemon.start H me peers addrToId shared) := by
  have hlinks (r : MeshRouter κ) : SameTables r
      (peers.foldl (fun r peer => r.addLink peer (.fromShared H (shared peer) (me < peer))) r) := by
    induction peers generalizing r with
    | nil => exact .refl r
    | cons p ps ih => exact ⟨(ih _).etx, (ih _).routes⟩
  obtain ⟨hetx, hroutes⟩ := hlinks (.new me etxWindow)
  refine ⟨rfl, hroutes, ?_, fun p _ => ⟨.inr ⟨rfl, Nat.zero_le _⟩, ?_⟩⟩
  · rw [Daemon.start, hetx]
    exact fun n l hl => absurd hl (by simp [MeshRouter.new, EtxTable.new])
  · exact fun _ h => absurd h (by simp [Daemon.start])

theorem Kept.of_sameTables {d' : Daemon κ α} (h : Kept R peers d) (htables : SameTables d.router d'.router)
    (hpeers : d'.peers = d.peers) (hmisses : d'.misses = d.misses)
    (hintervals : d'.intervals = d.intervals) : Kept R peers d' := by
  refine ⟨hpeers.trans h.config, htables.routes.trans h.routes, ?_, fun p hp => ?_⟩
  · rw [htables.etx]
    exact h.bounded
  · rw [hintervals]
    exact (h.follows p hp).of_eq (by rw [htables.etx]) (by rw [hmisses])

theorem foldl_beacon (payload : Bytes) (i : Interval) (ps : List NodeId)
    (s : MeshRouter κ × List (NodeId × Bytes)) :
    SameTables s.1 (ps.foldl (Daemon.beacon H A payload i) s).1 := by
  induction ps generalizing s with
  | nil => exact .refl _
  | cons p ps ih =>
      have hbeacon : SameTables s.1 (Daemon.beacon H A payload i s p).1 := by
        rw [Daemon.beacon]
        split
        · exact .refl _
        · exact sameTables_sendDirect ..
      exact ⟨(ih _).etx.trans hbeacon.etx, (ih _).routes.trans hbeacon.routes⟩

theorem Kept.tick (h : Kept R peers d) (now : UInt64) : Kept R peers (d.tick R H A T now) := by
  rw [Daemon.tick]
  split
  · next i _ =>
      obtain ⟨hroutes, hbounded, hfollows⟩ :=
        foldl_observePeer (R := R) (i := i) (s := (d.router, d.misses)) d.intervals d.peers h.bounded
      have hobserved : Kept R peers { d with
          router := (d.peers.foldl (observePeer R i) (d.router, d.misses)).1
          misses := (d.peers.foldl (observePeer R i) (d.router, d.misses)).2
          intervals := i :: d.intervals } :=
        ⟨h.config, hroutes.trans h.routes, hbounded, fun p hp =>
          hfollows p (.inr ⟨h.follows p hp, h.config ▸ hp⟩)⟩
      dsimp only
      exact hobserved.of_sameTables (foldl_beacon _ i d.peers (_, d.sent)) rfl rfl rfl
  · exact h

theorem Kept.step (h : Kept R peers d) (e : Event α) : Kept R peers (d.step R H A T e) := by
  cases e with
  | datagram addr bytes =>
      rw [Daemon.step, Daemon.receive]
      repeat' split
      all_goals exact h.of_sameTables (.refl _) rfl rfl rfl
  | handle =>
      rw [Daemon.step, Daemon.handle]
      split
      · exact h.of_sameTables (sameTables_handleFrame ..) rfl rfl rfl
      · exact h
  | dispatch =>
      rw [Daemon.step, Daemon.dispatch]
      repeat' split
      all_goals exact h.of_sameTables (.refl _) rfl rfl rfl
  | take =>
      rw [Daemon.step, Daemon.take]
      split <;> exact h.of_sameTables (.refl _) rfl rfl rfl
  | refresh dset =>
      rw [Daemon.step, Daemon.refresh]
      split <;> exact h.of_sameTables (.refl _) rfl rfl rfl
  | tick now => exact h.tick now
  | sendIp dst payload => exact h.of_sameTables (sameTables_sendIp ..) rfl rfl rfl

theorem isAlive_of_isDead {t : EtxTable} {n : NodeId} (h : t.isDead R n = true) :
    t.isAlive R n = false := by
  rw [EtxTable.isDead] at h
  rw [EtxTable.isAlive]
  split at h
  · simpa using h
  · cases h

/-- Whatever arrives, in whatever order of the threads: no packet is handed to a
peer that was silent for two intervals, and one that was heard and hears us has a
live link. -/
theorem links_follow_beacons (me : NodeId) (peers : List NodeId) (addrToId : α → Option NodeId)
    (shared : NodeId → Bytes) (es : List (Event α)) :
    let d := run (Daemon.step R H A T) (Daemon.start H me peers addrToId shared) es
    (∀ p ∈ peers, 2 ≤ quiet p d.intervals → ∀ dst, d.router.nextHop R dst ≠ some p) ∧
      ∀ p ∈ peers, ∀ i, d.intervals.head? = some i → i.heard p = true → i.reported p = true →
        d.router.etx.isAlive R p = true := by
  intro d
  have h : Kept R peers d :=
    run_invariant _ (Kept R peers) (fun _ e h => h.step e) _ es (kept_start me addrToId shared)
  refine ⟨fun p hp hquiet dst hnext => ?_, fun p hp => (h.follows p hp).alive⟩
  have hdead : d.router.etx.isDead R p = true :=
    isDead_of_killed ((h.follows p hp).misses.resolve_right fun hfew => by omega)
  -- what does not ask for a live link is the direct one and the static routes
  obtain ⟨-, hcase⟩ := (MeshRouter.nextHop_eq_some_iff (isAlive_of_isDead hdead)).mp hnext
  split at hcase
  · next hlink =>
      rw [hcase] at hlink
      exact Bool.false_ne_true (hlink.2.symm.trans hdead)
  · rw [h.routes] at hcase
    cases hcase

/-- A node of two, at its own address, that shares an empty secret with the other. -/
def node (me peer : NodeId) : Daemon Term NodeId := .start free me [peer] some (fun _ => [])

def turns : Daemon Term NodeId → List (Event NodeId) → Daemon Term NodeId :=
  run (Daemon.step .unrounded free (.clear Term) .zeroTag)

def interval (now : UInt64) : List (Event NodeId) := [.take, .refresh [], .tick now]

def hearing (sender : NodeId) (d : Daemon Term NodeId) : List (Event NodeId) :=
  [.datagram sender ((d.sent.getLast?.map Prod.snd).getD []), .handle, .dispatch]

/-- Node 1 beacons, node 2 hears it and says so in its own beacon, which node 1 hears. -/
def meeting : List (Event NodeId) :=
  let one := turns (node 1 2) (interval 1)
  let two := turns (node 2 1) (hearing 1 one ++ interval 2)
  interval 1 ++ hearing 2 two ++ interval 3

theorem links_follow_beacons_met :
    (turns (node 1 2) meeting).router.etx.isAlive .unrounded 2 = true ∧
      (turns (node 1 2) meeting).router.nextHop .unrounded 2 = some 2 ∧
      ∀ dst, (turns (node 1 2) (meeting ++ interval 4 ++ interval 5)).router.nextHop
        .unrounded dst ≠ some 2 := by
  have hmet := (links_follow_beacons (R := .unrounded) (H := free) (A := .clear Term)
    (T := .zeroTag) 1 [2] some (fun _ => []) meeting).2 2 (List.mem_singleton_self 2)
  have hgone := (links_follow_beacons (R := .unrounded) (H := free) (A := .clear Term)
    (T := .zeroTag) 1 [2] some
    (fun _ => []) (meeting ++ interval 4 ++ interval 5)).1 2
      (List.mem_singleton_self 2) (by decide +kernel)
  have hheard : (turns (node 1 2) meeting).intervals.head?.map (fun i => i.heard 2 &&
      i.reported 2) = some true := by
    decide +kernel
  obtain ⟨i, hi, hboth⟩ := Option.map_eq_some_iff.mp hheard
  rw [Bool.and_eq_true] at hboth
  exact ⟨hmet i hi hboth.1 hboth.2, by decide +kernel, hgone⟩

end Runs

end Meshd

end TriNet.Routing
