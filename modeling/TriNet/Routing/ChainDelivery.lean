import TriNet.Routing.HopBudget

namespace TriNet.Routing

open Lib Lib.Runs Lib.BigEndian Lib.Symbolic Mesh

variable {κ : Type}

/-- A chain of links, as the nodes it joins: `hop 0` up to the destination
`hop links`. -/
structure Chain where
  links : Nat
  hop : Nat → NodeId

namespace Chain

variable (c : Chain)

def dst : NodeId := c.hop c.links

/-- The hops a packet makes along the chain before it is delivered or dropped. -/
def reach : Nat := min c.links (defaultTtl.toNat + 1)

def outcome (payload : Bytes) : Delivery :=
  if c.links ≤ defaultTtl.toNat + 1 then .local payload else .dropped .ttlExpired

/-- The router at a position of the chain sends what is for the destination to
the next one, over a session that can still seal. -/
def Forwards (R : Rounding) (s : Plane κ) (i : Nat) : Prop :=
  (s.routers (c.hop i)).nextHop R c.dst = some (c.hop (i + 1)) ∧
    ∃ session, (s.routers (c.hop i)).links.lookup (c.hop (i + 1)) = some session ∧
      session.txCounter < rekeyHardCap

def ReceiverInStep (s : Plane κ) (t : Transmission κ) : Prop :=
  ∃ sender receiver, t.session = some sender ∧
    (s.routers t.receiver).links.lookup t.sender = some receiver ∧ LinkInStep sender receiver

/-- No frame of the packet is lost, and whenever one is handled the sessions of
its link are in step and the receiver, if a relay of the chain, forwards along
it. Everything else that happens is free. -/
def Carries (R : Rounding) (packet : Nat) (s : Plane κ) : PlaneEvent κ → Prop
  | .deliver i => ∀ t, s.inFlight[i]? = some t → t.packet = packet →
      ReceiverInStep s t ∧ ∀ j < c.links, t.receiver = c.hop j → c.Forwards R s j
  | .lose i => ∀ t, s.inFlight[i]? = some t → t.packet ≠ packet
  | _ => True

/-- The frame that has made a number of hops and is on its way to the next. -/
structure OnHop (H : Hkdf κ) (A : Aead κ) (payload : Bytes) (made : Nat) (t : Transmission κ) : Prop where
  sender : t.sender = c.hop made
  receiver : t.receiver = c.hop (made + 1)
  sealed : ∃ (hdr : Header) (session session' : Session κ) (sealed : Bytes),
    hdr.kind = .data ∧ hdr.dst = c.dst ∧ hdr.ttl.toNat + made = defaultTtl.toNat ∧
      session.txCounter < rekeyHardCap ∧
      session.sealFrame H A.encrypt hdr.toBytes payload = (session', .ok sealed) ∧
      t.session = some session' ∧ t.frame = hdr.toBytes ++ sealed

/-- Where a packet is: its one frame in flight, or the outcome. -/
structure Travels (H : Hkdf κ) (A : Aead κ) (packet : Nat) (payload : Bytes) (s : Plane κ) : Prop where
  numbered : packet < s.originated
  position :
    (s.handlingsOf packet < c.reach ∧
      ∃ t, s.flightOf packet = [t] ∧ c.OnHop H A payload (s.handlingsOf packet) t) ∨
    (s.handlingsOf packet = c.reach ∧ s.flightOf packet = [] ∧
      ⟨packet, c.hop c.reach, c.outcome payload⟩ ∈ s.handled)

variable {c : Chain} {R : Rounding} {H : Hkdf κ} {A : Aead κ} {s : Plane κ} {p q made : Nat}
  {payload : Bytes} {t : Transmission κ}

theorem Forwards.hop_ne_dst {i : Nat} (h : c.Forwards R s i) : c.hop i ≠ c.dst := by
  intro heq
  have hself : c.dst = (s.routers (c.hop i)).id := ((s.id_routers _).trans heq).symm
  have hnext := h.1
  rw [hself, MeshRouter.nextHop_self] at hnext
  cases hnext

theorem Forwards.lookup_insert {i : Nat} (h : c.Forwards R s i) {sender : NodeId} {session : Session κ}
    (hlink : (s.routers (c.hop i)).links.lookup sender = some session) (rx : ReplayWindow) :
    ∃ u, AList.lookup (c.hop (i + 1))
      ((s.routers (c.hop i)).links.insert sender { session with rx }) = some u ∧
      u.txCounter < rekeyHardCap := by
  obtain ⟨-, next, hnext, hcap⟩ := h
  by_cases hback : c.hop (i + 1) = sender
  · rw [hback] at hnext ⊢
    obtain rfl : session = next := Option.some.inj (hlink.symm.trans hnext)
    exact ⟨_, AList.lookup_insert _, hcap⟩
  · exact ⟨next, (AList.lookup_insert_ne hback).trans hnext, hcap⟩

theorem onHop_sealTo (r : MeshRouter κ) (hdr : Header) (p : Nat) (payload : Bytes) {session : Session κ}
    (hlink : r.links.lookup (c.hop (made + 1)) = some session) (hcap : session.txCounter < rekeyHardCap)
    (hkind : hdr.kind = .data) (hdst : hdr.dst = c.dst) (httl : hdr.ttl.toNat + made = defaultTtl.toNat) :
    ∃ t, Plane.transmissions (c.hop made) p (r.sealTo H A (c.hop (made + 1)) hdr payload) = [t] ∧
      c.OnHop H A payload made t ∧ t.session = some (afterSeal H session) := by
  obtain ⟨sealed, hseal, heq⟩ := MeshRouter.sealTo_of_link (H := H) (A := A) hlink hcap hdr payload
  refine ⟨⟨p, c.hop made, c.hop (made + 1), hdr.toBytes ++ sealed, some (afterSeal H session)⟩, ?_,
    ?_, rfl⟩
  · rw [heq, Plane.transmissions]
    simp
  · exact ⟨rfl, rfl, hdr, session, afterSeal H session, sealed, hkind, hdst, httl, hcap, hseal, rfl, rfl⟩

/-- The router a frame reaches is a relay that still has budget, a relay that
has none, or the destination. -/
theorem OnHop.handled (h : c.OnHop H A payload made t) (hmade : made < c.reach)
    (hstep : ReceiverInStep s t) (hrelay : ∀ j < c.links, t.receiver = c.hop j → c.Forwards R s j) :
    let o := (s.routers t.receiver).handleFrame R H A t.sender t.frame
    (made + 1 < c.reach ∧ ∃ t', Plane.transmissions t.receiver p o = [t'] ∧
      c.OnHop H A payload (made + 1) t' ∧
        ∀ session, (s.routers t.receiver).links.lookup (c.hop (made + 2)) = some session →
          c.hop (made + 2) ≠ t.sender → t'.session = some (afterSeal H session)) ∨
      (made + 1 = c.reach ∧ Plane.transmissions t.receiver p o = [] ∧ o.delivery = c.outcome payload) := by
  obtain ⟨hdr, session, session', sealed, hkind, hdst, httl, hcap, hseal, hsession, hframe⟩ := h.sealed
  obtain ⟨sender, receiver, hsender, hlink, hsync⟩ := hstep
  obtain rfl : session' = sender := Option.some.inj (hsession.symm.trans hsender)
  obtain ⟨rx, hopen⟩ := hsync.opens hcap hseal
  have hreach := lt_min_iff.mp hmade
  dsimp only
  rw [hframe, MeshRouter.handleFrame_of_opens hlink hopen, MeshRouter.forward, if_neg (by simp [hkind])]
  have hid : (s.routers t.receiver).id = c.hop (made + 1) := (s.id_routers _).trans h.receiver
  by_cases hlast : made + 1 = c.links
  · -- the destination
    have hself : hdr.dst = (s.routers t.receiver).id := by rw [hid, hdst, Chain.dst, hlast]
    rw [if_pos hself]
    refine Or.inr ⟨?_, rfl, ?_⟩
    · rw [reach, hlast, min_eq_left]
      omega
    · rw [outcome, if_pos (by omega)]
  · have hforwards := hrelay (made + 1) (by omega) h.receiver
    have hother : hdr.dst ≠ (s.routers t.receiver).id := by
      rw [hid, hdst]
      exact hforwards.hop_ne_dst.symm
    have hnext := hforwards.1
    rw [← h.receiver] at hnext
    have hmem : t.sender ∈ (s.routers t.receiver).links := by
      rw [← AList.lookup_isSome, hlink]
      rfl
    rw [if_neg hother]
    by_cases hzero : hdr.ttl = 0
    · -- a relay without budget
      have hspent : made = defaultTtl.toNat := by
        rw [hzero] at httl
        simpa using httl
      rw [if_pos hzero]
      refine Or.inr ⟨?_, rfl, ?_⟩
      · rw [reach, hspent, min_eq_right]
        omega
      · rw [outcome, if_neg (by omega)]
        rfl
    · -- a relay with budget: the sessions of its two links may be one
      have hleft := toNat_sub_one hzero
      rw [if_neg hzero, MeshRouter.nextHop_insert_link hmem, hdst, hnext]
      refine Or.inl ⟨lt_min (by omega) (by omega), ?_⟩
      rw [h.receiver] at hlink ⊢
      obtain ⟨u, hu, hucap⟩ := hforwards.lookup_insert hlink rx
      obtain ⟨t', ht', hon, hsession'⟩ := onHop_sealTo (H := H) (A := A)
        { s.routers (c.hop (made + 1)) with
          links := (s.routers (c.hop (made + 1))).links.insert t.sender { receiver with rx } }
        ⟨.data, hdr.src, c.dst, hdr.ttl - 1⟩ p payload hu hucap rfl rfl (by dsimp only; omega)
      refine ⟨t', ht', hon, ?_⟩
      intro session hsession hne
      rw [AList.lookup_insert_ne hne, hsession] at hu
      rw [hsession', Option.some.inj hu]

end Chain

namespace Plane

variable {R : Rounding} {H : Hkdf κ} {A : Aead κ} {s : Plane κ} {p q : Nat} {t : Transmission κ}

theorem flightOf_act {n : NodeId} {o : Handled κ} (h : o.router.id = (s.routers n).id) :
    (s.act n q o h).flightOf p = s.flightOf p ++ if q = p then transmissions n q o else [] := by
  have hnew : (transmissions n q o).filter (fun t => t.packet = p) =
      if q = p then transmissions n q o else [] := by
    split
    · next hq => exact List.filter_eq_self.mpr (fun t ht =>
          decide_eq_true ((mem_transmissions ht).trans hq))
    · next hq =>
        apply List.filter_eq_nil_iff.mpr
        intro t ht
        rw [mem_transmissions ht]
        simpa using hq
  rw [flightOf, flightOf, act, List.filter_append, hnew]

theorem flightOf_handle :
    (s.handle R H A t).flightOf p = s.flightOf p ++
      if t.packet = p then
        transmissions t.receiver t.packet ((s.routers t.receiver).handleFrame R H A t.sender t.frame)
      else [] :=
  flightOf_act (MeshRouter.handleFrame_id t.sender t.frame)

theorem flightOf_discard_of_ne {i : Nat} (ht : s.inFlight[i]? = some t) (hp : t.packet ≠ p) :
    (s.discard i).flightOf p = s.flightOf p := by
  obtain ⟨a, b, hs, hd⟩ := discard_split ht
  rw [flightOf, flightOf, hs, hd]
  simp [hp]

theorem flightOf_discard_of_eq {i : Nat} {u : Transmission κ} (ht : s.inFlight[i]? = some t)
    (hp : t.packet = p) (hu : s.flightOf p = [u]) : t = u ∧ (s.discard i).flightOf p = [] := by
  obtain ⟨a, b, hs, hd⟩ := discard_split ht
  have hsplit : a.filter (fun t => t.packet = p) ++ t :: b.filter (fun t => t.packet = p) = [u] := by
    rw [← hu, flightOf, hs]
    simp [hp]
  rcases List.append_eq_singleton_iff.mp hsplit with ⟨ha, hrest⟩ | ⟨_, hrest⟩
  · obtain ⟨htu, hb⟩ := List.cons.inj hrest
    rw [flightOf, hd, List.filter_append, ha, hb]
    exact ⟨htu, rfl⟩
  · cases hrest

theorem Numbered.handlingsOf_fresh (h : s.Numbered) : s.handlingsOf s.originated = 0 := by
  rw [handlingsOf, List.countP_eq_zero]
  intro x hx
  simpa using (h.handled x hx).ne

theorem handlingsOf_handle :
    (s.handle R H A t).handlingsOf p = s.handlingsOf p + if t.packet = p then 1 else 0 := by
  simp only [handlingsOf, handle, List.countP_append, List.countP_singleton, decide_eq_true_eq]

end Plane

namespace Chain

variable {c : Chain} {R : Rounding} {H : Hkdf κ} {A : Aead κ} {s s' : Plane κ} {p : Nat} {payload : Bytes}

namespace Travels

theorem keep (h : c.Travels H A p payload s) (ho : s.originated ≤ s'.originated)
    (hf : s'.flightOf p = s.flightOf p) (hn : s'.handlingsOf p = s.handlingsOf p)
    (hs : s.handled ⊆ s'.handled) : c.Travels H A p payload s' := by
  refine ⟨h.numbered.trans_le ho, ?_⟩
  rw [hf, hn]
  exact h.position.imp_right (fun ⟨hd, hnone, hout⟩ => ⟨hd, hnone, hs hout⟩)

theorem originate (h : c.Travels H A p payload s) {n : NodeId} {o : Handled κ}
    (ho : o.router.id = (s.routers n).id) : c.Travels H A p payload (s.originate n o ho) := by
  refine h.keep (Nat.le_succ _) ?_ rfl (List.Subset.refl _)
  have hact : (s.originate n o ho).flightOf p = (s.act n s.originated o ho).flightOf p := rfl
  rw [hact, Plane.flightOf_act, if_neg h.numbered.ne', List.append_nil]

theorem handle_of_ne (h : c.Travels H A p payload s) {t : Transmission κ} (ht : t.packet ≠ p) :
    c.Travels H A p payload (s.handle R H A t) := by
  refine h.keep le_rfl ?_ ?_ (List.subset_append_left ..)
  · rw [Plane.flightOf_handle, if_neg ht, List.append_nil]
  · rw [Plane.handlingsOf_handle, if_neg ht, Nat.add_zero]

theorem discard_of_ne (h : c.Travels H A p payload s) {i : Nat} {t : Transmission κ}
    (hi : s.inFlight[i]? = some t) (ht : t.packet ≠ p) : c.Travels H A p payload (s.discard i) :=
  h.keep le_rfl (Plane.flightOf_discard_of_ne hi ht) rfl (List.Subset.refl _)

theorem deliver (h : c.Travels H A p payload s) {i : Nat} {t : Transmission κ}
    (hi : s.inFlight[i]? = some t) (ht : t.packet = p) (hstep : ReceiverInStep s t)
    (hrelay : ∀ j < c.links, t.receiver = c.hop j → c.Forwards R s j) :
    c.Travels H A p payload ((s.discard i).handle R H A t) := by
  rcases h.position with ⟨hmade, u, hu, hon⟩ | ⟨_, hnone, _⟩
  · obtain ⟨rfl, hrest⟩ := Plane.flightOf_discard_of_eq hi ht hu
    refine ⟨h.numbered, ?_⟩
    have hflight : ((s.discard i).handle R H A t).flightOf p =
        Plane.transmissions t.receiver p ((s.routers t.receiver).handleFrame R H A t.sender t.frame) := by
      rw [Plane.flightOf_handle, hrest, if_pos ht, List.nil_append, ht]
      rfl
    have hcount : ((s.discard i).handle R H A t).handlingsOf p = s.handlingsOf p + 1 := by
      rw [Plane.handlingsOf_handle, if_pos ht]
      rfl
    rw [hflight, hcount]
    rcases hon.handled (p := p) hmade hstep hrelay with ⟨hmore, t', ht', hon',
      _⟩ | ⟨hlast, hsent, hdelivery⟩
    · exact Or.inl ⟨hmore, t', ht', hon'⟩
    · refine Or.inr ⟨hlast, hsent, ?_⟩
      rw [← hdelivery, ← hlast, ← hon.receiver, ← ht]
      exact List.mem_append_right _ (List.mem_singleton_self _)
  · have hmem : t ∈ s.flightOf p := List.mem_filter.mpr ⟨List.mem_of_getElem? hi, decide_eq_true ht⟩
    rw [hnone] at hmem
    cases hmem

theorem step (h : c.Travels H A p payload s) {e : PlaneEvent κ} (he : c.Carries R p s e) :
    c.Travels H A p payload (s.step R H A e) := by
  cases e with
  | table n call => exact h.keep le_rfl rfl rfl (List.Subset.refl _)
  | sendIp n dst payload => exact h.originate _
  | sendDirect n peer payload => exact h.originate _
  | deliver i =>
      unfold Plane.step
      dsimp only
      split
      · next t hi =>
          by_cases ht : t.packet = p
          · exact h.deliver hi ht (he t hi ht).1 (he t hi ht).2
          · exact (h.discard_of_ne hi ht).handle_of_ne ht
      · exact h
  | lose i =>
      cases hi : s.inFlight[i]? with
      | none => rwa [Plane.step, Plane.discard_of_none hi]
      | some t => exact h.discard_of_ne hi (he t hi)

theorem run (h : c.Travels H A p payload s) {es : List (PlaneEvent κ)}
    (hes : Along (Plane.step R H A) (c.Carries R p) s es) :
    c.Travels H A p payload (run (Plane.step R H A) s es) :=
  run_along _ (c.Carries R p) (c.Travels H A p payload) (fun _ _ hs he => hs.step he) s es h hes

end Travels

theorem Forwards.sent (h : c.Forwards R s 0) (p : Nat) (payload : Bytes) :
    ∃ t sender, Plane.transmissions (c.hop 0) p ((s.routers (c.hop 0)).sendIp R H A c.dst payload) = [t] ∧
      c.OnHop H A payload 0 t ∧ t.session = some (afterSeal H sender) ∧
      (s.routers (c.hop 0)).links.lookup (c.hop 1) = some sender := by
  obtain ⟨hnext, sender, hlink, hcap⟩ := h
  have hsend : (s.routers (c.hop 0)).sendIp R H A c.dst payload =
      (s.routers (c.hop 0)).sealTo H A (c.hop 1) ⟨.data, (s.routers (c.hop 0)).id, c.dst,
        defaultTtl⟩ payload := by
    rw [MeshRouter.sendIp, hnext]
  obtain ⟨t, ht, hon, hsession⟩ := onHop_sealTo (H := H) (A := A) (s.routers (c.hop 0))
    ⟨.data, (s.routers (c.hop 0)).id, c.dst, defaultTtl⟩ p payload hlink hcap rfl rfl rfl
  exact ⟨t, sender, hsend ▸ ht, hon, hsession, hlink⟩

theorem Forwards.travels (h : c.Forwards R s 0) (hs : s.Numbered) (payload : Bytes) :
    c.Travels H A s.originated payload (s.step R H A (.sendIp (c.hop 0) c.dst payload)) := by
  have hlinks : 0 < c.links := by
    apply Nat.pos_of_ne_zero
    intro hzero
    exact h.hop_ne_dst (congrArg c.hop hzero.symm)
  have hflight : s.flightOf s.originated = [] := by
    rw [Plane.flightOf, List.filter_eq_nil_iff]
    intro t ht
    simpa using (hs.inFlight t ht).ne
  obtain ⟨t, _, ht, hon, _, _⟩ := h.sent (H := H) (A := A) s.originated payload
  refine ⟨Nat.lt_succ_self _, Or.inl ?_⟩
  have hcount : (s.step R H A (.sendIp (c.hop 0) c.dst payload)).handlingsOf s.originated = 0 :=
    hs.handlingsOf_fresh
  have hact : (s.step R H A (.sendIp (c.hop 0) c.dst payload)).flightOf s.originated =
    (s.act (c.hop 0) s.originated ((s.routers (c.hop 0)).sendIp R H A c.dst payload)
      (MeshRouter.sendIp_id ..)).flightOf s.originated := rfl
  rw [hcount, hact, Plane.flightOf_act, hflight, if_pos rfl, List.nil_append, ht]
  exact ⟨lt_min hlinks (Nat.succ_pos _), t, rfl, hon⟩

namespace Travels

variable (h : c.Travels H A p payload s)

include h

theorem made_le : s.handlingsOf p ≤ c.reach := by
  rcases h.position with ⟨hlt, _⟩ | ⟨hall, _⟩
  · exact hlt.le
  · exact hall.le

theorem moving (hlt : s.handlingsOf p < c.reach) : ∃ t ∈ s.inFlight,
    t.packet = p ∧ t.sender = c.hop (s.handlingsOf p) ∧ t.receiver = c.hop (s.handlingsOf p + 1) := by
  rcases h.position with ⟨_, t, ht, hon⟩ | ⟨hall, _⟩
  · have hmem : t ∈ s.flightOf p := ht ▸ List.mem_singleton_self t
    obtain ⟨hflight, hp⟩ := List.mem_filter.mp hmem
    exact ⟨t, hflight, of_decide_eq_true hp, hon.sender, hon.receiver⟩
  · omega

theorem arrives (hall : s.handlingsOf p = c.reach) :
    ⟨p, c.hop c.reach, c.outcome payload⟩ ∈ s.handled := by
  rcases h.position with ⟨hlt, _⟩ | ⟨_, _, hout⟩
  · omega
  · exact hout

theorem delivered (hnear : c.links ≤ defaultTtl.toNat + 1) (hall : s.handlingsOf p = c.reach) :
    ⟨p, c.dst, .local payload⟩ ∈ s.handled := by
  have hout := h.arrives hall
  rwa [reach, min_eq_left hnear, outcome, if_pos hnear] at hout

theorem expired (hfar : defaultTtl.toNat + 1 < c.links) (hall : s.handlingsOf p = c.reach) :
    ⟨p, c.hop (defaultTtl.toNat + 1), .dropped .ttlExpired⟩ ∈ s.handled := by
  have hout := h.arrives hall
  rwa [reach, min_eq_right hfar.le, outcome, if_neg hfar.not_ge] at hout

end Travels

/-- The tables and sessions of a network serve the chain as they are. -/
structure Served (c : Chain) (R : Rounding) (H : Hkdf κ) (net : Plane κ) : Prop where
  forwards : ∀ i < c.links, c.Forwards R net i
  inStep : ∀ i < c.links, ∃ sender receiver,
    (net.routers (c.hop i)).links.lookup (c.hop (i + 1)) = some sender ∧
      (net.routers (c.hop (i + 1))).links.lookup (c.hop i) = some receiver ∧
      LinkInStep (afterSeal H sender) receiver

/-- Only the packet moves: it has made some hops, and the routers ahead of it
are as they were. -/
structure Alone (c : Chain) (H : Hkdf κ) (net : Plane κ) (p made : Nat) (s : Plane κ) : Prop where
  frame : ∃ t sender, s.inFlight = net.inFlight ++ [t] ∧ t.packet = p ∧
    t.session = some (afterSeal H sender) ∧
    (net.routers (c.hop made)).links.lookup (c.hop (made + 1)) = some sender
  ahead : ∀ i, made < i → i ≤ c.links → s.routers (c.hop i) = net.routers (c.hop i)

variable {net : Plane κ} {made : Nat}

/-- A served chain meets no node twice: it would go round for ever and never
come to the destination, which forwards nothing to itself. -/
theorem Served.hop_ne (h : c.Served R H net) {i j : Nat} (hij : i < j) (hj : j ≤ c.links) :
    c.hop i ≠ c.hop j := by
  intro heq
  have hshift (m : Nat) (hm : j + m ≤ c.links) : c.hop (i + m) = c.hop (j + m) := by
    induction m with
    | zero => exact heq
    | succ m ih =>
        have hi := (h.forwards (i + m) (by omega)).1
        have hj := (h.forwards (j + m) (by omega)).1
        rw [ih (by omega), hj] at hi
        exact (Option.some.inj hi).symm
  have hend := hshift (c.links - j) (by omega)
  apply (h.forwards (i + (c.links - j)) (by omega)).hop_ne_dst
  rw [hend, Nat.add_sub_cancel' hj, Chain.dst]

namespace Alone

variable (h : c.Alone H net p (s.handlingsOf p) s) (hnet : c.Served R H net)
  (htravels : c.Travels H A p payload s) (hless : s.handlingsOf p < c.reach)

include h htravels hless

theorem onHop : ∃ t sender, s.inFlight = net.inFlight ++ [t] ∧ t.packet = p ∧
    t.session = some (afterSeal H sender) ∧
    (net.routers (c.hop (s.handlingsOf p))).links.lookup (c.hop (s.handlingsOf p + 1)) = some sender ∧
    c.OnHop H A payload (s.handlingsOf p) t := by
  obtain ⟨t, sender, hflight, hp, hsession, hlink⟩ := h.frame
  refine ⟨t, sender, hflight, hp, hsession, hlink, ?_⟩
  rcases htravels.position with ⟨_, u, hu, hon⟩ | ⟨hall, _⟩
  · have hmem : t ∈ s.flightOf p := by
      rw [Plane.flightOf, hflight]
      simp [hp]
    rw [hu, List.mem_singleton] at hmem
    rwa [hmem]
  · omega

include hnet

theorem carries : c.Carries R p s (.deliver net.inFlight.length) := by
  obtain ⟨t, sender, hflight, _, hsession, hlink, hon⟩ := h.onHop htravels hless
  have hlinks : s.handlingsOf p < c.links := (lt_min_iff.mp hless).1
  have hrouter := h.ahead (s.handlingsOf p + 1) (Nat.lt_succ_self _) hlinks
  intro t' ht' _
  obtain rfl : t = t' := by simpa [hflight] using ht'
  constructor
  · obtain ⟨sender', receiver, hsender, hreceiver, hsync⟩ := hnet.inStep _ hlinks
    obtain rfl : sender = sender' := Option.some.inj (hlink.symm.trans hsender)
    refine ⟨_, receiver, hsession, ?_, hsync⟩
    rw [hon.receiver, hon.sender, hrouter]
    exact hreceiver
  · intro i hi hat
    rw [hon.receiver] at hat
    have hsame : i = s.handlingsOf p + 1 := by
      rcases Nat.lt_trichotomy i (s.handlingsOf p + 1) with hlt | heq | hgt
      · exact absurd hat.symm (hnet.hop_ne hlt hlinks)
      · exact heq
      · exact absurd hat (hnet.hop_ne hgt hi.le)
    rw [hsame, Forwards, hrouter]
    exact hnet.forwards _ (hsame ▸ hi)

theorem deliver : ((s.step R H A (.deliver net.inFlight.length)).handlingsOf p = s.handlingsOf p + 1) ∧
    (s.handlingsOf p + 1 < c.reach →
      c.Alone H net p (s.handlingsOf p + 1) (s.step R H A (.deliver net.inFlight.length))) := by
  obtain ⟨t, sender, hflight, hp, hsession, hlink, hon⟩ := h.onHop htravels hless
  have hget : s.inFlight[net.inFlight.length]? = some t := by simp [hflight]
  have hdiscard : (s.discard net.inFlight.length).inFlight = net.inFlight := by
    rw [Plane.discard, hflight, List.eraseIdx_append_of_length_le le_rfl, Nat.sub_self]
    exact List.append_nil _
  have hstep : s.step R H A (.deliver net.inFlight.length) =
      (s.discard net.inFlight.length).handle R H A t := by
    simp only [Plane.step, hget]
  obtain ⟨hin, hrelay⟩ := h.carries hnet htravels hless t hget hp
  refine ⟨?_, fun hmore => ?_⟩
  · rw [hstep, Plane.handlingsOf_handle, if_pos hp]
    rfl
  · have hlinks : s.handlingsOf p + 1 < c.links := (lt_min_iff.mp hmore).1
    rw [hstep]
    rcases hon.handled (p := p) hless hin hrelay with ⟨_, t', ht', _, hsession'⟩ | ⟨hall, _⟩
    · have hrouter := h.ahead (s.handlingsOf p + 1) (Nat.lt_succ_self _) hlinks.le
      obtain ⟨sender', _, hsender', _, _⟩ := hnet.inStep _ hlinks
      constructor
      · refine ⟨t', sender', ?_, ?_, ?_, hsender'⟩
        · have hnew : ((s.discard net.inFlight.length).handle R H A t).inFlight =
            (s.discard net.inFlight.length).inFlight ++ Plane.transmissions t.receiver t.packet
              ((s.routers t.receiver).handleFrame R H A t.sender t.frame) := rfl
          rw [hnew, hdiscard, hp, ht']
        · exact Plane.mem_transmissions (ht' ▸ List.mem_singleton_self t')
        · apply hsession' sender'
          · rw [hon.receiver, hrouter]
            exact hsender'
          · rw [hon.sender]
            exact (hnet.hop_ne (by omega) (by omega)).symm
      · intro i hi hlast
        rw [← h.ahead i (by omega) hlast]
        refine Function.update_of_ne ?_ _ _
        rw [hon.receiver]
        exact (hnet.hop_ne hi hlast).symm
    · omega

end Alone

theorem Served.alone (h : c.Served R H net) (hlinks : 0 < c.links) (payload : Bytes) :
    c.Alone H net net.originated 0 (net.step R H A (.sendIp (c.hop 0) c.dst payload)) := by
  obtain ⟨t, sender, ht, _, hsession, hlink⟩ :=
    (h.forwards 0 hlinks).sent (H := H) (A := A) net.originated payload
  constructor
  · refine ⟨t, sender, congrArg (net.inFlight ++ ·) ht, ?_, hsession, hlink⟩
    exact Plane.mem_transmissions (ht ▸ List.mem_singleton_self t)
  · intro i hi hlast
    exact Function.update_of_ne (h.hop_ne hi hlast).symm _ _

/-- Delivering the packet's frame as often as it has hops left brings it to
its end. -/
theorem Served.carries_all (h : c.Served R H net) (m : Nat) (htravels : c.Travels H A p payload s)
    (hm : s.handlingsOf p + m = c.reach) (halone : 0 < m → c.Alone H net p (s.handlingsOf p) s) :
    Along (Plane.step R H A) (c.Carries R p) s (List.replicate m (.deliver net.inFlight.length)) ∧
      (run (Plane.step R H A) s (List.replicate m (.deliver net.inFlight.length))).handlingsOf p =
        c.reach := by
  induction m generalizing s with
  | zero => exact ⟨trivial, hm⟩
  | succ m ih =>
      have hless : s.handlingsOf p < c.reach := by omega
      have hcarries := (halone m.succ_pos).carries h htravels hless
      obtain ⟨hcount, hnext⟩ := (halone m.succ_pos).deliver h htravels hless
      have hrest := ih (htravels.step hcarries) (by omega) (fun hpos => hcount ▸ hnext (by omega))
      exact ⟨⟨hcarries, hrest.1⟩, hrest.2⟩

end Chain

open Chain in
/-- A packet costs at most nine transmissions, whatever the tables. Along a
chain it makes one hop each time its frame is handled, up to the destination
if that is at most nine links away and up to the ninth router otherwise; and
it does arrive there in a network that is at rest. -/
theorem packet_spends_hop_budget (R : Rounding) (H : Hkdf κ) (A : Aead κ) (routers : NodeId → MeshRouter κ)
    (hid : ∀ n, (routers n).id = n) (before : List (PlaneEvent κ)) :
    let net := run (Plane.step R H A) (.start routers hid) before
    (∀ packet, net.transmissionsOf packet ≤ defaultTtl.toNat + 1) ∧
    ∀ (c : Chain) (payload : Bytes),
      let origin := net.step R H A (.sendIp (c.hop 0) c.dst payload)
      (∀ after, c.Forwards R net 0 → Along (Plane.step R H A) (c.Carries R net.originated) origin after →
        let final := run (Plane.step R H A) origin after
        let made := final.handlingsOf net.originated
        made ≤ min c.links (defaultTtl.toNat + 1) ∧
        (made < min c.links (defaultTtl.toNat + 1) → ∃ t ∈ final.inFlight,
          t.packet = net.originated ∧ t.sender = c.hop made ∧ t.receiver = c.hop (made + 1)) ∧
        (c.links ≤ defaultTtl.toNat + 1 → made = c.links →
          ⟨net.originated, c.dst, .local payload⟩ ∈ final.handled) ∧
        (defaultTtl.toNat + 1 < c.links → made = defaultTtl.toNat + 1 →
          ⟨net.originated, c.hop (defaultTtl.toNat + 1), .dropped .ttlExpired⟩ ∈ final.handled)) ∧
      (0 < c.links → c.Served R H net →
        let final := run (Plane.step R H A) origin
          (List.replicate (min c.links (defaultTtl.toNat + 1)) (.deliver net.inFlight.length))
        (c.links ≤ defaultTtl.toNat + 1 → ⟨net.originated, c.dst, .local payload⟩ ∈ final.handled) ∧
        (defaultTtl.toNat + 1 < c.links →
          ⟨net.originated, c.hop (defaultTtl.toNat + 1), .dropped .ttlExpired⟩ ∈ final.handled)) := by
  intro net
  have hnet : net.WithinBudget := (Plane.WithinBudget.start routers hid).run before
  refine ⟨hnet.transmissionsOf_le, fun c payload => ⟨?_, ?_⟩⟩
  · intro after hfirst hafter final made
    have htravels : c.Travels H A net.originated payload final :=
      (hfirst.travels hnet.numbered payload).run hafter
    refine ⟨htravels.made_le, htravels.moving, fun hnear hall => ?_, fun hfar hall => ?_⟩
    · exact htravels.delivered hnear (hall.trans (min_eq_left hnear).symm)
    · exact htravels.expired hfar (hall.trans (min_eq_right hfar.le).symm)
  · intro hlinks hserved final
    have hfirst := (hserved.forwards 0 hlinks).travels (H := H) (A := A) hnet.numbered payload
    have hzero : (net.step R H A (.sendIp (c.hop 0) c.dst payload)).handlingsOf net.originated = 0 :=
      hnet.numbered.handlingsOf_fresh
    obtain ⟨hcarries, hall⟩ := hserved.carries_all c.reach hfirst (by rw [hzero, Nat.zero_add])
      (fun _ => hzero ▸ hserved.alone hlinks payload)
    have htravels := hfirst.run hcarries
    exact ⟨fun hnear => htravels.delivered hnear hall, fun hfar => htravels.expired hfar hall⟩

/-- Nodes in a row, each with a route to `dst` over the next one. -/
def line (dst n : NodeId) : MeshRouter Term :=
  (((MeshRouter.new n 10).addLink (n - 1) (.fromShared free [1] false)).addLink (n + 1)
    (.fromShared free [1] true)).addRoute dst (n + 1)

theorem line_id (dst n : NodeId) : (line dst n).id = n := rfl

def lineChain (links : Nat) : Chain := ⟨links, UInt32.ofNat⟩

theorem line_ahead (dst : NodeId) (i : Nat) :
    (line dst (UInt32.ofNat i)).links.lookup (UInt32.ofNat (i + 1)) =
      some (.fromShared free [1] true) := by
  rw [UInt32.ofNat_add]
  exact AList.lookup_insert _

theorem line_behind (dst : NodeId) (i : Nat) :
    (line dst (UInt32.ofNat (i + 1))).links.lookup (UInt32.ofNat i) =
      some (.fromShared free [1] false) := by
  generalize hn : UInt32.ofNat i = n
  have hne : n ≠ n + 1 + 1 := by
    intro heq
    have hnat := congrArg UInt32.toNat heq
    simp only [UInt32.toNat_add, UInt32.reduceToNat] at hnat
    omega
  have hback : n + UInt32.ofNat 1 - 1 = n := UInt32.add_sub_cancel n 1
  rw [UInt32.ofNat_add, hn]
  refine (AList.lookup_insert_ne hne).trans ?_
  rw [hback]
  exact AList.lookup_insert _

theorem line_served {links : Nat} (h : ∀ i < links,
    (line (UInt32.ofNat links) (UInt32.ofNat i)).nextHop .unrounded (UInt32.ofNat links) =
      some (UInt32.ofNat (i + 1))) :
    (lineChain links).Served .unrounded free (.start (line (UInt32.ofNat links)) (line_id _)) where
  forwards i hi := ⟨h i hi, .fromShared free [1] true, line_ahead _ i, Nat.two_pow_pos 24⟩
  inStep i _ := ⟨.fromShared free [1] true, .fromShared free [1] false, line_ahead _ i,
    line_behind _ i, ⟨rfl, rfl, rfl⟩⟩

theorem packet_spends_hop_budget_line :
    (⟨0, 9, .local [7]⟩ ∈ (run (Plane.step .unrounded free (.clear Term))
      ((Plane.start (line 9) (line_id 9)).step .unrounded free (.clear Term) (.sendIp 0 9 [7]))
      (List.replicate 9 (.deliver 0))).handled) ∧
    (⟨0, 9, .dropped .ttlExpired⟩ ∈ (run (Plane.step .unrounded free (.clear Term))
      ((Plane.start (line 10) (line_id 10)).step .unrounded free (.clear Term) (.sendIp 0 10 [7]))
      (List.replicate 9 (.deliver 0))).handled) := by
  constructor
  · exact (((packet_spends_hop_budget .unrounded free (.clear Term) (line 9) (line_id 9) []).2
      (lineChain 9) [7]).2 (by decide) (line_served (by decide))).1 (by decide)
  · exact (((packet_spends_hop_budget .unrounded free (.clear Term) (line 10) (line_id 10) []).2
      (lineChain 10) [7]).2 (by decide) (line_served (by decide))).2 (by decide)

end TriNet.Routing
