import TriNet.Routing.Network

namespace TriNet.Routing

open Lib Lib.Runs EtxTable

namespace Network

variable {R : Rounding} {net : Network}

theorem route_modify_self {x : NodeId} {t : EtxTable} (ht : net.tables x = some t)
    (f : EtxTable → EtxTable) (d : NodeId) : (net.modify x f).route x d = (f t).pathRoute d := by
  simp [route, modify, ht]

theorem route_modify_of_ne {x y : NodeId} (h : y ≠ x) (f : EtxTable → EtxTable) (d : NodeId) :
    (net.modify x f).route y d = net.route y d := by
  simp [route, modify, Function.update_of_ne h]

theorem isSome_modify (x y : NodeId) (f : EtxTable → EtxTable) :
    ((net.modify x f).tables y).isSome = (net.tables y).isSome := by
  by_cases h : y = x
  · subst h
    simp [modify]
  · simp [modify, Function.update_of_ne h]

/-- Order of a node's metric for a destination, ties broken by when the nodes
first had a route. -/
def rank (order : NodeId → ℕ) (x : NodeId) (r : PathRoute) : WithTop ℚ ×ₗ ℕ := toLex (r.pathEtx, order x)

/-- Whoever is used as a next hop inside the network has a route of lower rank. -/
def Descending (net : Network) (d : NodeId) (order : NodeId → ℕ) : Prop :=
  ∀ x r, net.route x d = some r → (net.tables r.nextHop).isSome →
    ∃ r', net.route r.nextHop d = some r' ∧ rank order r.nextHop r' < rank order x r

structure LoopFree (net : Network) : Prop where
  links : ∀ x t, net.tables x = some t → t.LinksBounded
  range : ∀ x d r, net.route x d = some r → InRange r.pathEtx
  sent : ∀ a ∈ net.sent, InRange a.metric ∧
    (a.sender = a.dst ∨ ∃ r, net.route a.sender a.dst = some r ∧ r.pathEtx ≤ a.metric)
  descending : ∀ d, ∃ order, net.Descending d order

theorem fresh_loopFree (windows : NodeId → Option Nat) : (fresh windows).LoopFree := by
  have hroute (x d : NodeId) : (fresh windows).route x d = none := by
    cases h : windows x <;> simp [route, fresh, h, pathRoute, EtxTable.new]
  refine ⟨?_, ?_, fun a ha => absurd ha List.not_mem_nil, fun d => ⟨fun _ => 0, ?_⟩⟩
  · intro x t ht n l hl
    obtain ⟨w, _, rfl⟩ := Option.map_eq_some_iff.mp ht
    simp [EtxTable.new] at hl
  · intro x d r hr
    simp [hroute] at hr
  · intro x r hr
    simp [hroute] at hr

theorem Descending.acyclic {d : NodeId} {order : NodeId → ℕ} (h : net.Descending d order) :
    net.Acyclic d := by
  have hdown : ∀ x y, Relation.TransGen (net.Hop d) x y → ∀ r s, net.route x d = some r →
      net.route y d = some s → rank order y s < rank order x r := by
    intro x y hxy
    have hone : ∀ x y r s, net.Hop d x y → net.route x d = some r → net.route y d = some s →
        rank order y s < rank order x r := by
      rintro x y r s ⟨r', hr', rfl⟩ hr hs
      obtain rfl : r' = r := Option.some.inj (hr'.symm.trans hr)
      have hin : (net.tables r'.nextHop).isSome := by
        cases ht : net.tables r'.nextHop <;> simp [route, ht] at hs ⊢
      obtain ⟨s', hs', hlt⟩ := h x r' hr hin
      rwa [Option.some.inj (hs'.symm.trans hs)] at hlt
    induction hxy with
    | single hhop => exact fun r s => hone _ _ r s hhop
    | tail _ hhop ih =>
        intro r s hr hs
        obtain ⟨m, hm, hmy⟩ := hhop
        exact (hone _ _ m s ⟨m, hm, hmy⟩ hm hs).trans (ih r m hr hm)
  intro x hx
  obtain ⟨y, ⟨r, hr, _⟩, _⟩ := Relation.TransGen.head'_iff.mp hx
  exact lt_irrefl _ (hdown x x hx r r hr hr)

theorem rank_lt_of_metric_lt {order : NodeId → ℕ} {x y : NodeId} {r s : PathRoute}
    (h : r.pathEtx < s.pathEtx) : rank order x r < rank order y s :=
  Prod.Lex.toLex_lt_toLex.mpr (Or.inl h)

theorem rank_update_of_ne {order : NodeId → ℕ} {x y : NodeId} (h : y ≠ x) (n : ℕ) (r : PathRoute) :
    rank (Function.update order x n) y r = rank order y r := by
  rw [rank, rank, Function.update_of_ne h]

theorem LoopFree.of_same_routes (h : net.LoopFree) {net' : Network}
    (hroute : ∀ x d, net'.route x d = net.route x d)
    (hnodes : ∀ x, (net'.tables x).isSome = (net.tables x).isSome) (hsent : net'.sent = net.sent)
    (hlinks : ∀ x t, net'.tables x = some t → t.LinksBounded) : net'.LoopFree where
  links := hlinks
  range x d r hr := h.range x d r (hroute x d ▸ hr)
  sent a ha := by
    rw [hsent] at ha
    simpa only [hroute] using h.sent a ha
  descending d := by
    obtain ⟨order, hdesc⟩ := h.descending d
    refine ⟨order, ?_⟩
    intro x r hr hin
    simp only [hroute, hnodes] at hr hin ⊢
    exact hdesc x r hr hin

section Learned

variable {net' : Network} {x n d : NodeId} {m : WithTop ℚ}

theorem Descending.improved {order : NodeId → ℕ} (h : net.Descending d order)
    (hroute : ∀ y, net'.route y d = if y = x then some ⟨n, m⟩ else net.route y d)
    (hnodes : ∀ y, (net'.tables y).isSome = (net.tables y).isSome) {old hop : PathRoute}
    (hold : net.route x d = some old) (hbetter : m < old.pathEtx) (hhop : net.route n d = some hop)
    (hlt : hop.pathEtx < m) : net'.Descending d order := by
  have hnx : n ≠ x := by
    rintro rfl
    rw [Option.some.inj (hold.symm.trans hhop)] at hbetter
    exact lt_asymm hlt hbetter
  intro y r hr hin
  rw [hnodes] at hin
  rw [hroute] at hr
  split at hr
  · next hy =>
      subst hy
      rw [← Option.some.inj hr]
      refine ⟨hop, ?_, rank_lt_of_metric_lt hlt⟩
      rw [hroute, if_neg hnx, hhop]
  · next hy =>
      obtain ⟨r', hr', hrank⟩ := h y r hr hin
      by_cases hx : r.nextHop = x
      · rw [hx] at hr' hrank ⊢
        rw [Option.some.inj (hr'.symm.trans hold)] at hrank
        exact ⟨⟨n, m⟩, by rw [hroute, if_pos rfl], (rank_lt_of_metric_lt hbetter).trans hrank⟩
      · exact ⟨r', by rw [hroute, if_neg hx, hr'], hrank⟩

/-- A first route: nobody uses the node as a next hop yet, so it can be ranked
after the node it learned from. -/
theorem Descending.first {order : NodeId → ℕ} (h : net.Descending d order)
    (hroute : ∀ y, net'.route y d = if y = x then some ⟨n, m⟩ else net.route y d)
    (hnodes : ∀ y, (net'.tables y).isSome = (net.tables y).isSome) {hop : PathRoute}
    (hnone : net.route x d = none) (hhop : net.route n d = some hop) (hlt : m ≠ ⊤ → hop.pathEtx < m) :
    net'.Descending d (Function.update order x (order n + 1)) := by
  have hnx : n ≠ x := by
    rintro rfl
    rw [hnone] at hhop
    cases hhop
  intro y r hr hin
  rw [hnodes] at hin
  rw [hroute] at hr
  split at hr
  · next hy =>
      subst hy
      rw [← Option.some.inj hr]
      refine ⟨hop, by rw [hroute, if_neg hnx, hhop], ?_⟩
      rcases lt_or_ge hop.pathEtx m with hm | hm
      · exact rank_lt_of_metric_lt hm
      · have htop : m = ⊤ := by
          by_contra hne
          exact absurd (hlt hne) (not_lt.mpr hm)
        refine Prod.Lex.toLex_lt_toLex.mpr (Or.inr ⟨?_, ?_⟩)
        · exact (top_le_iff.mp (htop ▸ hm)).trans htop.symm
        · simp [Function.update_of_ne hnx]
  · next hy =>
      obtain ⟨r', hr', hrank⟩ := h y r hr hin
      have hx : r.nextHop ≠ x := by
        intro hx
        rw [hx, hnone] at hr'
        cases hr'
      refine ⟨r', by rw [hroute, if_neg hx, hr'], ?_⟩
      rwa [rank_update_of_ne hx, rank_update_of_ne hy]

theorem LoopFree.learned (h : net.LoopFree)
    (hroute : ∀ y e, net'.route y e = if y = x ∧ e = d then some ⟨n, m⟩ else net.route y e)
    (hnodes : ∀ y, (net'.tables y).isSome = (net.tables y).isSome) (hsent : net'.sent = net.sent)
    (hlinks : ∀ y t, net'.tables y = some t → t.LinksBounded) (hrange : InRange m)
    (hbetter : ∀ r, net.route x d = some r → m < r.pathEtx ∧ m ≠ ⊤)
    {hop : PathRoute} (hhop : net.route n d = some hop) (hlt : m ≠ ⊤ → hop.pathEtx < m) :
    net'.LoopFree where
  links := hlinks
  range y e r hr := by
    rw [hroute] at hr
    split at hr
    · rw [← Option.some.inj hr]
      exact hrange
    · exact h.range y e r hr
  sent a ha := by
    rw [hsent] at ha
    obtain ⟨hin, hself | ⟨r, hr, hle⟩⟩ := h.sent a ha
    · exact ⟨hin, Or.inl hself⟩
    · refine ⟨hin, Or.inr ?_⟩
      rw [hroute]
      split
      · next heq =>
          rw [heq.1, heq.2] at hr
          exact ⟨_, rfl, (hbetter r hr).1.le.trans hle⟩
      · exact ⟨r, hr, hle⟩
  descending e := by
    obtain ⟨order, hdesc⟩ := h.descending e
    by_cases he : e = d
    · subst he
      have hroute' (y : NodeId) : net'.route y e = if y = x then some ⟨n, m⟩ else net.route y e := by
        simp [hroute]
      cases hold : net.route x e with
      | none => exact ⟨_, hdesc.first hroute' hnodes hold hhop hlt⟩
      | some old =>
          obtain ⟨hm, hne⟩ := hbetter old hold
          exact ⟨order, hdesc.improved hroute' hnodes hold hm hhop (hlt hne)⟩
    · refine ⟨order, ?_⟩
      intro y r hr hin
      simp only [hroute, he, and_false, if_false, hnodes] at hr hin ⊢
      exact hdesc y r hr hin

end Learned

theorem LoopFree.links_modify (h : net.LoopFree) (x : NodeId) {f : EtxTable → EtxTable}
    (hf : ∀ t, t.LinksBounded → (f t).LinksBounded) :
    ∀ y t, (net.modify x f).tables y = some t → t.LinksBounded := by
  intro y t ht
  by_cases hy : y = x
  · subst hy
    simp only [modify, Function.update_self] at ht
    obtain ⟨old, hold, rfl⟩ := Option.map_eq_some_iff.mp ht
    exact hf old (h.links y old hold)
  · simp only [modify, Function.update_of_ne hy] at ht
    exact h.links y t ht

theorem LoopFree.modify_links (h : net.LoopFree) (x : NodeId) {f : EtxTable → EtxTable}
    (hroute : ∀ t d, (f t).pathRoute d = t.pathRoute d)
    (hf : ∀ t, t.LinksBounded → (f t).LinksBounded) : (net.modify x f).LoopFree := by
  refine h.of_same_routes ?_ (fun y => isSome_modify x y f) rfl (h.links_modify x hf)
  intro y d
  by_cases hy : y = x
  · subst hy
    cases ht : net.tables y with
    | none => simp [route, modify, ht]
    | some t => rw [route_modify_self ht, hroute, route, ht, Option.bind_some]
  · exact route_modify_of_ne hy f d

theorem LoopFree.advertise (h : net.LoopFree) (x d : NodeId) : (net.step R (.advertise x d)).LoopFree := by
  refine ⟨h.links, h.range, ?_, h.descending⟩
  intro a ha
  rcases List.mem_append.mp ha with ha | ha
  · exact h.sent a ha
  · have hadv := Option.mem_toList.mp ha
    simp only [advertisement, Option.bind_eq_some_iff] at hadv
    obtain ⟨t, ht, hadv⟩ := hadv
    split at hadv
    · next hself =>
        rw [← Option.some.inj hadv]
        refine ⟨fun q hq => ?_, Or.inl hself⟩
        rw [← WithTop.coe_injective (hq : ((0 : ℚ) : WithTop ℚ) = q)]
        norm_num
    · obtain ⟨r, hr, rfl⟩ := Option.map_eq_some_iff.mp hadv
      have hroute : net.route x d = some r := by rw [route, ht, Option.bind_some, hr]
      exact ⟨h.range x d r hroute, Or.inr ⟨r, hroute, le_rfl⟩⟩

theorem LoopFree.deliver (h : net.LoopFree) (x : NodeId) {a : Advert} (ha : a ∈ net.sent) :
    (net.modify x (receive R · a)).LoopFree := by
  have hlinks := h.links_modify x (f := (receive R · a)) (fun t ht => by
    rcases t.learnRoute_cases a.dst a.sender (t.computePathEtx R a.sender a.metric) with heq | ⟨_,
      _, heq⟩ <;> rw [receive, heq] <;> exact ht)
  have hnodes (y : NodeId) : ((net.modify x (receive R · a)).tables y).isSome = (net.tables y).isSome :=
    isSome_modify x y _
  cases ht : net.tables x with
  | none =>
      refine h.of_same_routes (fun y d => ?_) hnodes rfl hlinks
      by_cases hy : y = x
      · subst hy
        simp [route, modify, ht]
      · exact route_modify_of_ne hy _ d
  | some t =>
      obtain ⟨hrange, hsource⟩ := h.sent a ha
      obtain ⟨hm, hlt⟩ := (h.links x t ht).computePathEtx_spec (R := R) (n := a.sender) hrange
      rcases t.learnRoute_cases a.dst a.sender (t.computePathEtx R a.sender a.metric) with
        heq | ⟨hne, hbetter, heq⟩
      · refine h.of_same_routes (fun y d => ?_) hnodes rfl hlinks
        by_cases hy : y = x
        · subst hy
          rw [route_modify_self ht, receive, heq, route, ht, Option.bind_some]
        · exact route_modify_of_ne hy _ d
      · obtain ⟨hop, hhop, hle⟩ := hsource.resolve_left (Ne.symm hne)
        refine h.learned (x := x) (d := a.dst) ?_ hnodes rfl hlinks hm ?_ hhop
          (fun hfin => hle.trans_lt (hlt hfin))
        · intro y d
          by_cases hy : y = x
          · subst hy
            rw [route_modify_self ht, receive, heq]
            by_cases hd : d = a.dst
            · subst hd
              simp [pathRoute]
            · simp [pathRoute, route, ht, hd, AList.lookup_insert_ne hd]
          · rw [route_modify_of_ne hy, if_neg (fun hc => hy hc.1)]
        · intro r hr
          rw [route, ht, Option.bind_some] at hr
          exact hbetter r hr

theorem LoopFree.step (h : net.LoopFree) (e : Event) : (net.step R e).LoopFree := by
  cases e with
  | observe x n weHeardThem theyHeardUs =>
      exact h.modify_links x (fun t d => pathRoute_record t n d _ _) (fun t ht => ht.record n _ _)
  | forceDead x n =>
      exact h.modify_links x (fun t d => pathRoute_forceDead t n d) (fun t ht => ht.forceDead n)
  | advertise x d => exact h.advertise x d
  | deliver x i =>
      cases ha : net.sent[i]? with
      | none => simpa only [Network.step, ha] using h
      | some a => simpa only [Network.step, ha] using h.deliver x (List.mem_of_getElem? ha)

theorem LoopFree.run (h : net.LoopFree) (es : List Event) : (run (Network.step R) net es).LoopFree :=
  run_invariant _ _ (fun _ e h => h.step e) _ es h

theorem LoopFree.acyclic (h : net.LoopFree) (d : NodeId) : net.Acyclic d := by
  obtain ⟨order, hdesc⟩ := h.descending d
  exact hdesc.acyclic

end Network

/-- Whatever is observed, declared dead, advertised and delivered in whatever
order, next hops never form a cycle: not from empty tables, and not from tables
loaded with routes that lead out of the network along falling metrics. -/
theorem next_hops_acyclic (R : Rounding) :
    (∀ windows es d, (run (Network.step R) (Network.fresh windows) es).Acyclic d) ∧
      ∀ net : Network, net.LoopFree → ∀ es d, (run (Network.step R) net es).Acyclic d :=
  ⟨fun windows es d => ((Network.fresh_loopFree windows).run es).acyclic d, fun _ h es d =>
    (h.run es).acyclic d⟩

/-- Node 1 reaches 9 through a host outside the network, node 2 knows no route. -/
def gateway : Network where
  tables x :=
    if x = 1 then some { EtxTable.new 1 with pathRoutes := AList.insert 9 ⟨7, (3 : ℚ)⟩ ∅ }
    else if x = 2 then some (EtxTable.new 1)
    else none
  sent := []

theorem gateway_route {x d : NodeId} {r : PathRoute} (h : gateway.route x d = some r) :
    r.nextHop = 7 ∧ r.pathEtx = (3 : ℚ) := by
  simp only [Network.route, gateway, EtxTable.pathRoute] at h
  split_ifs at h
  · by_cases hd : d = 9
    · subst hd
      rw [Option.bind_some, AList.lookup_insert] at h
      exact Option.some.inj h ▸ ⟨rfl, rfl⟩
    · rw [Option.bind_some, AList.lookup_insert_ne hd, AList.lookup_empty] at h
      cases h
  · simp [EtxTable.new] at h
  · simp at h

theorem gateway_loopFree : gateway.LoopFree where
  links x t ht n l hl := by
    simp only [gateway] at ht
    split_ifs at ht <;> simp only [Option.some.injEq] at ht <;> subst ht <;> simp [EtxTable.new] at hl
  range x d r hr q hq := by
    rw [(gateway_route hr).2] at hq
    rw [← WithTop.coe_injective hq]
    norm_num
  sent _ ha := absurd ha List.not_mem_nil
  descending d := by
    refine ⟨fun _ => 0, ?_⟩
    intro x r hr hin
    rw [(gateway_route hr).1] at hin
    exact absurd hin (by decide)

def gatewayRun : List Event := [.observe 2 1 true true, .advertise 1 9, .deliver 2 0]

theorem next_hops_acyclic_behind_gateway :
    ((run (Network.step .unrounded) gateway gatewayRun).route 2 9).map PathRoute.nextHop = some 1 ∧
      (run (Network.step .unrounded) gateway gatewayRun).Acyclic 9 ∧
      (run (Network.step .binary32) gateway gatewayRun).Acyclic 9 :=
  ⟨by decide, (next_hops_acyclic .unrounded).2 gateway gateway_loopFree gatewayRun 9,
    (next_hops_acyclic .binary32).2 gateway gateway_loopFree gatewayRun 9⟩

end TriNet.Routing
