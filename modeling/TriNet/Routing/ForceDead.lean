import TriNet.Lib.Ranking
import TriNet.Routing.DataPlane

namespace TriNet.Routing

open Lib Lib.Runs Lib.Ranking Lib.Symbolic Mesh

variable {κ : Type}

abbrev Candidate := Sigma (fun _ : NodeId => WithTop ℚ)

/-- The order in which a call meets the candidates of each destination. The
source collects them in a hash map, so any order is possible, and the sort that
follows keeps it among equal metrics. -/
structure IterationOrder where
  arrange : NodeId → List Candidate → List Candidate
  perm : ∀ dst l, (arrange dst l).Perm l

def IterationOrder.stored : IterationOrder := ⟨fun _ l => l, fun _ l => .refl l⟩

def topTwo (ranked : List Candidate) : RankedNextHops :=
  match ranked with
  | [] => .new
  | [primary] => ⟨some primary.1, none⟩
  | primary :: backup :: _ => ⟨some primary.1, some backup.1⟩

namespace MeshRouter

variable (R : Rounding)

def liveHops (r : MeshRouter κ) (dst : NodeId) : List Candidate :=
  (r.candidateHops R dst).entries.filter (fun e => !r.etx.isDead R e.1)

def rank (o : IterationOrder) (r : MeshRouter κ) (dst : NodeId) : RankedNextHops :=
  topTwo ((o.arrange dst (r.liveHops R dst)).mergeSort (fun a b => a.2 ≤ b.2))

def recomputeIn (o : IterationOrder) (r : MeshRouter κ) (dst : NodeId) : MeshRouter κ :=
  { r with rankedHops := r.rankedHops.insert dst (r.rank R o dst) }

def learnRouteIn (o : IterationOrder) (r : MeshRouter κ) (dst nextHop : NodeId)
    (advEtx : WithTop ℚ) : MeshRouter κ :=
  let (etx, learned) := r.etx.learnRoute dst nextHop (r.etx.computePathEtx R nextHop advEtx)
  let r := { r with etx }
  if learned then r.recomputeIn R o dst else r

/-- The candidates of a destination once a hop has been learned for ranking. -/
def withCandidate (candidates : List (NodeId × WithTop ℚ)) (nextHop : NodeId)
    (pathEtx : WithTop ℚ) : List (NodeId × WithTop ℚ) :=
  if candidates.any (fun c => c.1 = nextHop) then
    candidates.modify (candidates.findIdx (fun c => c.1 = nextHop)) (fun c => (c.1, pathEtx))
  else candidates ++ [(nextHop, pathEtx)]

def learnRouteForRankedIn (o : IterationOrder) (r : MeshRouter κ) (dst nextHop : NodeId)
    (advEtx : WithTop ℚ) : MeshRouter κ :=
  let candidates := withCandidate ((r.rankedCandidates.lookup dst).getD []) nextHop
    (r.etx.computePathEtx R nextHop advEtx)
  recomputeIn R o { r with rankedCandidates := r.rankedCandidates.insert dst candidates } dst

def affected (r : MeshRouter κ) (peer : NodeId) : List NodeId :=
  (r.rankedCandidates.entries.filter (fun e => e.2.any (fun c => c.1 = peer))).map Sigma.fst

def toUpdate (r : MeshRouter κ) (peer : NodeId) : List NodeId :=
  (r.rankedHops.entries.filter (fun e => e.2.primary = some peer)).map Sigma.fst

def swapped (r : MeshRouter κ) (peer : NodeId) : AList (fun _ : NodeId => RankedNextHops) :=
  r.rankedHops.entries.foldl
    (fun (hops : AList (fun _ : NodeId => RankedNextHops)) e => hops.insert e.1 (hotSwap peer e.2))
    r.rankedHops

def forceDeadIn (o : IterationOrder) (r : MeshRouter κ) (peer : NodeId) : MeshRouter κ :=
  let r := { r with etx := r.etx.forceDead peer }
  (r.affected peer ++ r.toUpdate peer).foldl (recomputeIn R o) { r with rankedHops := r.swapped peer }

end MeshRouter

def TableCall.applyIn (R : Rounding) (o : IterationOrder) (r : MeshRouter κ) : TableCall κ → MeshRouter κ
  | addLink peer session => r.addLink peer session
  | observe peer weHeard theyHeard => r.observe R peer weHeard theyHeard
  | addRoute dst nextHop => r.addRoute dst nextHop
  | learnRoute dst nextHop advEtx => r.learnRouteIn R o dst nextHop advEtx
  | learnRouteForRanked dst nextHop advEtx => r.learnRouteForRankedIn R o dst nextHop advEtx
  | forceDead peer => r.forceDeadIn R o peer

theorem TableCall.applyIn_stored (R : Rounding) (r : MeshRouter κ) (call : TableCall κ) :
    call.applyIn R .stored r = call.apply R r := by
  cases call <;> rfl

theorem mem_foldl_insert {γ δ : Type} (value : γ → δ) (l : List γ) (key : γ → NodeId)
    (m : AList (fun _ : NodeId => δ)) (n : NodeId) :
    n ∈ l.foldl (fun (m : AList (fun _ : NodeId => δ)) c => m.insert (key c) (value c)) m ↔
      (∃ c ∈ l, key c = n) ∨ n ∈ m := by
  induction l generalizing m with
  | nil => simp
  | cons c l ih =>
      rw [List.foldl_cons, ih, AList.mem_insert]
      simp only [List.mem_cons, exists_eq_or_imp, eq_comm (a := n), or_assoc]
      exact or_left_comm

theorem lookup_foldl_insert {γ δ : Type} (value : γ → δ) (l : List γ) (key : γ → NodeId)
    {m : AList (fun _ : NodeId => δ)} {n : NodeId} {v : δ}
    (h : (l.foldl (fun (m : AList (fun _ : NodeId => δ)) c => m.insert (key c) (value c)) m).lookup
      n = some v) :
    (∃ c ∈ l, key c = n ∧ value c = v) ∨ m.lookup n = some v := by
  induction l generalizing m with
  | nil => exact .inr h
  | cons c l ih =>
      rcases ih h with ⟨c', hc', heq⟩ | hinsert
      · exact .inl ⟨c', List.mem_cons_of_mem c hc', heq⟩
      · by_cases hn : n = key c
        · subst hn
          rw [AList.lookup_insert] at hinsert
          exact .inl ⟨c, List.mem_cons_self, rfl, Option.some.inj hinsert⟩
        · rw [AList.lookup_insert_ne hn] at hinsert
          exact .inr hinsert

theorem lookup_foldl_map {δ : Type} (f : δ → δ) {l : List (Sigma (fun _ : NodeId => δ))}
    (hl : l.NodupKeys) (m : AList (fun _ : NodeId => δ)) (n : NodeId) :
    (l.foldl (fun (m : AList (fun _ : NodeId => δ)) e => m.insert e.1 (f e.2)) m).lookup n =
      ((l.dlookup n).map f).or (m.lookup n) := by
  induction l generalizing m with
  | nil => simp
  | cons e l ih =>
      obtain ⟨k, v⟩ := e
      obtain ⟨hk, hl⟩ := List.nodupKeys_cons.mp hl
      rw [List.foldl_cons, ih hl]
      by_cases hn : n = k
      · subst hn
        rw [List.dlookup_eq_none.mpr hk, List.dlookup_cons_eq, AList.lookup_insert]
        rfl
      · rw [List.dlookup_cons_ne _ _ hn, AList.lookup_insert_ne hn]

namespace EtxTable

variable {R : Rounding} {t : EtxTable} {n p : NodeId}

theorem etx_eq_none : t.etx R n = none ↔ n ∉ t.links := by
  rw [etx, Option.map_eq_none_iff, AList.lookup_eq_none]

theorem etx_kill (l : LinkStats) : l.kill.etx R = ⊤ := by
  have heps : 1 / 8 ≤ LinkStats.deadEps R := R.le_round dyadic24_eighth (by norm_num)
  have hdead : (0 : ℚ) < LinkStats.deadEps R := lt_of_lt_of_le (by norm_num) heps
  exact if_pos (.inl hdead)

theorem mem_links_forceDead : n ∈ (t.forceDead p).links ↔ n ∈ t.links := by
  rw [forceDead]
  cases hp : t.links.lookup p with
  | none => rfl
  | some link =>
      rw [AList.mem_insert, or_iff_right_of_imp]
      rintro rfl
      exact AList.lookup_isSome.mp (by rw [hp]; rfl)

theorem etx_forceDead_self (h : p ∈ t.links) : (t.forceDead p).etx R p = some ⊤ := by
  obtain ⟨link, hlink⟩ := Option.isSome_iff_exists.mp (AList.lookup_isSome.mpr h)
  rw [forceDead, hlink, etx, AList.lookup_insert, Option.map_some, etx_kill]

theorem etx_forceDead_ne (h : n ≠ p) : (t.forceDead p).etx R n = t.etx R n := by
  rw [forceDead]
  split
  · rw [etx, etx, AList.lookup_insert_ne h]
  · rfl

theorem forceDead_of_unobserved (h : p ∉ t.links) : t.forceDead p = t := by
  rw [forceDead, AList.lookup_eq_none.mpr h]

theorem isAlive_forceDead : (t.forceDead p).isAlive R p = false := by
  by_cases h : p ∈ t.links
  · simp [isAlive, etx_forceDead_self h]
  · rw [isAlive, etx_eq_none.mpr (mem_links_forceDead.not.mpr h)]

theorem mem_or_eq_of_foldl {α : Type} {f : Option α → α → Option α}
    (hf : ∀ best x, f best x = some x ∨ f best x = best)
    {l : List α} {best : Option α} {x : α} (h : l.foldl f best = some x) : x ∈ l ∨ best = some x := by
  induction l generalizing best with
  | nil => exact .inr h
  | cons y l ih =>
      rcases ih h with hmem | hbest
      · exact .inl (List.mem_cons_of_mem y hmem)
      · rcases hf best y with htaken | hkept
        · rw [htaken] at hbest
          exact .inl (by rw [Option.some.inj hbest]; exact List.mem_cons_self)
        · exact .inr (hkept.symm.trans hbest)

theorem isAlive_of_bestNextHop {q : ℚ} (h : t.bestNextHop R = some (n, q)) : t.isAlive R n = true := by
  rcases mem_or_eq_of_foldl (fun best x => by
    cases best with
    | none => exact .inl rfl
    | some b =>
        dsimp only
        split
        · exact .inl rfl
        · exact .inr rfl) h with hmem | hnone
  · obtain ⟨e, he, hetx⟩ := List.mem_filterMap.mp hmem
    have hlookup : t.links.lookup e.1 = some e.2 := AList.mem_lookup_iff.mpr he
    split at hetx
    · next etx' hfin =>
        obtain ⟨rfl, rfl⟩ := Prod.mk.inj (Option.some.inj hetx)
        simp [isAlive, etx, hlookup, hfin]
    · cases hetx
  · cases hnone

theorem computePathEtx_of_unobserved (h : n ∉ t.links) (adv : WithTop ℚ) :
    t.computePathEtx R n adv = ⊤ := by
  simp [computePathEtx, etx_eq_none.mpr h]

end EtxTable

def RankedNextHops.Names (hops : RankedNextHops) (n : NodeId) : Prop :=
  hops.primary = some n ∨ hops.backup = some n

instance (hops : RankedNextHops) (n : NodeId) :
    Decidable (hops.Names n) := inferInstanceAs (Decidable (_ ∨ _))

theorem names_topTwo {ranked : List Candidate} {n : NodeId} :
    (topTwo ranked).Names n ↔ ∃ c ∈ ranked.take 2, c.1 = n := by
  rcases ranked with _ | ⟨a, _ | ⟨b, rest⟩⟩ <;> simp [topTwo, RankedNextHops.Names, RankedNextHops.new]

namespace MeshRouter

variable {R : Rounding} {o : IterationOrder} {r : MeshRouter κ} {dst n p : NodeId}

def rankedTable (r : MeshRouter κ) (dst : NodeId) : AList (fun _ : NodeId => WithTop ℚ) :=
  ((r.rankedCandidates.lookup dst).getD []).foldl
    (fun (byNh : AList (fun _ : NodeId => WithTop ℚ)) c => byNh.insert c.1 c.2) ∅

def knownHops (r : MeshRouter κ) (dst : NodeId) : AList (fun _ : NodeId => WithTop ℚ) :=
  match r.etx.pathRoute dst with
  | some route =>
      if route.nextHop ∈ r.rankedTable dst then r.rankedTable dst
      else (r.rankedTable dst).insert route.nextHop route.pathEtx
  | none => r.rankedTable dst

theorem candidateHops_eq (R : Rounding) (r : MeshRouter κ) (dst : NodeId) :
    r.candidateHops R dst =
      if !(r.knownHops dst).entries.isEmpty then r.knownHops dst
      else
        r.links.keys.foldl (fun byNh nextHop =>
          if nextHop = dst ∨ nextHop = r.id then byNh
          else
            match r.etx.etx R nextHop with
            | some (linkEtx : ℚ) => byNh.insert nextHop linkEtx
            | _ => byNh) (r.knownHops dst) := rfl

def Told (r : MeshRouter κ) (dst n : NodeId) (m : WithTop ℚ) : Prop :=
  (n, m) ∈ (r.rankedCandidates.lookup dst).getD [] ∨ r.etx.pathRoute dst = some ⟨n, m⟩

theorem mem_rankedTable :
    n ∈ r.rankedTable dst ↔ ∃ m, (n, m) ∈ (r.rankedCandidates.lookup dst).getD [] := by
  rw [rankedTable, mem_foldl_insert Prod.snd _ Prod.fst, or_iff_left (AList.notMem_empty n)]
  constructor
  · rintro ⟨c, hc, rfl⟩
    exact ⟨c.2, hc⟩
  · rintro ⟨m, hm⟩
    exact ⟨(n, m), hm, rfl⟩

theorem mem_knownHops : n ∈ r.knownHops dst ↔ ∃ m, r.Told dst n m := by
  have hranked : n ∈ r.rankedTable dst → ∃ m, r.Told dst n m := by
    intro h
    obtain ⟨m, hm⟩ := mem_rankedTable.mp h
    exact ⟨m, .inl hm⟩
  constructor
  · intro h
    unfold knownHops at h
    split at h
    · next route hroute =>
        split at h
        · exact hranked h
        · rcases (AList.mem_insert _).mp h with rfl | h
          · exact ⟨_, .inr hroute⟩
          · exact hranked h
    · exact hranked h
  · rintro ⟨m, htold⟩
    unfold knownHops
    rcases htold with h | h
    · have hmem := mem_rankedTable.mpr ⟨m, h⟩
      split
      · split
        · exact hmem
        · exact (AList.mem_insert _).mpr (.inr hmem)
      · exact hmem
    · simp only [h]
      split
      · next hmem => exact hmem
      · exact (AList.mem_insert _).mpr (.inl rfl)

theorem told_of_lookup {m : WithTop ℚ} (h : (r.knownHops dst).lookup n = some m) : r.Told dst n m := by
  have hranked (h : (r.rankedTable dst).lookup n = some m) : r.Told dst n m := by
    rcases lookup_foldl_insert Prod.snd _ Prod.fst h with ⟨c, hc, rfl, rfl⟩ | hnone
    · exact .inl hc
    · exact absurd hnone nofun
  unfold knownHops at h
  split at h
  · next route hroute =>
      split at h
      · exact hranked h
      · by_cases hn : n = route.nextHop
        · subst hn
          rw [AList.lookup_insert] at h
          rw [← Option.some.inj h]
          exact .inr hroute
        · rw [AList.lookup_insert_ne hn] at h
          exact hranked h
  · exact hranked h

theorem lookup_candidateHops {m : WithTop ℚ} (h : (r.candidateHops R dst).lookup n = some m) :
    r.Told dst n m ∨ n ∈ r.etx.links := by
  rw [candidateHops_eq] at h
  split at h
  · exact .inl (told_of_lookup h)
  · generalize r.links.keys = keys at h
    by_cases hn : n ∈ r.etx.links
    · exact .inr hn
    · -- a neighbour without observations is never written
      refine .inl (told_of_lookup ?_)
      generalize r.knownHops dst = hops at h
      induction keys generalizing hops with
      | nil => exact h
      | cons k keys ih =>
          have htail := ih _ h
          dsimp only at htail
          split at htail
          · exact htail
          · split at htail
            · next linkEtx hetx =>
                have hne : n ≠ k := by
                  rintro rfl
                  rw [EtxTable.etx_eq_none.mpr hn] at hetx
                  exact absurd hetx nofun
                rw [AList.lookup_insert_ne hne] at htail
                exact htail
            · exact htail

theorem mem_candidateHops {m : WithTop ℚ} (h : r.Told dst n m) : n ∈ r.candidateHops R dst := by
  have hmem := mem_knownHops.mpr ⟨m, h⟩
  have hne : (!(r.knownHops dst).entries.isEmpty) = true := by
    cases hentries : (r.knownHops dst).entries with
    | nil =>
        rw [AList.mem_keys, AList.keys, hentries] at hmem
        exact absurd hmem nofun
    | cons e l => rfl
  rw [candidateHops_eq, if_pos hne]
  exact hmem

theorem mem_liveHops {e : Candidate} :
    e ∈ r.liveHops R dst ↔ (r.candidateHops R dst).lookup e.1 = some e.2 ∧ r.etx.isDead R e.1 = false := by
  rw [liveHops, List.mem_filter, ← AList.mem_lookup_iff, Bool.not_eq_true']
  rfl

theorem ranks_rank (R : Rounding) (o : IterationOrder) (r : MeshRouter κ) (dst : NodeId) :
    ∃ sorted, Ranks Sigma.snd (r.liveHops R dst) sorted ∧ r.rank R o dst = topTwo sorted :=
  ⟨_, .mergeSort (o.perm dst _), rfl⟩

theorem mem_of_names_rank (h : (r.rank R o dst).Names n) : ∃ e ∈ r.liveHops R dst, e.1 = n := by
  obtain ⟨sorted, hranks, hrank⟩ := ranks_rank R o r dst
  rw [hrank] at h
  obtain ⟨e, he, hn⟩ := names_topTwo.mp h
  exact ⟨e, hranks.perm.mem_iff.mp (List.mem_of_mem_take he), hn⟩

/-- What the tables know of a hop that was never observed: it is at infinity,
and ranked only where the router was told of it. -/
structure Sound (r : MeshRouter κ) : Prop where
  told : ∀ dst n m, r.Told dst n m → n ∉ r.etx.links → m = ⊤
  ranked : ∀ dst n, (r.rankedHopsFor dst).Names n → n ∉ r.etx.links → ∃ m, r.Told dst n m

theorem sound_new (id : NodeId) (window : Nat) : (new id window : MeshRouter κ).Sound where
  told dst n m h := by
    rcases h with h | h <;> exact absurd h nofun
  ranked dst n h := by
    rcases h with h | h <;> exact absurd h nofun

theorem told_of_names_rank (h : (r.rank R o dst).Names n) (hn : n ∉ r.etx.links) :
    ∃ m, r.Told dst n m := by
  obtain ⟨e, he, rfl⟩ := mem_of_names_rank h
  rcases lookup_candidateHops (mem_liveHops.mp he).1 with htold | hmem
  · exact ⟨e.2, htold⟩
  · exact absurd hmem hn

theorem rankedHopsFor_recomputeIn (d : NodeId) :
    (r.recomputeIn R o dst).rankedHopsFor d = if d = dst then r.rank R o dst else r.rankedHopsFor d := by
  rw [rankedHopsFor, recomputeIn]
  split
  · next h =>
      subst h
      rw [AList.lookup_insert, Option.getD_some]
  · next h =>
      rw [AList.lookup_insert_ne h]
      rfl

/-- Ranking a destination anew makes up for whatever was written about it. -/
theorem sound_recomputeIn (htold : ∀ d n m, r.Told d n m → n ∉ r.etx.links → m = ⊤)
    (hranked : ∀ d n, d ≠ dst → (r.rankedHopsFor d).Names n → n ∉ r.etx.links → ∃ m, r.Told d n m) :
    (r.recomputeIn R o dst).Sound where
  told := htold
  ranked d n hnames hn := by
    rw [rankedHopsFor_recomputeIn] at hnames
    split at hnames
    · next hd =>
        subst hd
        exact told_of_names_rank hnames hn
    · next hd => exact hranked d n hd hnames hn

theorem Sound.observe (h : r.Sound) (peer : NodeId) (weHeard theyHeard : Bool) :
    (r.observe R peer weHeard theyHeard).Sound := by
  have hlinks {n : NodeId} (hn : n ∉ (r.observe R peer weHeard theyHeard).etx.links) :
      n ∉ r.etx.links := by
    intro hmem
    exact hn ((AList.mem_insert _).mpr (.inr hmem))
  exact ⟨fun d n m htold hn => h.told d n m htold (hlinks hn), fun d n hnames hn =>
    h.ranked d n hnames (hlinks hn)⟩

theorem Sound.learnRouteIn (h : r.Sound) (o : IterationOrder) (dst nextHop : NodeId)
    (advEtx : WithTop ℚ) : (r.learnRouteIn R o dst nextHop advEtx).Sound := by
  unfold MeshRouter.learnRouteIn EtxTable.learnRoute
  dsimp only
  split
  · exact h
  · split
    · exact h
    · apply sound_recomputeIn
      · intro d n m htold hn
        rcases htold with hc | hp
        · exact h.told d n m (.inl hc) hn
        · by_cases hd : d = dst
          · subst hd
            rw [EtxTable.pathRoute, AList.lookup_insert, Option.some.injEq, PathRoute.mk.injEq] at hp
            obtain ⟨rfl, rfl⟩ := hp
            exact EtxTable.computePathEtx_of_unobserved hn advEtx
          · rw [EtxTable.pathRoute, AList.lookup_insert_ne hd] at hp
            exact h.told d n m (.inr hp) hn
      · intro d n hd hnames hn
        obtain ⟨m, hc | hp⟩ := h.ranked d n hnames hn
        · exact ⟨m, .inl hc⟩
        · exact ⟨m, .inr (by rw [EtxTable.pathRoute, AList.lookup_insert_ne hd]; exact hp)⟩

theorem mem_withCandidate {candidates : List (NodeId × WithTop ℚ)} {nextHop : NodeId}
    {pathEtx m : WithTop ℚ}
    (h : (n, m) ∈ withCandidate candidates nextHop pathEtx) :
    (n, m) ∈ candidates ∨ n = nextHop ∧ m = pathEtx := by
  rw [withCandidate] at h
  split at h
  · next hany =>
      obtain ⟨i, hi⟩ := List.mem_iff_getElem?.mp h
      rw [List.getElem?_modify] at hi
      obtain ⟨c, hc, heq⟩ := Option.map_eq_some_iff.mp hi
      split at heq
      · next hfound =>
          subst hfound
          obtain ⟨hlt, rfl⟩ := List.getElem?_eq_some_iff.mp hc
          have hkey := List.findIdx_getElem (w := hlt)
          obtain ⟨rfl, rfl⟩ := Prod.mk.inj heq
          exact .inr ⟨by simpa using hkey, rfl⟩
      · exact .inl (heq ▸ List.mem_of_getElem? hc)
  · rcases List.mem_append.mp h with hmem | hmem
    · exact .inl hmem
    · exact .inr (by simpa using hmem)

theorem Sound.learnRouteForRankedIn (h : r.Sound) (o : IterationOrder) (dst nextHop : NodeId)
    (advEtx : WithTop ℚ) : (r.learnRouteForRankedIn R o dst nextHop advEtx).Sound := by
  apply sound_recomputeIn
  · intro d n m htold hn
    rcases htold with hc | hp
    · by_cases hd : d = dst
      · subst hd
        rw [AList.lookup_insert, Option.getD_some] at hc
        rcases mem_withCandidate hc with hold | ⟨rfl, rfl⟩
        · exact h.told d n m (.inl hold) hn
        · exact EtxTable.computePathEtx_of_unobserved hn advEtx
      · rw [AList.lookup_insert_ne hd] at hc
        exact h.told d n m (.inl hc) hn
    · exact h.told d n m (.inr hp) hn
  · intro d n hd hnames hn
    obtain ⟨m, hc | hp⟩ := h.ranked d n hnames hn
    · exact ⟨m, .inl (by rw [AList.lookup_insert_ne hd]; exact hc)⟩
    · exact ⟨m, .inr hp⟩

theorem lookup_swapped (peer d : NodeId) :
    (r.swapped peer).lookup d = (r.rankedHops.lookup d).map (hotSwap peer) := by
  rw [swapped, lookup_foldl_map (hotSwap peer) r.rankedHops.nodupKeys]
  change ((r.rankedHops.lookup d).map (hotSwap peer)).or (r.rankedHops.lookup d) = _
  cases r.rankedHops.lookup d <;> rfl

theorem names_of_hotSwap {hops : RankedNextHops} {peer : NodeId} (h : (hotSwap peer hops).Names n) :
    hops.Names n := by
  rw [hotSwap] at h
  split_ifs at h
  · exact .inr (h.resolve_right nofun)
  · exact .inl (h.resolve_right nofun)
  · exact h

theorem not_names_hotSwap {hops : RankedNextHops} {peer : NodeId} (h : hops.primary ≠ some peer) :
    ¬(hotSwap peer hops).Names peer := by
  rw [hotSwap, if_neg h]
  split_ifs with hbackup
  · exact fun hnames => hnames.elim h nofun
  · exact fun hnames => hnames.elim h hbackup

theorem rankedHopsFor_swapped (peer d : NodeId) (etx : EtxTable) :
    rankedHopsFor { r with etx, rankedHops := r.swapped peer } d = hotSwap peer (r.rankedHopsFor d) := by
  rw [rankedHopsFor, rankedHopsFor, lookup_swapped]
  cases r.rankedHops.lookup d <;> rfl

theorem Sound.forceDeadIn (h : r.Sound) (o : IterationOrder) (peer : NodeId) :
    (r.forceDeadIn R o peer).Sound := by
  have htold {d n : NodeId} {m : WithTop ℚ} :
      Told { r with etx := r.etx.forceDead peer, rankedHops := r.swapped peer } d n m ↔ r.Told d n m := by
    rw [Told, Told, EtxTable.pathRoute_forceDead]
  have hstart : Sound { r with etx := r.etx.forceDead peer, rankedHops := r.swapped peer } := by
    constructor
    · intro d n m ht hn
      exact h.told d n m (htold.mp ht) (EtxTable.mem_links_forceDead.not.mp hn)
    · intro d n hnames hn
      rw [rankedHopsFor_swapped] at hnames
      obtain ⟨m, hm⟩ := h.ranked d n (names_of_hotSwap hnames) (EtxTable.mem_links_forceDead.not.mp hn)
      exact ⟨m, htold.mpr hm⟩
  rw [MeshRouter.forceDeadIn]
  generalize affected _ _ ++ toUpdate _ _ = dsts
  exact run_invariant (recomputeIn R o) Sound
    (fun s dst hs => sound_recomputeIn hs.told (fun d n _ hnames hn => hs.ranked d n hnames hn))
    _ dsts hstart

theorem Sound.applyIn (h : r.Sound) (o : IterationOrder) (call : TableCall κ) :
    (call.applyIn R o r).Sound := by
  cases call with
  | addLink peer session => exact ⟨h.told, h.ranked⟩
  | observe peer weHeard theyHeard => exact h.observe peer weHeard theyHeard
  | addRoute dst nextHop => exact ⟨h.told, h.ranked⟩
  | learnRoute dst nextHop advEtx => exact h.learnRouteIn o dst nextHop advEtx
  | learnRouteForRanked dst nextHop advEtx => exact h.learnRouteForRankedIn o dst nextHop advEtx
  | forceDead peer => exact h.forceDeadIn o peer

/-- A hop without a live metric is taken only over its own link or a static
route; all other sources ask whether it lives. -/
theorem nextHop_eq_some_iff {d : NodeId} (h : r.etx.isAlive R p = false) :
    r.nextHop R d = some p ↔
      d ≠ r.id ∧ if d ∈ r.links ∧ r.etx.isDead R d = false then d = p else r.routes.lookup d = some p := by
  have hdead : (d ∈ r.links ∧ (!r.etx.isDead R d) = true) = (d ∈ r.links ∧ r.etx.isDead R d = false) := by
    rw [Bool.not_eq_true']
  rw [nextHop]
  simp only [hdead]
  by_cases hid : d = r.id
  · simp [hid]
  by_cases hlink : d ∈ r.links ∧ r.etx.isDead R d = false
  · simp only [if_neg hid, if_pos hlink, Option.some.injEq]
    exact (and_iff_right hid).symm
  simp only [if_neg hid, if_neg hlink]
  rw [and_iff_right hid]
  cases hroute : r.routes.lookup d with
  | some nh => rfl
  | none =>
      refine iff_of_false ?_ (Option.some_ne_none p).symm
      intro hsome
      have halive {n : NodeId} (hn : r.etx.isAlive R n = true) : n ≠ p := by
        rintro rfl
        exact absurd (hn.symm.trans h) (by decide)
      dsimp only at hsome
      split at hsome
      · next route hpath =>
          obtain ⟨-, hlives⟩ := Option.filter_eq_some_iff.mp hpath
          exact halive hlives (Option.some.inj hsome)
      · rcases Option.or_eq_some_iff.mp hsome with hranked | ⟨-, hbest⟩
        · rw [rankedHop] at hranked
          split at hranked
          · cases hranked
          · split at hranked
            · next hlives => exact halive hlives (Option.some.inj hranked)
            · exact halive (Option.filter_eq_some_iff.mp hranked).2 rfl
        · obtain ⟨⟨n, q⟩, hmin, rfl⟩ := Option.map_eq_some_iff.mp hbest
          exact halive (EtxTable.isAlive_of_bestNextHop hmin) rfl

theorem forceDeadIn_eq (R : Rounding) (o : IterationOrder) (r : MeshRouter κ) (peer : NodeId) :
    ∃ hops, r.forceDeadIn R o peer = { r with etx := r.etx.forceDead peer, rankedHops := hops } ∧
      ∀ d, (hops.lookup d).getD .new =
        if d ∈ r.affected peer ++ r.toUpdate peer then rank R o { r with etx := r.etx.forceDead peer } d
        else hotSwap peer (r.rankedHopsFor d) := by
  have hfold (dsts : List NodeId) (s : MeshRouter κ) :
      ∃ hops, dsts.foldl (recomputeIn R o) s = { s with rankedHops := hops } ∧
        ∀ d, (hops.lookup d).getD .new = if d ∈ dsts then s.rank R o d else s.rankedHopsFor d := by
    induction dsts generalizing s with
    | nil => exact ⟨s.rankedHops, rfl, fun d => rfl⟩
    | cons dst dsts ih =>
        obtain ⟨hops, heq, hlookup⟩ := ih (s.recomputeIn R o dst)
        refine ⟨hops, heq, fun d => (hlookup d).trans ?_⟩
        rw [rankedHopsFor_recomputeIn]
        by_cases hd : d = dst
        · subst hd
          simp only [List.mem_cons_self, if_true]
          exact ite_self _
        · simp only [List.mem_cons, hd, false_or, if_false]
          rfl
  obtain ⟨hops, heq, hlookup⟩ := hfold (r.affected peer ++ r.toUpdate peer)
    { r with etx := r.etx.forceDead peer, rankedHops := r.swapped peer }
  refine ⟨hops, heq, fun d => (hlookup d).trans ?_⟩
  rw [rankedHopsFor_swapped]
  rfl

/-- Neither the next hop nor a ranked hop of any destination is the peer. -/
def Avoids (R : Rounding) (r : MeshRouter κ) (p : NodeId) : Prop :=
  ∀ d, r.nextHop R d ≠ some p ∧ ¬(r.rankedHopsFor d).Names p

/-- Two hops of finite metric that are not dead, enough to fill both ranks. -/
def HasTwoRoutes (R : Rounding) (r : MeshRouter κ) (dst : NodeId) : Prop :=
  ∃ a ∈ r.liveHops R dst, ∃ b ∈ r.liveHops R dst, a ≠ b ∧ a.2 ≠ ⊤ ∧ b.2 ≠ ⊤

/-- When a peer can be declared dead for all of the tables: a static route over
it is not the one in use, and if nothing was ever observed of it, so that the
metric cannot show its death, then it has no link and every destination that
ranks it has two better hops. -/
structure Clearable (R : Rounding) (r : MeshRouter κ) (p : NodeId) : Prop where
  static : ∀ d, d ≠ r.id → r.routes.lookup d = some p → d ≠ p ∧ d ∈ r.links ∧ r.etx.isDead R d = false
  link : p ∉ r.etx.links → p ∈ r.links → p = r.id
  ranked : p ∉ r.etx.links → ∀ d ∈ r.affected p ++ r.toUpdate p, r.HasTwoRoutes R d

theorem isDead_forceDead_ne {d : NodeId} (h : d ≠ p) :
    (r.etx.forceDead p).isDead R d = r.etx.isDead R d := by
  rw [EtxTable.isDead, EtxTable.isDead, EtxTable.etx_forceDead_ne h]

theorem isDead_forceDead_self : (r.etx.forceDead p).isDead R p = true ↔ p ∈ r.etx.links := by
  by_cases h : p ∈ r.etx.links
  · simp [EtxTable.isDead, EtxTable.etx_forceDead_self h, h]
  · rw [EtxTable.isDead, EtxTable.etx_eq_none.mpr (EtxTable.mem_links_forceDead.not.mpr h)]
    simp [h]

theorem nextHop_forceDeadIn_iff (o : IterationOrder) :
    (∀ d, (r.forceDeadIn R o p).nextHop R d ≠ some p) ↔
      (∀ d, d ≠ r.id → r.routes.lookup d = some p → d ≠ p ∧ d ∈ r.links ∧
        r.etx.isDead R d = false) ∧ (p ∉ r.etx.links → p ∈ r.links → p = r.id) := by
  obtain ⟨hops, heq, -⟩ := forceDeadIn_eq R o r p
  have hiff (d : NodeId) :=
    nextHop_eq_some_iff (r := { r with etx := r.etx.forceDead p, rankedHops := hops })
    (R := R) (d := d) (p := p) EtxTable.isAlive_forceDead
  simp only [heq, ne_eq, hiff, not_and]
  constructor
  · intro h
    constructor
    · intro d hid hroute
      have hd := h d hid
      have hne : d ≠ p := by
        rintro rfl
        split at hd
        · exact hd rfl
        · exact hd hroute
      refine ⟨hne, ?_⟩
      by_contra hlink
      rw [isDead_forceDead_ne hne, if_neg hlink] at hd
      exact hd hroute
    · intro hunobserved hlink
      by_contra hid
      have hdead : (r.etx.forceDead p).isDead R p = false :=
        Bool.eq_false_iff.mpr (isDead_forceDead_self.not.mpr hunobserved)
      have hp := h p hid
      rw [if_pos ⟨hlink, hdead⟩] at hp
      exact hp rfl
  · rintro ⟨hstatic, hlink⟩ d hid hnext
    split at hnext
    · next hdirect =>
        subst hnext
        have hunobserved : d ∉ r.etx.links := isDead_forceDead_self.not.mp (Bool.eq_false_iff.mp hdirect.2)
        exact hid (hlink hunobserved hdirect.1)
    · next hdirect =>
        obtain ⟨hne, hmem, hdead⟩ := hstatic d hid hnext
        rw [isDead_forceDead_ne hne] at hdirect
        exact hdirect ⟨hmem, hdead⟩

theorem mem_toUpdate {d : NodeId} : d ∈ r.toUpdate p ↔ (r.rankedHopsFor d).primary = some p := by
  simp only [toUpdate, List.mem_map, List.mem_filter, decide_eq_true_eq, rankedHopsFor]
  constructor
  · rintro ⟨⟨k, hops⟩, ⟨hmem, hprimary⟩, rfl⟩
    rw [AList.mem_lookup_iff.mpr hmem]
    exact hprimary
  · intro h
    cases hlookup : r.rankedHops.lookup d with
    | none =>
        rw [hlookup] at h
        cases h
    | some hops =>
        rw [hlookup] at h
        exact ⟨⟨d, hops⟩, ⟨AList.mem_lookup_iff.mp hlookup, h⟩, rfl⟩

theorem Sound.told_of_mem (h : r.Sound) (hp : p ∉ r.etx.links) {d : NodeId}
    (hd : d ∈ r.affected p ++ r.toUpdate p) : ∃ m, r.Told d p m := by
  rcases List.mem_append.mp hd with hd | hd
  · simp only [affected, List.mem_map, List.mem_filter, List.any_eq_true, decide_eq_true_eq] at hd
    obtain ⟨⟨k, candidates⟩, ⟨hmem, c, hc, rfl⟩, rfl⟩ := hd
    refine ⟨c.2, .inl ?_⟩
    rw [AList.mem_lookup_iff.mpr hmem]
    exact hc
  · exact h.ranked d p (.inl (mem_toUpdate.mp hd)) hp

theorem Sound.top_of_mem_liveHops (h : r.Sound) {e : Candidate} (he : e ∈ r.liveHops R dst)
    (hn : e.1 ∉ r.etx.links) : e.2 = ⊤ := by
  rcases lookup_candidateHops (mem_liveHops.mp he).1 with htold | hmem
  · exact h.told dst e.1 e.2 htold hn
  · exact absurd hmem hn

theorem exists_mem_liveHops {m : WithTop ℚ} (h : r.Told dst n m) (hn : n ∉ r.etx.links) :
    ∃ e ∈ r.liveHops R dst, e.1 = n := by
  obtain ⟨v, hv⟩ := Option.isSome_iff_exists.mp (AList.lookup_isSome.mpr (mem_candidateHops (R := R) h))
  refine ⟨⟨n, v⟩, mem_liveHops.mpr ⟨hv, ?_⟩, rfl⟩
  rw [EtxTable.isDead, EtxTable.etx_eq_none.mpr hn]

theorem names_rank_iff (h : r.Sound) (hn : n ∉ r.etx.links) {m : WithTop ℚ}
    (htold : r.Told dst n m) : (∀ o, ¬(r.rank R o dst).Names n) ↔ r.HasTwoRoutes R dst := by
  obtain ⟨e, he, rfl⟩ := exists_mem_liveHops (R := R) htold hn
  have htop := h.top_of_mem_liveHops he hn
  constructor
  · intro hnever
    by_contra hfew
    have hone : ∀ a ∈ r.liveHops R dst, ∀ b ∈ r.liveHops R dst, a.2 ≠ ⊤ → b.2 ≠ ⊤ → a = b := by
      intro a ha b hb hafin hbfin
      by_contra hab
      exact hfew ⟨a, ha, b, hb, hab, hafin, hbfin⟩
    have hnodup : (r.liveHops R dst).Nodup := (r.candidateHops R dst).nodupKeys.nodup.filter _
    obtain ⟨sorted, hranks, hmem⟩ := exists_ranks_mem_take_two hnodup he htop hone
    let o : IterationOrder :=
      { arrange := fun d l => if d = dst ∧ l = r.liveHops R dst then sorted else l
        perm := by
          intro d l
          split
          · next heq => exact heq.2 ▸ hranks.perm
          · exact .refl l }
    have hrank : r.rank R o dst = topTwo sorted := by
      simp only [rank, o, and_self, if_true]
      exact congrArg topTwo hranks.mergeSort_self
    apply hnever o
    rw [hrank]
    exact names_topTwo.mpr ⟨e, hmem, rfl⟩
  · rintro ⟨a, ha, b, hb, hab, hafin, hbfin⟩ o hnames
    obtain ⟨sorted, hranks, hrank⟩ := ranks_rank R o r dst
    rw [hrank] at hnames
    obtain ⟨e', he', hkey⟩ := names_topTwo.mp hnames
    have htop' : e'.2 = ⊤ :=
      h.top_of_mem_liveHops (hranks.perm.mem_iff.mp (List.mem_of_mem_take he')) (hkey ▸ hn)
    refine hranks.not_mem_take_two ha hb hab ?_ ?_ he'
    · exact htop' ▸ lt_top_iff_ne_top.mpr hafin
    · exact htop' ▸ lt_top_iff_ne_top.mpr hbfin

theorem ranked_forceDeadIn_iff (h : r.Sound) :
    (∀ o d, ¬((r.forceDeadIn R o p).rankedHopsFor d).Names p) ↔
      (p ∉ r.etx.links → ∀ d ∈ r.affected p ++ r.toUpdate p, r.HasTwoRoutes R d) := by
  have hnames (o : IterationOrder) (d : NodeId) : ¬((r.forceDeadIn R o p).rankedHopsFor d).Names p ↔
      (d ∈ r.affected p ++ r.toUpdate p → ¬(rank R o { r with etx := r.etx.forceDead p } d).Names p) := by
    obtain ⟨hops, heq, hlookup⟩ := forceDeadIn_eq R o r p
    rw [heq, rankedHopsFor, hlookup]
    split
    · next hd => simp only [hd, true_imp_iff]
    · next hd =>
        refine iff_of_true (not_names_hotSwap ?_) (fun hd' => absurd hd' hd)
        exact fun hprimary => hd (List.mem_append_right _ (mem_toUpdate.mpr hprimary))
  simp only [hnames]
  by_cases hp : p ∈ r.etx.links
  · refine iff_of_true ?_ (fun hn => absurd hp hn)
    intro o d _ hrank
    obtain ⟨e, he, rfl⟩ := mem_of_names_rank hrank
    exact absurd (mem_liveHops.mp he).2 (Bool.not_eq_false _ ▸ isDead_forceDead_self.mpr hp)
  · rw [EtxTable.forceDead_of_unobserved hp]
    constructor
    · intro hall _ d hd
      obtain ⟨m, hm⟩ := h.told_of_mem hp hd
      exact (names_rank_iff h hp hm).mp (fun o => hall o d hd)
    · intro htwo o d hd
      obtain ⟨m, hm⟩ := h.told_of_mem hp hd
      exact (names_rank_iff h hp hm).mpr (htwo hp d hd) o

/-- In every state a router can reach, declaring a peer dead takes it out of
all tables, in whatever order hash maps are met, exactly if it is clearable. -/
theorem forceDead_avoids_iff (R : Rounding) (id : NodeId) (window : Nat)
    (calls : List (IterationOrder × TableCall κ)) (p : NodeId) :
    let r := run (fun r (c : IterationOrder × TableCall κ) => c.2.applyIn R c.1 r) (new id window) calls
    (∀ o, (r.forceDeadIn R o p).Avoids R p) ↔ r.Clearable R p := by
  intro r
  have h : r.Sound :=
    run_invariant _ Sound (fun _ c hs => hs.applyIn c.1 c.2) _ calls (sound_new id window)
  constructor
  · intro havoids
    obtain ⟨hstatic, hlink⟩ := (nextHop_forceDeadIn_iff .stored).mp (fun d => (havoids .stored d).1)
    exact ⟨hstatic, hlink, (ranked_forceDeadIn_iff h).mp (fun o d => (havoids o d).2)⟩
  · rintro ⟨hstatic, hlink, hranked⟩ o d
    exact ⟨(nextHop_forceDeadIn_iff o).mpr ⟨hstatic, hlink⟩ d, (ranked_forceDeadIn_iff h).mpr hranked o d⟩

/-- Three peers that outlive their death: one a static route leads to, one with
a link but no observation yet, and one that was only advertised. -/
theorem forced_dead_still_used :
    let after (calls : List (TableCall Unit)) :=
      (run (fun r (c : TableCall Unit) => c.applyIn .unrounded .stored r) (new 1 5)
        calls).forceDeadIn .unrounded .stored 2
    (after [.observe 2 true true, .addRoute 3 2]).nextHop .unrounded 3 = some 2 ∧
      (after [.addLink 2 ⟨(), (), 0, 0, 0, .new⟩]).nextHop .unrounded 2 = some 2 ∧
      ((after [.learnRouteForRanked 3 2 1]).rankedHopsFor 3).primary = some 2 := by
  exact ⟨by decide, by decide, by decide +kernel⟩

end MeshRouter

end TriNet.Routing
