import TriNet.Lib.Runs
import TriNet.Phone.Effects
import TriNet.Phone.Pieces

namespace TriNet.Phone

open Lib.BigEndian Lib.Parity Lib.Runs

variable {m : Long} {e e' : Entry} {group i gStart : Nat} {seen : List Piece}

theorem Long.fits_parityOf (he : e.Of m) (hg : gStart < m.total) :
    (m.parityOf group gStart).Fits gStart e.part := by
  refine ⟨hg.le, fun _ _ i _ chunk hchunk => ?_⟩
  rw [he.parts i chunk hchunk, length_cell, Long.parityOf, VideoFEC.parity, length_parity]
  exact min_le_left ..

namespace Tables

variable {κ : Type} [DecidableEq κ] {t t' t'' : Tables κ} {k : κ}

theorem fits_of_lookup (hg : gStart ∈ VideoFEC.groupStarts m.total group)
    (hfec : (t.fec.lookup k).bind (AList.lookup gStart) = some (m.parityOf group gStart))
    (hof : ∀ e, t.frag.lookup k = some e → e.Of m) : t.Fits k gStart := by
  intro fec e hfec' he _
  obtain rfl := Option.some.inj (hfec.symm.trans hfec')
  exact Long.fits_parityOf (hof e he) (VideoFEC.lt_of_mem_groupStarts hg)

structure Replaced (k : κ) (e : Entry) (t t' : Tables κ) : Prop where
  lookup : t'.frag.lookup k = some e
  others : t'.frag.erase k = t.frag.erase k
  fec : t'.fec = t.fec

theorem Replaced.refl (he : t.frag.lookup k = some e) : Replaced k e t t := ⟨he, rfl, rfl⟩

theorem Replaced.insert (t : Tables κ) (k : κ) (e : Entry) :
    Replaced k e t { t with frag := t.frag.insert k e } where
  lookup := AList.lookup_insert ..
  others := Dictionary.erase_insert ..
  fec := rfl

theorem Replaced.trans (h : Replaced k e t t') (h' : Replaced k e' t' t'') : Replaced k e' t t'' :=
  ⟨h'.lookup, h'.others.trans h.others, h'.fec.trans h.fec⟩

theorem Replaced.forget (h : Replaced k e t t') : t'.forget k = t.forget k := by
  rw [Tables.forget, Tables.forget, h.others, h.fec]

/-- What comes of a try to repair a message: the message, if all of it can be
deduced, or an entry with more of it. -/
inductive Repairs (m : Long) (group : Nat) (seen : List Piece) (k : κ) (t : Tables κ) (e : Entry)
    (groups : List Nat) : Tables κ × Option Bytes → Prop
  | whole (hall : ∀ i < m.total, Deducible m.total group seen i) :
      Repairs m group seen k t e groups (t.forget k, some m.bytes)
  | part {t' : Tables κ} {e' : Entry} (hreplaced : Replaced k e' t t')
      (hholding : e'.Holding m group seen) (hshort : e'.held ≠ m.total) (htick : e'.tick = e.tick)
      (hsettled : ∀ g, g ∈ groups ∨ e.Settled m group seen g → e'.Settled m group seen g) :
      Repairs m group seen k t e groups (t', none)

theorem tryFEC_repairs (hgroup : 0 < group) (hg : gStart ∈ VideoFEC.groupStarts m.total group)
    (hpar : .parity gStart ∈ seen)
    (hfec : (t.fec.lookup k).bind (AList.lookup gStart) = some (m.parityOf group gStart))
    (he : t.frag.lookup k = some e) (h : e.Holding m group seen) (hshort : e.held ≠ m.total) :
    Repairs m group seen k t e [gStart] (t.tryFEC k gStart) := by
  have hlen : e.parts.length = (m.parityOf group gStart).total := h.of.length
  rw [tryFEC, hfec, he]
  dsimp only
  have hrecover :
      VideoFEC.recover (m.parityOf group gStart).xor e.part gStart (m.parityOf group gStart).gLen
      (m.parityOf group gStart).total (m.parityOf group gStart).lastLen = e.recover m group gStart := rfl
  rw [if_pos hlen, hrecover]
  by_cases hone : ∃ i, e.missing m group gStart = [i]
  · obtain ⟨i, hmiss⟩ := hone
    obtain ⟨hlt, hfill, hsettled⟩ := h.fill_missing hgroup hg hpar hmiss
    rw [recover_of_missing h.of hmiss]
    dsimp only
    split
    · next hfull =>
        rw [hfill.of.bytes_eq hfull]
        exact .whole (fun j hj => hfill.sound j hj (hfill.of.part_ne_none hfull hj))
    · next hshort' =>
        refine .part (.insert t k _) hfill hshort' rfl ?_
        rintro g (hmemg | hold)
        · rwa [List.mem_singleton.mp hmemg]
        · exact fun j hj hgj hded => Entry.part_fill_ne_none hlt (hold j hj hgj hded)
  · have hnone := recover_eq_none (not_exists.mp hone)
    rw [hnone]
    refine .part (.refl he) h hshort rfl ?_
    rintro g (hmemg | hsettled)
    · rw [List.mem_singleton.mp hmemg]
      exact h.settled_of_recover hgroup hnone
    · exact hsettled

theorem tryGroups_repairs (hgroup : 0 < group) {groups : List Nat}
    (hgroups : ∀ g ∈ groups, g ∈ VideoFEC.groupStarts m.total group ∧ .parity g ∈ seen ∧
      (t.fec.lookup k).bind (AList.lookup g) = some (m.parityOf group g))
    (he : t.frag.lookup k = some e) (h : e.Holding m group seen) (hshort : e.held ≠ m.total) :
    Repairs m group seen k t e groups (t.tryGroups k groups) := by
  induction groups generalizing t e with
  | nil => exact .part (.refl he) h hshort rfl (fun g hg => hg.resolve_left List.not_mem_nil)
  | cons gStart groups ih =>
      obtain ⟨hg, hpar, hfec⟩ := hgroups gStart (List.mem_cons_self ..)
      have hfirst := tryFEC_repairs hgroup hg hpar hfec he h hshort
      rw [tryGroups]
      generalize t.tryFEC k gStart = result at hfirst
      cases hfirst with
      | whole hall => exact .whole hall
      | @part t' e' hreplaced hholding hshort' htick hsettled =>
          dsimp only
          have hrest := ih (t := t') (e := e') (fun g hmem => by
            rw [hreplaced.fec]
            exact hgroups g (List.mem_cons_of_mem _ hmem)) hreplaced.lookup hholding hshort'
          generalize t'.tryGroups k groups = result at hrest
          cases hrest with
          | whole hall =>
              rw [hreplaced.forget]
              exact .whole hall
          | part hreplaced' hholding' hshort'' htick' hsettled' =>
              -- what the first try settled stays settled, because the later ones only fill slots
              refine .part (hreplaced.trans hreplaced') hholding' hshort'' (htick'.trans htick) ?_
              rintro g (hmem | hold)
              · rcases List.mem_cons.mp hmem with rfl | hmem
                · exact hsettled' g (.inr (hsettled g (.inl (List.mem_singleton_self g))))
                · exact hsettled' g (.inl hmem)
              · exact hsettled' g (.inr (hsettled g (.inr hold)))

theorem eachFits_of_holding (hgroup : 0 < group) {groups : List Nat}
    (hgroups : ∀ g ∈ groups, g ∈ VideoFEC.groupStarts m.total group ∧ .parity g ∈ seen ∧
      (t.fec.lookup k).bind (AList.lookup g) = some (m.parityOf group g))
    (he : t.frag.lookup k = some e) (h : e.Holding m group seen) (hshort : e.held ≠ m.total) :
    t.EachFits k groups := by
  induction groups generalizing t e with
  | nil => trivial
  | cons gStart groups ih =>
      obtain ⟨hg, hpar, hfec⟩ := hgroups gStart (List.mem_cons_self ..)
      have hof (e' : Entry) (he' : t.frag.lookup k = some e') : e'.Of m :=
        Option.some.inj (he.symm.trans he') ▸ h.of
      refine ⟨fits_of_lookup hg hfec hof, fun hnone => ?_⟩
      have hfirst := tryFEC_repairs hgroup hg hpar hfec he h hshort
      generalize t.tryFEC k gStart = result at hfirst hnone
      cases hfirst with
      | whole => cases hnone
      | part hreplaced hholding hshort' =>
          refine ih (fun g hmem => ?_) hreplaced.lookup hholding hshort'
          rw [hreplaced.fec]
          exact hgroups g (List.mem_cons_of_mem _ hmem)

theorem mem_groupsHere {g : Nat} :
    g ∈ t.groupsHere k ↔ (t.fec.lookup k).bind (AList.lookup g) ≠ none := by
  rw [groupsHere]
  cases t.fec.lookup k with
  | none => simp
  | some groups => simp [AList.lookup_eq_none, AList.mem_keys]

/-- Under a key is what came in of one message, and nothing else. -/
structure Gathers (m : Long) (group : Nat) (seen : List Piece) (k : κ) (t : Tables κ) : Prop where
  sent : ∀ p ∈ seen, p.Sent m.total group
  fec : ∀ g, (t.fec.lookup k).bind (AList.lookup g) =
    if .parity g ∈ seen then some (m.parityOf group g) else none
  unopened : t.frag.lookup k = none → ∀ i, .fragment i ∉ seen
  keeps : ∀ e, t.frag.lookup k = some e → e.Keeps m group seen

theorem Gathers.of_clear (h : t.Clear k) : Gathers m group [] k t where
  sent p hp := absurd hp List.not_mem_nil
  fec g := by
    rw [h.2, if_neg List.not_mem_nil]
    rfl
  unopened _ i := List.not_mem_nil
  keeps e he := by
    rw [h.1] at he
    cases he

theorem Gathers.of_lookup (hsent : ∀ p ∈ seen, p.Sent m.total group)
    (hfec : ∀ g, (t.fec.lookup k).bind (AList.lookup g) =
      if .parity g ∈ seen then some (m.parityOf group g) else none)
    (he : t.frag.lookup k = some e) (hkeeps : e.Keeps m group seen) : Gathers m group seen k t where
  sent := hsent
  fec := hfec
  unopened hnone := by cases he.symm.trans hnone
  keeps e' he' := Option.some.inj (he.symm.trans he') ▸ hkeeps

theorem Gathers.entry (h : Gathers m group seen k t) : (t.entry k m.total).Holding m group seen := by
  rw [Tables.entry]
  split
  · next hnone => exact .empty (fun i _ => h.unopened hnone i)
  · next e he =>
      have hkeeps := h.keeps e he
      rw [if_pos hkeeps.holding.of.length]
      exact hkeeps.holding

theorem Gathers.not_all (hgroup : 2 ≤ group) (h : Gathers m group seen k t) :
    ¬∀ i < m.total, Deducible m.total group seen i := by
  intro hall
  cases he : t.frag.lookup k with
  | none =>
      have hno := h.unopened he
      obtain ⟨hfirst | ⟨_, hsecond⟩, _⟩ := Deducible.first hgroup m.two_le_total hall
      · exact hno 0 hfirst
      · exact hno 1 hsecond
  | some e => exact (h.keeps e he).not_all hall

theorem lookup_keepParity (t : Tables κ) (k : κ) (gStart : Nat) (par : Parity) (g : Nat) :
    ((t.keepParity k gStart par).fec.lookup k).bind (AList.lookup g) =
      if g = gStart then some par else (t.fec.lookup k).bind (AList.lookup g) := by
  rw [keepParity, AList.lookup_insert, Option.bind_some]
  split
  · next hg =>
      subst hg
      exact AList.lookup_insert ..
  · next hg =>
      rw [AList.lookup_insert_ne hg]
      cases t.fec.lookup k <;> rfl

theorem Gathers.fec_keepParity (h : Gathers m group seen k t) (gStart g : Nat) :
    ((t.keepParity k gStart (m.parityOf group gStart)).fec.lookup k).bind (AList.lookup g) =
      if .parity g ∈ .parity gStart :: seen then some (m.parityOf group g) else none := by
  rw [lookup_keepParity, h.fec g]
  by_cases hg : g = gStart
  · subst hg
    simp
  · simp [hg]

theorem Gathers.takeParity (hgroup : 0 < group) (h : Gathers m group seen k t)
    (hg : gStart ∈ VideoFEC.groupStarts m.total group) :
    let result := (t.keepParity k gStart (m.parityOf group gStart)).tryFEC k gStart
    (result = (t.forget k, some m.bytes) ∧
      ∀ i < m.total, Deducible m.total group (.parity gStart :: seen) i) ∨
      result.2 = none ∧ Gathers m group (.parity gStart :: seen) k result.1 ∧
        result.1.frag.erase k = t.frag.erase k := by
  have hsent : ∀ p ∈ .parity gStart :: seen, p.Sent m.total group := List.forall_mem_cons.mpr ⟨hg, h.sent⟩
  have hfec := h.fec_keepParity gStart
  cases he : t.frag.lookup k with
  | none =>
      dsimp only
      rw [tryFEC_of_none (t := t.keepParity k gStart _) he]
      refine .inr ⟨rfl, ⟨hsent, hfec, fun _ i hmem => ?_, fun e he' => ?_⟩, rfl⟩
      · exact h.unopened he i ((List.mem_cons.mp hmem).resolve_left nofun)
      · cases he.symm.trans he'
  | some e =>
      have hkeeps := h.keeps e he
      have hholding := hkeeps.holding.mono_parity gStart
      have hrepairs := tryFEC_repairs (t := t.keepParity k gStart (m.parityOf group gStart)) hgroup hg
        (List.mem_cons_self ..) (by rw [hfec, if_pos (List.mem_cons_self ..)]) he hholding hkeeps.short
      dsimp only
      generalize (t.keepParity k gStart (m.parityOf group gStart)).tryFEC k gStart = result at hrepairs
      cases hrepairs with
      | whole hall =>
          refine .inl ⟨?_, hall⟩
          rw [forget_keepParity]
      | @part t' e' hreplaced hholding' hshort htick hsettled =>
          have hsettled' (g : Nat) : e'.Settled m group (.parity gStart :: seen) g := by
            apply hsettled
            by_cases hgg : g = gStart
            · exact .inl (List.mem_singleton.mpr hgg)
            · exact .inr ((hkeeps.settled g).mono_parity hholding hgg)
          refine .inr ⟨rfl, ?_, hreplaced.others⟩
          exact .of_lookup hsent (hreplaced.fec ▸ hfec) hreplaced.lookup ⟨hholding', hsettled', hshort⟩

theorem Gathers.groupsHere (h : Gathers m group seen k t) (hfec : t'.fec = t.fec)
    (shuffle : Shuffle) {g : Nat} : g ∈ shuffle.1 (t'.groupsHere k) ↔ .parity g ∈ seen := by
  rw [(shuffle.2 _).mem_iff, mem_groupsHere, hfec, h.fec g]
  simp

theorem Gathers.eachFits (hgroup : 0 < group) (h : Gathers m group seen k t) (hi : i < m.total)
    (hshort : ((t.entry k m.total).put i (cell maxPayload m.bytes i)).held ≠ m.total) (tick : Nat)
    (shuffle : Shuffle) :
    let e := (t.entry k m.total).put i (cell maxPayload m.bytes i)
    let t₁ := { t with frag := t.frag.insert k { e with tick } }
    t₁.EachFits k (shuffle.1 (t₁.groupsHere k)) := by
  intro e t₁
  refine eachFits_of_holding hgroup (fun g hg => ?_) (Replaced.insert ..).lookup
    ((h.entry.put hi).stamp tick) hshort
  have hpar := (h.groupsHere rfl shuffle).mp hg
  exact ⟨h.sent _ hpar, List.mem_cons_of_mem _ hpar, (h.fec g).trans (if_pos hpar)⟩

theorem Gathers.takeFragment (hgroup : 0 < group) (h : Gathers m group seen k t) (hi : i < m.total)
    (hshort : ((t.entry k m.total).put i (cell maxPayload m.bytes i)).held ≠ m.total) (tick : Nat)
    (shuffle : Shuffle) :
    let e := (t.entry k m.total).put i (cell maxPayload m.bytes i)
    let t₁ := { t with frag := t.frag.insert k { e with tick } }
    let result := t₁.tryGroups k (shuffle.1 (t₁.groupsHere k))
    (result = (t.forget k, some m.bytes) ∧
      ∀ i' < m.total, Deducible m.total group (.fragment i :: seen) i') ∨
      result.2 = none ∧ Gathers m group (.fragment i :: seen) k result.1 ∧
        result.1.frag.erase k = t.frag.erase k ∧ ∃ e', result.1.frag.lookup k = some e' ∧
          e'.tick = tick := by
  intro e t₁ result
  have hput : { e with tick }.Holding m group (.fragment i :: seen) := (h.entry.put hi).stamp tick
  have hinsert : Replaced k { e with tick } t t₁ := .insert ..
  have hfec (g : Nat) : (t.fec.lookup k).bind (AList.lookup g) =
      if .parity g ∈ .fragment i :: seen then some (m.parityOf group g) else none := by
    rw [h.fec g]
    simp
  have hsent : ∀ p ∈ .fragment i :: seen, p.Sent m.total group := List.forall_mem_cons.mpr ⟨hi, h.sent⟩
  have hhere (g : Nat) : g ∈ shuffle.1 (t₁.groupsHere k) ↔ .parity g ∈ .fragment i :: seen := by
    rw [h.groupsHere hinsert.fec]
    simp
  have hrepairs : Repairs m group (.fragment i :: seen) k t₁ { e with tick }
      (shuffle.1 (t₁.groupsHere k)) result := by
    refine tryGroups_repairs hgroup (fun g hg => ?_) hinsert.lookup hput hshort
    have hpar := (hhere g).mp hg
    refine ⟨hsent _ hpar, hpar, ?_⟩
    rw [hinsert.fec, hfec g, if_pos hpar]
  clear_value result
  cases hrepairs with
  | whole hall => exact .inl ⟨by rw [hinsert.forget], hall⟩
  | @part t' e' hreplaced hholding hshort' htick hsettled =>
      have hboth := hinsert.trans hreplaced
      have hsettled' (g : Nat) : e'.Settled m group (.fragment i :: seen) g := by
        by_cases hpar : .parity g ∈ .fragment i :: seen
        · exact hsettled g (.inl ((hhere g).mpr hpar))
        · exact hholding.settled_of_notMem hpar
      refine .inr ⟨rfl, ?_, hboth.others, e', hboth.lookup, htick⟩
      exact .of_lookup hsent (hboth.fec ▸ hfec) hboth.lookup ⟨hholding, hsettled', hshort'⟩

theorem Gathers.congr (h : Gathers m group seen k t) (hfrag : t'.frag.lookup k = t.frag.lookup k)
    (hfec : t'.fec.lookup k = t.fec.lookup k) : Gathers m group seen k t' where
  sent := h.sent
  fec g := by rw [hfec, h.fec g]
  unopened hnone := h.unopened (hfrag ▸ hnone)
  keeps e he := h.keeps e (hfrag ▸ he)

end Tables

namespace Receiver

variable {r r' : Receiver} {t : Tables Nat} {seq k n : Nat} {groupMode : Bool} {shuffle : Shuffle}

theorem mem_take_recent {entries : List (Sigma fun _ : Nat => Entry)} {x : Sigma fun _ : Nat => Entry}
    (hx : x ∈ entries) (hnewest : ∀ y ∈ entries, y ≠ x → y.2.tick < x.2.tick) :
    x ∈ (entries.mergeSort (fun a b => b.2.tick ≤ a.2.tick)).take fragBufsCap := by
  have hsorted : (entries.mergeSort (fun a b => b.2.tick ≤ a.2.tick)).Pairwise
      (fun a b => b.2.tick ≤ a.2.tick) := by
    have h : (entries.mergeSort (fun a b => b.2.tick ≤ a.2.tick)).Pairwise
        (fun a b => decide (b.2.tick ≤ a.2.tick)) := by
      apply List.pairwise_mergeSort
      · intro a b c hab hbc
        simp only [decide_eq_true_eq] at *
        omega
      · intro a b
        simp only [Bool.or_eq_true, decide_eq_true_eq]
        omega
    simpa using h
  have hperm := List.mergeSort_perm entries (fun a b => b.2.tick ≤ a.2.tick)
  generalize entries.mergeSort (fun a b => b.2.tick ≤ a.2.tick) = recent at *
  cases recent with
  | nil => exact absurd (hperm.mem_iff.mpr hx) List.not_mem_nil
  | cons y recent =>
      have hfirst : y = x := by
        by_contra hne
        have hlt := hnewest y (hperm.mem_iff.mp (List.mem_cons_self ..)) hne
        have hmem := (List.mem_cons.mp (hperm.mem_iff.mpr hx)).resolve_left (Ne.symm hne)
        exact Nat.not_le.mpr hlt (List.rel_of_pairwise_cons hsorted hmem)
      rw [hfirst]
      exact List.mem_cons_self ..

theorem keys_collect_sublist (t : Tables Nat) : (collect t).frag.keys.Sublist t.frag.keys := by
  rw [collect]
  split
  · exact List.filter_sublist.map _
  · exact .refl _

theorem collect_keeps (he : t.frag.lookup seq = some e)
    (h : (t.frag.erase seq).keys.length < fragBufsCap ∨
      ∀ k e', (t.frag.erase seq).lookup k = some e' → e'.tick < e.tick) :
    (collect t).frag.lookup seq = some e ∧ (collect t).fec.lookup seq = t.fec.lookup seq := by
  rw [collect]
  split
  · next hover =>
      have hmem : seq ∈ t.frag.keys := AList.lookup_isSome.mp (by rw [he]; rfl)
      have hnewest : ∀ k e', (t.frag.erase seq).lookup k = some e' → e'.tick < e.tick := by
        refine h.resolve_left (fun hlen => ?_)
        rw [AList.keys_erase, List.length_erase_of_mem hmem, AList.keys, List.keys,
          List.length_map] at hlen
        omega
      have hkeep : seq ∈
          ((t.frag.entries.mergeSort (fun a b => b.2.tick ≤ a.2.tick)).take fragBufsCap).map
            Sigma.fst := by
        refine List.mem_map.mpr ⟨⟨seq, e⟩, mem_take_recent (AList.mem_lookup_iff.mp he) ?_, rfl⟩
        rintro ⟨k, e'⟩ hentry hne
        have hlook : t.frag.lookup k = some e' := AList.mem_lookup_iff.mpr hentry
        refine hnewest k e' (Dictionary.lookup_erase_iff.mpr ⟨?_, hlook⟩)
        rintro rfl
        rw [he] at hlook
        exact hne (by rw [Option.some.inj hlook])
      constructor
      · rw [← he]
        exact Dictionary.lookup_filter_of_pos (decide_eq_true hkeep)
      · exact Dictionary.lookup_filter_of_pos (decide_eq_true hkeep)
  · exact ⟨he, rfl⟩

/-- For so many more packets a message under this number is not dropped for
others: there are few of them, or they are older. -/
def Room (r : Receiver) (seq n : Nat) : Prop :=
  (r.tables.frag.erase seq).keys.length < fragBufsCap ∨
    (∀ k e, (r.tables.frag.erase seq).lookup k = some e → e.tick ≤ r.fragTick) ∧ r.fragTick + n < 2 ^ 64

theorem Room.next (h : r.Room seq (n + 1))
    (hkeys : (r'.tables.frag.erase seq).keys.length ≤ (r.tables.frag.erase seq).keys.length)
    (hlook : ∀ k e, (r'.tables.frag.erase seq).lookup k = some e →
      (r.tables.frag.erase seq).lookup k = some e)
    (htick : r'.fragTick = r.fragTick ∨ r'.fragTick = (r.fragTick + 1) % 2 ^ 64) : r'.Room seq n := by
  rcases h with hlen | ⟨hold, hwrap⟩
  · exact .inl (lt_of_le_of_lt hkeys hlen)
  · have hmod : (r.fragTick + 1) % 2 ^ 64 = r.fragTick + 1 := Nat.mod_eq_of_lt (by omega)
    rw [hmod] at htick
    refine .inr ⟨fun k e he => ?_, by omega⟩
    have hle := hold k e (hlook k e he)
    omega

theorem mem_markDelivered (r : Receiver) (seq : Nat) :
    seq ∈ (r.markDelivered false seq).deliveredOrder := by
  rw [markDelivered]
  split
  · next h => exact h.resolve_left Bool.false_ne_true
  · dsimp only
    rw [List.length_append, List.length_singleton, List.drop_append_of_le_length (by omega)]
    exact List.mem_append_right _ (List.mem_singleton_self seq)

def Clocked (r : Receiver) : Prop := ∀ k e, r.tables.frag.lookup k = some e → e.tick ≤ r.fragTick

theorem clocked_reassemble {d : Bytes} (h : r.Clocked) (hwrap : r.fragTick + 1 < 2 ^ 64) :
    (r.reassemble groupMode shuffle d).1.Clocked ∧
      (r.reassemble groupMode shuffle d).1.fragTick ≤ r.fragTick + 1 := by
  have heffect := reassemble_effect groupMode shuffle r d
  have hmod : (r.fragTick + 1) % 2 ^ 64 = r.fragTick + 1 := Nat.mod_eq_of_lt hwrap
  rw [Clocked]
  generalize (r.reassemble groupMode shuffle d).1.tables = t,
    (r.reassemble groupMode shuffle d).1.fragTick = tick at heffect ⊢
  cases heffect with
  | same => exact ⟨h, Nat.le_succ _⟩
  | finished seq htick =>
      rw [hmod] at htick
      refine ⟨fun k e he => ?_, by omega⟩
      have hle := h k e (Dictionary.lookup_erase_iff.mp he).2
      omega
  | parity _ ht =>
      refine ⟨fun k e he => ?_, Nat.le_succ _⟩
      obtain ⟨e', he', hshape⟩ := ht.lookup he
      rw [(Prod.mk.inj hshape).2]
      exact h k e' he'
  | @fragment seq idx total chunk t hd ht =>
      rw [hmod]
      refine ⟨fun k e he => ?_, le_rfl⟩
      obtain ⟨e', he', hshape⟩ := ht.lookup (lookup_collect he)
      rw [(Prod.mk.inj hshape).2]
      rcases Dictionary.lookup_insert_cases he' with ⟨_, rfl⟩ | hold
      · exact hmod.le
      · exact Nat.le_succ_of_le (h k e' hold)

theorem room_run (history : List (Bytes × Shuffle)) (seq : Nat) (h : history.length + n < 2 ^ 64) :
    (run (fun r a => (r.reassemble groupMode a.2 a.1).1) fresh history).Room seq n := by
  have hinv : (run (fun r a => (r.reassemble groupMode a.2 a.1).1) fresh history).Clocked ∧
      (run (fun r a => (r.reassemble groupMode a.2 a.1).1) fresh history).fragTick ≤ history.length := by
    induction history using List.reverseRecOn with
    | nil => exact ⟨fun k e he => absurd he nofun, le_rfl⟩
    | append_singleton history a ih =>
        rw [List.length_append, List.length_singleton] at h ⊢
        obtain ⟨hclocked, htick⟩ := ih (by omega)
        obtain ⟨hclocked', htick'⟩ := clocked_reassemble (d := a.1) hclocked (by omega)
        rw [run_concat]
        exact ⟨hclocked', htick'.trans (Nat.succ_le_succ htick)⟩
  exact .inr ⟨fun k e he => hinv.1 k e (Dictionary.lookup_erase_iff.mp he).2, by omega⟩

/-- Some packets of a message came in, and the message is not complete. -/
structure Waiting (groupMode : Bool) (m : Long) (group seq : Nat) (seen : List Piece)
    (n : Nat) (r : Receiver) :
    Prop where
  gathers : r.tables.Gathers m group seen seq
  room : r.Room seq n
  pending : groupMode = false → seq ∉ r.deliveredOrder

inductive Received (groupMode : Bool) (m : Long) (group seq : Nat) (seen : List Piece) (n : Nat) :
    Receiver × Option Bytes → Prop
  | whole {r : Receiver} (hall : ∀ i < m.total, Deducible m.total group seen i)
      (hclear : r.tables.Clear seq)
      (hroom : r.Room seq n) (hdone : groupMode = false → seq ∈ r.deliveredOrder) :
      Received groupMode m group seq seen n (r, some m.bytes)
  | waiting {r : Receiver} (h : r.Waiting groupMode m group seq seen n) :
      Received groupMode m group seq seen n (r, none)

theorem received_finish (hall : ∀ i < m.total, Deducible m.total group seen i) (h : r.Room seq n) :
    Received groupMode m group seq seen n (r.finish groupMode seq (r.tables.forget seq) m.bytes) := by
  apply Received.whole hall
  · rw [tables_markDelivered]
    exact ⟨AList.lookup_erase .., AList.lookup_erase ..⟩
  · rw [Room, tables_markDelivered, fragTick_markDelivered]
    dsimp only [Tables.forget]
    rw [Dictionary.erase_erase_self]
    exact h
  · rintro rfl
    exact mem_markDelivered ..

theorem Room.stamp (h : r.Room seq (n + 1)) :
    { r with fragTick := (r.fragTick + 1) % 2 ^ 64 }.Room seq n :=
  h.next le_rfl (fun _ _ he => he) (.inr rfl)

theorem received_parity (hgroup : 0 < group) (hseq : seq < 65536)
    (hg : gStart ∈ VideoFEC.groupStarts m.total group)
    (h : r.Waiting groupMode m group seq seen (n + 1)) :
    Received groupMode m group seq (.parity gStart :: seen) n
      (r.reassemble groupMode shuffle (parityPacket group seq m.bytes gStart)) := by
  have hstay : r.Room seq n := h.room.next le_rfl (fun _ _ he => he) (.inl rfl)
  have htaken := h.gathers.takeParity hgroup hg
  rw [reassemble, decode_parityPacket hseq m (VideoFEC.lt_of_mem_groupStarts hg)]
  rw [Long.parityOf] at htaken
  dsimp only
  generalize Tables.tryFEC _ seq gStart = result at htaken ⊢
  rcases htaken with ⟨rfl, hall⟩ | ⟨hnone, hgathers, hothers⟩
  · exact received_finish hall hstay
  · obtain ⟨t, out⟩ := result
    obtain rfl : out = none := hnone
    refine .waiting ⟨hgathers, ?_, h.pending⟩
    dsimp only at hothers
    rw [Room]
    dsimp only
    rw [hothers]
    exact hstay

theorem received_fragment (hgroup : 0 < group) (hseq : seq < 65536) (hi : i < m.total)
    (h : r.Waiting groupMode m group seq seen (n + 1)) :
    Received groupMode m group seq (.fragment i :: seen) n
      (r.reassemble groupMode shuffle (fragmentPacket seq m.bytes i)) := by
  have hput := h.gathers.entry.put hi
  rw [reassemble, decode_fragmentPacket hseq m hi]
  dsimp only
  rw [if_neg (fun hdone => h.pending hdone.1 hdone.2)]
  split
  · next hfull =>
      rw [hput.of.bytes_eq hfull]
      exact received_finish (fun j hj => hput.sound j hj (hput.of.part_ne_none hfull hj))
        (h.room.next le_rfl (fun _ _ he => he) (.inl rfl))
  · next hshort =>
      have htaken := h.gathers.takeFragment hgroup hi hshort ((r.fragTick + 1) % 2 ^ 64) shuffle
      dsimp only at htaken
      generalize Tables.tryGroups _ seq _ = result at htaken
      rcases htaken with ⟨rfl, hall⟩ | ⟨hnone, hgathers, hothers, e, he, htick⟩
      · exact received_finish (r := { r with fragTick := (r.fragTick + 1) % 2 ^ 64 }) hall h.room.stamp
      · obtain ⟨t, out⟩ := result
        obtain rfl : out = none := hnone
        dsimp only at hgathers hothers he
        have hkept := collect_keeps he (by
          rw [hothers]
          refine h.room.imp_right (fun hold k e' he' => ?_)
          have hle := hold.1 k e' he'
          have hmod : (r.fragTick + 1) % 2 ^ 64 = r.fragTick + 1 := Nat.mod_eq_of_lt (by omega)
          omega)
        refine .waiting ⟨hgathers.congr (hkept.1.trans he.symm) hkept.2, ?_, h.pending⟩
        refine h.room.next ?_ ?_ (.inr rfl)
        · rw [← hothers, AList.keys_erase, AList.keys_erase]
          exact ((keys_collect_sublist t).erase seq).length_le
        · intro k e' he'
          obtain ⟨hne, hlook⟩ := Dictionary.lookup_erase_iff.mp he'
          rw [← hothers]
          exact Dictionary.lookup_erase_iff.mpr ⟨hne, lookup_collect hlook⟩

theorem received_piece {p : Piece} (hgroup : 0 < group) (hseq : seq < 65536) (hp : p.Sent m.total group)
    (h : r.Waiting groupMode m group seq seen (n + 1)) (shuffle : Shuffle) :
    Received groupMode m group seq (p :: seen) n
      (r.reassemble groupMode shuffle (p.packet group seq m.bytes)) := by
  cases p with
  | fragment i => exact received_fragment hgroup hseq hp h
  | parity gStart => exact received_parity hgroup hseq hp h

theorem Waiting.accepts {p : Piece} (hgroup : 0 < group) (hseq : seq < 65536)
    (hp : p.Sent m.total group) (h : r.Waiting groupMode m group seq seen n) (shuffle : Shuffle) :
    r.Accepts groupMode shuffle (p.packet group seq m.bytes) := by
  cases p with
  | fragment i =>
      dsimp only [Piece.packet]
      rw [Accepts, decode_fragmentPacket hseq m hp]
      exact fun _ hshort => h.gathers.eachFits hgroup hp hshort _ shuffle
  | parity gStart =>
      dsimp only [Piece.packet]
      rw [Accepts, decode_parityPacket hseq m (VideoFEC.lt_of_mem_groupStarts hp)]
      have hfec := h.gathers.fec_keepParity gStart gStart
      rw [if_pos (List.mem_cons_self ..)] at hfec
      exact Tables.fits_of_lookup hp hfec (fun e he => (h.gathers.keeps e he).holding.of)

/-- What comes out, unless one of the packets traps. -/
def returned (groupMode : Bool) (r : Receiver) : List (Bytes × Shuffle) → Option (List Bytes)
  | [] => some []
  | (d, shuffle) :: rest =>
      match r.reassembleChecked groupMode shuffle d with
      | none => none
      | some (r, out) => (r.returned groupMode rest).map (out.toList ++ ·)

theorem returned_cons {d : Bytes} (h : r.Accepts groupMode shuffle d) (rest : List (Bytes × Shuffle)) :
    r.returned groupMode ((d, shuffle) :: rest) =
      ((r.reassemble groupMode shuffle d).1.returned groupMode rest).map
        ((r.reassemble groupMode shuffle d).2.toList ++ ·) := by
  rw [returned, reassembleChecked_of_accepts h]

def wire (group seq : Nat) (m : Bytes) (pieces : List (Piece × Shuffle)) : List (Bytes × Shuffle) :=
  pieces.map (fun a => (a.1.packet group seq m, a.2))

/-- The message comes out at the first packet from which all of it can be
deduced, and does not come out before. -/
theorem returned_wire (hgroup : 0 < group) (hseq : seq < 65536) {pieces : List (Piece × Shuffle)}
    (hsent : ∀ a ∈ pieces, a.1.Sent m.total group)
    (h : r.Waiting groupMode m group seq seen pieces.length) :
    (r.returned groupMode (wire group seq m.bytes pieces) = some [] ∧
        ∃ t : Tables Nat, t.Gathers m group ((pieces.map Prod.fst).reverse ++ seen) seq) ∨
      ∃ before after, ∃ r' : Receiver, pieces = before ++ after ∧
        r.returned groupMode (wire group seq m.bytes pieces) =
          (r'.returned groupMode (wire group seq m.bytes after)).map (m.bytes :: ·) ∧
        (∀ i < m.total, Deducible m.total group ((before.map Prod.fst).reverse ++ seen) i) ∧
        r'.tables.Clear seq ∧ r'.Room seq after.length ∧
          (groupMode = false → seq ∈ r'.deliveredOrder) := by
  induction pieces generalizing r seen with
  | nil => exact .inl ⟨rfl, r.tables, h.gathers⟩
  | cons a pieces ih =>
      obtain ⟨p, shuffle⟩ := a
      have hp := hsent _ (List.mem_cons_self ..)
      have hreceived := received_piece hgroup hseq hp h shuffle
      rw [wire, List.map_cons, returned_cons (h.accepts hgroup hseq hp shuffle)]
      generalize r.reassemble groupMode shuffle (p.packet group seq m.bytes) = result at hreceived
      cases hreceived with
      | whole hall hclear hroom hdone =>
          refine .inr ⟨[(p, shuffle)], pieces, _, rfl, rfl, ?_, hclear, hroom, hdone⟩
          exact hall
      | waiting hwaiting =>
          rcases ih (fun a ha => hsent a (List.mem_cons_of_mem _ ha)) hwaiting with
            ⟨hnone, t, ht⟩ | ⟨before, after, r', rfl, hreturned, hall, hrest⟩
          · refine .inl ⟨congrArg (Option.map _) hnone, t, ?_⟩
            simpa using ht
          · refine .inr ⟨(p, shuffle) :: before, after, r', rfl, ?_, ?_, hrest⟩
            · rw [wire] at hreturned
              rw [hreturned, Option.map_map]
              rfl
            · simpa using hall

theorem returned_delivered (hseq : seq < 65536) {pieces : List (Piece × Shuffle)}
    (hsent : ∀ a ∈ pieces, a.1.Sent m.total group) (hnone : r.tables.frag.lookup seq = none)
    (hdone : seq ∈ r.deliveredOrder) : r.returned false (wire group seq m.bytes pieces) = some [] := by
  induction pieces generalizing r with
  | nil => rfl
  | cons a pieces ih =>
      obtain ⟨p, shuffle⟩ := a
      have hp := hsent _ (List.mem_cons_self ..)
      have hrest := fun a ha => hsent a (List.mem_cons_of_mem _ ha)
      rw [wire, List.map_cons]
      cases p with
      | fragment i =>
          dsimp only [Piece.packet]
          have haccepts : r.Accepts false shuffle (fragmentPacket seq m.bytes i) := by
            rw [Accepts, decode_fragmentPacket hseq m hp]
            exact fun hpending => absurd ⟨rfl, hdone⟩ hpending
          have hstep : r.reassemble false shuffle (fragmentPacket seq m.bytes i) = (r, none) := by
            rw [reassemble, decode_fragmentPacket hseq m hp]
            exact if_pos ⟨rfl, hdone⟩
          rw [returned_cons haccepts, hstep]
          exact congrArg (Option.map _) (ih hrest hnone hdone)
      | parity gStart =>
          have hlt := VideoFEC.lt_of_mem_groupStarts hp
          dsimp only [Piece.packet]
          have haccepts : r.Accepts false shuffle (parityPacket group seq m.bytes gStart) := by
            rw [Accepts, decode_parityPacket hseq m hlt]
            intro fec e _ he
            cases hnone.symm.trans he
          have hstep : r.reassemble false shuffle (parityPacket group seq m.bytes gStart) =
              ({ r with tables := r.tables.keepParity seq gStart (m.parityOf group gStart) }, none) := by
            rw [reassemble, decode_parityPacket hseq m hlt]
            dsimp only
            rw [Tables.tryFEC_of_none (t := r.tables.keepParity seq gStart _) hnone]
            rfl
          rw [returned_cons haccepts, hstep]
          exact congrArg (Option.map _)
            (ih (r := { r with tables := r.tables.keepParity .. }) hrest hnone hdone)

theorem waiting_of_clear (hclear : r.tables.Clear seq) (hroom : r.Room seq n)
    (hpending : groupMode = false → seq ∉ r.deliveredOrder) : r.Waiting groupMode m group seq [] n :=
  ⟨.of_clear hclear, hroom, hpending⟩

theorem returned_eq_singleton (hgroup : 2 ≤ group) (hseq : seq < 65536) {pieces : List (Piece × Shuffle)}
    (hsent : ∀ a ∈ pieces, a.1.Sent m.total group) (honce : (pieces.map Prod.fst).Nodup)
    (hall : ∀ i < m.total, Deducible m.total group (pieces.map Prod.fst) i) (hclear : r.tables.Clear seq)
    (hroom : r.Room seq pieces.length) (hpending : groupMode = false → seq ∉ r.deliveredOrder) :
    r.returned groupMode (wire group seq m.bytes pieces) = some [m.bytes] := by
  have hpos : 0 < group := by omega
  have hreverse (l : List (Piece × Shuffle)) : (l.map Prod.fst).reverse ++ [] ⊆ l.map Prod.fst := by
    rw [List.append_nil]
    exact List.reverse_subset.mpr (List.Subset.refl _)
  rcases returned_wire hpos hseq hsent (waiting_of_clear hclear hroom hpending) with
    ⟨_, t, ht⟩ | ⟨before, after, r', rfl, hreturned, hbefore, hclear', hroom', hdone⟩
  · refine absurd (fun i hi => (hall i hi).mono ?_) (ht.not_all hgroup)
    rw [List.append_nil]
    exact List.subset_reverse.mpr (List.Subset.refl _)
  · have hafter : ∀ a ∈ after, a.1.Sent m.total group := fun a ha => hsent a (List.mem_append_right _ ha)
    suffices hrest : r'.returned groupMode (wire group seq m.bytes after) = some [] by
      rw [hreturned, hrest, Option.map_some]
    cases groupMode with
    | false => exact returned_delivered hseq hafter hclear'.1 (hdone rfl)
    | true =>
        -- a group has no list of delivered messages, but what is left does not suffice for a second one
        have hwaiting : r'.Waiting true m group seq [] after.length :=
          waiting_of_clear hclear' hroom' nofun
        rcases returned_wire hpos hseq hafter hwaiting with
          ⟨hnone, _⟩ | ⟨again, rest, _, rfl, _, hagain, _⟩
        · exact hnone
        · rw [List.map_append, List.map_append] at honce
          refine absurd ?_ (not_disjoint_of_deducible hgroup m.two_le_total
            (fun i hi => (hbefore i hi).mono (hreverse before))
            (fun i hi => (hagain i hi).mono (hreverse again)))
          exact (List.disjoint_append_right.mp (List.disjoint_of_nodup_append honce)).1

end Receiver

/-- Packets of a message in the order in which they come in: each at most once,
and a group loses at most one fragment, and then not its parity. -/
structure Repairable (group seq : Nat) (payload : Bytes) (arrived : List Bytes) : Prop where
  sent : ∀ d ∈ arrived, d ∈ packets group seq payload
  once : arrived.Nodup
  lost : ∀ gStart ∈ VideoFEC.groupStarts (totalOf payload) group,
    ∀ i ∈ VideoFEC.covered gStart group (totalOf payload), fragmentPacket seq payload i ∉ arrived →
      parityPacket group seq payload gStart ∈ arrived ∧
        ∀ j ∈ VideoFEC.covered gStart group (totalOf payload), j ≠ i →
          fragmentPacket seq payload j ∈ arrived

instance (group seq : Nat) (payload : Bytes) (arrived : List Bytes) :
    Decidable (Repairable group seq payload arrived) :=
  decidable_of_iff (_ ∧ _ ∧ _) ⟨fun h => ⟨h.1, h.2.1, h.2.2⟩, fun h => ⟨h.sent, h.once, h.lost⟩⟩

theorem exists_wire {seq : Nat} {arrivals : List (Bytes × Shuffle)}
    (h : ∀ d ∈ arrivals.map Prod.fst, d ∈ packets group seq m.bytes) :
    ∃ pieces : List (Piece × Shuffle), (∀ a ∈ pieces, a.1.Sent m.total group) ∧
      arrivals = Receiver.wire group seq m.bytes pieces := by
  induction arrivals with
  | nil => exact ⟨[], nofun, rfl⟩
  | cons a arrivals ih =>
      obtain ⟨d, shuffle⟩ := a
      obtain ⟨p, hp, rfl⟩ := Piece.exists_of_mem_packets (h d (List.mem_cons_self ..))
      obtain ⟨pieces, hsent, rfl⟩ := ih (fun d hd => h d (List.mem_cons_of_mem _ hd))
      exact ⟨(p, shuffle) :: pieces, List.forall_mem_cons.mpr ⟨hp, hsent⟩, rfl⟩

theorem Repairable.deducible {seq : Nat} (hgroup : 0 < group) (hseq : seq < 65536)
    {pieces : List Piece} (hsent : ∀ p ∈ pieces, p.Sent m.total group)
    (h : Repairable group seq m.bytes (pieces.map (Piece.packet group seq m.bytes)))
    (hi : i < m.total) : Deducible m.total group pieces i := by
  have hmem {p : Piece} (hp : p.Sent m.total group) :
      p.packet group seq m.bytes ∈ pieces.map (Piece.packet group seq m.bytes) ↔ p ∈ pieces := by
    rw [List.mem_map]
    constructor
    · rintro ⟨q, hq, heq⟩
      rwa [← Piece.packet_inj hseq (hsent q hq) hp heq]
    · exact fun hp => ⟨p, hp, rfl⟩
  have hg := VideoFEC.groupOf_mem_groupStarts hgroup hi
  have hcov (j : Nat) : j ∈ VideoFEC.covered (VideoFEC.groupOf group i) group m.total ↔
      j < m.total ∧ VideoFEC.groupOf group j = VideoFEC.groupOf group i := by
    rw [← VideoFEC.mem_covered_iff hgroup hg, VideoFEC.covered_min]
  by_cases hin : .fragment i ∈ pieces
  · exact .inl hin
  · obtain ⟨hpar, hothers⟩ := h.lost _ hg i ((hcov i).mpr ⟨hi, rfl⟩)
      (fun harrived => hin ((hmem (p := .fragment i) hi).mp harrived))
    refine .inr ⟨(hmem (p := .parity _) hg).mp hpar, fun j hj hne hgj => ?_⟩
    exact (hmem (p := .fragment j) hj).mp (hothers j ((hcov j).mpr ⟨hj, hgj⟩) hne)

/-- A payload that is sent in fragments comes out of the receiver once and
unchanged, in whatever order its packets come in, if no group loses more than
its parity can repair; none of the packets traps. Other messages may be under
reassembly. -/
theorem payload_repaired (payload : Bytes) (hlo : 1201 ≤ payload.length)
    (hhi : payload.length ≤ 306000) (group : Nat)
    (hgroup : 2 ≤ group) (seq : Nat) (hseq : seq < 65536) (groupMode : Bool) (r : Receiver)
    (hclear : r.tables.Clear seq) (hpending : groupMode = false → seq ∉ r.deliveredOrder)
    (arrivals : List (Bytes × Shuffle)) (hroom : r.Room seq arrivals.length)
    (h : Repairable group seq payload (arrivals.map Prod.fst)) :
    r.returned groupMode arrivals = some [payload] := by
  let m : Long := ⟨payload, hlo, by rw [totalOf, maxPayload]; omega⟩
  obtain ⟨pieces, hsent, rfl⟩ := exists_wire (m := m) h.sent
  have hfst : (Receiver.wire group seq payload pieces).map Prod.fst =
      (pieces.map Prod.fst).map (Piece.packet group seq payload) := by
    rw [Receiver.wire, List.map_map, List.map_map]
    rfl
  have hlen : (Receiver.wire group seq payload pieces).length = pieces.length := List.length_map ..
  rw [hfst] at h
  rw [hlen] at hroom
  have hsent' : ∀ p ∈ pieces.map Prod.fst, p.Sent m.total group := by
    intro p hp
    obtain ⟨a, ha, rfl⟩ := List.mem_map.mp hp
    exact hsent a ha
  exact Receiver.returned_eq_singleton (m := m) hgroup hseq hsent (h.once.of_map _)
    (fun i hi => h.deducible (m := m) (by omega) hseq hsent' hi) hclear hroom hpending

/-- Two of three fragments are lost, from two groups, while another message is
under reassembly. -/
theorem payload_repaired_twice :
    let payload := List.replicate 2401 (7 : UInt8)
    let arrivals := [(parityPacket 2 7 payload 2, Shuffle.inOrder), (fragmentPacket 7 payload 1, .inOrder),
      (parityPacket 2 7 payload 0, .inOrder)]
    let r := run (fun r a => (Receiver.reassemble false a.2 r a.1).1) Receiver.fresh
      [(fragmentPacket 6 payload 0, .inOrder)]
    Repairable 2 7 payload (arrivals.map Prod.fst) ∧ r.tables.Clear 7 ∧ 7 ∉ r.deliveredOrder ∧
      r.returned false arrivals = some [payload] := by
  intro payload arrivals r
  have hrepairable : Repairable 2 7 payload (arrivals.map Prod.fst) := by decide +kernel
  have hclear : r.tables.Clear 7 := by decide +kernel
  have hpending : 7 ∉ r.deliveredOrder := by decide +kernel
  refine ⟨hrepairable, hclear, hpending, ?_⟩
  exact payload_repaired payload (by decide +kernel) (by decide +kernel) 2 le_rfl 7 (by decide)
    false r hclear (fun _ => hpending) arrivals (Receiver.room_run _ 7 (by decide)) hrepairable

end TriNet.Phone
