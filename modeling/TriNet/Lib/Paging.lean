import TriNet.Lib.KeySort
import Mathlib.Logic.Relation
import Mathlib.Order.Defs.LinearOrder

namespace TriNet.Lib.Paging

open Relation

variable {α β κ σ : Type} [LinearOrder κ]

def page (key : α → κ) (visible : List α) (after : κ) (limit : Nat) : List α :=
  (KeySort.byKey (· ≤ ·) key (visible.filter (fun a => after < key a))).take limit

section Page

variable {key : α → κ} {visible : List α} {after : κ} {limit : Nat} {a : α}

theorem mem_above : a ∈ KeySort.byKey (· ≤ ·) key (visible.filter (fun a => after < key a)) ↔
    a ∈ visible ∧ after < key a := by
  rw [(KeySort.byKey_perm _ _ _).mem_iff, List.mem_filter, decide_eq_true_eq]

theorem mem_of_mem_page (h : a ∈ page key visible after limit) : a ∈ visible ∧ after < key a :=
  mem_above.mp (List.mem_of_mem_take h)

theorem above_pairwise (hkeys : (visible.map key).Nodup) (after : κ) :
    (KeySort.byKey (· ≤ ·) key (visible.filter (fun a => after < key a))).Pairwise
      (fun a b => key a < key b) := by
  have hle := KeySort.byKey_pairwise (· ≤ ·) key (visible.filter (fun a => after < key a))
  have hne : ((KeySort.byKey (· ≤ ·) key (visible.filter (fun a => after < key a))).map key).Nodup := by
    rw [((KeySort.byKey_perm _ _ _).map key).nodup_iff]
    exact hkeys.sublist (List.filter_sublist.map key)
  exact hle.imp₂ (fun _ _ => lt_of_le_of_ne) (List.pairwise_map.mp hne)

theorem page_pairwise (hkeys : (visible.map key).Nodup) (after : κ) (limit : Nat) :
    (page key visible after limit).Pairwise (fun a b => key a < key b) :=
  (above_pairwise hkeys after).take

theorem mem_page_or_behind (hkeys : (visible.map key).Nodup) (limit : Nat) (ha : a ∈ visible)
    (habove : after < key a) :
    a ∈ page key visible after limit ∨ ∀ b ∈ page key visible after limit, key b < key a := by
  have hsorted := above_pairwise hkeys after
  have hmem := mem_above.mpr ⟨ha, habove⟩
  rw [← List.take_append_drop limit (KeySort.byKey (· ≤ ·) key _)] at hsorted hmem
  obtain hpage | hrest := List.mem_append.mp hmem
  · exact .inl hpage
  · exact .inr (fun b hb => (List.pairwise_append.mp hsorted).2.2 b hb a hrest)

theorem not_above_of_page_eq_nil (hlimit : 0 < limit) (h : page key visible after limit = [])
    (ha : a ∈ visible) : ¬after < key a := by
  intro habove
  have hmem := mem_above.mpr ⟨ha, habove⟩
  obtain hzero | hnil := List.take_eq_nil_iff.mp h
  · exact absurd hzero (Nat.pos_iff_ne_zero.mp hlimit)
  · rw [hnil] at hmem
    cases hmem

end Page

/-- Reading page by page: every page is asked for above the last key of the one
before, in the state there is by then, until one is empty. -/
inductive Fetch (ask : σ → κ → Nat → Option (List β)) (key : β → κ) (next : σ → σ → Prop) :
    σ → κ → List Nat → List β → Prop
  | done {s : σ} {after : κ} {limit : Nat} (hpage : ask s after limit = some []) :
      Fetch ask key next s after [limit] []
  | more {s t : σ} {after : κ} {limit : Nat} {limits : List Nat} {init rest : List β} {last : β}
      (hpage : ask s after limit = some (init ++ [last])) (hnext : next s t)
      (hrest : Fetch ask key next t (key last) limits rest) :
      Fetch ask key next s after (limit :: limits) (init ++ [last] ++ rest)

/-- From a first key on, the pages show what is visible in the state they are
asked for. -/
structure Serves (ask : σ → κ → Nat → Option (List β)) (key : β → κ) (start : κ)
    (visible : σ → List α) (id : α → κ)
    (render : σ → α → β) : Prop where
  key_render : ∀ s a, key (render s a) = id a
  page : ∀ s after limit entries, start ≤ after → ask s after limit = some entries →
    ∃ n, 0 < n ∧ entries = (page id (visible s) after n).map (render s)

theorem Serves.comap {τ : Type} {ask : σ → κ → Nat → Option (List β)} {key : β → κ} {start : κ}
    {visible : σ → List α}
    {id : α → κ} {render : σ → α → β} (h : Serves ask key start visible id render) (f : τ → σ) :
    Serves (fun t => ask (f t)) key start (fun t => visible (f t)) id (fun t => render (f t)) where
  key_render t := h.key_render (f t)
  page t := h.page (f t)

namespace Fetch

variable {ask : σ → κ → Nat → Option (List β)} {key : β → κ} {start : κ} {next : σ → σ → Prop}
  {visible : σ → List α}
  {id : α → κ} {render : σ → α → β} {s : σ} {after : κ} {limits : List Nat} {entries : List β}

theorem last_shown (hserves : Serves ask key start visible id render) {limit : Nat} {init : List β}
    {last : β} (hafter : start ≤ after) (hpage : ask s after limit = some (init ++ [last])) :
    ∃ n a, init ++ [last] = (page id (visible s) after n).map (render s) ∧
      a ∈ page id (visible s) after n ∧ last = render s a ∧ after < key last := by
  obtain ⟨n, _, heq⟩ := hserves.page s after limit _ hafter hpage
  have hlast : last ∈ (page id (visible s) after n).map (render s) :=
    heq ▸ List.mem_append_right _ List.mem_cons_self
  obtain ⟨a, ha, rfl⟩ := List.mem_map.mp hlast
  exact ⟨n, a, heq, ha, rfl, by rw [hserves.key_render]; exact (mem_of_mem_page ha).2⟩

omit [LinearOrder κ] in
theorem of_page {t : σ} {limit limit' : Nat} {init : List β} {last : β}
    (hpage : ask s after limit = some (init ++ [last])) (hnext : next s t)
    (hend : ask t (key last) limit' = some []) :
    Fetch ask key next s after [limit, limit'] (init ++ [last]) := by
  have hread := Fetch.more hpage hnext (.done hend)
  rwa [List.append_nil] at hread

theorem shown (hserves : Serves ask key start visible id render)
    (h : Fetch ask key next s after limits entries) (hafter : start ≤ after) :
    ∀ b ∈ entries, ∃ t a, ReflTransGen next s t ∧ a ∈ visible t ∧ after < id a ∧ b = render t a := by
  induction h with
  | done => nofun
  | @more s t after limit limits init rest last hpage hnext _ ih =>
      obtain ⟨n, c, heq, _, _, hlast⟩ := last_shown hserves hafter hpage
      intro b hb
      obtain hb | hb := List.mem_append.mp hb
      · rw [heq] at hb
        obtain ⟨a, ha, rfl⟩ := List.mem_map.mp hb
        exact ⟨s, a, .refl, (mem_of_mem_page ha).1, (mem_of_mem_page ha).2, rfl⟩
      · obtain ⟨u, a, hreach, ha, hbehind, rfl⟩ := ih (hafter.trans hlast.le) b hb
        exact ⟨u, a, hreach.head hnext, ha, hlast.trans hbehind, rfl⟩

section Growing

variable (hserves : Serves ask key start visible id render) (hkeys : ∀ s, ((visible s).map id).Nodup)

include hserves hkeys

theorem pairwise (h : Fetch ask key next s after limits entries) (hafter : start ≤ after) :
    entries.Pairwise (fun a b => key a < key b) := by
  induction h with
  | done => exact .nil
  | @more s t after limit limits init rest last hpage hnext hrest ih =>
      obtain ⟨n, c, heq, _, _, hlast⟩ := last_shown hserves hafter hpage
      have hfirst : (init ++ [last]).Pairwise (fun a b => key a < key b) := by
        rw [heq, List.pairwise_map]
        simp only [hserves.key_render]
        exact page_pairwise (hkeys s) after n
      refine List.pairwise_append.mpr ⟨hfirst, ih (hafter.trans hlast.le), ?_⟩
      intro b hb c hc
      obtain ⟨_, a, _, _, hbehind, rfl⟩ := hrest.shown hserves (hafter.trans hlast.le) c hc
      rw [hserves.key_render]
      obtain hb | hb := List.mem_append.mp hb
      · exact ((List.pairwise_append.mp hfirst).2.2 b hb last List.mem_cons_self).trans hbehind
      · rw [List.mem_singleton.mp hb]
        exact hbehind

/-- What is visible at the start is read at some time, whatever comes after it. -/
theorem covers (hgrow : ∀ s t, next s t → visible s ⊆ visible t)
    (h : Fetch ask key next s after limits entries) (hafter : start ≤ after) :
    ∀ a ∈ visible s, after < id a → ∃ t, ReflTransGen next s t ∧ render t a ∈ entries := by
  induction h with
  | done hpage =>
      obtain ⟨n, hn, heq⟩ := hserves.page _ _ _ _ hafter hpage
      intro a ha habove
      exact absurd habove (not_above_of_page_eq_nil hn (List.map_eq_nil_iff.mp heq.symm) ha)
  | @more s t after limit limits init rest last hpage hnext hrest ih =>
      obtain ⟨n, c, heq, hc, hrender, hlast⟩ := last_shown hserves hafter hpage
      intro a ha habove
      obtain hmem | hbehind := mem_page_or_behind (hkeys s) n ha habove
      · refine ⟨s, .refl, List.mem_append_left _ ?_⟩
        rw [heq]
        exact List.mem_map_of_mem hmem
      · have hlater : key last < id a := by
          rw [hrender, hserves.key_render]
          exact hbehind c hc
        obtain ⟨u, hreach, hu⟩ := ih (hafter.trans hlast.le) a (hgrow s t hnext ha) hlater
        exact ⟨u, hreach.head hnext, List.mem_append_right _ hu⟩

theorem perm (habove : ∀ a ∈ visible s, after < id a) (h : Fetch ask key Eq s after limits entries)
    (hafter : start ≤ after) : entries.Perm ((visible s).map (render s)) := by
  have hsame {t : σ} (ht : ReflTransGen Eq s t) : t = s := by
    induction ht with
    | refl => rfl
    | tail _ heq ih => exact heq ▸ ih
  have hgrow : ∀ u t : σ, u = t → visible u ⊆ visible t := by
    rintro u t rfl
    exact List.Subset.refl _
  have hsorted := h.pairwise hserves hkeys hafter
  have hrendered : (((visible s).map (render s)).map key).Nodup := by
    have hkey : key ∘ render s = id := funext (hserves.key_render s)
    rw [List.map_map, hkey]
    exact hkeys s
  refine (List.perm_ext_iff_of_nodup (hsorted.imp (fun h heq => (heq ▸ h).ne rfl)) hrendered.of_map).mpr ?_
  intro b
  constructor
  · intro hb
    obtain ⟨t, a, ht, ha, _, rfl⟩ := h.shown hserves hafter b hb
    obtain rfl := hsame ht
    exact List.mem_map_of_mem ha
  · intro hb
    obtain ⟨a, ha, rfl⟩ := List.mem_map.mp hb
    obtain ⟨t, ht, hmem⟩ := h.covers hserves hkeys hgrow hafter a ha (habove a ha)
    rwa [hsame ht] at hmem

theorem countP_eq (habove : ∀ a ∈ visible s, after < id a) (h : Fetch ask key Eq s after limits entries)
    (hafter : start ≤ after) (p : β → Bool) :
    entries.countP p = (visible s).countP (fun a => p (render s a)) :=
  ((h.perm hserves hkeys habove hafter).countP_eq p).trans List.countP_map

end Growing

theorem exists_of_isSome (hserves : Serves ask key start visible id render) (hself : next s s)
    (hask : ∀ after limit, start ≤ after → (ask s after limit).isSome = true) (sizes : Nat → Nat)
    (hafter : start ≤ after) :
    ∃ n entries, Fetch ask key next s after ((List.range n).map sizes) entries := by
  generalize hleft : ((visible s).filter (fun a => after < id a)).length = left
  induction left using Nat.strongRecOn generalizing after sizes with
  | ind left ih =>
      obtain ⟨entries, hpage⟩ := Option.isSome_iff_exists.mp (hask after (sizes 0) hafter)
      obtain rfl | ⟨init, last, rfl⟩ := List.eq_nil_or_concat entries
      · exact ⟨1, [], .done hpage⟩
      · rw [List.concat_eq_append] at hpage
        obtain ⟨n, c, _, hc, hrender, hlast⟩ := last_shown hserves hafter hpage
        -- the entry the page ends with is left behind
        have hfewer : ((visible s).filter (fun a => key last < id a)).length < left := by
          have hboth : (visible s).filter (fun a => key last < id a) =
              ((visible s).filter (fun a => after < id a)).filter (fun a => key last < id a) := by
            rw [List.filter_filter]
            apply List.filter_congr
            intro a _
            simpa using fun h => hlast.trans h
          rw [hboth, ← hleft]
          apply List.length_filter_lt_length_iff_exists.mpr
          obtain ⟨hc, habove⟩ := mem_of_mem_page hc
          exact ⟨c, List.mem_filter.mpr ⟨hc, decide_eq_true habove⟩,
            by rw [hrender, hserves.key_render]; simp⟩
        obtain ⟨m, rest, hrest⟩ := ih _ hfewer (fun i => sizes (i + 1)) (hafter.trans hlast.le) rfl
        refine ⟨m + 1, init ++ [last] ++ rest, ?_⟩
        rw [List.range_succ_eq_map, List.map_cons, List.map_map]
        exact .more hpage hself hrest

end Fetch

end TriNet.Lib.Paging
