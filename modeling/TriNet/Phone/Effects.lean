import TriNet.Phone.Checked

namespace TriNet.Phone

open Lib.BigEndian

namespace Dictionary

variable {κ V : Type} [DecidableEq κ] {s : Dictionary κ V} {k : κ}

theorem erase_erase_self (s : Dictionary κ V) (k : κ) : (s.erase k).erase k = s.erase k := by
  apply AList.ext
  exact List.kerase_of_notMem_keys (List.notMem_keys_kerase k s.nodupKeys)

theorem erase_insert (s : Dictionary κ V) (k : κ) (v : V) : AList.erase k (s.insert k v) = s.erase k := by
  apply AList.ext
  change List.kerase k (s.insert k v).entries = List.kerase k s.entries
  rw [AList.entries_insert]
  exact List.kerase_cons_eq rfl

omit [DecidableEq κ] in
theorem mem_filter {p : κ → Bool} : k ∈ s.filter p ↔ k ∈ s ∧ p k = true := by
  simp only [AList.mem_keys, AList.keys, List.keys, Dictionary.filter, List.mem_map, List.mem_filter]
  constructor
  · rintro ⟨x, ⟨hx, hp⟩, rfl⟩
    exact ⟨⟨x, hx, rfl⟩, hp⟩
  · rintro ⟨⟨x, hx, rfl⟩, hp⟩
    exact ⟨x, ⟨hx, hp⟩, rfl⟩

theorem lookup_filter_of_pos {p : κ → Bool} (hk : p k = true) : (s.filter p).lookup k = s.lookup k := by
  apply Option.ext
  intro v
  constructor
  · exact fun h => lookup_filter h
  · intro h
    exact AList.mem_lookup_iff.mpr (List.mem_filter.mpr ⟨AList.mem_lookup_iff.mp h, hk⟩)

end Dictionary

def Entry.shape (e : Entry) : Nat × Nat := (e.parts.length, e.tick)

namespace Tables

variable {κ : Type} [DecidableEq κ] {t t' t'' : Tables κ} {k : κ}

/-- Slots of the entry under a key were filled, and nothing else was done. -/
structure Touched (k : κ) (t t' : Tables κ) : Prop where
  fec : t'.fec = t.fec
  others : t'.frag.erase k = t.frag.erase k
  entry : (t'.frag.lookup k).map Entry.shape = (t.frag.lookup k).map Entry.shape

theorem Touched.refl (k : κ) (t : Tables κ) : Touched k t t := ⟨rfl, rfl, rfl⟩

theorem Touched.trans (h : Touched k t t') (h' : Touched k t' t'') : Touched k t t'' :=
  ⟨h'.fec.trans h.fec, h'.others.trans h.others, h'.entry.trans h.entry⟩

theorem Touched.fill {e : Entry} (he : t.frag.lookup k = some e) (idx : Nat) (chunk : Bytes) :
    Touched k t { t with frag := t.frag.insert k (e.fill idx chunk) } where
  fec := rfl
  others := Dictionary.erase_insert ..
  entry := by
    rw [AList.lookup_insert, he, Option.map_some, Option.map_some, Entry.shape, Entry.shape,
      Entry.fill, List.length_set]

theorem Touched.forget (h : Touched k t t') : t'.forget k = t.forget k := by
  rw [Tables.forget, Tables.forget, h.others, h.fec]

theorem Touched.lookup (h : Touched k t t') {k' : κ} {e' : Entry}
    (he' : t'.frag.lookup k' = some e') : ∃ e, t.frag.lookup k' = some e ∧ e'.shape = e.shape := by
  by_cases hk : k' = k
  · subst hk
    have hentry := h.entry
    rw [he', Option.map_some] at hentry
    obtain ⟨e, he, hshape⟩ := Option.map_eq_some_iff.mp hentry.symm
    exact ⟨e, he, hshape.symm⟩
  · have herase := Dictionary.lookup_erase_iff.mpr ⟨hk, he'⟩
    rw [h.others] at herase
    exact ⟨e', (Dictionary.lookup_erase_iff.mp herase).2, rfl⟩

theorem Touched.symm (h : Touched k t t') : Touched k t' t := ⟨h.fec.symm, h.others.symm, h.entry.symm⟩

/-- What a try to repair a message does: it completes the message, or fills slots
of it. -/
inductive Tried (k : κ) (t : Tables κ) : Tables κ × Option Bytes → Prop
  | whole (out : Bytes) : Tried k t (t.forget k, some out)
  | touched {t' : Tables κ} (h : Touched k t t') : Tried k t (t', none)

theorem tryFEC_tried (t : Tables κ) (k : κ) (gStart : Nat) : Tried k t (t.tryFEC k gStart) := by
  rw [tryFEC]
  split
  · next fec e _ he =>
      split
      · split
        · exact .touched (.refl k t)
        · dsimp only
          split
          · exact .whole _
          · exact .touched (.fill he ..)
      · exact .touched (.refl k t)
  · exact .touched (.refl k t)

theorem tryFEC_of_none (h : t.frag.lookup k = none) (gStart : Nat) : t.tryFEC k gStart = (t, none) := by
  rw [tryFEC, h]
  cases (t.fec.lookup k).bind (AList.lookup gStart) <;> rfl

theorem tryGroups_tried (t : Tables κ) (k : κ) (groups : List Nat) : Tried k t (t.tryGroups k groups) := by
  induction groups generalizing t with
  | nil => exact .touched (.refl k t)
  | cons gStart groups ih =>
      have hfirst := tryFEC_tried t k gStart
      rw [tryGroups]
      generalize t.tryFEC k gStart = result at hfirst
      cases hfirst with
      | whole out => exact .whole out
      | @touched t' h =>
          have hrest := ih t'
          dsimp only
          generalize t'.tryGroups k groups = result at hrest
          cases hrest with
          | whole out =>
              rw [h.forget]
              exact .whole out
          | touched h' => exact .touched (h.trans h')

theorem forget_keepParity (t : Tables κ) (k : κ) (gStart : Nat) (par : Parity) :
    (t.keepParity k gStart par).forget k = t.forget k := by
  rw [forget, keepParity, Dictionary.erase_insert]
  rfl

end Tables

namespace Receiver

variable {r : Receiver} {d : Bytes}

theorem collect_cases (t : Tables Nat) :
    t.frag.keys.length ≤ fragBufsCap ∧ collect t = t ∨
      fragBufsCap < t.frag.keys.length ∧ ∃ keep : List Nat, keep.length ≤ fragBufsCap ∧
        collect t = ⟨t.frag.filter (fun k => k ∈ keep), t.fec.filter (fun k => k ∈ keep)⟩ := by
  have hkeys : t.frag.keys.length = t.frag.entries.length := List.length_map ..
  rw [collect, hkeys]
  split
  · next hover =>
      refine .inr ⟨hover, _, ?_, rfl⟩
      rw [List.length_map]
      exact List.length_take_le ..
  · next hroom => exact .inl ⟨Nat.not_lt.mp hroom, rfl⟩

theorem lookup_collect {t : Tables Nat} {k : Nat} {e : Entry}
    (h : (collect t).frag.lookup k = some e) : t.frag.lookup k = some e := by
  rcases collect_cases t with ⟨_, heq⟩ | ⟨_, keep, _, heq⟩
  · rwa [heq] at h
  · rw [heq] at h
    exact Dictionary.lookup_filter h

inductive Effect (d : Bytes) (r : Receiver) : Tables Nat → Nat → Prop
  | same : Effect d r r.tables r.fragTick
  | finished (seq : Nat) {tick : Nat} (htick : tick = r.fragTick ∨ tick = (r.fragTick + 1) % 2 ^ 64) :
      Effect d r (r.tables.forget seq) tick
  | parity {seq gStart gLen lastLen total : Nat} {xor : Bytes} {t : Tables Nat}
      (hd : decode d = .parity seq gStart gLen lastLen total xor)
      (h : Tables.Touched seq (r.tables.keepParity seq gStart ⟨xor, gLen, lastLen, total⟩) t) :
      Effect d r t r.fragTick
  | fragment {seq idx total : Nat} {chunk : Bytes} {t : Tables Nat}
      (hd : decode d = .fragment seq idx total chunk)
      (h : Tables.Touched seq (r.stored seq idx total chunk) t) :
      Effect d r (collect t) ((r.fragTick + 1) % 2 ^ 64)

theorem forget_stored (r : Receiver) (seq idx total : Nat) (chunk : Bytes) :
    (r.stored seq idx total chunk).forget seq = r.tables.forget seq := by
  rw [Tables.forget, stored, Dictionary.erase_insert]
  rfl

theorem effect_finish {seq tick : Nat}
    (htick : tick = r.fragTick ∨ tick = (r.fragTick + 1) % 2 ^ 64) (groupMode : Bool) (m : Bytes) :
    let r' := ({ r with fragTick := tick }.finish groupMode seq (r.tables.forget seq) m).1
    Effect d r r'.tables r'.fragTick := by
  dsimp only [finish]
  rw [tables_markDelivered, fragTick_markDelivered]
  exact .finished seq htick

theorem reassemble_effect (groupMode : Bool) (shuffle : Shuffle) (r : Receiver) (d : Bytes) :
    Effect d r (r.reassemble groupMode shuffle d).1.tables
      (r.reassemble groupMode shuffle d).1.fragTick := by
  rw [reassemble]
  cases hd : decode d with
  | whole d => exact .same
  | ignored => exact .same
  | parity seq gStart gLen lastLen total xor =>
      have htried :=
        Tables.tryFEC_tried (r.tables.keepParity seq gStart ⟨xor, gLen, lastLen, total⟩) seq gStart
      dsimp only
      generalize Tables.tryFEC _ seq gStart = result at htried
      cases htried with
      | whole out =>
          rw [Tables.forget_keepParity]
          exact effect_finish (.inl rfl) ..
      | touched h => exact .parity hd h
  | fragment seq idx total chunk =>
      dsimp only
      split
      · exact .same
      · split
        · exact effect_finish (.inl rfl) ..
        · have htried := Tables.tryGroups_tried (r.stored seq idx total chunk) seq
            (shuffle.1 ((r.stored seq idx total chunk).groupsHere seq))
          rw [stored] at htried
          generalize Tables.tryGroups _ seq _ = result at htried
          cases htried with
          | whole out =>
              have hforget := forget_stored r seq idx total chunk
              rw [stored] at hforget
              rw [hforget]
              exact effect_finish (.inr rfl) ..
          | touched h => exact .fragment hd h

end Receiver

end TriNet.Phone
