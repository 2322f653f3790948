import TriNet.Phone.Effects
import TriNet.Phone.Transport
import Mathlib.Data.List.Lattice

namespace TriNet.Phone

open Lib.BigEndian Lib.Runs

namespace Tables

variable {κ : Type} [DecidableEq κ] {t t' : Tables κ} {k : κ}

def buffered (t : Tables κ) : List κ := t.fec.keys ∪ t.frag.keys

@[simp] theorem mem_buffered : k ∈ t.buffered ↔ k ∈ t.fec ∨ k ∈ t.frag := List.mem_union_iff

theorem nodup_buffered (t : Tables κ) : t.buffered.Nodup := t.frag.keys_nodup.union _

theorem length_buffered_le (h : t'.buffered ⊆ t.buffered) : t'.buffered.length ≤ t.buffered.length :=
  (List.subperm_of_subset t'.nodup_buffered h).length_le

theorem length_buffered_new (h : ∀ k', k' ∈ t'.buffered ↔ k' = k ∨ k' ∈ t.buffered)
    (hk : k ∉ t.buffered) : t'.buffered.length = t.buffered.length + 1 := by
  have hnodup : (k :: t.buffered).Nodup := List.nodup_cons.mpr ⟨hk, t.nodup_buffered⟩
  have hperm := (List.perm_ext_iff_of_nodup t'.nodup_buffered hnodup).mpr
    (fun k' => (h k').trans List.mem_cons.symm)
  exact hperm.length_eq

theorem clear_of_notMem (h : k ∉ t.buffered) : t.Clear k := by
  rw [mem_buffered, not_or] at h
  exact ⟨AList.lookup_eq_none.mpr h.2, AList.lookup_eq_none.mpr h.1⟩

theorem Touched.mem (h : Touched k t t') {k' : κ} : k' ∈ t'.frag ↔ k' ∈ t.frag := by
  have hsub {t t' : Tables κ} (h : Touched k t t') (hk' : k' ∈ t'.frag) : k' ∈ t.frag := by
    obtain ⟨e', he'⟩ := Option.isSome_iff_exists.mp (AList.lookup_isSome.mpr hk')
    obtain ⟨e, he, _⟩ := h.lookup he'
    exact AList.lookup_isSome.mp (Option.isSome_iff_exists.mpr ⟨e, he⟩)
  exact ⟨hsub h, hsub h.symm⟩

theorem buffered_forget_subset (t : Tables κ) (k : κ) : (t.forget k).buffered ⊆ t.buffered := by
  intro k' hk'
  rw [mem_buffered] at hk' ⊢
  exact hk'.imp (fun h => (AList.mem_erase.mp h).2) (fun h => (AList.mem_erase.mp h).2)

theorem mem_buffered_keepParity {gStart : Nat} {par : Parity} {k' : κ} :
    k' ∈ (t.keepParity k gStart par).buffered ↔ k' = k ∨ k' ∈ t.buffered := by
  rw [mem_buffered, mem_buffered, keepParity, AList.mem_insert, or_assoc]

def Paired (t : Tables κ) : Prop := ∀ k ∈ t.fec, k ∈ t.frag

theorem Paired.length_buffered (h : t.Paired) : t.buffered.length = t.frag.keys.length := by
  rw [buffered, List.Subset.union_eq_right h]

theorem Paired.touched (h : t.Paired) (ht : Touched k t t') : t'.Paired := by
  intro k' hk'
  rw [ht.fec] at hk'
  exact ht.mem.mpr (h k' hk')

theorem Paired.forget (h : t.Paired) (k : κ) : (t.forget k).Paired := by
  intro k' hk'
  obtain ⟨hne, hmem⟩ := AList.mem_erase.mp hk'
  exact AList.mem_erase.mpr ⟨hne, h k' hmem⟩

end Tables

namespace Receiver

variable {r : Receiver} {t : Tables Nat} {d : Bytes} {shuffle : Shuffle} {k seq tick : Nat}

theorem mem_collect : k ∈ (collect t).buffered → k ∈ t.buffered := by
  rcases collect_cases t with ⟨_, heq⟩ | ⟨_, keep, _, heq⟩
  · rw [heq]
    exact id
  · rw [heq, Tables.mem_buffered, Tables.mem_buffered, Dictionary.mem_filter, Dictionary.mem_filter]
    exact Or.imp And.left And.left

theorem length_buffered_collect (h : fragBufsCap < t.frag.keys.length) :
    (collect t).buffered.length ≤ fragBufsCap := by
  rcases collect_cases t with ⟨hle, _⟩ | ⟨_, keep, hlen, heq⟩
  · exact absurd h (Nat.not_lt.mpr hle)
  · have hsub : (collect t).buffered ⊆ keep := by
      intro k hk
      rw [heq, Tables.mem_buffered, Dictionary.mem_filter, Dictionary.mem_filter] at hk
      exact hk.elim (fun h => of_decide_eq_true h.2) (fun h => of_decide_eq_true h.2)
    exact (List.subperm_of_subset (Tables.nodup_buffered _) hsub).length_le.trans hlen

theorem paired_collect (h : t.Paired) : (collect t).Paired := by
  rcases collect_cases t with ⟨_, heq⟩ | ⟨_, keep, _, heq⟩
  · rwa [heq]
  · rw [heq]
    intro k hk
    obtain ⟨hmem, hkeep⟩ := Dictionary.mem_filter.mp hk
    exact Dictionary.mem_filter.mpr ⟨h k hmem, hkeep⟩

theorem buffered_of_effect (h : Effect d r t tick) (hk : k ∈ t.buffered) :
    k ∈ r.tables.buffered ∨ (decode d).seq = some k := by
  cases h with
  | same => exact .inl hk
  | finished seq => exact .inl (r.tables.buffered_forget_subset seq hk)
  | parity hd ht =>
      rw [Tables.mem_buffered, ht.fec, ht.mem, ← Tables.mem_buffered, Tables.mem_buffered_keepParity] at hk
      refine hk.symm.imp_right (fun heq => ?_)
      rw [hd, heq]
      rfl
  | fragment hd ht =>
      have hmem := mem_collect hk
      rw [Tables.mem_buffered, ht.fec, ht.mem, stored, AList.mem_insert] at hmem
      rw [Tables.mem_buffered, hd]
      rcases hmem with hfec | rfl | hfrag
      · exact .inl (.inl hfec)
      · exact .inr rfl
      · exact .inl (.inr hfrag)

theorem paired_of_effect (h : r.tables.Paired)
    (hparity : ∀ seq gStart gLen lastLen total xor, decode d = .parity seq gStart gLen lastLen total xor →
      seq ∈ r.tables.frag) (heffect : Effect d r t tick) : t.Paired := by
  cases heffect with
  | same => exact h
  | finished seq => exact h.forget seq
  | @parity seq gStart gLen lastLen total xor t hd ht =>
      refine Tables.Paired.touched (fun k hk => ?_) ht
      rcases (AList.mem_insert _).mp hk with rfl | hk
      · exact hparity _ _ _ _ _ _ hd
      · exact h k hk
  | @fragment seq idx total chunk t hd ht =>
      have hstored : (r.stored seq idx total chunk).Paired :=
        fun k hk => (AList.mem_insert _).mpr (.inr (h k hk))
      exact paired_collect (hstored.touched ht)

/-- The packets that leave at most as many numbers in use as there is room for.
A number is free to come into use if not all are in use, and if only fragments
use them, because a fragment then displaces the oldest. -/
def Admits (r : Receiver) (d : Bytes) : Prop :=
  match decode d with
  | .whole _ | .ignored => True
  | .parity seq .. => seq ∈ r.tables.buffered ∨ r.tables.buffered.length < fragBufsCap
  | .fragment seq _ total _ =>
      seq ∈ r.deliveredOrder ∨ total = 1 ∨ seq ∈ r.tables.buffered ∨
        r.tables.buffered.length < fragBufsCap ∨ fragBufsCap ≤ r.tables.frag.keys.length

theorem reassemble_parity {gStart gLen lastLen total : Nat} {xor : Bytes}
    (hd : decode d = .parity seq gStart gLen lastLen total xor) (hnew : r.tables.Clear seq)
    (groupMode : Bool) :
    (r.reassemble groupMode shuffle d).1.tables =
      r.tables.keepParity seq gStart ⟨xor, gLen, lastLen, total⟩ := by
  rw [reassemble, hd]
  dsimp only
  rw [Tables.tryFEC_of_none (t := r.tables.keepParity ..) hnew.1]

theorem held_put_of_clear (hnew : r.tables.Clear seq) (idx total : Nat) (chunk : Bytes) :
    ((r.tables.entry seq total).put idx chunk).held = 1 := by
  rw [Tables.entry, hnew.1]
  dsimp only
  rw [Entry.put, if_pos (Entry.part_empty ..)]
  rfl

theorem reassemble_fragment {idx total : Nat} {chunk : Bytes}
    (hd : decode d = .fragment seq idx total chunk)
    (hnew : r.tables.Clear seq) (hpending : seq ∉ r.deliveredOrder) :
    (r.reassemble false shuffle d).1.tables =
      if total = 1 then r.tables.forget seq else collect (r.stored seq idx total chunk) := by
  have hheld := held_put_of_clear hnew idx total chunk
  have htry : (r.stored seq idx total chunk).tryGroups seq
      (shuffle.1 ((r.stored seq idx total chunk).groupsHere seq)) =
        (r.stored seq idx total chunk, none) := by
    have hhere : (r.stored seq idx total chunk).groupsHere seq = [] := by
      rw [Tables.groupsHere, stored, hnew.2]
      rfl
    rw [hhere, (shuffle.2 []).eq_nil, Tables.tryGroups]
  rw [reassemble, hd]
  dsimp only
  rw [if_neg (fun h => hpending h.2)]
  by_cases hone : total = 1
  · rw [if_pos (hheld.trans hone.symm), if_pos hone]
    exact tables_markDelivered ..
  · simp only [stored] at htry ⊢
    rw [if_neg (fun h => hone (h.symm.trans hheld)), if_neg hone, htry]

theorem length_buffered_le_of_mem (h : r.tables.buffered.length ≤ fragBufsCap)
    (hmem : ∀ seq, (decode d).seq = some seq → seq ∈ r.tables.buffered) (groupMode : Bool) :
    (r.reassemble groupMode shuffle d).1.tables.buffered.length ≤ fragBufsCap := by
  have heffect := reassemble_effect groupMode shuffle r d
  have hsub : (r.reassemble groupMode shuffle d).1.tables.buffered ⊆ r.tables.buffered :=
    fun k hk => (buffered_of_effect heffect hk).elim id (hmem k)
  exact (Tables.length_buffered_le hsub).trans h

theorem length_buffered_stored (hnew : seq ∉ r.tables.buffered) (idx total : Nat) (chunk : Bytes) :
    (r.stored seq idx total chunk).buffered.length = r.tables.buffered.length + 1 ∧
      (r.stored seq idx total chunk).frag.keys.length = r.tables.frag.keys.length + 1 := by
  constructor
  · refine Tables.length_buffered_new (fun k => ?_) hnew
    rw [Tables.mem_buffered, Tables.mem_buffered, stored, AList.mem_insert]
    exact or_left_comm
  · rw [Tables.mem_buffered, not_or] at hnew
    rw [stored, AList.keys_insert, List.length_cons, List.erase_of_not_mem hnew.2]

theorem length_buffered_parity_iff {gStart gLen lastLen total : Nat} {xor : Bytes}
    (hd : decode d = .parity seq gStart gLen lastLen total xor)
    (h : r.tables.buffered.length ≤ fragBufsCap) :
    (r.reassemble false shuffle d).1.tables.buffered.length ≤ fragBufsCap ↔
      seq ∈ r.tables.buffered ∨ r.tables.buffered.length < fragBufsCap := by
  by_cases hmem : seq ∈ r.tables.buffered
  · refine iff_of_true (length_buffered_le_of_mem h (fun k hk => ?_) false) (.inl hmem)
    rw [hd] at hk
    exact Option.some.inj hk ▸ hmem
  · rw [reassemble_parity hd (Tables.clear_of_notMem hmem),
      Tables.length_buffered_new (fun _ => Tables.mem_buffered_keepParity) hmem]
    exact ⟨.inr, fun hlt => hlt.resolve_left hmem⟩

theorem length_buffered_collect_stored_iff (hmem : seq ∉ r.tables.buffered)
    (idx total : Nat) (chunk : Bytes) :
    (collect (r.stored seq idx total chunk)).buffered.length ≤ fragBufsCap ↔
      r.tables.buffered.length < fragBufsCap ∨ fragBufsCap ≤ r.tables.frag.keys.length := by
  obtain ⟨hbuffered, hkeys⟩ := length_buffered_stored hmem idx total chunk
  rcases collect_cases (r.stored seq idx total chunk) with ⟨hroom, heq⟩ | ⟨hover, _⟩
  · rw [hkeys] at hroom
    rw [heq, hbuffered]
    exact ⟨.inl, fun hlt => hlt.resolve_right (Nat.not_le.mpr hroom)⟩
  · refine iff_of_true (length_buffered_collect hover) (.inr ?_)
    rw [hkeys] at hover
    exact Nat.le_of_lt_succ hover

theorem length_buffered_fragment_iff {idx total : Nat} {chunk : Bytes}
    (hd : decode d = .fragment seq idx total chunk) (h : r.tables.buffered.length ≤ fragBufsCap) :
    (r.reassemble false shuffle d).1.tables.buffered.length ≤ fragBufsCap ↔
      seq ∈ r.deliveredOrder ∨ total = 1 ∨ seq ∈ r.tables.buffered ∨
        r.tables.buffered.length < fragBufsCap ∨ fragBufsCap ≤ r.tables.frag.keys.length := by
  by_cases hdone : seq ∈ r.deliveredOrder
  · have hsame : r.reassemble false shuffle d = (r, none) := by
      rw [reassemble, hd]
      exact if_pos ⟨rfl, hdone⟩
    rw [hsame]
    exact iff_of_true h (.inl hdone)
  by_cases hmem : seq ∈ r.tables.buffered
  · refine iff_of_true (length_buffered_le_of_mem h (fun k hk => ?_) false) (.inr (.inr (.inl hmem)))
    rw [hd] at hk
    exact Option.some.inj hk ▸ hmem
  rw [reassemble_fragment hd (Tables.clear_of_notMem hmem) hdone]
  by_cases hone : total = 1
  · rw [if_pos hone]
    have hle := Tables.length_buffered_le (r.tables.buffered_forget_subset seq)
    exact iff_of_true (hle.trans h) (.inr (.inl hone))
  · rw [if_neg hone, length_buffered_collect_stored_iff hmem]
    simp only [hdone, hone, hmem, false_or]

theorem length_buffered_le_iff (h : r.tables.buffered.length ≤ fragBufsCap) :
    (r.reassemble false shuffle d).1.tables.buffered.length ≤ fragBufsCap ↔ r.Admits d := by
  rw [Admits]
  cases hd : decode d with
  | whole => exact iff_of_true (length_buffered_le_of_mem h (by rw [hd]; exact nofun) false) trivial
  | ignored => exact iff_of_true (length_buffered_le_of_mem h (by rw [hd]; exact nofun) false) trivial
  | parity => exact length_buffered_parity_iff hd h
  | fragment => exact length_buffered_fragment_iff hd h

end Receiver

namespace World

variable {w : World} {e : Event}

def Admits (w : World) : Event → Prop
  | .deliver x _ => x ∈ w.channel → w.receiver.Admits x.bytes
  | _ => True

/-- A parity comes in while fragments of its message are here, and not after the
message is complete. -/
def Timely (w : World) : Event → Prop
  | .deliver x _ => x ∈ w.channel →
      ∀ seq gStart gLen lastLen total xor, decode x.bytes = .parity seq gStart gLen lastLen total xor →
        seq ∈ w.receiver.tables.frag
  | _ => True

theorem length_buffered_step (h : w.receiver.tables.buffered.length ≤ Receiver.fragBufsCap) :
    (w.step e).receiver.tables.buffered.length ≤ Receiver.fragBufsCap ↔ w.Admits e := by
  cases e with
  | deliver x shuffle =>
      rw [step, deliver, Admits]
      by_cases hx : x ∈ w.channel
      · rw [if_pos hx]
        exact (Receiver.length_buffered_le_iff h).trans
          ⟨fun hadmits _ => hadmits, fun hadmits => hadmits hx⟩
      · rw [if_neg hx]
        exact iff_of_true h (fun hin => absurd hin hx)
  | _ => exact iff_of_true h trivial

theorem paired_step (h : w.receiver.tables.Paired) (he : w.Timely e) :
    (w.step e).receiver.tables.Paired := by
  cases e with
  | deliver x shuffle =>
      rw [step, deliver]
      split
      · next hx => exact Receiver.paired_of_effect h (he hx) (Receiver.reassemble_effect false shuffle _ _)
      · exact h
  | _ => exact h

theorem admits_of_timely (h : w.receiver.tables.Paired) (he : w.Timely e) : w.Admits e := by
  cases e with
  | deliver x shuffle =>
      intro hx
      rw [Receiver.Admits]
      cases hd : decode x.bytes with
      | whole => trivial
      | ignored => trivial
      | parity seq gStart gLen lastLen total xor =>
          exact .inl (Tables.mem_buffered.mpr (.inr (he hx _ _ _ _ _ _ hd)))
      | fragment seq idx total chunk =>
          refine .inr (.inr (.inr ?_))
          rw [h.length_buffered]
          exact Nat.lt_or_ge _ _
  | _ => trivial

/-- The numbers in use stay within the bound exactly as long as no packet brings
a new one when all are in use and some by parities alone. They do if every
parity comes in time. -/
theorem buffered_bounded_iff (es : List Event) :
    ((∀ past, past <+: es → (run step start past).receiver.tables.buffered.length ≤ Receiver.fragBufsCap) ↔
        Along step Admits start es) ∧
      (Along step Timely start es → Along step Admits start es) := by
  constructor
  · exact forall_prefix_iff_along step Admits (fun _ => True)
      (fun w => w.receiver.tables.buffered.length ≤ Receiver.fragBufsCap) (fun _ _ _ => trivial)
      (fun w e _ h => length_buffered_step h) start es trivial (Nat.zero_le _)
  · intro h
    exact along_of_along step Timely Admits (fun w => w.receiver.tables.Paired)
      (fun w e => paired_step) (fun w e => admits_of_timely) start es nofun h

/-- The parity comes in while a fragment of its message is here, and repairs it. -/
theorem buffered_bounded_repaired :
    Along step Timely start repaired ∧ (run step start repaired).returned = [ones.bytes] ∧
      ∀ past, past <+: repaired →
        (run step start past).receiver.tables.buffered.length ≤ Receiver.fragBufsCap := by
  let m : Long := ⟨ones.bytes, by decide +kernel, by decide +kernel⟩
  have htotal : 0 < m.total := by decide +kernel
  have htimely : Along step Timely start repaired := by
    refine ⟨trivial, fun _ seq gStart gLen lastLen total xor hd => ?_,
      fun _ seq gStart gLen lastLen total xor hd => ?_, trivial⟩
    · cases (decode_fragmentPacket (by decide) m htotal).symm.trans hd
    · cases (@decode_parityPacket _ (by decide) m 16 0 htotal).symm.trans hd
      decide +kernel
  obtain ⟨hbound, hadmits⟩ := buffered_bounded_iff repaired
  exact ⟨htimely, by decide +kernel, hbound.mpr (hadmits htimely)⟩

/-- Everything a peer sends comes in, in the order in which it was sent. -/
def lossless (n : Nat) : List Event :=
  (List.range n).flatMap (fun i =>
    .send ones 16 :: (packets 16 (i + 1) ones.bytes).map (fun d => .deliver ⟨i, d⟩ .inOrder))

/-- The last parity of each message comes after the message is complete and
stays. -/
theorem late_parities_stay :
    (run step start (lossless 25)).returned.length = 25 ∧
      (run step start (lossless 25)).receiver.tables.buffered.length = Receiver.fragBufsCap + 1 := by
  decide +kernel

end World

end TriNet.Phone
