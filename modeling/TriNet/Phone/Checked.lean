import TriNet.Phone.Reassembly

namespace TriNet.Phone

open Lib.BigEndian Lib.Parity

/-- The range `lo..<hi`; an inverted one traps. -/
def halfOpen (lo hi : Nat) : Option (List Nat) := if lo ≤ hi then some (List.range' lo (hi - lo)) else none

namespace VideoFEC

/-- Xor a fragment into an accumulator, index by index; a longer one traps. -/
def xorAt (acc p : Bytes) : Option Bytes := if p.length ≤ acc.length then some (xorInto acc p) else none

def recoverChecked (parity : Bytes) (present : Nat → Option Bytes)
    (gStart gLen total lastLen : Nat) : Option (Option (Nat × Bytes)) :=
  if min (gStart + gLen) total ≤ gStart then some none
  else
    match (covered gStart gLen total).filter (fun i => (present i).isNone) with
    | [missing] =>
        (((covered gStart gLen total).filter (· ≠ missing)).map
          (fun i => (present i).getD [])).foldlM xorAt parity |>.map (fun rebuilt =>
            let len := if missing = total - 1 then lastLen else maxPayload
            if len ≤ rebuilt.length then some (missing, rebuilt.take len) else none)
    | _ => some none

end VideoFEC

namespace Tables

variable {κ : Type} [DecidableEq κ]

def tryFECChecked (t : Tables κ) (k : κ) (gStart : Nat) : Option (Tables κ × Option Bytes) :=
  match (t.fec.lookup k).bind (AList.lookup gStart), t.frag.lookup k with
  | some fec, some e =>
      if e.parts.length = fec.total then
        match halfOpen gStart (min (gStart + fec.gLen) fec.total) with
        | none => none
        | some group =>
            if group.any (fun i => e.parts.length ≤ i) then none
            else
              match VideoFEC.recoverChecked fec.xor e.part gStart fec.gLen fec.total fec.lastLen with
              | none => none
              | some none => some (t, none)
              | some (some (idx, bytes)) =>
                  if idx < e.parts.length then
                    let e := e.fill idx bytes
                    if e.held = fec.total then some (t.forget k, some e.bytes)
                    else some ({ t with frag := t.frag.insert k e }, none)
                  else none
      else some (t, none)
  | _, _ => some (t, none)

def tryGroupsChecked (t : Tables κ) (k : κ) : List Nat → Option (Tables κ × Option Bytes)
  | [] => some (t, none)
  | gStart :: rest =>
      match t.tryFECChecked k gStart with
      | none => none
      | some (t, some m) => some (t, some m)
      | some (t, none) => t.tryGroupsChecked k rest

end Tables

def Receiver.reassembleChecked (groupMode : Bool) (shuffle : Shuffle) (r : Receiver) (d : Bytes) :
    Option (Receiver × Option Bytes) :=
  match decode d with
  | .whole d => some (r, some d)
  | .ignored => some (r, none)
  | .parity seq gStart gLen lastLen total xor =>
      match (r.tables.keepParity seq gStart ⟨xor, gLen, lastLen, total⟩).tryFECChecked seq gStart with
      | none => none
      | some (t, some m) => some (r.finish groupMode seq t m)
      | some (t, none) => some ({ r with tables := t }, none)
  | .fragment seq idx total chunk =>
      if groupMode = false ∧ seq ∈ r.deliveredOrder then some (r, none)
      else if (r.tables.entry seq total).parts.length ≤ idx then none
      else
        let e := (r.tables.entry seq total).put idx chunk
        if e.held = total then some (r.finish groupMode seq (r.tables.forget seq) e.bytes)
        else
          let tick := (r.fragTick + 1) % 2 ^ 64
          let r := { r with fragTick := tick }
          let t := { r.tables with frag := r.tables.frag.insert seq { e with tick } }
          match t.tryGroupsChecked seq (shuffle.1 (t.groupsHere seq)) with
          | none => none
          | some (t, some m) => some (r.finish groupMode seq t m)
          | some (t, none) => some ({ r with tables := collect t }, none)

/-- A parity that agrees with the fragments it meets: its group does not start
beyond the message, and none of the fragments it is xored with to rebuild
another is longer than it is. -/
def Parity.Fits (fec : Parity) (gStart : Nat) (present : Nat → Option Bytes) : Prop :=
  gStart ≤ fec.total ∧
    ∀ missing, (VideoFEC.covered gStart fec.gLen fec.total).filter (fun i => (present i).isNone) =
      [missing] →
      ∀ i ∈ VideoFEC.covered gStart fec.gLen fec.total, ∀ chunk, present i = some chunk →
        chunk.length ≤ fec.xor.length

namespace VideoFEC

theorem foldlM_xorAt_of_le {acc : Bytes} {ps : List Bytes} (h : ∀ p ∈ ps, p.length ≤ acc.length) :
    ps.foldlM xorAt acc = some (ps.foldl xorInto acc) := by
  induction ps generalizing acc with
  | nil => rfl
  | cons p ps ih =>
      obtain ⟨hp, hps⟩ := List.forall_mem_cons.mp h
      rw [List.foldlM_cons, xorAt, if_pos hp]
      exact ih (by simpa using hps)

theorem foldlM_xorAt_of_lt {acc : Bytes} {ps : List Bytes} {p : Bytes} (hp : p ∈ ps)
    (hlong : acc.length < p.length) : ps.foldlM xorAt acc = none := by
  induction ps generalizing acc with
  | nil => exact absurd hp List.not_mem_nil
  | cons q ps ih =>
      rw [List.foldlM_cons]
      rcases List.mem_cons.mp hp with rfl | hp
      · rw [xorAt, if_neg (Nat.not_le.mpr hlong)]
        rfl
      · cases hq : xorAt acc q with
        | none => rfl
        | some acc' =>
            have hlen : acc'.length = acc.length := by
              rw [xorAt] at hq
              split at hq
              · rw [← Option.some.inj hq, length_xorInto]
              · cases hq
            exact ih hp (hlen.symm ▸ hlong)

variable {fec : Parity} {gStart : Nat} {present : Nat → Option Bytes}

theorem recoverChecked_of_fits (h : fec.Fits gStart present) :
    recoverChecked fec.xor present gStart fec.gLen fec.total fec.lastLen =
      some (recover fec.xor present gStart fec.gLen fec.total fec.lastLen) := by
  rw [recoverChecked, recover]
  by_cases hempty : min (gStart + fec.gLen) fec.total ≤ gStart
  · have hnone : covered gStart fec.gLen fec.total = [] := by
      rw [covered, Nat.sub_eq_zero_of_le hempty, List.range'_zero]
    simp [hempty, hnone]
  rw [if_neg hempty]
  cases hgaps : (covered gStart fec.gLen fec.total).filter (fun i => (present i).isNone) with
  | nil => rfl
  | cons missing rest =>
      cases rest with
      | cons _ _ => rfl
      | nil =>
          have hle : ∀ p ∈ ((covered gStart fec.gLen fec.total).filter (· ≠ missing)).map
              (fun i => (present i).getD []), p.length ≤ fec.xor.length := by
            intro p hp
            obtain ⟨i, hi, rfl⟩ := List.mem_map.mp hp
            cases hpart : present i with
            | none => simp
            | some chunk => exact h.2 missing hgaps i (List.mem_of_mem_filter hi) chunk hpart
          simp only [foldlM_xorAt_of_le hle, Option.map_some]

theorem recoverChecked_of_long {missing i : Nat} {chunk : Bytes} (hlong : fec.xor.length < chunk.length)
    (hmiss : (covered gStart fec.gLen fec.total).filter (fun i => (present i).isNone) = [missing])
    (hi : i ∈ covered gStart fec.gLen fec.total) (hchunk : present i = some chunk) :
    recoverChecked fec.xor present gStart fec.gLen fec.total fec.lastLen = none := by
  have hstop : ¬min (gStart + fec.gLen) fec.total ≤ gStart := by
    simp only [covered, List.mem_range'_1] at hi
    omega
  have hne : i ≠ missing := by
    rintro rfl
    have hno := List.mem_filter.mp (hmiss ▸ List.mem_singleton_self i : i ∈ _)
    rw [hchunk] at hno
    cases hno.2
  have hmem : chunk ∈ ((covered gStart fec.gLen fec.total).filter (· ≠ missing)).map
      (fun i => (present i).getD []) :=
    List.mem_map.mpr ⟨i, List.mem_filter.mpr ⟨hi, decide_eq_true hne⟩, by rw [hchunk, Option.getD_some]⟩
  rw [recoverChecked, if_neg hstop, hmiss]
  simp only [foldlM_xorAt_of_lt hmem hlong, Option.map_none]

end VideoFEC

namespace Tables

variable {κ : Type} [DecidableEq κ] {t : Tables κ} {k : κ} {gStart : Nat}

def Fits (t : Tables κ) (k : κ) (gStart : Nat) : Prop :=
  ∀ fec e, (t.fec.lookup k).bind (AList.lookup gStart) = some fec → t.frag.lookup k = some e →
    e.parts.length = fec.total → fec.Fits gStart e.part

/-- So does every group that is tried, until one completes the message. -/
def EachFits (t : Tables κ) (k : κ) : List Nat → Prop
  | [] => True
  | gStart :: rest =>
      t.Fits k gStart ∧ ((t.tryFEC k gStart).2 = none → (t.tryFEC k gStart).1.EachFits k rest)

theorem halfOpen_covered {total gLen : Nat} (h : gStart ≤ total) :
    halfOpen gStart (min (gStart + gLen) total) = some (VideoFEC.covered gStart gLen total) := by
  rw [halfOpen, if_pos (by omega), VideoFEC.covered]

theorem any_covered (gStart gLen total : Nat) :
    (VideoFEC.covered gStart gLen total).any (fun i => decide (total ≤ i)) = false := by
  rw [List.any_eq_false]
  intro i hi
  simp only [VideoFEC.covered, List.mem_range'_1] at hi
  simp only [decide_eq_true_eq]
  omega

theorem lt_of_recover {parity bytes : Bytes} {present : Nat → Option Bytes} {gLen total lastLen idx : Nat}
    (h : VideoFEC.recover parity present gStart gLen total lastLen = some (idx, bytes)) : idx < total := by
  rw [VideoFEC.recover] at h
  split at h
  · next missing hmiss =>
      simp only [Option.ite_none_right_eq_some, Option.some.injEq, Prod.mk.injEq] at h
      obtain ⟨_, rfl, _⟩ := h
      have hmem := List.mem_of_mem_filter (hmiss ▸ List.mem_singleton_self missing : missing ∈ _)
      simp only [VideoFEC.covered, List.mem_range'_1] at hmem
      omega
  · cases h

theorem tryFECChecked_of_fits (h : t.Fits k gStart) :
    t.tryFECChecked k gStart = some (t.tryFEC k gStart) := by
  rw [tryFECChecked, tryFEC]
  cases hfec : (t.fec.lookup k).bind (AList.lookup gStart) with
  | none => rfl
  | some fec =>
      cases he : t.frag.lookup k with
      | none => rfl
      | some e =>
          dsimp only
          by_cases hlen : e.parts.length = fec.total
          · have hfits := h fec e hfec he hlen
            have hin := any_covered gStart fec.gLen fec.total
            rw [if_pos hlen, if_pos hlen, halfOpen_covered hfits.1]
            dsimp only
            rw [hlen, hin, VideoFEC.recoverChecked_of_fits hfits]
            cases hrec : VideoFEC.recover fec.xor e.part gStart fec.gLen fec.total fec.lastLen with
            | none => rfl
            | some r =>
                obtain ⟨idx, bytes⟩ := r
                have hidx : idx < fec.total := lt_of_recover hrec
                simp only [Bool.false_eq_true, if_false, if_pos hidx]
                split <;> rfl
          · rw [if_neg hlen, if_neg hlen]

theorem tryFECChecked_of_not_fits (h : ¬t.Fits k gStart) : t.tryFECChecked k gStart = none := by
  simp only [Fits, not_forall] at h
  obtain ⟨fec, e, hfec, he, hlen, hnot⟩ := h
  rw [tryFECChecked, hfec, he]
  dsimp only
  rw [if_pos hlen]
  by_cases hstart : gStart ≤ fec.total
  · simp only [Parity.Fits, hstart, true_and, not_forall, Nat.not_le] at hnot
    obtain ⟨missing, hmiss, i, hi, chunk, hchunk, hlong⟩ := hnot
    rw [halfOpen_covered hstart]
    dsimp only
    rw [VideoFEC.recoverChecked_of_long hlong hmiss hi hchunk, ite_self]
  · have hinv : ¬gStart ≤ min (gStart + fec.gLen) fec.total := by omega
    rw [halfOpen, if_neg hinv]

theorem tryGroupsChecked_of_fits {groups : List Nat} (h : t.EachFits k groups) :
    t.tryGroupsChecked k groups = some (t.tryGroups k groups) := by
  induction groups generalizing t with
  | nil => rfl
  | cons gStart groups ih =>
      rw [tryGroupsChecked, tryFECChecked_of_fits h.1, tryGroups]
      obtain ⟨t', out, htry⟩ : ∃ t' out, t.tryFEC k gStart = (t', out) := ⟨_, _, rfl⟩
      have hrest := h.2
      rw [htry] at hrest ⊢
      cases out with
      | some m => rfl
      | none => exact ih (hrest rfl)

theorem tryGroupsChecked_of_not_fits {groups : List Nat} (h : ¬t.EachFits k groups) :
    t.tryGroupsChecked k groups = none := by
  induction groups generalizing t with
  | nil => exact absurd trivial h
  | cons gStart groups ih =>
      rw [tryGroupsChecked]
      by_cases hfits : t.Fits k gStart
      · rw [tryFECChecked_of_fits hfits]
        obtain ⟨t', out, htry⟩ : ∃ t' out, t.tryFEC k gStart = (t', out) := ⟨_, _, rfl⟩
        rw [EachFits, htry] at h
        rw [htry]
        cases out with
        | some m => exact absurd ⟨hfits, nofun⟩ h
        | none => exact ih (fun hrest => h ⟨hfits, fun _ => hrest⟩)
      · rw [tryFECChecked_of_not_fits hfits]

theorem length_entry (t : Tables κ) (k : κ) (total : Nat) : (t.entry k total).parts.length = total := by
  rw [entry]
  split
  · exact List.length_replicate
  · split
    · next hlen => exact hlen
    · exact List.length_replicate

end Tables

theorem Entry.length_put (e : Entry) (idx : Nat) (chunk : Bytes) :
    (e.put idx chunk).parts.length = e.parts.length := by
  rw [put]
  split
  · rw [fill, List.length_set]
  · rfl

theorem decode_fragment {d chunk : Bytes} {seq idx total : Nat}
    (h : decode d = .fragment seq idx total chunk) : idx < total ∧ total < 256 := by
  rw [decode] at h
  split at h
  · dsimp only at h
    split at h <;> cases h
  · split at h
    · cases h
    · split at h
      · dsimp only at h
        split at h
        · next hidx =>
            cases h
            exact ⟨hidx.2, UInt8.toNat_lt _⟩
        · cases h
      · cases h

namespace Receiver

variable {groupMode : Bool} {shuffle : Shuffle} {r : Receiver} {d : Bytes}

def stored (r : Receiver) (seq idx total : Nat) (chunk : Bytes) : Tables Nat :=
  { r.tables with
    frag := r.tables.frag.insert seq
      { (r.tables.entry seq total).put idx chunk with tick := (r.fragTick + 1) % 2 ^ 64 } }

/-- The packets that do not trap: every parity that is tried with one agrees
with the fragments that are here. -/
def Accepts (groupMode : Bool) (shuffle : Shuffle) (r : Receiver) (d : Bytes) : Prop :=
  match decode d with
  | .whole _ | .ignored => True
  | .parity seq gStart gLen lastLen total xor =>
      (r.tables.keepParity seq gStart ⟨xor, gLen, lastLen, total⟩).Fits seq gStart
  | .fragment seq idx total chunk =>
      ¬(groupMode = false ∧ seq ∈ r.deliveredOrder) →
        ((r.tables.entry seq total).put idx chunk).held ≠ total →
        (r.stored seq idx total chunk).EachFits seq
          (shuffle.1 ((r.stored seq idx total chunk).groupsHere seq))

theorem not_length_entry_le {seq idx total : Nat} {chunk : Bytes}
    (hd : decode d = .fragment seq idx total chunk)
    (t : Tables Nat) : ¬(t.entry seq total).parts.length ≤ idx := by
  rw [Tables.length_entry]
  exact Nat.not_le.mpr (decode_fragment hd).1

theorem reassembleChecked_of_accepts (h : r.Accepts groupMode shuffle d) :
    r.reassembleChecked groupMode shuffle d = some (r.reassemble groupMode shuffle d) := by
  rw [Accepts] at h
  rw [reassembleChecked, reassemble]
  cases hd : decode d with
  | whole d => rfl
  | ignored => rfl
  | parity seq gStart gLen lastLen total xor =>
      rw [hd] at h
      dsimp only at h ⊢
      rw [Tables.tryFECChecked_of_fits h]
      obtain ⟨t, out, htry⟩ : ∃ t out,
        (r.tables.keepParity seq gStart ⟨xor, gLen, lastLen, total⟩).tryFEC seq gStart = (t, out) :=
          ⟨_, _, rfl⟩
      rw [htry]
      cases out <;> rfl
  | fragment seq idx total chunk =>
      rw [hd] at h
      dsimp only at h ⊢
      by_cases hdup : groupMode = false ∧ seq ∈ r.deliveredOrder
      · rw [if_pos hdup, if_pos hdup]
      have hslot := not_length_entry_le hd r.tables
      rw [if_neg hdup, if_neg hdup, if_neg hslot]
      by_cases hfull : ((r.tables.entry seq total).put idx chunk).held = total
      · rw [if_pos hfull, if_pos hfull]
      have htry := Tables.tryGroupsChecked_of_fits (h hdup hfull)
      obtain ⟨t, out, heq⟩ : ∃ t out, (r.stored seq idx total chunk).tryGroups seq
        (shuffle.1 ((r.stored seq idx total chunk).groupsHere seq)) = (t, out) := ⟨_, _, rfl⟩
      rw [heq] at htry
      simp only [stored] at htry heq
      rw [if_neg hfull, if_neg hfull, htry, heq]
      cases out <;> rfl

theorem reassembleChecked_of_not_accepts (h : ¬r.Accepts groupMode shuffle d) :
    r.reassembleChecked groupMode shuffle d = none := by
  rw [Accepts] at h
  rw [reassembleChecked]
  cases hd : decode d with
  | whole d => exact absurd (by rw [hd]; trivial) h
  | ignored => exact absurd (by rw [hd]; trivial) h
  | parity seq gStart gLen lastLen total xor =>
      rw [hd] at h
      dsimp only at h ⊢
      rw [Tables.tryFECChecked_of_not_fits h]
  | fragment seq idx total chunk =>
      rw [hd] at h
      simp only [Classical.not_imp] at h
      obtain ⟨hdup, hfull, heach⟩ := h
      have hslot := not_length_entry_le hd r.tables
      have htry := Tables.tryGroupsChecked_of_not_fits heach
      simp only [stored] at htry
      dsimp only
      rw [if_neg hdup, if_neg hslot, if_neg hfull, htry]

end Receiver

end TriNet.Phone
