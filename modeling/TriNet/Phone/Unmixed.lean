import TriNet.Phone.Reassembly

namespace TriNet.Phone

open Lib.BigEndian Lib.Parity

variable {m : Long} {e : Entry} {i : Nat}

namespace Entry

/-- A partial message that holds fragments of one message only. -/
structure Of (m : Long) (e : Entry) : Prop where
  length : e.parts.length = m.total
  parts : ∀ i chunk, e.part i = some chunk → chunk = cell maxPayload m.bytes i
  held : e.held = e.parts.countP Option.isSome

theorem Of.empty (m : Long) : Of m (empty m.total) where
  length := List.length_replicate
  parts i chunk h := by
    rw [part_empty] at h
    cases h
  held := by simp [Entry.empty, List.countP_replicate]

theorem part_eq_none (hi : i < e.parts.length) : e.part i = none ↔ e.parts[i] = none := by
  rw [part, List.getElem?_eq_getElem hi, Option.join_some]

theorem Of.fill (h : Of m e) (hi : i < m.total) (hnone : e.part i = none) :
    Of m (e.fill i (cell maxPayload m.bytes i)) where
  length := by rw [Entry.fill, List.length_set, h.length]
  parts j chunk hj := by
    rw [part, Entry.fill, List.getElem?_set] at hj
    split at hj
    · next hij =>
        subst hij
        rw [h.length, if_pos hi] at hj
        exact (Option.some.inj hj).symm
    · exact h.parts j chunk hj
  held := by
    have hlt : i < e.parts.length := h.length.symm ▸ hi
    have hslot : e.parts[i] = none := (part_eq_none hlt).mp hnone
    rw [Entry.fill, h.held]
    simp [List.countP_set, hlt, hslot]

theorem Of.put (h : Of m e) (hi : i < m.total) : Of m (e.put i (cell maxPayload m.bytes i)) := by
  rw [Entry.put]
  split
  · next hnone => exact h.fill hi hnone
  · exact h

theorem Of.stamp (h : Of m e) (tick : Nat) : Of m { e with tick } := ⟨h.length, h.parts, h.held⟩

theorem Of.isSome_of_full (h : Of m e) (hfull : e.held = m.total) : ∀ p ∈ e.parts, p.isSome := by
  rw [← List.countP_eq_length, ← h.held, hfull, h.length]

theorem Of.bytes_eq (h : Of m e) (hfull : e.held = m.total) : e.bytes = m.bytes := by
  have hall := h.isSome_of_full hfull
  have hparts : e.parts = (List.range m.total).map (fun i => some (cell maxPayload m.bytes i)) := by
    apply List.ext_getElem
    · simp [h.length]
    · intro i hi _
      obtain ⟨chunk, hchunk⟩ := Option.isSome_iff_exists.mp (hall _ (List.getElem_mem hi))
      have hpart : e.part i = some chunk := by
        rw [part, List.getElem?_eq_getElem hi, Option.join_some, hchunk]
      rw [hchunk, h.parts i chunk hpart]
      simp
  have hmap : e.parts.filterMap id = (List.range m.total).map (cell maxPayload m.bytes) := by
    rw [hparts, List.filterMap_map]
    exact congrFun List.filterMap_eq_map _
  rw [bytes, hmap, flatten_cells]
  exact List.take_of_length_le m.length_le

end Entry

structure Parity.Of (m : Long) (gStart : Nat) (fec : Parity) : Prop where
  total : fec.total = m.total
  lastLen : fec.lastLen = lastLenOf m.bytes
  xor : fec.xor = VideoFEC.parity m.bytes gStart fec.gLen m.total

theorem VideoFEC.mem_covered {gStart gLen total i : Nat} (h : i ∈ covered gStart gLen total) :
    i < total := by
  simp only [covered, List.mem_range'_1] at h
  omega

theorem recover_eq_some {fec : Parity} {gStart idx : Nat} {bytes : Bytes} (he : e.Of m)
    (hfec : fec.Of m gStart)
    (h : VideoFEC.recover fec.xor e.part gStart fec.gLen fec.total fec.lastLen = some (idx, bytes)) :
    idx < m.total ∧ e.part idx = none ∧ bytes = cell maxPayload m.bytes idx := by
  rw [VideoFEC.recover, hfec.total] at h
  split at h
  · next missing hmiss =>
      simp only [Option.ite_none_right_eq_some, Option.some.injEq, Prod.mk.injEq] at h
      obtain ⟨_, rfl, rfl⟩ := h
      have hmem (j : Nat) :
          j ∈ (VideoFEC.covered gStart fec.gLen m.total).filter (fun i => (e.part i).isNone) ↔
          j = missing := by rw [hmiss, List.mem_singleton]
      obtain ⟨hcov, hnone⟩ := List.mem_filter.mp ((hmem missing).mpr rfl)
      have hlt := VideoFEC.mem_covered hcov
      have hpresent (j : Nat) (hj : j ∈ VideoFEC.covered gStart fec.gLen m.total) (hne : j ≠ missing) :
          (e.part j).getD [] = cell maxPayload m.bytes j := by
        cases hpart : e.part j with
        | none => exact absurd ((hmem j).mp (List.mem_filter.mpr ⟨hj, by simp [hpart]⟩)) hne
        | some chunk => exact he.parts j chunk hpart
      refine ⟨hlt, Option.isNone_iff_eq_none.mp hnone, ?_⟩
      rw [hfec.lastLen, ← m.length_cell_eq hlt, hfec.xor]
      apply take_recover (List.nodup_range' _) hcov _ hpresent
      rw [length_cell]
      exact min_le_left ..
  · cases h

theorem Long.eq_of_bytes {m m' : Long} (h : m.bytes = m'.bytes) : m = m' := by
  cases m
  cases m'
  cases h
  rfl

namespace Tables

variable {κ : Type} [DecidableEq κ] {content content' : κ → Option Bytes} {t : Tables κ} {k : κ}

/-- Under each key there is one message, and nothing but parts of it. -/
structure Holds (content : κ → Option Bytes) (t : Tables κ) : Prop where
  frag : ∀ k e, t.frag.lookup k = some e → ∃ m : Long, content k = some m.bytes ∧ e.Of m
  fec : ∀ k groups gStart fec, t.fec.lookup k = some groups → groups.lookup gStart = some fec →
    ∃ m : Long, content k = some m.bytes ∧ fec.Of m gStart

def Clear (t : Tables κ) (k : κ) : Prop := t.frag.lookup k = none ∧ t.fec.lookup k = none

instance (t : Tables κ) (k : κ) : Decidable (t.Clear k) := inferInstanceAs (Decidable (_ ∧ _))

theorem Holds.empty : Holds content (empty : Tables κ) where
  frag k e h := by cases h
  fec k groups gStart fec h := by cases h

theorem Holds.mono (h : Holds content t)
    (hsame : ∀ k b, ¬t.Clear k → content k = some b → content' k = some b) : Holds content' t where
  frag k e he := by
    obtain ⟨m, hk, hof⟩ := h.frag k e he
    refine ⟨m, hsame k _ (fun hclear => ?_) hk, hof⟩
    rw [hclear.1] at he
    cases he
  fec k groups gStart fec hgroups hfec := by
    obtain ⟨m, hk, hof⟩ := h.fec k groups gStart fec hgroups hfec
    refine ⟨m, hsame k _ (fun hclear => ?_) hk, hof⟩
    rw [hclear.2] at hgroups
    cases hgroups

theorem Holds.forget (h : Holds content t) (k : κ) : Holds content (t.forget k) where
  frag k' e he := h.frag k' e (Dictionary.lookup_erase_iff.mp he).2
  fec k' groups gStart fec hk' := h.fec k' groups gStart fec (Dictionary.lookup_erase_iff.mp hk').2

theorem Holds.insert (h : Holds content t) (hk : content k = some m.bytes) (he : e.Of m) :
    Holds content { t with frag := t.frag.insert k e } where
  frag k' e' he' := by
    rcases Dictionary.lookup_insert_cases he' with ⟨rfl, rfl⟩ | hold
    · exact ⟨m, hk, he⟩
    · exact h.frag k' e' hold
  fec := h.fec

theorem Holds.keepParity {fec : Parity} {gStart : Nat} (h : Holds content t)
    (hk : content k = some m.bytes)
    (hfec : fec.Of m gStart) : Holds content (t.keepParity k gStart fec) where
  frag := h.frag
  fec k' groups gStart' fec' hk' hg := by
    rcases Dictionary.lookup_insert_cases hk' with ⟨rfl, rfl⟩ | hold
    · rcases Dictionary.lookup_insert_cases hg with ⟨rfl, rfl⟩ | hg
      · exact ⟨m, hk, hfec⟩
      · cases hold : t.fec.lookup k' with
        | none =>
            rw [hold] at hg
            cases hg
        | some old =>
            rw [hold] at hg
            exact h.fec k' old gStart' fec' hold hg
    · exact h.fec k' groups gStart' fec' hold hg

theorem Holds.entry (h : Holds content t) (hk : content k = some m.bytes) : (t.entry k m.total).Of m := by
  rw [Tables.entry]
  split
  · exact .empty m
  · next e he =>
      split
      · obtain ⟨m', hk', he'⟩ := h.frag k e he
        rw [hk] at hk'
        rwa [Long.eq_of_bytes (Option.some.inj hk')]
      · exact .empty m

theorem Holds.tryFEC (h : Holds content t) (k : κ) (gStart : Nat) :
    Holds content (t.tryFEC k gStart).1 ∧ ∀ out, (t.tryFEC k gStart).2 = some out →
      content k = some out := by
  have hstay : Holds content t ∧ ∀ out, (none : Option Bytes) = some out → content k = some out :=
    ⟨h, fun out hout => by cases hout⟩
  rw [Tables.tryFEC]
  split
  · next fec e hfec he =>
      obtain ⟨groups, hgroups, hlook⟩ := Option.bind_eq_some_iff.mp hfec
      obtain ⟨m, hk, hof⟩ := h.fec k groups gStart fec hgroups hlook
      obtain ⟨m', hk', heof⟩ := h.frag k e he
      rw [hk] at hk'
      obtain rfl := Long.eq_of_bytes (Option.some.inj hk')
      split
      · split
        · exact hstay
        · next idx bytes hrec =>
            obtain ⟨hlt, hnone, rfl⟩ := recover_eq_some heof hof hrec
            have hfill := heof.fill hlt hnone
            dsimp only
            split
            · next hfull =>
                refine ⟨h.forget k, fun out hout => ?_⟩
                rw [hof.total] at hfull
                rw [← Option.some.inj hout, hfill.bytes_eq hfull, hk]
            · exact ⟨h.insert hk hfill, fun out hout => by cases hout⟩
      · exact hstay
  · exact hstay

theorem Holds.takeParity (h : Holds content t) (hk : content k = some m.bytes) (gStart gLen : Nat) :
    let result := (t.keepParity k gStart
      ⟨VideoFEC.parity m.bytes gStart gLen m.total, gLen, lastLenOf m.bytes, m.total⟩).tryFEC k gStart
    Holds content result.1 ∧ ∀ out, result.2 = some out → content k = some out := by
  apply Holds.tryFEC
  apply h.keepParity hk
  exact ⟨rfl, rfl, rfl⟩

theorem Holds.tryGroups (h : Holds content t) (k : κ) (groups : List Nat) :
    Holds content (t.tryGroups k groups).1 ∧ ∀ out, (t.tryGroups k groups).2 = some out →
      content k = some out := by
  induction groups generalizing t with
  | nil => exact ⟨h, fun out hout => by cases hout⟩
  | cons gStart groups ih =>
      obtain ⟨hnext, hout⟩ := h.tryFEC k gStart
      rw [Tables.tryGroups]
      split
      · next t' m htry =>
          rw [htry] at hnext hout
          exact ⟨hnext, hout⟩
      · next t' htry =>
          rw [htry] at hnext
          exact ih hnext

theorem Holds.filter (h : Holds content t) (p : κ → Bool) :
    Holds content ⟨Dictionary.filter p t.frag, Dictionary.filter p t.fec⟩ where
  frag k e he := h.frag k e (Dictionary.lookup_filter he)
  fec k groups gStart fec hk := h.fec k groups gStart fec (Dictionary.lookup_filter hk)

end Tables

/-- A packet of one message: the message itself, or a part of it that goes to
a key under which the message is kept. -/
def Brings {κ : Type} (content : κ → Option Bytes) (key : Nat → κ) (m d : Bytes) : Prop :=
  decode d = .whole m ∨
    ∃ (long : Long) (seq : Nat), long.bytes = m ∧ content (key seq) = some m ∧ long.Sends seq (decode d)

def PacketOf (m d : Bytes) : Prop :=
  decode d = .whole m ∨ ∃ (long : Long) (seq : Nat), long.bytes = m ∧ long.Sends seq (decode d)

theorem packetOf_of_mem_packets {group seq : Nat} {m pkt : Bytes} (hseq : seq < 65536)
    (hm : framing m = .whole → m.head? ≠ some 0xFA) (hpkt : pkt ∈ packets group seq m) :
    PacketOf m pkt := by
  rcases decode_of_mem_packets hseq hm hpkt with hwhole | ⟨long, hlong, hsends⟩
  · exact Or.inl hwhole
  · exact Or.inr ⟨long, seq, hlong, hsends⟩

section

variable {κ ι : Type} [DecidableEq κ] {last : κ → Option ι} {key : Nat → κ} {sent : ι →
  Option Bytes} {i : ι} {t : Tables κ} {msg d : Bytes}

def noteLast (last : κ → Option ι) (key : Nat → κ) (i : ι) (p : Packet) : κ → Option ι :=
  match p.seq with
  | some seq => Function.update last (key seq) (some i)
  | none => last

/-- Nothing is kept under the key of a packet, or the packet before it under
that key was of the same message. -/
def Expected (t : Tables κ) (last : κ → Option ι) (key : Nat → κ) (i : ι) (p : Packet) : Prop :=
  ∀ seq ∈ p.seq, t.Clear (key seq) ∨ last (key seq) = some i

instance [DecidableEq ι] (p : Packet) : Decidable (Expected t last key i p) :=
  inferInstanceAs (Decidable (∀ seq ∈ p.seq, _))

theorem holds_noteLast {p : Packet} (h : t.Holds (fun k => (last k).bind sent))
    (hp : Expected t last key i p) : t.Holds (fun k => (noteLast last key i p k).bind sent) := by
  apply h.mono
  intro k b hclear hb
  cases hseq : p.seq with
  | none =>
      rw [noteLast, hseq]
      exact hb
  | some seq =>
      rw [noteLast, hseq]
      by_cases hk : k = key seq
      · subst hk
        rcases hp seq hseq with hempty | hsame
        · exact absurd hempty hclear
        · dsimp only
          rw [Function.update_self, ← hsame]
          exact hb
      · dsimp only
        rw [Function.update_of_ne hk]
        exact hb

theorem brings_noteLast (hi : sent i = some msg) (hd : PacketOf msg d) :
    Brings (fun k => (noteLast last key i (decode d) k).bind sent) key msg d := by
  rcases hd with hwhole | ⟨long, seq, hlong, hsends⟩
  · exact Or.inl hwhole
  · refine Or.inr ⟨long, seq, hlong, ?_, hsends⟩
    rw [noteLast, hsends.seq_eq]
    simpa using hi

end

namespace Receiver

variable {content : Nat → Option Bytes} {r : Receiver} {msg d : Bytes}

theorem holds_collect {t : Tables Nat} (h : t.Holds content) : (collect t).Holds content := by
  rw [collect]
  split
  · exact h.filter _
  · exact h

theorem holds_finish {t : Tables Nat} {out : Bytes} (h : t.Holds content) (hout : out = msg)
    (groupMode : Bool) (seq : Nat) :
    (r.finish groupMode seq t out).1.tables.Holds content ∧
      ∀ out', (r.finish groupMode seq t out).2 = some out' → out' = msg := by
  rw [finish, tables_markDelivered]
  refine ⟨h, fun out' hout' => ?_⟩
  rw [← Option.some.inj hout', hout]

/-- If every key holds parts of one message, a packet of that message returns
the message or nothing. -/
theorem holds_reassemble (h : r.tables.Holds content) (hd : Brings content id msg d)
    (groupMode : Bool) (shuffle : Shuffle) :
    (r.reassemble groupMode shuffle d).1.tables.Holds content ∧
      ∀ out, (r.reassemble groupMode shuffle d).2 = some out → out = msg := by
  have hstay : r.tables.Holds content ∧ ∀ out, (none : Option Bytes) = some out → out = msg :=
    ⟨h, fun out hout => by cases hout⟩
  rcases hd with hwhole | ⟨m, seq, rfl, hk, hsends⟩
  · rw [reassemble, hwhole]
    exact ⟨h, fun out hout => (Option.some.inj hout).symm⟩
  · rw [id_eq] at hk
    have hunique {out : Bytes} (hout : content seq = some out) : out = m.bytes :=
      Option.some.inj (hout.symm.trans hk)
    generalize hp : decode d = p at hsends
    cases hsends with
    | parity gStart gLen =>
        obtain ⟨hnext, hout⟩ := h.takeParity hk gStart gLen
        rw [reassemble, hp]
        dsimp only
        split
        · next t out htry =>
            rw [htry] at hnext hout
            exact holds_finish hnext (hunique (hout out rfl)) groupMode seq
        · next t htry =>
            rw [htry] at hnext
            exact ⟨hnext, fun out hout => by cases hout⟩
    | @fragment i hi =>
        have hput := (h.entry hk).put hi
        rw [reassemble, hp]
        dsimp only
        split
        · exact hstay
        · split
          · next hfull => exact holds_finish (h.forget seq) (hput.bytes_eq hfull) groupMode seq
          · have hins := h.insert hk (hput.stamp ((r.fragTick + 1) % 2 ^ 64))
            split
            · next t out htry =>
                obtain ⟨hnext, hout⟩ := hins.tryGroups seq _
                rw [htry] at hnext hout
                exact holds_finish hnext (hunique (hout out rfl)) groupMode seq
            · next t htry =>
                obtain ⟨hnext, _⟩ := hins.tryGroups seq _
                rw [htry] at hnext
                exact ⟨holds_collect hnext, fun out hout => by cases hout⟩

end Receiver

theorem holds_groupReassemble {α : Type} [DecidableEq α] {content : α × Nat → Option Bytes}
    {t : Tables (α × Nat)}
    {src : α} {msg d : Bytes} (h : t.Holds content) (hd : Brings content (fun seq => (src, seq)) msg d)
    (shuffle : Shuffle) :
    (groupReassemble shuffle t src d).1.Holds content ∧
      ∀ out, (groupReassemble shuffle t src d).2 = some out → out = msg := by
  rcases hd with hwhole | ⟨m, seq, rfl, hk, hsends⟩
  · rw [groupReassemble, hwhole]
    exact ⟨h, fun out hout => (Option.some.inj hout).symm⟩
  · have hunique {out : Bytes} (hout : content (src, seq) = some out) : out = m.bytes :=
      Option.some.inj (hout.symm.trans hk)
    generalize hp : decode d = p at hsends
    cases hsends with
    | parity gStart gLen =>
        obtain ⟨hnext, hout⟩ := h.takeParity hk gStart gLen
        rw [groupReassemble, hp]
        exact ⟨hnext, fun out hout' => hunique (hout out hout')⟩
    | @fragment i hi =>
        have hput := (h.entry hk).put hi
        have hins := h.insert hk hput
        rw [groupReassemble, hp]
        dsimp only
        split
        · next hfull =>
            refine ⟨?_, fun out hout => ?_⟩
            · dsimp only
              split
              · exact .empty
              · exact hins.forget (src, seq)
            · rw [← Option.some.inj hout, hput.bytes_eq hfull]
        · obtain ⟨hnext, hout⟩ := hins.tryGroups (src, seq) (shuffle.1 _)
          exact ⟨hnext, fun out hout' => hunique (hout out hout')⟩

end TriNet.Phone
