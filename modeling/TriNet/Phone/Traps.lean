import TriNet.Lib.Checked
import TriNet.Lib.Runs
import TriNet.Phone.Effects

namespace TriNet.Phone

open Lib.BigEndian Lib.Runs

/-- `UInt8(n)`; a number that does not fit traps. -/
def toByte (n : Nat) : Option UInt8 := if n < 256 then some (UInt8.ofNat n) else none

/-- What comes with a packet: its plaintext, the order a dictionary happens to
have, and which sequence numbers were asked for too lately to ask again. -/
structure Arrival where
  plaintext : Bytes
  shuffle : Shuffle
  nackedLately : Nat → Bool
  fragNackedLately : Nat → Bool

/-- The receiving side of a call: reassembly, the requests for what is missing,
and the messages handed on. -/
structure Reception where
  receiver : Receiver
  highestVideoSeq : Option Nat
  nacks : List Bytes
  messages : List Bytes
  trapped : Bool

namespace Reception

def fresh : Reception := ⟨.fresh, none, [], [], false⟩

def nackWindow : Nat := 30

def nackMissingFragments (t : Tables Nat) (lately : Nat → Bool) (seq : Nat) : Option (List Bytes) :=
  match t.frag.lookup seq with
  | none => some []
  | some e =>
      if e.held < e.parts.length ∧ lately seq = false then
        match (List.range e.parts.length).filter (fun i => (e.part i).isNone) with
        | [] => some []
        | missing => ((missing.take 64).mapM toByte).map (fun idxs =>
            [[0xFD, 0x4F, lowByte seq, highByte seq] ++ idxs])
      else some []

/-- Ask for the messages skipped before this one, and for what is missing of
the last eight. -/
def noteVideoSeq (s : Reception) (a : Arrival) (seq : Nat) : Option Reception :=
  match s.highestVideoSeq with
  | none => some { s with highestVideoSeq := some seq }
  | some highest =>
      let gap := (seq + 65536 - highest) % 65536
      if gap = 0 ∨ gap > 32768 then some s
      else
        match if gap > 1 then halfOpen (max 1 (gap - nackWindow)) gap else some [] with
        | none => none
        | some skipped =>
            let asked := (skipped.map (fun j => (highest + j) % 65536)).filter (fun m => !a.nackedLately m)
            match (List.range' 1 8).mapM (fun back =>
              nackMissingFragments s.receiver.tables a.fragNackedLately
                ((seq + 65536 - back) % 65536)) with
            | none => none
            | some partials =>
                some { s with
                  highestVideoSeq := some seq
                  nacks := s.nacks ++ asked.map (fun m => [0xFD, 0x4E, lowByte m, highByte m]) ++
                    partials.flatten }

def note (groupMode : Bool) (s : Reception) (a : Arrival) : Option Reception :=
  match decode a.plaintext with
  | .fragment seq .. => if groupMode = true ∨ seq ∈ s.receiver.deliveredOrder then some s
      else s.noteVideoSeq a seq
  | _ => some s

def step (groupMode : Bool) (s : Reception) (a : Arrival) : Reception :=
  if s.trapped then s
  else
    match s.note groupMode a with
    | none => { s with trapped := true }
    | some s =>
        match s.receiver.reassembleChecked groupMode a.shuffle a.plaintext with
        | none => { s with trapped := true }
        | some (receiver, out) => { s with receiver, messages := s.messages ++ out.toList }

end Reception

namespace Tables

variable {κ : Type} [DecidableEq κ] {t t' : Tables κ}

def Bounded (t : Tables κ) : Prop := ∀ k e, t.frag.lookup k = some e → e.parts.length < 256

theorem Bounded.forget (h : t.Bounded) (k : κ) : (t.forget k).Bounded :=
  fun k' e he => h k' e (Dictionary.lookup_erase_iff.mp he).2

theorem Bounded.insert (h : t.Bounded) {e : Entry} (he : e.parts.length < 256) (k : κ) :
    Bounded { t with frag := t.frag.insert k e } := by
  intro k' e' he'
  rcases Dictionary.lookup_insert_cases he' with ⟨_, rfl⟩ | hold
  · exact he
  · exact h k' e' hold

theorem Bounded.touched {k : κ} (h : t.Bounded) (ht : Touched k t t') : t'.Bounded := by
  intro k' e' he'
  obtain ⟨e, he, hshape⟩ := ht.lookup he'
  rw [(Prod.mk.inj hshape).1]
  exact h k' e he

end Tables

namespace Receiver

variable {groupMode : Bool} {shuffle : Shuffle} {r : Receiver} {d : Bytes} {t : Tables Nat}

theorem bounded_collect (h : t.Bounded) : (collect t).Bounded := fun k e he => h k e (lookup_collect he)

theorem bounded_reassemble (h : r.tables.Bounded) :
    (r.reassemble groupMode shuffle d).1.tables.Bounded := by
  have heffect := reassemble_effect groupMode shuffle r d
  generalize (r.reassemble groupMode shuffle d).1.tables = t,
    (r.reassemble groupMode shuffle d).1.fragTick = tick at heffect ⊢
  cases heffect with
  | same => exact h
  | finished seq => exact h.forget seq
  | parity _ ht => exact Tables.Bounded.touched (t := r.tables.keepParity ..) h ht
  | @fragment seq idx total chunk t hd ht =>
      have hstored : (r.stored seq idx total chunk).Bounded := by
        refine h.insert ?_ seq
        rw [Entry.length_put, Tables.length_entry]
        exact (decode_fragment hd).2
      exact bounded_collect (hstored.touched ht)

end Receiver

namespace Reception

variable {groupMode : Bool} {s s' : Reception} {a : Arrival}

theorem exists_nackMissingFragments {t : Tables Nat} (h : t.Bounded) (lately : Nat → Bool)
    (seq : Nat) : ∃ pkts, nackMissingFragments t lately seq = some pkts := by
  rw [nackMissingFragments]
  split
  · exact ⟨_, rfl⟩
  · next e he =>
      split
      · have hidx : ∀ i ∈ ((List.range e.parts.length).filter (fun i => (e.part i).isNone)).take 64,
            ∃ b, toByte i = some b := by
          intro i hi
          have hlt := List.mem_range.mp (List.mem_of_mem_filter (List.mem_of_mem_take hi))
          have hbound := h seq e he
          exact ⟨_, if_pos (by omega)⟩
        split
        · exact ⟨_, rfl⟩
        · obtain ⟨idxs, hidxs⟩ := Lib.Checked.exists_mapM hidx
          exact ⟨_, by rw [hidxs, Option.map_some]⟩
      · exact ⟨_, rfl⟩

theorem exists_noteVideoSeq (h : s.receiver.tables.Bounded) (a : Arrival) (seq : Nat) :
    ∃ s', s.noteVideoSeq a seq = some s' ∧ s'.receiver = s.receiver ∧ s'.trapped = s.trapped := by
  rw [noteVideoSeq]
  split
  · exact ⟨_, rfl, rfl, rfl⟩
  · next highest _ =>
      dsimp only
      generalize (seq + 65536 - highest) % 65536 = gap
      split
      · exact ⟨_, rfl, rfl, rfl⟩
      · have hskipped : ∃ skipped,
            (if gap > 1 then halfOpen (max 1 (gap - nackWindow)) gap else some []) = some skipped := by
          split
          · exact ⟨_, if_pos (by omega)⟩
          · exact ⟨_, rfl⟩
        obtain ⟨skipped, hskipped⟩ := hskipped
        obtain ⟨partials, hpartials⟩ : ∃ partials, (List.range' 1 8).mapM (fun back =>
            nackMissingFragments s.receiver.tables a.fragNackedLately
              ((seq + 65536 - back) % 65536)) = some partials :=
          Lib.Checked.exists_mapM (fun back _ => exists_nackMissingFragments h ..)
        rw [hskipped, hpartials]
        exact ⟨_, rfl, rfl, rfl⟩

theorem exists_note (h : s.receiver.tables.Bounded) (groupMode : Bool) (a : Arrival) :
    ∃ s', s.note groupMode a = some s' ∧ s'.receiver = s.receiver ∧ s'.trapped = s.trapped := by
  rw [note]
  split
  · split
    · exact ⟨s, rfl, rfl, rfl⟩
    · exact exists_noteVideoSeq h a _
  · exact ⟨s, rfl, rfl, rfl⟩

theorem step_of_accepts (h : s.receiver.tables.Bounded) (hs : s.trapped = false)
    (ha : s.receiver.Accepts groupMode a.shuffle a.plaintext) :
    (step groupMode s a).trapped = false ∧
      (step groupMode s a).receiver = (s.receiver.reassemble groupMode a.shuffle a.plaintext).1 := by
  have hup : ¬s.trapped = true := by simp [hs]
  obtain ⟨s', hnote, hreceiver, htrapped⟩ := exists_note h groupMode a
  rw [← hreceiver] at ha
  rw [step, if_neg hup, hnote]
  dsimp only
  rw [Receiver.reassembleChecked_of_accepts ha, hreceiver]
  exact ⟨htrapped.trans hs, rfl⟩

theorem step_of_not_accepts (h : s.receiver.tables.Bounded) (hs : s.trapped = false)
    (ha : ¬s.receiver.Accepts groupMode a.shuffle a.plaintext) : (step groupMode s a).trapped = true := by
  have hup : ¬s.trapped = true := by simp [hs]
  obtain ⟨s', hnote, hreceiver, _⟩ := exists_note h groupMode a
  rw [← hreceiver] at ha
  rw [step, if_neg hup, hnote]
  dsimp only
  rw [Receiver.reassembleChecked_of_not_accepts ha]

theorem bounded_step (h : s.trapped = false → s.receiver.tables.Bounded) (a : Arrival)
    (hs' : (step groupMode s a).trapped = false) : (step groupMode s a).receiver.tables.Bounded := by
  cases hs : s.trapped with
  | true =>
      rw [step, if_pos hs, hs] at hs'
      cases hs'
  | false =>
      by_cases ha : s.receiver.Accepts groupMode a.shuffle a.plaintext
      · rw [(step_of_accepts (h hs) hs ha).2]
        exact Receiver.bounded_reassemble (h hs)
      · rw [step_of_not_accepts (h hs) hs ha] at hs'
        cases hs'

/-- The receiving side never traps exactly if every parity that is tried agrees
with the fragments that are then here. -/
theorem reassembly_trapFree_iff (groupMode : Bool) (arrivals : List Arrival) :
    (∀ past, past <+: arrivals → (run (step groupMode) fresh past).trapped = false) ↔
      Along (step groupMode) (fun s a => s.receiver.Accepts groupMode a.shuffle a.plaintext)
        fresh arrivals := by
  apply forall_prefix_iff_along (step groupMode) _ (fun s => s.trapped = false →
    s.receiver.tables.Bounded) (fun s => s.trapped = false)
  · exact fun s a h hs' => bounded_step h a hs'
  · intro s a h hs
    by_cases ha : s.receiver.Accepts groupMode a.shuffle a.plaintext
    · exact iff_of_true (step_of_accepts (h hs) hs ha).1 ha
    · refine iff_of_false ?_ ha
      rw [step_of_not_accepts (h hs) hs ha]
      exact nofun
  · exact fun _ k e he => by cases he
  · rfl

/-- A parity whose group starts beyond the message; a parity shorter than a
fragment of its group. -/
theorem mismatched_parity_traps :
    (run (step false) fresh
        [⟨[0xFA, 0xFB, 0, 0, 0, 2, 7], .inOrder, fun _ => false, fun _ => false⟩,
          ⟨[0xFA, 0xEC, 0, 0, 2, 3, 1, 0, 0, 0], .inOrder, fun _ => false, fun _ =>
            false⟩]).trapped = true ∧
      (run (step false) fresh
        [⟨[0xFA, 0xFB, 0, 0, 0, 2, 7, 7], .inOrder, fun _ => false, fun _ => false⟩,
          ⟨[0xFA, 0xEC, 0, 0, 2, 0, 2, 1, 0, 0], .inOrder, fun _ => false, fun _ =>
            false⟩]).trapped = true := by
  decide +kernel

end Reception

end TriNet.Phone
