import TriNet.Phone.Fragments
import Mathlib.Data.List.AList

namespace TriNet.Phone

open Lib.BigEndian Lib.Parity

abbrev Dictionary (κ V : Type) := AList (fun _ : κ => V)

section

variable {κ V : Type}

def Dictionary.filter (p : κ → Bool) (s : Dictionary κ V) : Dictionary κ V :=
  ⟨s.entries.filter (fun e => p e.1), s.nodupKeys.sublist List.filter_sublist⟩

theorem Dictionary.lookup_filter [DecidableEq κ] {p : κ → Bool} {s : Dictionary κ V} {k : κ} {v : V}
    (h : (s.filter p).lookup k = some v) : s.lookup k = some v := by
  have hmem := AList.mem_lookup_iff.mp (Option.mem_def.mpr h)
  exact AList.mem_lookup_iff.mpr (List.mem_of_mem_filter hmem)

theorem Dictionary.lookup_erase_iff [DecidableEq κ] {s : Dictionary κ V} {k k' : κ} {v : V} :
    (s.erase k).lookup k' = some v ↔ k' ≠ k ∧ s.lookup k' = some v := by
  by_cases hk : k' = k
  · subst hk
    simp [AList.lookup_erase]
  · simp [AList.lookup_erase_ne hk, hk]

theorem Dictionary.lookup_insert_cases [DecidableEq κ] {s : Dictionary κ V} {k k' : κ} {v v' : V}
    (h : (s.insert k v).lookup k' = some v') : k' = k ∧ v' = v ∨ s.lookup k' = some v' := by
  by_cases hk : k' = k
  · rw [hk, AList.lookup_insert] at h
    exact .inl ⟨hk, (Option.some.inj h).symm⟩
  · rw [AList.lookup_insert_ne hk] at h
    exact .inr h

end

def Shuffle := { f : List Nat → List Nat // ∀ keys, (f keys).Perm keys }

theorem id_perm (keys : List Nat) : (id keys).Perm keys := .rfl

def Shuffle.inOrder : Shuffle := ⟨id, id_perm⟩

structure Entry where
  parts : List (Option Bytes)
  held : Nat
  tick : Nat

namespace Entry

def empty (total : Nat) : Entry := ⟨List.replicate total none, 0, 0⟩

def part (e : Entry) (i : Nat) : Option Bytes := (e.parts[i]?).join

@[simp] theorem part_empty (total i : Nat) : (empty total).part i = none := by
  rw [part, empty, List.getElem?_replicate]
  split <;> rfl

def fill (e : Entry) (idx : Nat) (chunk : Bytes) : Entry :=
  { e with parts := e.parts.set idx (some chunk), held := e.held + 1 }

def put (e : Entry) (idx : Nat) (chunk : Bytes) : Entry :=
  if e.part idx = none then e.fill idx chunk else e

def bytes (e : Entry) : Bytes := (e.parts.filterMap id).flatten

end Entry

structure Parity where
  xor : Bytes
  gLen : Nat
  lastLen : Nat
  total : Nat

structure Tables (κ : Type) where
  frag : Dictionary κ Entry
  fec : Dictionary κ (Dictionary Nat Parity)

namespace Tables

variable {κ : Type} [DecidableEq κ]

def empty : Tables κ := ⟨∅, ∅⟩

def forget (t : Tables κ) (k : κ) : Tables κ := ⟨t.frag.erase k, t.fec.erase k⟩

def keepParity (t : Tables κ) (k : κ) (gStart : Nat) (par : Parity) : Tables κ :=
  { t with fec := t.fec.insert k (((t.fec.lookup k).getD ∅).insert gStart par) }

/-- The entry a fragment goes to: one of another size is thrown away. -/
def entry (t : Tables κ) (k : κ) (total : Nat) : Entry :=
  match t.frag.lookup k with
  | none => .empty total
  | some e => if e.parts.length = total then e else .empty total

def tryFEC (t : Tables κ) (k : κ) (gStart : Nat) : Tables κ × Option Bytes :=
  match (t.fec.lookup k).bind (AList.lookup gStart), t.frag.lookup k with
  | some fec, some e =>
      if e.parts.length = fec.total then
        match VideoFEC.recover fec.xor e.part gStart fec.gLen fec.total fec.lastLen with
        | none => (t, none)
        | some (idx, bytes) =>
            let e := e.fill idx bytes
            if e.held = fec.total then (t.forget k, some e.bytes)
            else ({ t with frag := t.frag.insert k e }, none)
      else (t, none)
  | _, _ => (t, none)

/-- Try every group whose parity is here, until one completes the message. -/
def tryGroups (t : Tables κ) (k : κ) : List Nat → Tables κ × Option Bytes
  | [] => (t, none)
  | gStart :: rest =>
      match t.tryFEC k gStart with
      | (t, some m) => (t, some m)
      | (t, none) => t.tryGroups k rest

def groupsHere (t : Tables κ) (k : κ) : List Nat := ((t.fec.lookup k).map AList.keys).getD []

end Tables

structure Receiver where
  tables : Tables Nat
  deliveredOrder : List Nat
  fragTick : Nat

namespace Receiver

def fresh : Receiver := ⟨.empty, [], 0⟩

def fragBufsCap : Nat := 24

def markDelivered (r : Receiver) (groupMode : Bool) (seq : Nat) : Receiver :=
  if groupMode ∨ seq ∈ r.deliveredOrder then r
  else
    let order := r.deliveredOrder ++ [seq]
    { r with deliveredOrder := order.drop (order.length - 256) }

@[simp] theorem tables_markDelivered (r : Receiver) (groupMode : Bool) (seq : Nat) :
    (r.markDelivered groupMode seq).tables = r.tables := by
  rw [markDelivered]
  split <;> rfl

@[simp] theorem fragTick_markDelivered (r : Receiver) (groupMode : Bool) (seq : Nat) :
    (r.markDelivered groupMode seq).fragTick = r.fragTick := by
  rw [markDelivered]
  split <;> rfl

def collect (t : Tables Nat) : Tables Nat :=
  if t.frag.entries.length > fragBufsCap then
    let recent := t.frag.entries.mergeSort (fun a b => b.2.tick ≤ a.2.tick)
    let keep := (recent.take fragBufsCap).map Sigma.fst
    ⟨t.frag.filter (fun k => k ∈ keep), t.fec.filter (fun k => k ∈ keep)⟩
  else t

def finish (r : Receiver) (groupMode : Bool) (seq : Nat) (t : Tables Nat) (m : Bytes) :
    Receiver × Option Bytes :=
  (({ r with tables := t }).markDelivered groupMode seq, some m)

def reassemble (groupMode : Bool) (shuffle : Shuffle) (r : Receiver) (d : Bytes) :
    Receiver × Option Bytes :=
  match decode d with
  | .whole d => (r, some d)
  | .ignored => (r, none)
  | .parity seq gStart gLen lastLen total xor =>
      match (r.tables.keepParity seq gStart ⟨xor, gLen, lastLen, total⟩).tryFEC seq gStart with
      | (t, some m) => r.finish groupMode seq t m
      | (t, none) => ({ r with tables := t }, none)
  | .fragment seq idx total chunk =>
      if groupMode = false ∧ seq ∈ r.deliveredOrder then (r, none)
      else
        let e := (r.tables.entry seq total).put idx chunk
        if e.held = total then r.finish groupMode seq (r.tables.forget seq) e.bytes
        else
          let tick := (r.fragTick + 1) % 2 ^ 64
          let r := { r with fragTick := tick }
          let t := { r.tables with frag := r.tables.frag.insert seq { e with tick } }
          match t.tryGroups seq (shuffle.1 (t.groupsHere seq)) with
          | (t, some m) => r.finish groupMode seq t m
          | (t, none) => ({ r with tables := collect t }, none)

end Receiver

section

variable {α : Type} [DecidableEq α]

/-- The receiving half of the group transport of the phone, keyed by source and
sequence number. -/
def groupReassemble (shuffle : Shuffle) (t : Tables (α × Nat)) (src : α) (d : Bytes) :
    Tables (α × Nat) × Option Bytes :=
  match decode d with
  | .whole d => (t, some d)
  | .ignored => (t, none)
  | .parity seq gStart gLen lastLen total xor =>
      (t.keepParity (src, seq) gStart ⟨xor, gLen, lastLen, total⟩).tryFEC (src, seq) gStart
  | .fragment seq idx total chunk =>
      let e := (t.entry (src, seq) total).put idx chunk
      let t := { t with frag := t.frag.insert (src, seq) e }
      if e.held = total then
        let t := t.forget (src, seq)
        (if t.frag.entries.length > 48 then .empty else t, some e.bytes)
      else t.tryGroups (src, seq) (shuffle.1 (t.groupsHere (src, seq)))

end

end TriNet.Phone
