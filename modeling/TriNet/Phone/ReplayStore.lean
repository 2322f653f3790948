import TriNet.CallApi.Text

namespace TriNet.Phone

open CallApi

def fitsInt64 (n : Int) : Bool := -2 ^ 63 ≤ n && n < 2 ^ 63

/-- The symmetric window of both freshness policies; a bound that overflows
admits everything. -/
def withinWindow (maxPastAge maxFutureSkew timestamp now : Int) : Bool :=
  if timestamp > now then !fitsInt64 (now + maxFutureSkew) || timestamp ≤ now + maxFutureSkew
  else !fitsInt64 (now - maxPastAge) || timestamp ≥ now - maxPastAge

namespace MeshCallTimestampPolicy

def maxPastAge : Int := 60
def maxFutureSkew : Int := 60

def isFresh (timestamp now : Int) : Bool := withinWindow maxPastAge maxFutureSkew timestamp now

end MeshCallTimestampPolicy

/-- `UUID(uuidString:)` takes hexadecimal digits in groups of 8, 4, 4, 4 and 12. -/
def uuidIsValid (s : String) : Bool :=
  s.toList.length = 36 &&
    s.toList.zipIdx.all (fun (c, i) => if i ∈ [8, 13, 18, 23] then c == '-' else isAsciiHexdigit c)

structure MeshReplayEntry where
  id : String
  timestamp : Int
  deriving DecidableEq

def MeshReplayEntry.expired (maximumSkew now : Int) (e : MeshReplayEntry) : Bool :=
  e.timestamp ≤ now && fitsInt64 (e.timestamp + maximumSkew) && e.timestamp + maximumSkew < now

/-- `saved` is what the defaults hold under the store's key. -/
structure MeshReplayStore where
  maximumEntries : Nat
  entries : List MeshReplayEntry
  saved : List MeshReplayEntry

def replayID (domain senderFingerprint nonce : String) : String :=
  "|".intercalate [domain, senderFingerprint, toAsciiLowercase nonce]

namespace MeshReplayStore

/-- A store made again from the defaults, as after the process is restarted. -/
def reload (store : MeshReplayStore) : MeshReplayStore := { store with entries := store.saved }

def purge (store : MeshReplayStore) (maximumSkew now : Int) : MeshReplayStore :=
  { store with entries := store.entries.filter (fun e => !e.expired maximumSkew now) }

def record (store : MeshReplayStore) (entry : MeshReplayEntry) : MeshReplayStore :=
  { store with entries := store.entries ++ [entry], saved := store.entries ++ [entry] }

def accept (store : MeshReplayStore) (domain senderFingerprint nonce : String)
    (timestamp now maximumSkew : Int) : MeshReplayStore × Bool :=
  if !uuidIsValid nonce || senderFingerprint.isEmpty || maximumSkew ≤ 0 then (store, false)
  else
    let id := replayID domain senderFingerprint nonce
    let store := store.purge maximumSkew now
    if store.entries.any (fun e => e.id = id) then (store, false)
    else if store.entries.length ≥ store.maximumEntries then (store, false)
    else (store.record ⟨id, timestamp⟩, true)

end MeshReplayStore

section Uuid

def hexadecimal : List Char := "0123456789abcdefABCDEF".toList

theorem toNat_le_of_le {c d : Char} (h : c ≤ d) : c.toNat ≤ d.toNat := UInt32.le_iff_toNat_le.mp h

theorem mem_hexadecimal {c : Char} (h : isAsciiHexdigit c = true) : c ∈ hexadecimal := by
  have hc : c.toNat ≤ 'f'.toNat := by
    simp only [isAsciiHexdigit, Bool.or_eq_true, Bool.and_eq_true, decide_eq_true_eq, Char.isDigit] at h
    rcases h with (⟨-, h⟩ | ⟨-, h⟩) | ⟨-, h⟩
    · exact Nat.le_trans (toNat_le_of_le h) (by decide)
    · exact toNat_le_of_le h
    · exact Nat.le_trans (toNat_le_of_le h) (by decide)
  have hall : ∀ n < 128, isAsciiHexdigit (Char.ofNat n) = true →
      Char.ofNat n ∈ hexadecimal := by decide +kernel
  have hmem := hall c.toNat (Nat.lt_of_le_of_lt hc (by decide))
  rw [Char.ofNat_toNat] at hmem
  exact hmem h

theorem uuidIsValid_iff {s : String} :
    uuidIsValid s = true ↔ s.toList.length = 36 ∧ ∀ (i : Nat) (c : Char), s.toList[i]? = some c →
      (if i ∈ [8, 13, 18, 23] then c == '-' else isAsciiHexdigit c) = true := by
  rw [uuidIsValid, Bool.and_eq_true, decide_eq_true_eq, List.all_eq_true]
  apply and_congr_right
  intro _
  constructor
  · intro h i c hget
    exact h (c, i) (List.mem_zipIdx_iff_getElem?.mpr hget)
  · intro h p hp
    exact h p.2 p.1 (List.mem_zipIdx_iff_getElem?.mp hp)

theorem mem_uuid {s : String} (h : uuidIsValid s = true) {c : Char} (hc : c ∈ s.toList) :
    c ∈ '-' :: hexadecimal := by
  obtain ⟨i, hi⟩ := List.getElem?_of_mem hc
  have hget := (uuidIsValid_iff.mp h).2 i c hi
  split at hget
  · rw [eq_of_beq hget]
    exact List.mem_cons_self
  · exact List.mem_cons_of_mem _ (mem_hexadecimal hget)

end Uuid

theorem MeshReplayEntry.expired_mono {e : MeshReplayEntry} {maximumSkew now later : Int} (h : now ≤ later)
    (hexp : e.expired maximumSkew now = true) : e.expired maximumSkew later = true := by
  simp only [expired, Bool.and_eq_true, decide_eq_true_eq] at hexp ⊢
  obtain ⟨⟨hpast, hfits⟩, hover⟩ := hexp
  exact ⟨⟨by omega, hfits⟩, by omega⟩

namespace MeshReplayStore

variable {store : MeshReplayStore} {domain fingerprint nonce : String} {timestamp now skew : Int}

theorem mem_purge {e : MeshReplayEntry} :
    e ∈ (store.purge skew now).entries ↔ e ∈ store.entries ∧ e.expired skew now = false := by
  simp [purge]

/-- What a call of the store does: it refuses and at most purges, or it records
an id that no unexpired entry has. -/
inductive Accepts (store : MeshReplayStore) (domain fingerprint nonce : String)
    (timestamp now skew : Int) :
    MeshReplayStore × Bool → Prop
  | malformed : Accepts store domain fingerprint nonce timestamp now skew (store, false)
  | refused : Accepts store domain fingerprint nonce timestamp now skew (store.purge skew now, false)
  | accepted (hnonce : uuidIsValid nonce = true)
      (hnew : ∀ e ∈ (store.purge skew now).entries, e.id ≠ replayID domain fingerprint nonce) :
      Accepts store domain fingerprint nonce timestamp now skew
        ((store.purge skew now).record ⟨replayID domain fingerprint nonce, timestamp⟩, true)

theorem accept_spec (store : MeshReplayStore) (domain fingerprint nonce : String)
    (timestamp now skew : Int) :
    Accepts store domain fingerprint nonce timestamp now skew
      (store.accept domain fingerprint nonce timestamp now skew) := by
  unfold accept
  split
  · exact .malformed
  · next hguard =>
      dsimp only
      split
      · exact .refused
      · next hnew =>
          split
          · exact .refused
          · refine .accepted ?_ ?_
            · simp only [Bool.or_eq_true, not_or, Bool.not_eq_true', Bool.not_eq_false] at hguard
              exact hguard.1.1
            · intro e he hid
              exact hnew (List.any_eq_true.mpr ⟨e, he, decide_eq_true hid⟩)

end MeshReplayStore

end TriNet.Phone
