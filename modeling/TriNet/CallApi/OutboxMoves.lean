import TriNet.CallApi.OutboxWorkers

namespace TriNet.CallApi

open Lib Lib.BigEndian

variable {env : Env} {db : Db} {outbox : Table OutboxRow.eventId}

section Claim

variable {claimOwner : String} {now : Int}

theorem claimIsDue_iff {r : OutboxRow} :
    claimIsDue claimOwner now r = true ↔ r.nextAttemptAt ≤ now ∧ r.blockedOwner ≠ some claimOwner ∧
      ∀ at', r.claimedAt = some at' → r.claimOwner = some claimOwner → at' ≤ leaseCutoff now := by
  cases h : r.claimedAt <;> simp [claimIsDue, h, and_assoc, or_iff_not_imp_left]

theorem expired_of_recoverable {r : OutboxRow} {at' : Int} (h : claimIsRecoverable claimOwner now r = true)
    (hat : r.claimedAt = some at') (howner : r.claimOwner = some claimOwner) :
    at' + InternetCall.apnsOutboxClaimLeaseSeconds ≤ now := by
  rw [claimIsRecoverable, hat, Option.all_some] at h
  split at h
  · next c n hc hn =>
      have hc := u32TryFrom_eq_some hc
      have hn := u32TryFrom_eq_some hn
      simp only [howner, InternetCall.apnsOutboxClaimIsRecoverable, beq_self_eq_true, Bool.not_true,
        Bool.false_eq_true, if_false] at h
      split at h
      · cases h
      · simp only [decide_eq_true_eq] at h
        omega
  · cases h

theorem find_setClaim {r : OutboxRow} (hr : outbox.find r.eventId = some r)
    (hdue : claimIsDue claimOwner now r = true) (k : String) :
    (setClaim claimOwner now outbox r.eventId).find k =
      if k = r.eventId then some { r with claimedAt := some now, claimOwner := some claimOwner }
      else outbox.find k := by
  have hfind : (setClaim claimOwner now outbox r.eventId).find k = (outbox.find k).map _ :=
    Table.find_update ..
  rw [hfind]
  split
  · next hk =>
      rw [hk, hr]
      simp [hdue]
  · next hk =>
      cases hs : outbox.find k with
      | none => rfl
      | some s =>
          have hsk := Table.key_of_find hs
          have hne : s.eventId ≠ r.eventId := fun he => hk (hsk.symm.trans he)
          simp [hne]

theorem claimDue_spec (claimOwner : String) (now : Int) (outbox : Table OutboxRow.eventId)
    (eventKind : OutboxKind) :
    claimDueApnsOutboxEvent claimOwner now outbox eventKind = (outbox, none) ∨
      ∃ r, outbox.find r.eventId = some r ∧ claimIsDue claimOwner now r = true ∧
        claimIsRecoverable claimOwner now r = true ∧
        claimDueApnsOutboxEvent claimOwner now outbox eventKind =
          (setClaim claimOwner now outbox r.eventId, some (claimedEvent claimOwner now r)) := by
  rw [claimDueApnsOutboxEvent]
  dsimp only
  split
  · exact .inl rfl
  · next r hhead =>
      have hmem := (List.mem_insertionSort dueBefore).mp (List.mem_of_mem_head? hhead)
      obtain ⟨hr, hdue⟩ := List.mem_filter.mp hmem
      simp only [Bool.and_eq_true] at hdue
      have hfind := Table.mem_rows.mp hr
      split
      · exact .inl rfl
      · split
        · exact .inl rfl
        · next hrecoverable =>
            refine .inr ⟨r, hfind, hdue.1, by simpa using hrecoverable, ?_⟩
            rw [Table.count_of_find hfind hdue.1]
            rfl

end Claim

namespace ApnsOutboxEvent

variable {event : ApnsOutboxEvent} {r : OutboxRow}

theorem owns_iff : event.owns r = true ↔
    r.eventId = event.eventId ∧ r.claimedAt = some event.claimedAt ∧
      r.claimOwner = some event.claimOwner := by
  rw [owns, decide_eq_true_eq]

theorem find_delete_of_not_owns {k : String} (h : ∀ r, outbox.find k = some r → event.owns r = false) :
    (outbox.delete event.owns).find k = outbox.find k := by
  rw [Table.find_delete]
  cases hk : outbox.find k with
  | none => rfl
  | some r => rw [Option.filter_some, h r hk, Bool.not_false, if_pos rfl]

theorem find_release_of_not_owns {k : String} {f : OutboxRow → OutboxRow}
    (hf : ∀ r, (f r).eventId = r.eventId)
    (h : ∀ r, outbox.find k = some r → event.owns r = false) :
    (event.release outbox f hf).find k = outbox.find k := by
  have hfind : (event.release outbox f hf).find k = (outbox.find k).map _ := Table.find_update ..
  rw [hfind]
  cases hk : outbox.find k with
  | none => rfl
  | some r => rw [Option.map_some, h r hk, if_neg Bool.false_ne_true]

theorem find_release_of_owns {k : String} {f : OutboxRow → OutboxRow} (hf : ∀ r, (f r).eventId = r.eventId)
    (hr : outbox.find k = some r) (howns : event.owns r = true) :
    (event.release outbox f hf).find k = some { f r with claimedAt := none, claimOwner := none } := by
  have hfind : (event.release outbox f hf).find k = (outbox.find k).map _ := Table.find_update ..
  rw [hfind, hr, Option.map_some, howns, if_pos rfl]

/-- What is left of an event its worker has given back: it is not due before the
worker's clock reading, or the process has blocked it. -/
structure Released (event : ApnsOutboxEvent) (now : Int) (r r' : OutboxRow) : Prop where
  id : r'.eventId = r.eventId
  triple : r'.triple = r.triple
  unclaimed : r'.claimedAt = none ∧ r'.claimOwner = none
  later : unixTime now ≤ r'.nextAttemptAt ∨ r'.blockedOwner = some event.claimOwner

end ApnsOutboxEvent

namespace Outcome

variable {event : ApnsOutboxEvent} {now : Int}

theorem apply_cases (env : Env) (event : ApnsOutboxEvent) (now : Int) (db : Db) (outcome : Outcome) :
    ∃ devices outbox,
      outcome.apply env event now db = { db with devices := devices, apnsOutbox := outbox } ∧
      (outbox = db.apnsOutbox ∧ db.apnsOutbox.count event.owns = 0 ∨
        outbox = db.apnsOutbox.delete event.owns ∧ outcome.Deletes ∨
        ∃ f hf, outbox = event.release db.apnsOutbox f hf ∧
          ∀ r, event.Released now r { f r with claimedAt := none, claimOwner := none }) := by
  cases outcome with
  | acknowledge delivery environment =>
      unfold apply acknowledgeApnsOutboxEvent
      dsimp only
      split
      · split <;> exact ⟨_, _, rfl, .inr (.inl ⟨rfl, trivial⟩)⟩
      · exact ⟨_, _, rfl, .inr (.inl ⟨rfl, trivial⟩)⟩
  | invalidate delivery status invalidAt =>
      rw [apply, invalidateApnsOutboxToken]
      split
      · next hzero => exact ⟨db.devices, db.apnsOutbox, rfl, .inl ⟨rfl, hzero⟩⟩
      · dsimp only
        split
        · exact ⟨_, _, rfl, .inr (.inl ⟨rfl, trivial⟩)⟩
        · refine ⟨_, _, rfl,
            .inr (.inr ⟨_, ?_, rfl, fun _ => ⟨rfl, rfl, ⟨rfl, rfl⟩, .inl (min_le_left ..)⟩⟩)⟩
          exact fun _ => rfl
  | reschedule error random =>
      refine ⟨_, _, rfl, .inr (.inr ⟨_, _, rfl, fun _ => ⟨rfl, rfl, ⟨rfl, rfl⟩, .inl ?_⟩⟩)⟩
      dsimp only [unixTime]
      omega
  | alternate delivery environment error =>
      exact ⟨_, _, rfl, .inr (.inr ⟨_, _, rfl, fun _ => ⟨rfl, rfl, ⟨rfl, rfl⟩, .inl (min_le_left ..)⟩⟩)⟩
  | block error =>
      exact ⟨_, _, rfl, .inr (.inr ⟨_, _, rfl, fun _ => ⟨rfl, rfl, ⟨rfl, rfl⟩, .inr rfl⟩⟩)⟩

theorem find_apply_of_not_owns (outcome : Outcome) {k : String}
    (h : ∀ r, db.apnsOutbox.find k = some r → event.owns r = false) :
    (outcome.apply env event now db).apnsOutbox.find k = db.apnsOutbox.find k := by
  obtain ⟨devices, outbox, hdb, ⟨rfl, _⟩ | ⟨rfl, _⟩ | ⟨f, hf, rfl, _⟩⟩ :=
    apply_cases env event now db outcome
  · rw [hdb]
  · rw [hdb]
    exact ApnsOutboxEvent.find_delete_of_not_owns h
  · rw [hdb]
    exact ApnsOutboxEvent.find_release_of_not_owns hf h

theorem find_apply_of_other (outcome : Outcome) {k : String} {r : OutboxRow}
    (hr : db.apnsOutbox.find k = some r)
    (hnot : event.owns r = false) : (outcome.apply env event now db).apnsOutbox.find k = some r := by
  rw [← hr]
  apply outcome.find_apply_of_not_owns
  intro r' hr'
  rwa [Option.some.inj (hr'.symm.trans hr)]

theorem find_apply_of_owns (outcome : Outcome) {k : String} {r : OutboxRow}
    (hr : db.apnsOutbox.find k = some r) (howns : event.owns r = true) :
    (outcome.apply env event now db).apnsOutbox.find k = none ∧ outcome.Deletes ∨
      ∃ r', (outcome.apply env event now db).apnsOutbox.find k = some r' ∧ event.Released now r r' := by
  obtain ⟨devices, outbox, hdb, ⟨rfl, hzero⟩ | ⟨rfl, hdeletes⟩ | ⟨f, hf, rfl, hreleased⟩⟩ :=
    apply_cases env event now db outcome
  · have hnot := Table.count_eq_zero.mp hzero k r hr
    rw [howns] at hnot
    cases hnot
  · refine .inl ⟨?_, hdeletes⟩
    rw [hdb]
    dsimp only
    rw [Table.find_delete, hr, Option.filter_some, howns, Bool.not_true, if_neg Bool.false_ne_true]
  · refine .inr ⟨_, ?_, hreleased r⟩
    rw [hdb]
    exact ApnsOutboxEvent.find_release_of_owns hf hr howns

theorem find_apply_eq_some (outcome : Outcome) {k : String} {r' : OutboxRow}
    (h : (outcome.apply env event now db).apnsOutbox.find k = some r') :
    ∃ r, db.apnsOutbox.find k = some r ∧ (r' = r ∨ event.owns r = true ∧ event.Released now r r') := by
  cases hk : db.apnsOutbox.find k with
  | none =>
      rw [outcome.find_apply_of_not_owns (fun r hr => by rw [hk] at hr; cases hr), hk] at h
      cases h
  | some r =>
      refine ⟨r, rfl, ?_⟩
      cases howns : event.owns r with
      | false =>
          rw [outcome.find_apply_of_other hk howns] at h
          exact .inl (Option.some.inj h).symm
      | true =>
          obtain ⟨hnone, _⟩ | ⟨r₁, hr₁, hreleased⟩ := outcome.find_apply_of_owns hk howns
          · rw [hnone] at h
            cases h
          · rw [hr₁] at h
            rw [← Option.some.inj h]
            exact .inr ⟨rfl, hreleased⟩

end Outcome

end TriNet.CallApi
