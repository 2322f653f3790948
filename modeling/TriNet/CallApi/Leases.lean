import Mathlib.Logic.Function.Basic
import TriNet.CallApi.OutboxHistory

namespace TriNet.CallApi

open Lib Lib.BigEndian Lib.Runs

theorem unixTime_mono {a b : Int} (h : a ≤ b) : unixTime a ≤ unixTime b := min_le_min_right _ h

theorem unixTime_le (a : Int) : unixTime a ≤ a := min_le_left ..

theorem unixTime_of_le {a b : Int} (h : a ≤ unixTime b) : unixTime a = a :=
  min_eq_left (h.trans (min_le_right ..))

/-- The last second before which nobody else of the process can take the event
over. -/
def ApnsOutboxEvent.expiry (event : ApnsOutboxEvent) : Int :=
  event.claimedAt + InternetCall.apnsOutboxClaimLeaseSeconds

def ApnsOutboxEvent.triple (event : ApnsOutboxEvent) : OutboxKind × String × String :=
  (event.eventKind, event.objectId, event.targetDeviceId)

structure OutboxRow.Sound (db : Db) (r : OutboxRow) : Prop where
  due : ∀ at', r.claimedAt = some at' → r.nextAttemptAt ≤ at'
  unblocked : ∀ owner, r.claimOwner = some owner → r.blockedOwner ≠ some owner
  known : db.Known r.eventKind r.objectId

/-- The row is out of reach of a claim: whoever claims it next, or has claimed
it, does so after the lease has run out. -/
inductive ApnsOutboxEvent.Superseded (event : ApnsOutboxEvent) (r : OutboxRow) : Prop
  | later (h : event.expiry ≤ r.nextAttemptAt)
  | blocked (h : r.blockedOwner = some event.claimOwner)
  | takenOver {at' : Int} (hat : r.claimedAt = some at')
      (howner : r.claimOwner = some event.claimOwner) (h : event.expiry ≤ at')

section Row

variable {db : Db} {event other : ApnsOutboxEvent} {r : OutboxRow} {now : Int}

theorem expiry_le_of_claim (h : event.owns r = true ∨ event.Superseded r)
    (hdue : claimIsDue event.claimOwner now r = true)
    (hrecoverable : claimIsRecoverable event.claimOwner now r = true) : event.expiry ≤ now := by
  obtain ⟨hnext, hblocked, _⟩ := claimIsDue_iff.mp hdue
  obtain howns | hsuperseded := h
  · obtain ⟨_, hat, howner⟩ := ApnsOutboxEvent.owns_iff.mp howns
    exact expired_of_recoverable hrecoverable hat howner
  · cases hsuperseded with
    | later h => exact h.trans hnext
    | blocked h => exact absurd h hblocked
    | takenOver hat howner h =>
        have := expired_of_recoverable hrecoverable hat howner
        omega

theorem ApnsOutboxEvent.Superseded.expiry_le (h : event.Superseded r) (hsound : r.Sound db)
    (howns : other.owns r = true) (howner : other.claimOwner = event.claimOwner) :
    event.expiry ≤ other.claimedAt := by
  obtain ⟨_, hat, hclaim⟩ := ApnsOutboxEvent.owns_iff.mp howns
  cases h with
  | later h => exact h.trans (hsound.due _ hat)
  | blocked h => exact absurd (howner ▸ h) (hsound.unblocked _ hclaim)
  | takenOver hat' _ h => rwa [Option.some.inj (hat.symm.trans hat')]

theorem OutboxRow.Sound.of_unclaimed (h : r.claimedAt = none ∧ r.claimOwner = none)
    (hknown : db.Known r.eventKind r.objectId) : r.Sound db where
  due := by
    intro at' hat
    cases h.1.symm.trans hat
  unblocked := by
    intro owner howner
    cases h.2.symm.trans howner
  known := hknown

end Row

theorem Outcome.known_apply (env : Env) (event : ApnsOutboxEvent) (now : Int) (outcome : Outcome)
    {db : Db} {kind : OutboxKind} {objectId : String} (h : db.Known kind objectId) :
    (outcome.apply env event now db).Known kind objectId := by
  obtain ⟨devices, outbox, hdb, _⟩ := outcome.apply_cases env event now db
  rw [hdb]
  cases kind <;> exact h

theorem Server.clock_le_step (env : Env) (s : Server) (e : CallApi.Event) :
    s.clock ≤ (s.step env e).clock := by
  cases e with
  | tick seconds => exact Int.le_add_of_nonneg_right (Int.natCast_nonneg seconds)
  | arrive incoming =>
      rw [Server.step]
      split <;> exact le_rfl
  | authenticate i =>
      rw [Server.step]
      split
      · exact le_rfl
      · split <;> exact le_rfl
  | body i draw =>
      rw [Server.step]
      split
      · exact le_rfl
      · split <;> exact le_rfl

namespace Service

variable {ι : Type}

/-- Of two claims on one event, one was taken after the other's lease. -/
def Apart (event other : ApnsOutboxEvent) : Prop :=
  event.eventId = other.eventId → event.expiry ≤ other.claimedAt ∨ other.expiry ≤ event.claimedAt

/-- What holds of a claim from the moment it is taken until it is settled. -/
structure Standing (s : Service ι) (event : ApnsOutboxEvent) : Prop where
  owner : event.claimOwner = s.owner
  past : event.claimedAt ≤ s.time
  known : s.server.db.Known event.eventKind event.objectId
  gone : s.outbox.find event.eventId = none → event.expiry ≤ s.time
  here : ∀ r, s.outbox.find event.eventId = some r → event.owns r = true ∨ event.Superseded r

structure Leased (s : Service ι) : Prop where
  rows : ∀ k r, s.outbox.find k = some r → r.Sound s.server.db
  polled : ∀ w now, s.workers w = .polled now → now ≤ s.time
  reporting : ∀ w event now, s.workers w = .reporting event now → event.claimedAt ≤ now ∧ now ≤ s.time
  claims : ∀ w event, (s.workers w).claim = some event → s.Standing event
  apart : ∀ w v event other, w ≠ v → (s.workers w).claim = some event →
    (s.workers v).claim = some other → Apart event other

theorem Standing.frame {s t : Service ι} {event : ApnsOutboxEvent} (h : s.Standing event)
    (howner : t.owner = s.owner) (htime : s.time ≤ t.time)
    (hknown : s.server.db.Known event.eventKind event.objectId →
      t.server.db.Known event.eventKind event.objectId)
    (hfind : t.outbox.find event.eventId = s.outbox.find event.eventId) : t.Standing event where
  owner := howner ▸ h.owner
  past := h.past.trans htime
  known := hknown h.known
  gone hnone := (h.gone (hfind ▸ hnone)).trans htime
  here r hr := h.here r (hfind ▸ hr)

theorem Standing.expiry_le {s : Service ι} {event : ApnsOutboxEvent} (h : s.Standing event)
    {now : Int} {r : OutboxRow}
    (hr : s.outbox.find r.eventId = some r) (hdue : claimIsDue s.owner now r = true)
    (hrecoverable : claimIsRecoverable s.owner now r = true) (hid : event.eventId = r.eventId) :
    event.expiry ≤ now := by
  rw [← h.owner] at hdue hrecoverable
  exact expiry_le_of_claim (h.here r (hid ▸ hr)) hdue hrecoverable

theorem leased_start (ι : Type) (clock : Int) (owner : String) : (start ι clock owner).Leased where
  rows := by
    intro k r hr
    cases hr
  polled := by
    intro w now hw
    cases hw
  reporting := by
    intro w event now hw
    cases hw
  claims := by
    intro w event hw
    cases hw
  apart := by
    intro w v event other hne hw
    cases hw

theorem Leased.setClaim {s : Service ι} (h : s.Leased) {now : Int} {r : OutboxRow}
    (hr : s.outbox.find r.eventId = some r) (hdue : claimIsDue s.owner now r = true)
    (hrecoverable : claimIsRecoverable s.owner now r = true) :
    Leased { s with server := { s.server with
      db := { s.server.db with apnsOutbox := CallApi.setClaim s.owner now s.outbox r.eventId } } } := by
  obtain ⟨hnext, hblocked, _⟩ := claimIsDue_iff.mp hdue
  have hfind := find_setClaim hr hdue
  refine ⟨?_, h.polled, h.reporting, ?_, h.apart⟩
  · intro k r' hr'
    rw [outbox, hfind] at hr'
    split at hr'
    · rw [← Option.some.inj hr']
      refine ⟨?_, ?_, (h.rows _ r hr).known⟩
      · intro at' hat
        rwa [← Option.some.inj hat]
      · intro owner howner
        rwa [← Option.some.inj howner]
    · exact ⟨(h.rows k r' hr').due, (h.rows k r' hr').unblocked, (h.rows k r' hr').known⟩
  · intro v event hv
    have hstanding := h.claims v event hv
    by_cases hid : event.eventId = r.eventId
    · refine ⟨hstanding.owner, hstanding.past, hstanding.known, ?_, ?_⟩
      · intro hnone
        rw [outbox, hfind, if_pos hid] at hnone
        cases hnone
      · intro r' hr'
        rw [outbox, hfind, if_pos hid] at hr'
        rw [← Option.some.inj hr']
        exact .inr (.takenOver rfl (by rw [hstanding.owner])
          (hstanding.expiry_le hr hdue hrecoverable hid))
    · refine hstanding.frame rfl le_rfl id ?_
      rw [outbox, hfind, if_neg hid]

theorem Leased.lapsed {s : Service ι} (h : s.Leased) {w v : ι}
    {event other : ApnsOutboxEvent} {r : OutboxRow}
    (hevent : (s.workers w).claim = some event) (hvw : v ≠ w) (hv : (s.workers v).claim = some other)
    (hr : s.outbox.find other.eventId = some r) (howns : event.owns r = true) :
    other.expiry ≤ event.claimedAt := by
  have hstanding := h.claims v other hv
  obtain ⟨hid, hat, _⟩ := ApnsOutboxEvent.owns_iff.mp howns
  obtain hother | hsuperseded := hstanding.here r hr
  · obtain ⟨hid', hat', _⟩ := ApnsOutboxEvent.owns_iff.mp hother
    have hsame := Option.some.inj (hat.symm.trans hat')
    have hapart := h.apart v w other event hvw hv hevent (hid'.symm.trans hid)
    simp only [ApnsOutboxEvent.expiry, InternetCall.apnsOutboxClaimLeaseSeconds] at hapart ⊢
    omega
  · exact hsuperseded.expiry_le (h.rows _ r hr) howns
      ((h.claims w event hevent).owner.trans hstanding.owner.symm)

variable [DecidableEq ι]

/-- A new event does not have the id of an event some worker still holds. -/
def NoCollision (env : Env) (s : Service ι) (e : Event ι) : Prop :=
  ∀ r ∈ (step env s e).outbox.rows, s.outbox.find r.eventId = none →
    ∀ w, ∀ event ∈ (s.workers w).claim, event.eventId = r.eventId → event.triple = r.triple

instance (env : Env) (s : Service Bool) (e : Event Bool) : Decidable (NoCollision env s e) :=
  inferInstanceAs (Decidable (∀ r ∈ (step env s e).outbox.rows, s.outbox.find r.eventId = none →
    ∀ w, ∀ event ∈ (s.workers w).claim, event.eventId = r.eventId → event.triple = r.triple))

theorem Leased.setPhase {s : Service ι} (h : s.Leased) {w : ι} {phase : Phase}
    (hpolled : ∀ now, phase = .polled now → now ≤ s.time)
    (hreporting : ∀ event now, phase = .reporting event now → event.claimedAt ≤ now ∧ now ≤ s.time)
    (hclaim : ∀ event, phase.claim = some event → s.Standing event ∧
      ∀ v other, v ≠ w → (s.workers v).claim = some other → Apart event other) :
    Leased { s with workers := Function.update s.workers w phase } := by
  refine ⟨h.rows, ?_, ?_, ?_, ?_⟩
  · apply (Function.forall_update_iff s.workers (fun _ p => ∀ now, p = .polled now → now ≤ s.time)).mpr
    exact ⟨hpolled, fun v _ => h.polled v⟩
  · apply (Function.forall_update_iff s.workers
      (fun _ p => ∀ event now, p = .reporting event now → event.claimedAt ≤ now ∧ now ≤ s.time)).mpr
    exact ⟨hreporting, fun v _ => h.reporting v⟩
  · apply (Function.forall_update_iff s.workers (fun _ p => ∀ event, p.claim = some event →
      Standing _ event)).mpr
    constructor
    · exact fun event he => (hclaim event he).1.frame rfl le_rfl id rfl
    · exact fun v _ event he => (h.claims v event he).frame rfl le_rfl id rfl
  · intro v u event other hne hv hu
    dsimp only at hv hu
    rw [Function.update_apply] at hv hu
    split at hv
    · next hvw =>
        rw [if_neg (fun huw => hne (hvw.trans huw.symm))] at hu
        exact (hclaim event hv).2 u other (fun huw => hne (hvw.trans huw.symm)) hu
    · next hvw =>
        split at hu
        · exact fun hid => ((hclaim other hu).2 v event hvw hv hid.symm).symm
        · exact h.apart v u event other hne hv hu

theorem Leased.handler {env : Env} {s : Service ι} (h : s.Leased) {e : CallApi.Event}
    (hcollision : NoCollision env s (.handler e)) : (step env s (.handler e)).Leased := by
  have htraffic := s.server.step_traffic env e
  have htime : s.time ≤ (step env s (.handler e)).time := unixTime_mono (s.server.clock_le_step env e)
  obtain ⟨new, hrows, _, hnew⟩ := htraffic.outbox
  refine ⟨?_, ?_, ?_, ?_, h.apart⟩
  · intro k r hr
    have hmem : r ∈ s.outbox.rows ++ new := by
      rw [← show _ = s.outbox.rows ++ new from hrows]
      exact (Table.find_eq_some.mp hr).1
    obtain hold | hr := List.mem_append.mp hmem
    · have hsound := h.rows r.eventId r (Table.mem_rows.mp hold)
      exact ⟨hsound.due, hsound.unblocked, htraffic.known hsound.known⟩
    · obtain ⟨hqueued, _, hknown⟩ := hnew r hr
      exact .of_unclaimed hqueued.unclaimed hknown
  · exact fun w now hw => (h.polled w now hw).trans htime
  · exact fun w event now hw =>
      ⟨(h.reporting w event now hw).1, (h.reporting w event now hw).2.trans htime⟩
  · intro w event hw
    have hstanding := h.claims w event hw
    refine hstanding.frame rfl htime htraffic.known ?_
    apply Table.find_append (show (step env s (.handler e)).outbox.rows = s.outbox.rows ++ new from hrows)
    -- a new row with the id of this event would be about an object that is not new
    intro r hr hid
    obtain ⟨_, hunknown, _⟩ := hnew r hr
    have hmem : r ∈ (step env s (.handler e)).outbox.rows := by
      rw [show (step env s (.handler e)).outbox.rows = s.outbox.rows ++ new from hrows]
      exact List.mem_append_right _ hr
    have htriple := hcollision r hmem (Table.find_of_appended hrows hr) w event hw hid.symm
    simp only [ApnsOutboxEvent.triple, OutboxRow.triple, Prod.mk.injEq] at htriple
    exact hunknown (htriple.1 ▸ htriple.2.1 ▸ hstanding.known)

theorem Leased.claim {s : Service ι} (h : s.Leased) {w : ι} {now : Int} {r : OutboxRow}
    (hpolled : s.workers w = .polled now) (hr : s.outbox.find r.eventId = some r)
    (hdue : claimIsDue s.owner now r = true) (hrecoverable : claimIsRecoverable s.owner now r = true) :
    Leased { s with
      server := { s.server with
        db := { s.server.db with apnsOutbox := CallApi.setClaim s.owner now s.outbox r.eventId } }
      workers := Function.update s.workers w (.holding (claimedEvent s.owner now r)) } := by
  refine (h.setClaim hr hdue hrecoverable).setPhase (by rintro _ ⟨⟩) (by rintro _ _ ⟨⟩) ?_
  rintro event ⟨⟩
  have hfind := find_setClaim hr hdue r.eventId
  rw [if_pos rfl] at hfind
  refine ⟨⟨rfl, h.polled w now hpolled, (h.rows _ r hr).known, ?_, ?_⟩, ?_⟩
  · intro hnone
    cases hfind.symm.trans hnone
  · intro r' hr'
    rw [← Option.some.inj (hfind.symm.trans hr')]
    exact .inl (ApnsOutboxEvent.owns_iff.mpr ⟨rfl, rfl, rfl⟩)
  · intro v other _ hv hid
    exact .inr ((h.claims v other hv).expiry_le hr hdue hrecoverable hid.symm)

theorem Leased.settle {env : Env} {s : Service ι} (h : s.Leased) {w : ι} {event : ApnsOutboxEvent}
    {now : Int} (hreporting : s.workers w = .reporting event now) (outcome : Outcome) :
    Leased { s with
      server := { s.server with db := outcome.apply env event now s.server.db }
      workers := Function.update s.workers w .idle } := by
  obtain ⟨hpast, hnow⟩ := h.reporting w event now hreporting
  have hevent : (s.workers w).claim = some event := by rw [hreporting]; rfl
  have hidle : Leased { s with workers := Function.update s.workers w .idle } :=
    h.setPhase (by rintro _ ⟨⟩) (by rintro _ _ ⟨⟩) (by rintro _ ⟨⟩)
  refine ⟨?_, hidle.polled, hidle.reporting, ?_, hidle.apart⟩
  · intro k r' hr'
    obtain ⟨r, hr, rfl | ⟨_, hreleased⟩⟩ := outcome.find_apply_eq_some hr'
    · exact ⟨(h.rows k r' hr).due, (h.rows k r' hr).unblocked,
        outcome.known_apply env event now (h.rows k r' hr).known⟩
    · apply OutboxRow.Sound.of_unclaimed hreleased.unclaimed
      have htriple := hreleased.triple
      simp only [OutboxRow.triple, Prod.mk.injEq] at htriple
      rw [htriple.1, htriple.2.1]
      exact outcome.known_apply env event now (h.rows k r hr).known
  · intro v other hv
    dsimp only at hv
    rw [Function.update_apply] at hv
    split at hv
    · cases hv
    · next hvw =>
        have hstanding := h.claims v other hv
        refine ⟨hstanding.owner, hstanding.past, outcome.known_apply env event now hstanding.known, ?_, ?_⟩
        · intro hnone
          cases hr : s.outbox.find other.eventId with
          | none => exact hstanding.gone hr
          | some r =>
              cases howns : event.owns r with
              | true => exact ((h.lapsed hevent hvw hv hr howns).trans hpast).trans hnow
              | false => cases (outcome.find_apply_of_other hr howns).symm.trans hnone
        · intro r' hr'
          obtain ⟨r, hr, rfl | ⟨howns, hreleased⟩⟩ := outcome.find_apply_eq_some hr'
          · exact hstanding.here r' hr
          · obtain hlater | hblocked := hreleased.later
            · rw [unixTime_of_le hnow] at hlater
              exact .inr (.later (((h.lapsed hevent hvw hv hr howns).trans hpast).trans hlater))
            · rw [(h.claims w event hevent).owner, ← hstanding.owner] at hblocked
              exact .inr (.blocked hblocked)

theorem step_leased {env : Env} {s : Service ι} {e : Event ι} (h : s.Leased)
    (hcollision : NoCollision env s e) : (step env s e).Leased := by
  have hstep := step_spec env s e
  generalize ht : step env s e = t at hstep ⊢
  cases hstep with
  | handler e =>
      rw [← ht]
      exact h.handler hcollision
  | stay => exact h
  | poll hfree =>
      refine h.setPhase ?_ (by rintro _ _ ⟨⟩) (by rintro _ ⟨⟩)
      rintro now ⟨⟩
      exact le_rfl
  | miss hpolled => exact h.setPhase (by rintro _ ⟨⟩) (by rintro _ _ ⟨⟩) (by rintro _ ⟨⟩)
  | claim hpolled hr hdue hrecoverable => exact h.claim hpolled hr hdue hrecoverable
  | @report w event hholding =>
      have hevent : (s.workers w).claim = some event := by
        rw [hholding]
        rfl
      have hstanding := h.claims w event hevent
      refine h.setPhase (by rintro _ ⟨⟩) ?_ ?_
      · rintro event' now ⟨⟩
        exact ⟨hstanding.past, le_rfl⟩
      · rintro event' ⟨⟩
        exact ⟨hstanding, fun v other hvw hv => h.apart w v event other hvw.symm hevent hv⟩
  | settle outcome hreporting => exact h.settle hreporting outcome
  | restart owner =>
      refine ⟨h.rows, ?_, ?_, ?_, ?_⟩
      · rintro w now ⟨⟩
      · rintro w event now ⟨⟩
      · rintro w event ⟨⟩
      · rintro w v event other _ ⟨⟩

theorem settled_of_gone {env : Env} {s : Service ι} {e : Event ι} {k : String} {r : OutboxRow}
    (hr : s.outbox.find k = some r) (hgone : (step env s e).outbox.find k = none) :
    ∃ w outcome event now, e = .settle w outcome ∧ s.workers w = .reporting event now ∧
      event.owns r = true ∧ outcome.Deletes := by
  have hstep := step_spec env s e
  generalize step env s e = t at hstep hgone
  cases hstep with
  | handler e =>
      obtain ⟨new, hrows, _⟩ := (s.server.step_traffic env e).outbox
      obtain ⟨hmem, hkey⟩ := Table.find_eq_some.mp hr
      refine absurd hkey (Table.find_eq_none.mp hgone r ?_)
      exact (show _ = s.outbox.rows ++ new from hrows) ▸ List.mem_append_left _ hmem
  | stay | poll | miss | report | restart => cases hr.symm.trans hgone
  | claim hpolled hcandidate hdue =>
      rw [outbox, find_setClaim hcandidate hdue] at hgone
      split at hgone
      · cases hgone
      · cases hr.symm.trans hgone
  | @settle w event now outcome hreporting =>
      cases howns : event.owns r with
      | true =>
          obtain ⟨_, hdeletes⟩ | ⟨r', hr', _⟩ := outcome.find_apply_of_owns hr howns
          · exact ⟨w, outcome, event, now, rfl, hreporting, howns, hdeletes⟩
          · cases hr'.symm.trans hgone
      | false => cases (outcome.find_apply_of_other hr howns).symm.trans hgone

theorem Leased.fenced {env : Env} {s : Service ι} (h : s.Leased) {w v : ι} {event other : ApnsOutboxEvent}
    {r : OutboxRow} (outcome : Outcome) (hne : w ≠ v) (hw : (s.workers w).claim = some event)
    (hv : (s.workers v).claim = some other) (hid : event.eventId = other.eventId)
    (hr : s.outbox.find other.eventId = some r) (howns : other.owns r = true) :
    event.expiry ≤ other.claimedAt ∧
      (step env s (.settle w outcome)).outbox.find other.eventId = some r := by
  have hstanding := h.claims w event hw
  obtain ⟨_, hat, _⟩ := ApnsOutboxEvent.owns_iff.mp howns
  have hnot : event.owns r = false := by
    apply Bool.eq_false_iff.mpr
    intro hevent
    obtain ⟨_, hat', _⟩ := ApnsOutboxEvent.owns_iff.mp hevent
    have hsame := Option.some.inj (hat.symm.trans hat')
    have hapart := h.apart w v event other hne hw hv hid
    simp only [ApnsOutboxEvent.expiry, InternetCall.apnsOutboxClaimLeaseSeconds] at hapart
    omega
  constructor
  · obtain hevent | hsuperseded := hstanding.here r (hid ▸ hr)
    · rw [hnot] at hevent
      cases hevent
    · exact hsuperseded.expiry_le (h.rows _ r hr) howns
        ((h.claims v other hv).owner.trans hstanding.owner.symm)
  · rw [step]
    split
    · next event' now hreporting =>
        rw [hreporting] at hw
        cases hw
        exact outcome.find_apply_of_other hr hnot
    · exact hr

/-- What a service comes to from an empty database, whatever its processes,
handlers and workers do. -/
def Reachable (env : Env) (s : Service ι) : Prop :=
  ∃ clock owner es, Along (step env) (NoCollision env) (start ι clock owner) es ∧
    run (step env) (start ι clock owner) es = s

/-- However any number of workers are scheduled, with whatever delays between
their steps: no two of them hold an unexpired lease on one event; one that was
taken over changes nothing while the newer claim stands; and an event leaves
the outbox only through the worker whose claim is stored, when it acknowledges
the event or invalidates its token. -/
theorem leases_exclusive (env : Env) (s : Service ι) (h : Reachable env s) :
    (∀ w v event other, w ≠ v → (s.workers w).claim = some event → (s.workers v).claim = some other →
      event.eventId = other.eventId → ¬ (s.server.clock < event.expiry ∧ s.server.clock < other.expiry)) ∧
    (∀ w v event other r outcome, w ≠ v → (s.workers w).claim = some event →
      (s.workers v).claim = some other →
      event.eventId = other.eventId → s.outbox.find other.eventId = some r → other.owns r = true →
      event.expiry ≤ other.claimedAt ∧
        (step env s (.settle w outcome)).outbox.find other.eventId = some r) ∧
    ∀ e k r, s.outbox.find k = some r → (step env s e).outbox.find k = none →
      ∃ w outcome event now, e = .settle w outcome ∧ s.workers w = .reporting event now ∧
        event.owns r = true ∧ outcome.Deletes := by
  obtain ⟨clock, owner, es, halong, rfl⟩ := h
  have hleased := run_along (step env) (NoCollision env) Leased (fun _ _ => step_leased) _ es
    (leased_start ι clock owner) halong
  generalize run (step env) (start ι clock owner) es = s at hleased ⊢
  refine ⟨?_, ?_, fun _ _ _ => settled_of_gone⟩
  · rintro w v event other hne hw hv hid ⟨hevent, hother⟩
    have htime := unixTime_le s.server.clock
    have hpast := (hleased.claims w event hw).past
    have hpast' := (hleased.claims v other hv).past
    rw [time] at hpast hpast'
    obtain hlapsed | hlapsed := hleased.apart w v event other hne hw hv hid <;> omega
  · exact fun w v event other r outcome hne hw hv hid hr howns =>
      hleased.fenced outcome hne hw hv hid hr howns

/-- Device `a` calls the account of `b`, whose push event worker `false` claims
and then worker `true`, two minutes later. -/
def slowWorker : List (Event Bool) :=
  (Server.serve "key-a" "a" "nonce-a-00000001" "register a" 0 (plainRegistration "u" "a" "key-a") ++
    Server.serve "key-a" "a" "nonce-a-00000002" "name a" 1 (.claimNickname ⟨"alice", "u", "a"⟩) ++
    Server.serve "key-b" "b" "nonce-b-00000001" "register b" 2 (.registerDevice
      { userId := "w"
        deviceId := "b"
        displayName := "b"
        signingPublicKey := "key-b"
        textEncryptionPublicKey := none
        keyFingerprint := plainEnv.fingerprint (utf8 "key-b")
        platform := "ios"
        voipPushToken := some "00112233445566778899aabbccddeeff"
        alertPushToken := none
        pushEnvironment := none
        capabilities := ["audio", "webrtc"] }) ++
    Server.serve "key-b" "b" "nonce-b-00000002" "name b" 3 (.claimNickname ⟨"robert", "w", "b"⟩) ++
    Server.serve "key-a" "a" "nonce-a-00000003" "call" 4
      (.createCall ⟨"uuid", "robert", "u", "a", true, false⟩)).map .handler ++
    [.poll false, .claim false .callInvite, .handler (.tick 120), .poll true,
      .claim true .callInvite, .report false]

theorem leases_exclusive_slowWorker :
    ∃ event other, ((run (step plainEnv) (start Bool 1000 "owner") slowWorker).workers
      false).claim = some event ∧
      ((run (step plainEnv) (start Bool 1000 "owner") slowWorker).workers true).claim = some other ∧
      event.eventId = other.eventId ∧
      ¬ ((run (step plainEnv) (start Bool 1000 "owner") slowWorker).server.clock < event.expiry ∧
        (run (step plainEnv) (start Bool 1000 "owner") slowWorker).server.clock < other.expiry) := by
  obtain ⟨halong, hheld⟩ :
      Along (step plainEnv) (NoCollision plainEnv) (start Bool 1000 "owner") slowWorker ∧
      ∀ w, ((run (step plainEnv) (start Bool 1000 "owner") slowWorker).workers w).claim.map
        ApnsOutboxEvent.eventId =
        some (apnsOutboxEventId plainEnv .callInvite (plainCallId 4) "b") := by
    decide +kernel
  obtain ⟨event, hevent, hid⟩ := Option.map_eq_some_iff.mp (hheld false)
  obtain ⟨other, hother, hid'⟩ := Option.map_eq_some_iff.mp (hheld true)
  refine ⟨event, other, hevent, hother, hid.trans hid'.symm, ?_⟩
  exact (leases_exclusive plainEnv _ ⟨1000, "owner", slowWorker, halong, rfl⟩).1 false true event
    other Bool.false_ne_true hevent hother (hid.trans hid'.symm)

end Service

end TriNet.CallApi
