import Mathlib.Data.Int.ConditionallyCompleteOrder
import TriNet.Lib.Throttle
import TriNet.CallApi.CallChanges
import TriNet.CallApi.MediaSessions
import TriNet.CallApi.OutboxHistory

namespace TriNet.CallApi

open Lib Lib.BigEndian Lib.Runs

variable {env : Env} {draw : Draw} {db db' : Db} {request : Request}

/-- An earlier call of the same device that a call finds in its rate window. -/
def CallRow.meetsRecent (call earlier : CallRow) : Bool :=
  earlier.callerDeviceId = call.callerDeviceId ∧
    earlier.createdAt ≥ call.createdAt - InternetCall.callRateWindowSeconds

def CallRow.meetsPending (call earlier : CallRow) : Bool :=
  earlier.callerDeviceId = call.callerDeviceId ∧ earlier.status = .ringing ∧
    earlier.createdAt ≥ call.createdAt - InternetCall.inviteTtlSeconds

/-- The limits of admission, as they hold of the calls in the order in which
they were placed. -/
structure Db.Admitted (db : Db) : Prop where
  recent : Throttled InternetCall.maxNewCallsPerDeviceWindow CallRow.meetsRecent db.calls.rows
  pending : Throttled InternetCall.maxPendingCallsPerDevice CallRow.meetsPending db.calls.rows
  invites : db.invites ≤ InternetCall.apnsVoipOutboxWorkers

theorem Db.Admitted.of_kept (h : db.Admitted) (hcalls : db'.calls = db.calls)
    (hinvites : db'.invites ≤ db.invites) : db'.Admitted :=
  ⟨hcalls ▸ h.recent, hcalls ▸ h.pending, Nat.le_trans hinvites h.invites⟩

/-- The count that admits a call is taken at a clock reading no later than the
creation time, so it counts whatever the call meets. -/
theorem CallChange.admitted (h : CallChange env draw db db' request) (hpush : env.apnsConfigured = true)
    (hclock : Monotone draw.clock) (hdb : db.Admitted) : db'.Admitted := by
  cases h with
  | keep f hrows hf htargets hinvites =>
      have hcreated (r) (hr : r ∈ db.calls.rows) : (f r).createdAt = r.createdAt := (hf r hr).createdAt
      have hcaller (r) (hr : r ∈ db.calls.rows) : (f r).callerDeviceId = r.callerDeviceId :=
        (hf r hr).callerDeviceId
      constructor
      · rw [hrows]
        apply hdb.recent.map
        intro call hcall earlier hearlier hmeets
        simpa only [CallRow.meetsRecent, hcreated, hcaller, hcall, hearlier] using hmeets
      · rw [hrows]
        apply hdb.pending.map
        intro call hcall earlier hearlier hmeets
        simp only [CallRow.meetsPending, hcreated, hcaller, hcall, hearlier, decide_eq_true_eq] at hmeets ⊢
        exact ⟨hmeets.1, (hf earlier hearlier).ringing hmeets.2.1, hmeets.2.2⟩
      · rw [hinvites]
        exact hdb.invites
  | place hinsert hring hcreated hrecent hpending hfree htargets hinvites =>
      have hrows := (Table.insert_eq_some hinsert).2
      obtain ⟨i, hcreated⟩ := hcreated
      have hlater : draw.now ≤ draw.clock i := hclock (Nat.zero_le i)
      constructor
      · rw [hrows]
        refine hdb.recent.concat (Nat.lt_of_le_of_lt (List.countP_mono_left ?_) hrecent)
        intro earlier _ hmeets
        simp only [CallRow.meetsRecent, decide_eq_true_eq] at hmeets ⊢
        exact ⟨hmeets.1, by omega⟩
      · rw [hrows]
        refine hdb.pending.concat (Nat.lt_of_le_of_lt (List.countP_mono_left ?_) hpending)
        intro earlier _ hmeets
        simp only [CallRow.meetsPending, decide_eq_true_eq] at hmeets ⊢
        exact ⟨hmeets.1, hmeets.2.1, by omega⟩
      · exact hinvites hpush

theorem Db.Admitted.recent_le (h : db.Admitted) (deviceId : String) (start : Int) :
    db.calls.count (fun r => r.callerDeviceId = deviceId ∧ start ≤ r.createdAt ∧
      r.createdAt ≤ start + 60) ≤ 6 := by
  apply h.recent.countP_le
  intro call earlier hcall hearlier
  have hwindow : (InternetCall.callRateWindowSeconds : Int) = 60 := rfl
  simp only [CallRow.meetsRecent, decide_eq_true_eq] at hcall hearlier ⊢
  exact ⟨hearlier.1.trans hcall.1.symm, by omega⟩

theorem Db.Admitted.pending_le (h : db.Admitted) (deviceId : String) (now : Int) :
    db.calls.count (fun r => r.callerDeviceId = deviceId ∧ r.status = .ringing ∧ r.createdAt ≤ now ∧
      now ≤ r.createdAt + InternetCall.inviteTtlSeconds) ≤ 2 := by
  apply h.pending.countP_le
  intro call earlier hcall hearlier
  simp only [CallRow.meetsPending, decide_eq_true_eq] at hcall hearlier ⊢
  exact ⟨hearlier.1.trans hcall.1.symm, hearlier.2.1, by omega⟩

theorem count_setClaim (claimOwner : String) (now : Int) (outbox : Table OutboxRow.eventId)
    (eventId : String)
    (eventKind : OutboxKind) :
    (setClaim claimOwner now outbox eventId).count (fun r => r.eventKind = eventKind) =
      outbox.count (fun r => r.eventKind = eventKind) := by
  unfold setClaim
  apply Table.count_update
  intro r
  rfl

theorem Outcome.apply_invites_le (env : Env) (event : ApnsOutboxEvent) (now : Int) (db : Db)
    (outcome : Outcome) : (outcome.apply env event now db).invites ≤ db.invites := by
  obtain ⟨devices, outbox, hdb, ⟨rfl, _⟩ | ⟨rfl, _⟩ | ⟨f, hf, rfl, hreleased⟩⟩ :=
    outcome.apply_cases env event now db
  · rw [hdb]
    exact Nat.le_refl _
  · rw [hdb]
    exact Table.count_delete_le ..
  · rw [hdb]
    have hkind (r : OutboxRow) : (f r).eventKind = r.eventKind := congrArg Prod.fst (hreleased r).triple
    apply Nat.le_of_eq
    unfold Db.invites ApnsOutboxEvent.release
    apply Table.count_update
    · exact hf
    · intro r
      simp only [hkind]

namespace Service

variable {ι : Type} [DecidableEq ι]

/-- The clock does not go back while a handler runs its transaction. -/
def Event.Steady : Event ι → Prop
  | .handler (.body _ draw) => Monotone draw.clock
  | _ => True

theorem step_admitted (hpush : env.apnsConfigured = true) (s : Service ι) (e : Event ι)
    (hs : s.server.db.Admitted) (hsteady : e.Steady) : (step env s e).server.db.Admitted := by
  have h := step_spec env s e
  generalize step env s e = t at h ⊢
  cases h with
  | handler e =>
      obtain ⟨hcalls, _, houtbox⟩ | ⟨i, draw, p, rfl, _, hchange⟩ := s.server.step_change env e
      · exact hs.of_kept hcalls (by rw [Db.invites, houtbox]; exact Nat.le_refl _)
      · exact hchange.admitted hpush hsteady hs
  | stay | poll | miss | report | restart => exact hs
  | claim => exact hs.of_kept rfl (Nat.le_of_eq (count_setClaim ..))
  | @settle w event now outcome =>
      obtain ⟨devices, outbox, hdb, _⟩ := outcome.apply_cases env event now s.server.db
      exact hs.of_kept (by rw [hdb]) (outcome.apply_invites_le env event now s.server.db)

theorem run_admitted (hpush : env.apnsConfigured = true) (clock : Int) (owner : String)
    (es : List (Event ι))
    (hsteady : ∀ e ∈ es, e.Steady) : (run (step env) (start ι clock owner) es).server.db.Admitted :=
  run_along (step env) (fun _ e => e.Steady) (fun s => s.server.db.Admitted) (step_admitted hpush)
    _ es ⟨.nil, .nil, Nat.zero_le _⟩ (along_of_forall _ _ (fun e he _ => hsteady e he))

/-- With push delivery configured, and whatever handlers and push workers do,
the limits of admission hold over time: of the calls of a device in any window,
of those that ring, and of the invitations to deliver. -/
theorem admission_limits_hold (hpush : env.apnsConfigured = true) (clock : Int) (owner : String)
    (es : List (Event ι)) (hsteady : ∀ e ∈ es, e.Steady) :
    (∀ deviceId start, (run (step env) (Service.start ι clock owner) es).server.db.calls.count
      (fun r => r.callerDeviceId = deviceId ∧ start ≤ r.createdAt ∧ r.createdAt ≤ start + 60) ≤ 6) ∧
    (∀ deviceId now, (run (step env) (Service.start ι clock owner) es).server.db.calls.count
      (fun r => r.callerDeviceId = deviceId ∧ r.status = .ringing ∧ r.createdAt ≤ now ∧
        now ≤ r.createdAt + InternetCall.inviteTtlSeconds) ≤ 2) ∧
    (run (step env) (Service.start ι clock owner) es).outbox.count (fun r =>
      r.eventKind = .callInvite) ≤ 8 := by
  have h := run_admitted hpush clock owner es hsteady
  exact ⟨h.recent_le, h.pending_le, h.invites⟩

def pushEnv : Env := { plainEnv with apnsFallbackEnvironment := some .sandbox }

def answeredService : List (Event Unit) := Server.answeredCall.map .handler

theorem admission_limits_hold_answered :
    pushEnv.apnsConfigured = true ∧ (∀ e ∈ answeredService, e.Steady) ∧
      (run (step pushEnv) (Service.start Unit 1000 "process") answeredService).server.db.calls.count
        (fun r => r.callerDeviceId = "a" ∧ 960 ≤ r.createdAt ∧ r.createdAt ≤ 960 + 60) = 1 ∧
      (run (step pushEnv) (Service.start Unit 1000 "process") answeredService).outbox.count
        (fun r => r.eventKind = .callInvite) ≤ 8 := by
  have hsteady : ∀ e ∈ answeredService, e.Steady := by
    simp [answeredService, Server.answeredCall, Server.serve, Event.Steady, plainDraw, monotone_const]
  exact ⟨rfl, hsteady, by decide +kernel,
    (admission_limits_hold rfl 1000 "process" answeredService hsteady).2.2⟩

end Service

end TriNet.CallApi
