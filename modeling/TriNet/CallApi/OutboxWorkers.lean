import TriNet.CallApi.Server

namespace TriNet.CallApi

open Lib Lib.BigEndian Lib.Runs

/-- An outbox event as its worker knows it, with the claim it was taken under. -/
structure ApnsOutboxEvent where
  eventId : String
  eventKind : OutboxKind
  objectId : String
  targetDeviceId : String
  payload : OutboxPayload
  attempts : Nat
  claimedAt : Int
  claimOwner : String
  deliveryEnvironment : Option String
  deliveryTokenDigest : Option String
  deriving DecidableEq

/-- A delivery, as far as the outbox is concerned: its column and its token. -/
inductive ApnsOutboxDelivery
  | callInvite (token : String)
  | directMessage (token : String)

structure ApnsDeliveryError where
  status : Option Nat
  reason : Option String
  transient : Bool

namespace ApnsOutboxDelivery

def token : ApnsOutboxDelivery → String
  | .callInvite token => token
  | .directMessage token => token

def storedToken : ApnsOutboxDelivery → DeviceRow → Option String
  | .callInvite _, r => r.voipPushToken
  | .directMessage _, r => r.alertPushToken

def registeredAtMs : ApnsOutboxDelivery → DeviceRow → Option Int
  | .callInvite _, r => r.voipPushTokenRegisteredAtMs
  | .directMessage _, r => r.alertPushTokenRegisteredAtMs

def clearToken : ApnsOutboxDelivery → DeviceRow → DeviceRow
  | .callInvite _, r => { r with voipPushToken := none, voipPushTokenRegisteredAtMs := none }
  | .directMessage _, r => { r with alertPushToken := none, alertPushTokenRegisteredAtMs := none }

theorem clearToken_deviceId (delivery : ApnsOutboxDelivery) (r : DeviceRow) :
    (delivery.clearToken r).deviceId = r.deviceId := by
  cases delivery <;> rfl

end ApnsOutboxDelivery

section Claim

variable (claimOwner : String) (now : Int)

def leaseCutoff : Int := max (now - InternetCall.apnsOutboxClaimLeaseSeconds) (-2 ^ 63)

def claimIsDue (r : OutboxRow) : Bool :=
  r.nextAttemptAt ≤ now && r.blockedOwner != some claimOwner &&
    r.claimedAt.all (fun at' => r.claimOwner != some claimOwner || at' ≤ leaseCutoff now)

/-- `ORDER BY next_attempt_at, created_at, event_id` -/
def dueBefore (r s : OutboxRow) : Prop :=
  r.nextAttemptAt < s.nextAttemptAt ∨ r.nextAttemptAt = s.nextAttemptAt ∧
    (r.createdAt < s.createdAt ∨ r.createdAt = s.createdAt ∧ r.eventId ≤ s.eventId)

instance : DecidableRel dueBefore := fun _ _ => inferInstanceAs (Decidable (_ ∨ _))

def claimIsRecoverable (r : OutboxRow) : Bool :=
  r.claimedAt.all (fun at' =>
    match u32TryFrom at', u32TryFrom now with
    | some claimedAt, some now =>
        InternetCall.apnsOutboxClaimIsRecoverable (r.claimOwner == some claimOwner) claimedAt now
    | _, _ => false)

def setClaim (outbox : Table OutboxRow.eventId) (eventId : String) : Table OutboxRow.eventId :=
  outbox.update (fun r => r.eventId = eventId ∧ claimIsDue claimOwner now r)
    (fun r => { r with claimedAt := some now, claimOwner := some claimOwner }) (fun _ => rfl)

def claimedEvent (r : OutboxRow) : ApnsOutboxEvent :=
  ⟨r.eventId, r.eventKind, r.objectId, r.targetDeviceId, r.payload, min r.attempts (2 ^ 32 - 1),
    now, claimOwner, r.deliveryEnvironment, r.deliveryTokenDigest⟩

def claimDueApnsOutboxEvent (outbox : Table OutboxRow.eventId) (eventKind : OutboxKind) :
    Table OutboxRow.eventId × Option ApnsOutboxEvent :=
  let due := outbox.select (fun r => claimIsDue claimOwner now r && r.eventKind == eventKind)
  match (due.insertionSort dueBefore).head? with
  | none => (outbox, none)
  | some candidate =>
      if !candidate.blockedOwner.all (fun blockedOwner =>
          InternetCall.apnsOutboxBlockIsRecoverable (blockedOwner == claimOwner)) then (outbox, none)
      else if !claimIsRecoverable claimOwner now candidate then (outbox, none)
      else
        let claimed := outbox.count (fun r => r.eventId = candidate.eventId ∧ claimIsDue claimOwner now r)
        (setClaim claimOwner now outbox candidate.eventId,
          if claimed != 1 then none else some (claimedEvent claimOwner now candidate))

end Claim

namespace ApnsOutboxEvent

variable (event : ApnsOutboxEvent)

/-- `event_id = .. AND claimed_at = .. AND claim_owner = ..`, the condition of
every statement by which a worker settles its event. -/
def owns (r : OutboxRow) : Bool :=
  r.eventId = event.eventId ∧ r.claimedAt = some event.claimedAt ∧ r.claimOwner = some event.claimOwner

def release (outbox : Table OutboxRow.eventId) (f : OutboxRow → OutboxRow)
    (hf : ∀ r, (f r).eventId = r.eventId) : Table OutboxRow.eventId :=
  outbox.update event.owns (fun r => { f r with claimedAt := none, claimOwner := none }) hf

def nextAttempts : Nat := min (event.attempts + 1) (2 ^ 32 - 1)

end ApnsOutboxEvent

def base64UrlDigit (n : Nat) : Char :=
  "ABCDEFGHIJKLMNOPQRSTUVWXYZabcdefghijklmnopqrstuvwxyz0123456789-_".toList.getD n 'A'

def base64UrlDigits : Bytes → List Char
  | [] => []
  | [a] => [base64UrlDigit (a.toNat / 4), base64UrlDigit (a.toNat % 4 * 16)]
  | [a, b] =>
      [base64UrlDigit (a.toNat / 4), base64UrlDigit (a.toNat % 4 * 16 + b.toNat / 16),
        base64UrlDigit (b.toNat % 16 * 4)]
  | a :: b :: c :: rest =>
      base64UrlDigit (a.toNat / 4) :: base64UrlDigit (a.toNat % 4 * 16 + b.toNat / 16) ::
        base64UrlDigit (b.toNat % 16 * 4 + c.toNat / 64) :: base64UrlDigit (c.toNat % 64) ::
          base64UrlDigits rest

def apnsTokenDigest (env : Env) (token : String) : String :=
  String.ofList (base64UrlDigits (env.sha256 (utf8 token)).1)

section Settle

variable (event : ApnsOutboxEvent) (db : Db)

def acknowledgeApnsOutboxEvent (delivery : Option ApnsOutboxDelivery)
    (acceptedEnvironment : Option ApnsEnvironment) : Db :=
  let acknowledged := db.apnsOutbox.count event.owns
  let outbox := db.apnsOutbox.delete event.owns
  match delivery, acceptedEnvironment with
  | some delivery, some environment =>
      if acknowledged = 1 then
        { db with
          apnsOutbox := outbox
          devices := db.devices.update
            (fun r => r.deviceId = event.targetDeviceId ∧ delivery.storedToken r = some delivery.token)
            (fun r => { r with pushEnvironment := environment.asDatabaseValue }) (fun _ => rfl) }
      else { db with apnsOutbox := outbox }
  | _, _ => { db with apnsOutbox := outbox }

def invalidateApnsOutboxToken (delivery : ApnsOutboxDelivery) (status : Option Nat)
    (tokenInvalidAtMs : Option Int) (now : Int) : Db × Bool :=
  if db.apnsOutbox.count event.owns = 0 then (db, false)
  else
    let stale (r : DeviceRow) : Bool :=
      r.deviceId = event.targetDeviceId && delivery.storedToken r = some delivery.token &&
        tokenInvalidAtMs.all
          (fun invalidAt => (delivery.registeredAtMs r).all (fun at' => at' ≤ invalidAt))
    let devices := db.devices.update stale delivery.clearToken delivery.clearToken_deviceId
    if db.devices.count stale = 1 then
      ({ db with devices := devices, apnsOutbox := db.apnsOutbox.delete event.owns }, true)
    else
      -- The token was rotated while the request was in flight.
      ({ db with
          devices := devices
          apnsOutbox := event.release db.apnsOutbox
            (fun r => { r with
              nextAttemptAt := now, lastFailureKind := some "token_rotated", lastStatus := status })
                (fun _ => rfl) },
        false)

def rescheduleApnsOutboxEvent (error : ApnsDeliveryError) (random : Nat) (now : Int) : Db :=
  let jitter := random % (InternetCall.apnsOutboxRetryMaxJitterSeconds + 1)
  let delay := InternetCall.apnsOutboxRetryDelaySeconds event.nextAttempts jitter
  { db with
    apnsOutbox := event.release db.apnsOutbox
      (fun r => { r with
        attempts := event.nextAttempts
        nextAttemptAt := min (now + delay) (2 ^ 63 - 1)
        lastFailureKind := some (error.reason.getD (if error.transient then "transient" else "provider"))
        lastStatus := error.status }) (fun _ => rfl) }

def scheduleApnsOutboxAlternateEnvironment (env : Env) (delivery : ApnsOutboxDelivery)
    (environment : ApnsEnvironment) (error : ApnsDeliveryError) (now : Int) : Db :=
  { db with
    apnsOutbox := event.release db.apnsOutbox
      (fun r => { r with
        nextAttemptAt := now
        blockedOwner := none
        deliveryEnvironment := some environment.asDatabaseValue
        deliveryTokenDigest := some (apnsTokenDigest env delivery.token)
        lastFailureKind := some (error.reason.getD "BadDeviceToken")
        lastStatus := error.status }) (fun _ => rfl) }

def blockApnsOutboxEventForProcess (error : ApnsDeliveryError) : Db :=
  { db with
    apnsOutbox := event.release db.apnsOutbox
      (fun r => { r with
        attempts := event.nextAttempts
        blockedOwner := some event.claimOwner
        lastFailureKind := some (error.reason.getD "configuration")
        lastStatus := error.status }) (fun _ => rfl) }

end Settle

/-- What a worker does with its event once the push service has answered. -/
inductive Outcome
  | acknowledge (delivery : Option ApnsOutboxDelivery) (acceptedEnvironment : Option ApnsEnvironment)
  | invalidate (delivery : ApnsOutboxDelivery) (status : Option Nat) (tokenInvalidAtMs : Option Int)
  | reschedule (error : ApnsDeliveryError) (random : Nat)
  | alternate (delivery : ApnsOutboxDelivery) (environment : ApnsEnvironment) (error : ApnsDeliveryError)
  | block (error : ApnsDeliveryError)

namespace Outcome

def apply (env : Env) (event : ApnsOutboxEvent) (now : Int) (db : Db) : Outcome → Db
  | .acknowledge delivery environment => acknowledgeApnsOutboxEvent event db delivery environment
  | .invalidate delivery status invalidAt =>
      (invalidateApnsOutboxToken event db delivery status invalidAt now).1
  | .reschedule error random => rescheduleApnsOutboxEvent event db error random now
  | .alternate delivery environment error =>
      scheduleApnsOutboxAlternateEnvironment event db env delivery environment error now
  | .block error => blockApnsOutboxEventForProcess event db error

def Deletes : Outcome → Prop
  | .acknowledge .. | .invalidate .. => True
  | _ => False

end Outcome

/-- Where a worker is between two of its steps. Both clock readings may be
used long after they were taken. -/
inductive Phase
  | idle
  | polled (now : Int)
  | holding (event : ApnsOutboxEvent)
  | reporting (event : ApnsOutboxEvent) (now : Int)
  deriving DecidableEq

def Phase.claim : Phase → Option ApnsOutboxEvent
  | .holding event => some event
  | .reporting event _ => some event
  | _ => none

/-- A monotone clock stays within `i64`; at its end it stands still. -/
def unixTime (clock : Int) : Int := min clock (2 ^ 63 - 1)

/-- The service with its handlers and its push workers. All workers of a process
claim under one owner; a restart ends them and the running handlers. -/
structure Service (ι : Type) where
  server : Server
  owner : String
  workers : ι → Phase := fun _ => .idle

namespace Service

variable {ι : Type}

inductive Event (ι : Type)
  | handler (e : CallApi.Event)
  | poll (worker : ι)
  | claim (worker : ι) (eventKind : OutboxKind)
  | report (worker : ι)
  | settle (worker : ι) (outcome : Outcome)
  | restart (owner : String)

def outbox (s : Service ι) : Table OutboxRow.eventId := s.server.db.apnsOutbox

def time (s : Service ι) : Int := unixTime s.server.clock

def start (ι : Type) (clock : Int) (owner : String) : Service ι := { server := { clock, db := {} }, owner }

variable [DecidableEq ι]

/-- A worker that gives up on its claim is one that never reports; it goes on
under another name. -/
def step (env : Env) (s : Service ι) : Event ι → Service ι
  | .handler e => { s with server := s.server.step env e }
  | .poll w =>
      match (s.workers w).claim with
      | none => { s with workers := Function.update s.workers w (.polled s.time) }
      | some _ => s
  | .claim w eventKind =>
      match s.workers w with
      | .polled now =>
          let claimed := claimDueApnsOutboxEvent s.owner now s.outbox eventKind
          { s with
            server := { s.server with db := { s.server.db with apnsOutbox := claimed.1 } }
            workers := Function.update s.workers w (claimed.2.elim .idle .holding) }
      | _ => s
  | .report w =>
      match s.workers w with
      | .holding event => { s with workers := Function.update s.workers w (.reporting event s.time) }
      | _ => s
  | .settle w outcome =>
      match s.workers w with
      | .reporting event now =>
          { s with
            server := { s.server with db := outcome.apply env event now s.server.db }
            workers := Function.update s.workers w .idle }
      | _ => s
  | .restart owner => { server := { s.server with waiting := [], pending := [] }, owner }

end Service

end TriNet.CallApi
