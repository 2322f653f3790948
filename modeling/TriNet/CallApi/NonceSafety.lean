import TriNet.CallApi.Footprints

namespace TriNet.CallApi

open Lib Lib.BigEndian Lib.Runs

variable {env : Env} {s : Server}

def SignedRequest.expiresAt (q : SignedRequest) : Int :=
  (((parseI64 q.timestamp).bind u32TryFrom).getD 0 : Nat) + InternetCall.requestSignatureTtlSeconds

theorem Waiting.expiresAt_signed (w : Waiting) : (w.signed env).expiresAt = w.ticket.expiresAt := by
  rw [SignedRequest.expiresAt, signed, w.ticket.timestamp]
  rfl

namespace Server

/-- The nonce of the request is stored, or it was purged by a handler whose
clock was past the request's lifetime. -/
def Remembers (s : Server) (q : SignedRequest) : Prop :=
  (∃ row, s.db.requestNonces.find (q.deviceId, q.nonce) = some row ∧ row.expiresAt = q.expiresAt) ∨
    q.expiresAt < s.purgedTo

structure NonceInvariant (s : Server) : Prop where
  nodup : s.passed.Nodup
  remembers : ∀ q ∈ s.passed, s.Remembers q

/-- A request reaches the database before any handler whose clock is past the
request's lifetime has purged nonces there. -/
def Timely (s : Server) : Event → Prop
  | .authenticate i => ∀ w ∈ s.waiting[i]?, (s.purgedTo : Int) ≤ w.ticket.expiresAt
  | _ => True

instance (s : Server) : (e : Event) → Decidable (s.Timely e)
  | .authenticate i =>
      inferInstanceAs (Decidable (∀ w ∈ s.waiting[i]?, (s.purgedTo : Int) ≤ w.ticket.expiresAt))
  | .tick _ | .arrive _ | .body _ _ => inferInstanceAs (Decidable True)

theorem NonceInvariant.of_same {t : Server} (h : NonceInvariant s)
    (hdb : t.db.requestNonces = s.db.requestNonces)
    (hpassed : t.passed = s.passed) (hpurged : t.purgedTo = s.purgedTo) : NonceInvariant t := by
  refine ⟨hpassed ▸ h.nodup, ?_⟩
  intro q hq
  rw [Remembers, hdb, hpurged]
  exact h.remembers q (hpassed ▸ hq)

theorem find_purgeNonces_of_le {nonces : Table NonceRow.key} {now : Int}
    {k : String × String} {row : NonceRow}
    (h : nonces.find k = some row) (hnow : now ≤ row.expiresAt) :
    (purgeNonces nonces now).find k = some row := by
  rw [purgeNonces, Table.find_delete, h, Option.filter_some, if_pos]
  simpa using hnow

theorem not_mem_passed {w : Waiting} {db : Db} {auth : AuthenticatedDevice} (h : NonceInvariant s)
    (htimely : (s.purgedTo : Int) ≤ w.ticket.expiresAt)
    (hauth : w.authenticate env s.db = .ok (db, auth)) : w.signed env ∉ s.passed := by
  intro hmem
  obtain ⟨nonces, _, hinsert, _⟩ := authenticateUnderLock_ok hauth
  rcases h.remembers _ hmem with ⟨row, hrow, hexpires⟩ | hpurged
  · rw [w.expiresAt_signed] at hexpires
    have hkept := find_purgeNonces_of_le hrow (hexpires ▸ w.ticket.now_le_expiresAt)
    exact absurd (hkept.symm.trans (Table.insert_eq_some hinsert).1) (by simp)
  · rw [w.expiresAt_signed] at hpurged
    exact absurd htimely (not_le.mpr hpurged)

theorem remembers_after {w : Waiting} {db : Db} {auth : AuthenticatedDevice}
    {t : Server} {q : SignedRequest}
    (h : s.Remembers q ∨ q = w.signed env) (hauth : w.authenticate env s.db = .ok (db, auth))
    (hdb : t.db = db)
    (hpurged : t.purgedTo = max s.purgedTo w.ticket.now) : t.Remembers q := by
  obtain ⟨nonces, _, hinsert, rfl⟩ := authenticateUnderLock_ok hauth
  rw [Remembers, hdb, hpurged, Table.find_insert hinsert]
  rcases h with (⟨row, hrow, hexpires⟩ | hold) | rfl
  · by_cases hlate : row.expiresAt < w.ticket.now
    · apply Or.inr
      rw [← hexpires]
      exact lt_of_lt_of_le hlate (by exact_mod_cast le_max_right _ _)
    · have hkept := find_purgeNonces_of_le hrow (not_lt.mp hlate)
      have hne : NonceRow.key ⟨w.ticket.deviceId, w.ticket.nonce, w.ticket.expiresAt⟩ ≠
          (q.deviceId, q.nonce) := by
        intro he
        have hnone := (Table.insert_eq_some hinsert).1
        rw [he, hkept] at hnone
        cases hnone
      exact .inl ⟨row, by rw [if_neg hne, hkept], hexpires⟩
  · exact .inr (lt_of_lt_of_le hold (by exact_mod_cast le_max_left _ _))
  · exact .inl ⟨_, if_pos rfl, w.expiresAt_signed.symm⟩

theorem NonceInvariant.step (h : NonceInvariant s) (e : Event) (htimely : s.Timely e) :
    NonceInvariant (step env s e) := by
  have hstep := step_spec env s e
  generalize Server.step env s e = t at hstep ⊢
  cases hstep with
  | quiet hdb _ hpassed hpurged => exact h.of_same (by rw [hdb]) hpassed hpurged
  | @authenticate i w db auth hw hauth =>
      have hnew := not_mem_passed h (htimely w hw) hauth
      refine ⟨?_, ?_⟩
      · exact h.nodup.append (List.nodup_singleton _) (by simpa using hnew)
      · intro q hq
        refine remembers_after ?_ hauth rfl rfl
        rcases List.mem_append.mp hq with hq | hq
        · exact .inl (h.remembers q hq)
        · exact .inr (List.mem_singleton.mp hq)
  | body hp hbody => exact h.of_same (body_footprint hbody).requestNonces rfl rfl

/-- However deliveries, clock and handlers interleave, one signed request passes
`authenticate` at most once, if every request reaches the database in time. -/
theorem signed_request_passes_once (env : Env) (db : Db) (clock : Int) (es : List Event)
    (h : Along (step env) Timely { clock, db } es) : (run (step env) { clock, db } es).passed.Nodup := by
  have hstart : NonceInvariant { clock, db } := ⟨List.nodup_nil, by simp⟩
  exact (run_along (step env) Timely NonceInvariant (fun s e hs he => hs.step e he) _ es hstart h).nodup

def registerA : Incoming :=
  plainIncoming "key-a" "a" "1000" "0123456789abcdef" "register a" (plainRegistration "u" "a" "key-a")

def registerB : Incoming :=
  plainIncoming "key-b" "b" "1061" "fedcba9876543210" "register b" (plainRegistration "v" "b" "key-b")

def redelivery : List Event :=
  [.arrive registerA, .authenticate 0, .tick 60, .arrive registerA, .authenticate 0]

theorem redelivered_request_passes_once :
    Along (step plainEnv) Timely { clock := 1000, db := {} } redelivery ∧
      (run (step plainEnv) { clock := 1000, db := {} } redelivery).passed.Nodup ∧
      (run (step plainEnv) { clock := 1000, db := {} } redelivery).passed.length = 1 := by
  obtain ⟨h, hlength⟩ : Along (step plainEnv) Timely { clock := 1000, db := {} } redelivery ∧
      (run (step plainEnv) { clock := 1000, db := {} } redelivery).passed.length = 1 := by
    decide +kernel
  exact ⟨h, signed_request_passes_once plainEnv {} 1000 redelivery h, hlength⟩

/-- The redelivered request is fresh when it arrives but waits for the database
while another handler, one second later, purges its nonce. -/
def overtakenRedelivery : List Event :=
  [.arrive registerA, .authenticate 0, .tick 60, .arrive registerA, .tick 1, .arrive registerB,
    .authenticate 1, .authenticate 0]

theorem overtaken_request_passes_again :
    ¬ (run (step plainEnv) { clock := 1000, db := {} } overtakenRedelivery).passed.Nodup := by
  decide +kernel

end Server

end TriNet.CallApi
