import TriNet.CallApi.Membership

namespace TriNet.CallApi

open Lib Lib.BigEndian Lib.Runs

variable {env : Env} {s : Server}

namespace Server

/-- While a body that changes the membership of a device runs, no other request
of that device waits to run its own. Requests to link check for themselves. -/
def Undisturbed (s : Server) : Event → Prop
  | .body i _ =>
      ∀ p ∈ s.pending[i]?, ∀ d ∈ p.membershipTarget s.db,
        ∀ q ∈ s.pending.eraseIdx i, q.auth.deviceId = d → q.request.isLink = true
  | _ => True

instance (s : Server) : (e : Event) → Decidable (s.Undisturbed e)
  | .body i _ => inferInstanceAs (Decidable (∀ p ∈ s.pending[i]?, ∀ d ∈ p.membershipTarget s.db,
      ∀ q ∈ s.pending.eraseIdx i, q.auth.deviceId = d → q.request.isLink = true))
  | .tick _ | .arrive _ | .authenticate _ => inferInstanceAs (Decidable True)

/-- If the body of this request commits a change, its device is still active in
the account the request was authenticated for. -/
def CommitsForMember (s : Server) (env : Env) (i : Nat) (draw : Draw) : Prop :=
  ∀ p ∈ s.pending[i]?, ∀ c ∈ (p.request.body env p.auth draw s.db).toOption, c.1 ≠ s.db →
    ∀ r ∈ s.db.devices.find p.auth.deviceId, r.revokedAt = none ∧ r.userId = p.auth.userId

instance (s : Server) (i : Nat) (draw : Draw) : Decidable (s.CommitsForMember env i draw) :=
  inferInstanceAs (Decidable
    (∀ p ∈ s.pending[i]?, ∀ c ∈ (p.request.body env p.auth draw s.db).toOption, c.1 ≠ s.db →
    ∀ r ∈ s.db.devices.find p.auth.deviceId, r.revokedAt = none ∧ r.userId = p.auth.userId))

def AllEntitled (s : Server) : Prop := ∀ q ∈ s.pending, q.request.isLink = false → s.db.Entitled q.auth

theorem AllEntitled.step (h : s.AllEntitled) (e : Event) (hok : s.Undisturbed e) :
    (step env s e).AllEntitled := by
  have hstep := step_spec env s e
  generalize Server.step env s e = t at hstep ⊢
  cases hstep with
  | quiet hdb hpending =>
      intro q hq hlink
      rw [hdb]
      exact h q (hpending hq) hlink
  | authenticate hw hauth =>
      intro q hq hlink
      rw [Db.Entitled, membership_of_authenticate hauth]
      rcases List.mem_append.mp hq with hq | hq
      · exact h q hq hlink
      · cases List.mem_singleton.mp hq
        exact entitled_of_authenticate hauth
  | @body i draw p db reply hp hbody =>
      intro q hq hlink
      have hother : q.auth.deviceId ∉ p.membershipTarget s.db := by
        intro hd
        have htrue := hok p hp _ hd q hq rfl
        rw [hlink] at htrue
        cases htrue
      rw [Db.Entitled, (body_footprint hbody).membership hother]
      exact h q (List.mem_of_mem_eraseIdx hq) hlink

/-- Whatever the handlers of any number of requests do in between, a body
commits only for a device that is still active in the account its request was
authenticated for, if membership changes of a device wait for its requests. -/
theorem commits_act_for_members (env : Env) (db : Db) (clock : Int) (es : List Event)
    (h : Along (step env) Undisturbed { clock, db } es) (i : Nat) (draw : Draw) :
    (run (step env) { clock, db } es).CommitsForMember env i draw := by
  have hstart : AllEntitled { clock, db } := by simp [AllEntitled]
  have hall := run_along (step env) Undisturbed AllEntitled (fun s e hs he => hs.step e he) _ es hstart h
  intro p hp c hc _
  rw [← entitled_iff]
  cases hlink : p.request.isLink with
  | false => exact hall p (List.mem_of_getElem? hp) hlink
  | true => exact entitled_of_link hlink (mem_toOption.mp hc)

/-- Device `b` joins the account of device `a`. -/
def twoDevices : List Event :=
  serve "key-a" "a" "nonce-a-00000001" "register a" 0 (plainRegistration "u" "a" "key-a") ++
    serve "key-a" "a" "nonce-a-00000002" "code by a" 1 (.createLinkCode ⟨"u", "a"⟩) ++
    serve "key-b" "b" "nonce-b-00000001" "register b" 2 (plainRegistration "w" "b" "key-b") ++
    serve "key-b" "b" "nonce-b-00000002" "link b" 3 (.linkDevice ⟨"w", "b", plainLinkCode 1⟩)

def codeByB : Incoming :=
  plainIncoming "key-b" "b" "1000" "nonce-b-00000003" "code by b" (.createLinkCode ⟨"u", "b"⟩)

def revokeB : Incoming :=
  plainIncoming "key-a" "a" "1000" "nonce-a-00000003" "revoke b" (.revokeDevice "b" ⟨"u", "a"⟩)

def untilCodeByB : List Event := twoDevices ++ [.arrive codeByB, .authenticate 0]

theorem linked_device_acts_as_member :
    Along (step plainEnv) Undisturbed { clock := 1000, db := {} } untilCodeByB ∧
      (run (step plainEnv) { clock := 1000, db := {} } untilCodeByB).CommitsForMember plainEnv 0
        (plainDraw 1000 4) ∧
      (step plainEnv (run (step plainEnv) { clock := 1000, db := {} } untilCodeByB)
        (.body 0 (plainDraw 1000 4))).db ≠
        (run (step plainEnv) { clock := 1000, db := {} } untilCodeByB).db := by
  obtain ⟨h, hcommits⟩ : Along (step plainEnv) Undisturbed { clock := 1000, db := {} } untilCodeByB ∧
      (step plainEnv (run (step plainEnv) { clock := 1000, db := {} } untilCodeByB)
        (.body 0 (plainDraw 1000 4))).db ≠
        (run (step plainEnv) { clock := 1000, db := {} } untilCodeByB).db := by
    decide +kernel
  exact ⟨h, commits_act_for_members plainEnv {} 1000 untilCodeByB h 0 (plainDraw 1000 4), hcommits⟩

/-- Device `a` revokes device `b` between the two transactions of a request of
`b` for a link code. -/
def revokedInBetween : List Event :=
  untilCodeByB ++ [.arrive revokeB, .authenticate 0, .body 1 (plainDraw 1000 5)]

theorem revoked_device_creates_link_code :
    ¬ (run (step plainEnv) { clock := 1000, db := {} } revokedInBetween).CommitsForMember plainEnv 0
      (plainDraw 1000 4) := by
  decide +kernel

end Server

end TriNet.CallApi
