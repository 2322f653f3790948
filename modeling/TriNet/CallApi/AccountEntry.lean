import Mathlib.Data.List.Induction
import TriNet.CallApi.Membership

namespace TriNet.CallApi

open Lib Lib.BigEndian Lib.Runs

variable {env : Env} {auth : AuthenticatedDevice} {draw : Draw} {db db' : Db}

/-- A request with all its handler reads, for a handler that runs alone. -/
structure Delivery where
  incoming : Incoming
  now : Int
  draw : Draw

def handle (env : Env) (db : Db) (δ : Delivery) : Db :=
  match receive env δ.incoming δ.now with
  | .error _ => db
  | .ok w =>
      match w.authenticate env db with
      | .error _ => db
      | .ok (db₁, auth) =>
          match w.incoming.request.body env auth δ.draw db₁ with
          | .ok (db₂, _) => db₂
          | .error _ => db₁

def Db.Member (db : Db) (deviceId userId : String) : Prop := ∃ m ∈ db.membership deviceId, m.1 = userId

def Db.ActiveMember (db : Db) (deviceId userId : String) : Prop :=
  db.membership deviceId = some (userId, none)

instance (deviceId userId : String) : Decidable (db.Member deviceId userId) :=
  inferInstanceAs (Decidable (∃ m ∈ db.membership deviceId, m.1 = userId))

theorem member_iff {deviceId userId : String} :
    db.Member deviceId userId ↔ ∃ r, db.devices.find deviceId = some r ∧ r.userId = userId := by
  simp [Db.Member, Db.membership]

theorem activeMember_iff {deviceId userId : String} :
    db.ActiveMember deviceId userId ↔
      ∃ r, db.devices.find deviceId = some r ∧ r.userId = userId ∧ r.revokedAt = none := by
  simp [Db.ActiveMember, Db.membership]

theorem receive_incoming {incoming : Incoming} {now : Int} {w : Waiting}
    (h : receive env incoming now = .ok w) : w.incoming = incoming := by
  simp only [receive, bind_eq_ok] at h
  obtain ⟨_, _, ticket, _, hp⟩ := h
  cases hp
  rfl

theorem handle_cases (env : Env) (db : Db) (δ : Delivery) :
    handle env db δ = db ∨
      ∃ (w : Waiting) (db₁ : Db) (auth : AuthenticatedDevice), w.incoming = δ.incoming ∧
        w.authenticate env db = .ok (db₁, auth) ∧
        (handle env db δ = db₁ ∨ Footprint env auth δ.draw db₁ δ.incoming.request (handle env db δ)) := by
  cases ha : receive env δ.incoming δ.now with
  | error e => exact .inl (by simp only [handle, ha])
  | ok w =>
      have hw := receive_incoming ha
      cases hauth : w.authenticate env db with
      | error e => exact .inl (by simp only [handle, ha, hauth])
      | ok r =>
          refine .inr ⟨w, r.1, r.2, hw, hauth, ?_⟩
          cases hb : w.incoming.request.body env r.2 δ.draw r.1 with
          | error e => exact .inl (by simp only [handle, ha, hauth, hb])
          | ok c =>
              have hc : handle env db δ = c.1 := by simp only [handle, ha, hauth, hb]
              rw [hc, ← hw]
              exact .inr (body_footprint hb)

theorem linkCodes_of_authenticate {w : Waiting} (h : w.authenticate env db = .ok (db', auth)) :
    db'.deviceLinkCodes = db.deviceLinkCodes := by
  obtain ⟨_, _, _, rfl⟩ := authenticateUnderLock_ok h
  rfl

theorem activeMember_of_authenticate {w : Waiting} (h : w.authenticate env db = .ok (db', auth))
    (hboot : w.incoming.request.bootstrap = none) : db.ActiveMember auth.deviceId auth.userId := by
  have hentitled := entitled_iff.mp (entitled_of_authenticate h)
  obtain ⟨_, hid, _, _⟩ := authenticateUnderLock_ok h
  cases hr : db.devices.find auth.deviceId with
  | none =>
      rw [← identify_deviceId hid, hr] at hid
      exact absurd (identify_new hid) (by simp [hboot])
  | some r =>
      obtain ⟨hactive, huser⟩ := hentitled r hr
      exact activeMember_iff.mpr ⟨r, hr, huser, hactive⟩

def LinkCodeRow.unused (code : LinkCodeRow) : LinkCodeRow := { code with consumedAt := none }

/-- The request makes this code, in the name of its creator: the hash is that of
the code it draws, no row stands under it once the request has deleted the
expired codes and those of its device, and then this row does. -/
structure MakesCode (env : Env) (request : Request) (draw : Draw) (db db' : Db)
    (code : LinkCodeRow) : Prop where
  request : request = .createLinkCode ⟨code.userId, code.createdByDeviceId⟩
  drawn : code.codeHash = env.digestHex (utf8 (draw.randomId "link_" 0))
  absent : (db.deviceLinkCodes.delete (fun r => r.expiresAt < draw.now ∨
    r.createdByDeviceId = code.createdByDeviceId)).find code.codeHash = none
  stored : db'.deviceLinkCodes.find code.codeHash = some code.unused

theorem makesCode_of_insert {codes : Table LinkCodeRow.codeHash} {code : LinkCodeRow}
    (hcode : code = ⟨env.digestHex (utf8 (draw.randomId "link_" 0)), auth.userId, auth.deviceId,
      draw.now, draw.now + AccountIdentity.linkCodeTtlSeconds, none⟩)
    (hinsert : (db.deviceLinkCodes.delete (fun r => r.expiresAt < draw.now ∨
      r.createdByDeviceId = auth.deviceId)).insert code = some codes) :
    MakesCode env (.createLinkCode ⟨auth.userId, auth.deviceId⟩) draw db
      { db with deviceLinkCodes := codes } code := by
  subst hcode
  refine ⟨rfl, rfl, (Table.insert_eq_some hinsert).1, ?_⟩
  rw [Table.find_insert hinsert, if_pos rfl]
  rfl

theorem Footprint.linkCode_origin {request : Request} {hash : String} {code : LinkCodeRow}
    (h : Footprint env auth draw db request db') (hcode : db'.deviceLinkCodes.find hash = some code) :
    (∃ old, db.deviceLinkCodes.find hash = some old ∧ old.unused = code.unused) ∨
      MakesCode env request draw db db' code ∧ code.userId = auth.userId ∧
        code.createdByDeviceId = auth.deviceId := by
  cases h with
  | linkCode hinsert =>
      rw [Table.find_insert hinsert] at hcode
      split at hcode
      · have hmakes := makesCode_of_insert rfl hinsert
        cases hcode
        exact .inr ⟨hmakes, rfl, rfl⟩
      · rw [Table.find_delete, Option.filter_eq_some_iff] at hcode
        exact .inl ⟨code, hcode.1, rfl⟩
  | link hused hunused hfresh hmember =>
      rw [find_consumeCode, Option.map_eq_some_iff] at hcode
      obtain ⟨old, hold, rfl⟩ := hcode
      refine .inl ⟨old, hold, ?_⟩
      split <;> rfl
  | call hmove =>
      obtain ⟨_, _, _, rfl⟩ := hmove.frame
      exact .inl ⟨code, hcode, rfl⟩
  | register | revoke | content => exact .inl ⟨code, hcode, rfl⟩

/-- A link code in the table was there before, used or not, or is one that an
active member of its account makes now. -/
theorem handle_linkCode {δ : Delivery} {hash : String} {code : LinkCodeRow}
    (h : (handle env db δ).deviceLinkCodes.find hash = some code) :
    (∃ old, db.deviceLinkCodes.find hash = some old ∧ old.unused = code.unused) ∨
      MakesCode env δ.incoming.request δ.draw db (handle env db δ) code ∧
        db.ActiveMember code.createdByDeviceId code.userId := by
  obtain he | ⟨w, db₁, auth, hw, hauth, hbody⟩ := handle_cases env db δ
  · rw [he] at h
    exact .inl ⟨code, h, rfl⟩
  · have hcodes := linkCodes_of_authenticate hauth
    obtain he | hfoot := hbody
    · rw [he, hcodes] at h
      exact .inl ⟨code, h, rfl⟩
    · obtain ⟨old, hold, heq⟩ | ⟨hmakes, huser, hdevice⟩ := hfoot.linkCode_origin h
      · exact .inl ⟨old, hcodes ▸ hold, heq⟩
      · refine .inr ⟨⟨hmakes.request, hmakes.drawn, hcodes ▸ hmakes.absent, hmakes.stored⟩, ?_⟩
        rw [huser, hdevice]
        exact activeMember_of_authenticate hauth (by rw [hw, hmakes.request]; rfl)

/-- Registration of a device that is not stored, into an account without active
devices. -/
def RegistersVacant (request : Request) (db : Db) (deviceId userId : String) : Prop :=
  (∃ r, request = .registerDevice r) ∧ db.membership deviceId = none ∧
    ∀ other, ¬ db.ActiveMember other userId

/-- Linking with a code that is neither used nor expired, and that is used from
then on. -/
def ConsumesCode (env : Env) (request : Request) (now : Int) (db db' : Db) (code : LinkCodeRow) : Prop :=
  ∃ r, request = .linkDevice r ∧ db.deviceLinkCodes.find (env.digestHex (utf8 r.linkCode)) = some code ∧
    code.consumedAt = none ∧ now ≤ code.expiresAt ∧
    db'.deviceLinkCodes.find (env.digestHex (utf8 r.linkCode)) = some { code with consumedAt := some now }

theorem storeRow_entry {devices : Table DeviceRow.deviceId} {row r : DeviceRow} {deviceId : String}
    (h : (storeRow devices row).find deviceId = some r)
    (hnew : ¬ ∃ old, devices.find deviceId = some old ∧ old.userId = r.userId) :
    devices.find deviceId = none ∧ row.deviceId = deviceId ∧ r = row := by
  rw [find_storeRow] at h
  split at h
  · next hrow =>
      cases hfind : devices.find deviceId with
      | some old =>
          rw [hfind] at h
          cases h
          exact absurd ⟨old, hfind, rfl⟩ hnew
      | none =>
          rw [hfind] at h
          cases h
          exact ⟨rfl, hrow, rfl⟩
  · exact absurd ⟨r, h, rfl⟩ hnew

theorem vacant_of_count {request : DeviceRegistrationRequest}
    (hcount : db.devices.count (otherMember request) = 0)
    (hnone : db.devices.find request.deviceId = none) (other : String) :
    ¬ db.ActiveMember other request.userId := by
  intro hother
  obtain ⟨m, hm, huser, hactive⟩ := activeMember_iff.mp hother
  have hfalse := Table.count_eq_zero.mp hcount other m hm
  have hne : m.deviceId ≠ request.deviceId := by
    rw [Table.key_of_find hm]
    rintro rfl
    rw [hnone] at hm
    cases hm
  simp [otherMember, huser, hactive, hne] at hfalse

theorem Footprint.entry {request : Request} {deviceId userId : String}
    (h : Footprint env auth draw db request db')
    (hbefore : ¬ db.Member deviceId userId) (hafter : db'.Member deviceId userId) :
    RegistersVacant request db deviceId userId ∨
      ∃ code, code.userId = userId ∧ ConsumesCode env request draw.now db db' code := by
  rw [member_iff] at hbefore hafter
  cases h with
  | @register request row accounts hdevice huser hactive hmatches hmembers =>
      obtain ⟨r, hr, rfl⟩ := hafter
      obtain ⟨hnone, rfl, rfl⟩ := storeRow_entry hr hbefore
      rw [hdevice] at hnone ⊢
      refine .inl ⟨⟨request, rfl⟩, by rw [Db.membership, hnone]; rfl, ?_⟩
      rw [huser, hmatches.2]
      exact vacant_of_count (hmembers hnone) (hmatches.1 ▸ hnone)
  | @link request code nicknames accounts hcode hunused hfresh hmember =>
      obtain ⟨r, hr, hruser⟩ := hafter
      rw [find_moveDevice, Option.map_eq_some_iff] at hr
      obtain ⟨old, hold, rfl⟩ := hr
      split at hruser
      · refine .inr ⟨code, hruser, request, rfl, hcode, hunused, ?_, ?_⟩
        · simp only [codeIsFresh, Bool.and_eq_true, decide_eq_true_eq] at hfresh
          exact hfresh.1.2
        · rw [find_consumeCode, hcode]
          simp [Table.key_of_find hcode, hunused]
      · exact absurd ⟨old, hold, hruser⟩ hbefore
  | revoke targetDeviceId =>
      obtain ⟨r, hr, hruser⟩ := hafter
      rw [find_revokeRows, Option.map_eq_some_iff] at hr
      obtain ⟨old, hold, rfl⟩ := hr
      refine absurd ⟨old, hold, ?_⟩ hbefore
      split at hruser <;> exact hruser
  | call hmove =>
      obtain ⟨_, _, _, rfl⟩ := hmove.frame
      exact absurd hafter hbefore
  | linkCode | content => exact absurd hafter hbefore

theorem handle_entry {δ : Delivery} {deviceId userId : String}
    (hbefore : ¬ db.Member deviceId userId) (hafter : (handle env db δ).Member deviceId userId) :
    RegistersVacant δ.incoming.request db deviceId userId ∨
      ∃ code, code.userId = userId ∧
        ConsumesCode env δ.incoming.request δ.draw.now db (handle env db δ) code := by
  obtain he | ⟨w, db₁, auth, hw, hauth, hbody⟩ := handle_cases env db δ
  · rw [he] at hafter
    exact absurd hafter hbefore
  · have hmembership : db₁.membership = db.membership := funext (membership_of_authenticate hauth)
    have hcodes := linkCodes_of_authenticate hauth
    have hbefore₁ : ¬ db₁.Member deviceId userId := by rwa [Db.Member, hmembership]
    obtain he | hfoot := hbody
    · rw [he] at hafter
      exact absurd hafter hbefore₁
    · have hentry := hfoot.entry hbefore₁ hafter
      simpa only [RegistersVacant, ConsumesCode, Db.ActiveMember, hmembership, hcodes] using hentry

/-- Among the requests so far is the one that made the code. Its device, the
creator of the code, was active in the account of the code at the time. -/
def CreatedByMember (env : Env) (δs : List Delivery) (code : LinkCodeRow) : Prop :=
  ∃ before ε after, δs = before ++ ε :: after ∧
    (run (handle env) {} before).ActiveMember code.createdByDeviceId code.userId ∧
    MakesCode env ε.incoming.request ε.draw (run (handle env) {} before)
      (run (handle env) {} (before ++ [ε])) code

theorem CreatedByMember.snoc {δs : List Delivery} {code : LinkCodeRow}
    (h : CreatedByMember env δs code) (δ : Delivery) : CreatedByMember env (δs ++ [δ]) code := by
  obtain ⟨before, ε, after, rfl, hcreate⟩ := h
  exact ⟨before, ε, after ++ [δ], by simp, hcreate⟩

theorem CreatedByMember.of_unused_eq {δs : List Delivery} {old code : LinkCodeRow}
    (h : CreatedByMember env δs old) (hsame : old.unused = code.unused) : CreatedByMember env δs code := by
  obtain ⟨hhash, huser, hdevice, -⟩ := LinkCodeRow.mk.inj hsame
  obtain ⟨before, ε, after, hsplit, hmember, hrequest, hdrawn, habsent, hstored⟩ := h
  rw [huser, hdevice] at hrequest hmember
  rw [hhash, hdevice] at habsent
  rw [hhash] at hdrawn
  rw [hhash, hsame] at hstored
  exact ⟨before, ε, after, hsplit, hmember, hrequest, hdrawn, habsent, hstored⟩

theorem linkCode_createdByMember (δs : List Delivery) {hash : String} {code : LinkCodeRow}
    (h : (run (handle env) {} δs).deviceLinkCodes.find hash = some code) :
    CreatedByMember env δs code := by
  induction δs using List.reverseRecOn generalizing code with
  | nil => cases h
  | append_singleton δs δ ih =>
      rw [run_append] at h
      obtain ⟨old, hold, hsame⟩ | ⟨hmakes, hmember⟩ := handle_linkCode h
      · exact ((ih hold).of_unused_eq hsame).snoc δ
      · refine ⟨δs, δ, [], rfl, hmember, ?_⟩
        rw [run_append]
        exact hmakes

/-- After any requests, a device enters an account only by registering into a
vacant one or with a link code that an active device of the account made. -/
theorem entry_by_registration_or_link_code (env : Env) (δs : List Delivery) (δ : Delivery)
    (deviceId userId : String) (hbefore : ¬ (run (handle env) {} δs).Member deviceId userId)
    (hafter : (run (handle env) {} (δs ++ [δ])).Member deviceId userId) :
    RegistersVacant δ.incoming.request (run (handle env) {} δs) deviceId userId ∨
      ∃ code, code.userId = userId ∧ CreatedByMember env δs code ∧
        ConsumesCode env δ.incoming.request δ.draw.now (run (handle env) {} δs)
          (run (handle env) {} (δs ++ [δ])) code := by
  rw [run_append] at hafter ⊢
  obtain hvacant | ⟨code, huser, hconsumes⟩ := handle_entry hbefore hafter
  · exact .inl hvacant
  · obtain ⟨r, hr, hcode, hrest⟩ := hconsumes
    exact .inr ⟨code, huser, linkCode_createdByMember δs hcode, r, hr, hcode, hrest⟩

def plainDelivery (key deviceId nonce body : String) (seed : UInt8) (request : Request) : Delivery :=
  ⟨plainIncoming key deviceId "1000" nonce body request, 1000, plainDraw 1000 seed⟩

/-- Device `a` founds account `u` and makes a link code for it. -/
def founded : List Delivery :=
  [plainDelivery "key-a" "a" "nonce-a-00000001" "register a" 0 (plainRegistration "u" "a" "key-a"),
    plainDelivery "key-a" "a" "nonce-a-00000002" "code by a" 1 (.createLinkCode ⟨"u", "a"⟩),
    plainDelivery "key-b" "b" "nonce-b-00000001" "register b" 2 (plainRegistration "w" "b" "key-b")]

def linkB : Delivery :=
  plainDelivery "key-b" "b" "nonce-b-00000002" "link b" 3 (.linkDevice ⟨"w", "b", plainLinkCode 1⟩)

theorem linked_device_enters_by_link_code :
    ¬ (run (handle plainEnv) {} founded).Member "b" "u" ∧
      (run (handle plainEnv) {} (founded ++ [linkB])).Member "b" "u" ∧
      (RegistersVacant linkB.incoming.request (run (handle plainEnv) {} founded) "b" "u" ∨
        ∃ code, code.userId = "u" ∧ CreatedByMember plainEnv founded code ∧
          ConsumesCode plainEnv linkB.incoming.request linkB.draw.now (run (handle plainEnv) {} founded)
            (run (handle plainEnv) {} (founded ++ [linkB])) code) := by
  obtain ⟨hbefore, hafter⟩ : ¬ (run (handle plainEnv) {} founded).Member "b" "u" ∧
      (run (handle plainEnv) {} (founded ++ [linkB])).Member "b" "u" := by
    decide +kernel
  exact ⟨hbefore, hafter, entry_by_registration_or_link_code plainEnv founded linkB "b" "u" hbefore hafter⟩

/-- Device `a` founds account `u` and then leaves it for the account of `b`. -/
def vacated : List Delivery :=
  [plainDelivery "key-a" "a" "nonce-a-00000001" "register a" 0 (plainRegistration "u" "a" "key-a"),
    plainDelivery "key-b" "b" "nonce-b-00000001" "register b" 1 (plainRegistration "w" "b" "key-b"),
    plainDelivery "key-b" "b" "nonce-b-00000002" "code by b" 2 (.createLinkCode ⟨"w", "b"⟩),
    plainDelivery "key-a" "a" "nonce-a-00000002" "link a" 3 (.linkDevice ⟨"u", "a", plainLinkCode 2⟩)]

def registerC : Delivery :=
  plainDelivery "key-c" "c" "nonce-c-00000001" "register c" 4 (plainRegistration "u" "c" "key-c")

theorem vacated_account_entered_without_link_code :
    (run (handle plainEnv) {} (vacated.take 1)).Member "a" "u" ∧
      ¬ (run (handle plainEnv) {} vacated).Member "c" "u" ∧
      (run (handle plainEnv) {} (vacated ++ [registerC])).Member "c" "u" ∧
      registerC.incoming.request.isLink = false := by
  decide +kernel

end TriNet.CallApi
