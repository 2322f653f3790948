import TriNet.CallApi.DirectoryMoves

namespace TriNet.CallApi

open Lib Lib.BigEndian Lib.Runs

variable {env : Env} {auth : AuthenticatedDevice} {draw : Draw} {db db' : Db}

def Waiting.VerifiesUnder (env : Env) (w : Waiting) (key : String) : Prop :=
  env.verifySignature key w.ticket.signatureText
    (utf8 (canonical env "POST" w.incoming.request.path w.ticket.timestampText w.ticket.nonce
      w.incoming.body)) = .ok ()

instance (w : Waiting) (key : String) : Decidable (w.VerifiesUnder env key) :=
  inferInstanceAs (Decidable (_ = _))

/-- Where a request that waits to run its body comes from: the request as it
was authenticated, and whether its device was unknown by then. -/
structure Origin where
  waiting : Waiting
  bootstrapped : Bool

/-- The service beside the origins of its pending requests, which no handler
keeps. -/
structure Traced where
  server : Server
  origins : List Origin

namespace Traced

def step (env : Env) (t : Traced) (e : Event) : Traced where
  server := t.server.step env e
  origins :=
    match e with
    | .authenticate i =>
        match t.server.waiting[i]? with
        | none => t.origins
        | some w =>
            match w.authenticate env t.server.db with
            | .ok _ => t.origins ++ [⟨w, (t.server.db.devices.find w.ticket.deviceId).isNone⟩]
            | .error _ => t.origins
    | .body i _ => t.origins.eraseIdx i
    | .tick _ | .arrive _ => t.origins

/-- A registration that was authenticated with the key it brought itself does
not find its device stored under another key when its body runs. -/
def Unrivalled (t : Traced) : Event → Prop
  | .body i _ =>
      ∀ o ∈ t.origins[i]?, o.bootstrapped = true →
        ∀ row ∈ t.server.db.devices.find o.waiting.ticket.deviceId,
        ∀ b ∈ o.waiting.incoming.request.bootstrap, row.signingPublicKey = b.publicKey
  | _ => True

instance (t : Traced) : (e : Event) → Decidable (t.Unrivalled e)
  | .body i _ => inferInstanceAs (Decidable (∀ o ∈ t.origins[i]?, o.bootstrapped = true →
      ∀ row ∈ t.server.db.devices.find o.waiting.ticket.deviceId,
        ∀ b ∈ o.waiting.incoming.request.bootstrap, row.signingPublicKey = b.publicKey))
  | .tick _ | .arrive _ | .authenticate _ => inferInstanceAs (Decidable True)

def SignedWith (env : Env) (t : Traced) (e : Event) (key : String) : Prop :=
  ∃ i draw o, e = .body i draw ∧ t.origins[i]? = some o ∧ o.waiting.VerifiesUnder env key

def StoresToken (env : Env) (t : Traced) (e : Event) (deviceId : String) : Prop :=
  ∃ i draw p request device db, e = .body i draw ∧ t.server.pending[i]? = some p ∧
    p.request = .registerDevice request ∧ p.auth.deviceId = deviceId ∧
    registerDevice env request p.auth draw t.server.db = .ok db ∧
      checkRegistration env request = .ok device ∧
    (device.voipPushToken.isSome = true ∨ device.alertPushToken.isSome = true)

end Traced

/-- What a change of a device row by anyone else than the holder of its key
would be. -/
def DeviceRow.Altered (row row' : DeviceRow) : Prop :=
  row'.textEncryptionPublicKey ≠ row.textEncryptionPublicKey ∨ row'.capabilities ≠ row.capabilities ∨
    row'.voipPushToken ≠ none ∧ row'.voipPushToken ≠ row.voipPushToken ∨
    row'.alertPushToken ≠ none ∧ row'.alertPushToken ≠ row.alertPushToken

/-- Of a stored device, its signing key stays, and its text key, capabilities
and push tokens are written by the holder of that key alone. -/
def Traced.KeyHolderWrites (env : Env) (t : Traced) (e : Event) : Prop :=
  ∀ deviceId row, t.server.db.devices.find deviceId = some row →
    (∃ row', (t.step env e).server.db.devices.find deviceId = some row' ∧
      row'.signingPublicKey = row.signingPublicKey ∧
      (row.Altered row' → t.SignedWith env e row.signingPublicKey)) ∧
    (t.StoresToken env e deviceId → t.SignedWith env e row.signingPublicKey)

theorem not_altered_self (row : DeviceRow) : ¬row.Altered row := by
  simp [DeviceRow.Altered]

/-- Of the committed bodies only a registration of the device itself alters its
row, and none takes a row or its signing key away. -/
theorem DirectoryMove.row {request : Request} {deviceId : String} {row : DeviceRow}
    (h : DirectoryMove env auth draw db request db') (hrow : db.devices.find deviceId = some row) :
    ∃ row', db'.devices.find deviceId = some row' ∧ row'.signingPublicKey = row.signingPublicKey ∧
      (row.Altered row' → deviceId = auth.deviceId ∧ ∃ r, request = .registerDevice r) := by
  cases h with
  | stay _ hdevices _ => exact ⟨row, hdevices ▸ hrow, rfl, fun hne => absurd hne (not_altered_self row)⟩
  | @register request new hdevice huser =>
      by_cases hd : new.deviceId = deviceId
      · refine ⟨refreshRow new row, ?_, rfl, fun _ => ⟨hd ▸ hdevice, request, rfl⟩⟩
        rw [find_storeRow, if_pos hd, hrow]
        rfl
      · refine ⟨row, ?_, rfl, fun hne => absurd hne (not_altered_self row)⟩
        rw [find_storeRow, if_neg hd, hrow]
  | link hcode hother =>
      refine ⟨_, by rw [find_moveDevice, hrow, Option.map_some], ?_, ?_⟩
      · split <;> rfl
      · intro hne
        split at hne <;> exact absurd hne (not_altered_self row)
  | revoke =>
      refine ⟨_, by rw [find_revokeRows, hrow, Option.map_some], ?_, ?_⟩
      · split <;> rfl
      · intro hne
        split at hne
        · simp [DeviceRow.Altered, revokeRow] at hne
        · exact absurd hne (not_altered_self row)
  | claim => exact ⟨row, hrow, rfl, fun hne => absurd hne (not_altered_self row)⟩

theorem row_of_authenticate {w : Waiting} {deviceId : String} {row : DeviceRow}
    (h : w.authenticate env db = .ok (db', auth)) (hrow : db.devices.find deviceId = some row) :
    ∃ row', db'.devices.find deviceId = some row' ∧ row'.signingPublicKey = row.signingPublicKey ∧
      ¬row.Altered row' := by
  obtain ⟨nonces, _, _, rfl⟩ := authenticateUnderLock_ok h
  refine ⟨_, by rw [find_touchDevice, hrow, Option.map_some], ?_, ?_⟩
  · split <;> rfl
  · intro hne
    split at hne <;> exact not_altered_self row hne

/-- What ties a pending request to its origin: its signature was checked under
the key that is stored for its device, or under the one it brought itself. -/
structure Linked (env : Env) (db : Db) (p : Pending) (o : Origin) : Prop where
  request : p.request = o.waiting.incoming.request
  device : p.auth.deviceId = o.waiting.ticket.deviceId
  signed : o.waiting.VerifiesUnder env p.auth.signingPublicKey
  key : (o.bootstrapped = true ∧ ∃ b ∈ o.waiting.incoming.request.bootstrap,
    b.publicKey = p.auth.signingPublicKey) ∨
    ∃ row ∈ db.devices.find p.auth.deviceId, row.signingPublicKey = p.auth.signingPublicKey

/-- The stored devices of `db` are stored in `db'` under the same signing keys. -/
def KeepsKeys (db db' : Db) : Prop :=
  ∀ deviceId row, db.devices.find deviceId = some row →
    ∃ row', db'.devices.find deviceId = some row' ∧ row'.signingPublicKey = row.signingPublicKey

theorem Linked.mono {p : Pending} {o : Origin} (h : Linked env db p o) (hkeys : KeepsKeys db db') :
    Linked env db' p o where
  request := h.request
  device := h.device
  signed := h.signed
  key := by
    rcases h.key with hboot | ⟨row, hrow, hkey⟩
    · exact .inl hboot
    · obtain ⟨row', hrow', hkey'⟩ := hkeys _ row hrow
      exact .inr ⟨row', hrow', hkey'.trans hkey⟩

theorem linked_of_authenticate {w : Waiting} (h : w.authenticate env db = .ok (db', auth)) :
    Linked env db' ⟨auth, w.incoming.request⟩ ⟨w, (db.devices.find w.ticket.deviceId).isNone⟩ := by
  have hrows {deviceId : String} {row : DeviceRow} (hrow : db.devices.find deviceId = some row) :=
    row_of_authenticate h hrow
  simp only [Waiting.authenticate, authenticateUnderLock, bind_eq_ok, okOr_eq_ok] at h
  obtain ⟨a, hid, _, _, _, hsigned, _, _, hp⟩ := h
  obtain ⟨rfl, rfl⟩ := Prod.mk.inj (Except.ok.inj hp)
  refine ⟨rfl, identify_deviceId hid, hsigned, ?_⟩
  cases hstored : db.devices.find w.ticket.deviceId with
  | none =>
      rw [hstored] at hid
      simp only [identify, bind_eq_ok, okOr_eq_ok] at hid
      obtain ⟨b, hb, _, _, ha⟩ := hid
      obtain rfl := Except.ok.inj ha
      exact .inl ⟨rfl, b, hb, rfl⟩
  | some record =>
      obtain ⟨row', hrow', hkey, _⟩ := hrows hstored
      rw [hstored] at hid
      have hdevice := identify_deviceId hid
      simp only [identify, bind_eq_ok] at hid
      obtain ⟨_, _, ha⟩ := hid
      obtain rfl := Except.ok.inj ha
      exact .inr ⟨row', hrow', hkey⟩

namespace Traced

variable {t : Traced}

structure Attributed (env : Env) (t : Traced) : Prop where
  length : t.origins.length = t.server.pending.length
  linked : ∀ (i : Nat) p o, t.server.pending[i]? = some p → t.origins[i]? = some o →
    Linked env t.server.db p o

theorem row_step (env : Env) (t : Traced) (e : Event) {deviceId : String} {row : DeviceRow}
    (hrow : t.server.db.devices.find deviceId = some row) :
    ∃ row', (t.step env e).server.db.devices.find deviceId = some row' ∧
      row'.signingPublicKey = row.signingPublicKey ∧
      (row.Altered row' → ∃ i draw p r, e = .body i draw ∧ t.server.pending[i]? = some p ∧
        p.auth.deviceId = deviceId ∧ p.request = .registerDevice r) := by
  have hstep := Server.step_spec env t.server e
  simp only [step]
  generalize t.server.step env e = next at hstep ⊢
  cases hstep with
  | quiet hdb => exact ⟨row, hdb ▸ hrow, rfl, fun hne => absurd hne (not_altered_self row)⟩
  | authenticate hw hauth =>
      obtain ⟨row', hrow', hkey, hsame⟩ := row_of_authenticate hauth hrow
      exact ⟨row', hrow', hkey, fun hne => absurd hne hsame⟩
  | @body i draw p db reply hp hbody =>
      obtain ⟨row', hrow', hkey, halter⟩ := (body_directoryMove hbody).row hrow
      refine ⟨row', hrow', hkey, fun hne => ?_⟩
      obtain ⟨hdevice, r, hr⟩ := halter hne
      exact ⟨i, draw, p, r, rfl, hp, hdevice.symm, hr⟩

theorem keepsKeys_step (env : Env) (t : Traced) (e : Event) :
    KeepsKeys t.server.db (t.step env e).server.db := by
  intro deviceId row hrow
  obtain ⟨row', hrow', hkey, _⟩ := row_step env t e hrow
  exact ⟨row', hrow', hkey⟩

theorem Attributed.kept {t' : Traced} (h : t.Attributed env) (hkeys : KeepsKeys t.server.db t'.server.db)
    (hpending : t'.server.pending = t.server.pending) (horigins : t'.origins = t.origins) :
    t'.Attributed env := by
  refine ⟨by rw [hpending, horigins, h.length], ?_⟩
  intro i p o hp ho
  exact (h.linked i p o (hpending ▸ hp) (horigins ▸ ho)).mono hkeys

theorem Attributed.queued {t' : Traced} {new : Pending} {origin : Origin} (h : t.Attributed env)
    (hkeys : KeepsKeys t.server.db t'.server.db) (hpending : t'.server.pending = t.server.pending ++ [new])
    (horigins : t'.origins = t.origins ++ [origin]) (hnew : Linked env t'.server.db new origin) :
    t'.Attributed env := by
  refine ⟨by rw [hpending, horigins, List.length_append, List.length_append, h.length]; rfl, ?_⟩
  intro j p o hp ho
  rw [hpending] at hp
  rw [horigins] at ho
  rcases lt_or_ge j t.server.pending.length with hlt | hge
  · rw [List.getElem?_append_left hlt] at hp
    rw [List.getElem?_append_left (h.length ▸ hlt)] at ho
    exact (h.linked j p o hp ho).mono hkeys
  · rw [List.getElem?_append_right hge] at hp
    rw [List.getElem?_append_right (h.length ▸ hge), h.length] at ho
    rw [List.getElem?_singleton] at hp ho
    split at hp
    · next hj =>
        rw [if_pos hj] at ho
        rw [← Option.some.inj hp, ← Option.some.inj ho]
        exact hnew
    · exact absurd hp nofun

theorem Attributed.dropped {t' : Traced} {i : Nat} (h : t.Attributed env)
    (hkeys : KeepsKeys t.server.db t'.server.db)
    (hpending : t'.server.pending = t.server.pending.eraseIdx i)
    (horigins : t'.origins = t.origins.eraseIdx i) : t'.Attributed env := by
  refine ⟨by rw [hpending, horigins, List.length_eraseIdx, List.length_eraseIdx, h.length], ?_⟩
  intro j p o hp ho
  rw [hpending, List.getElem?_eraseIdx] at hp
  rw [horigins, List.getElem?_eraseIdx] at ho
  split at hp
  · next hj =>
      rw [if_pos hj] at ho
      exact (h.linked j p o hp ho).mono hkeys
  · next hj =>
      rw [if_neg hj] at ho
      exact (h.linked (j + 1) p o hp ho).mono hkeys

theorem Attributed.step (h : t.Attributed env) (e : Event) : (t.step env e).Attributed env := by
  have hkeys := keepsKeys_step env t e
  cases e with
  | tick seconds => exact h.kept hkeys rfl rfl
  | arrive incoming =>
      refine h.kept hkeys ?_ rfl
      simp only [Traced.step, Server.step]
      split <;> rfl
  | authenticate i =>
      cases hw : t.server.waiting[i]? with
      | none => exact h.kept hkeys (by simp only [Traced.step, Server.step, hw]) (by
          simp only [Traced.step, hw])
      | some w =>
          cases hauth : w.authenticate env t.server.db with
          | error _ =>
              exact h.kept hkeys (by simp only [Traced.step, Server.step, hw, hauth])
                (by simp only [Traced.step, hw, hauth])
          | ok done =>
              obtain ⟨db', auth⟩ := done
              have hdb : (t.step env (.authenticate i)).server.db = db' := by
                simp only [Traced.step, Server.step, hw, hauth]
              refine h.queued hkeys ?_ ?_ (hdb ▸ linked_of_authenticate hauth)
              · simp only [Traced.step, Server.step, hw, hauth]
              · simp only [Traced.step, hw, hauth]
  | body i draw =>
      refine h.dropped hkeys ?_ rfl
      simp only [Traced.step, Server.step]
      split
      · next hnone => rw [List.eraseIdx_of_length_le (List.getElem?_eq_none_iff.mp hnone)]
      · split <;> rfl

theorem Attributed.signedWith (h : t.Attributed env) {i : Nat} {draw : Draw}
    (hok : t.Unrivalled (.body i draw))
    {p : Pending} (hp : t.server.pending[i]? = some p) {row : DeviceRow}
    (hrow : t.server.db.devices.find p.auth.deviceId = some row) :
    t.SignedWith env (.body i draw) row.signingPublicKey := by
  have hlt : i < t.origins.length := h.length ▸ (List.getElem?_eq_some_iff.mp hp).1
  obtain ⟨o, ho⟩ : ∃ o, t.origins[i]? = some o := ⟨_, List.getElem?_eq_getElem hlt⟩
  have hlinked := h.linked i p o hp ho
  refine ⟨i, draw, o, rfl, ho, ?_⟩
  have hkey : row.signingPublicKey = p.auth.signingPublicKey := by
    rcases hlinked.key with ⟨hboot, b, hb, hbkey⟩ | ⟨row', hrow', hkey⟩
    · rw [← hbkey]
      exact hok o ho hboot row (hlinked.device ▸ hrow) b hb
    · rw [Option.some.inj (hrow.symm.trans hrow')]
      exact hkey
  rw [hkey]
  exact hlinked.signed

theorem Attributed.keyHolderWrites (h : t.Attributed env) (e : Event) (hok : t.Unrivalled e) :
    t.KeyHolderWrites env e := by
  intro deviceId row hrow
  constructor
  · obtain ⟨row', hrow', hkey, halter⟩ := row_step env t e hrow
    refine ⟨row', hrow', hkey, fun hne => ?_⟩
    obtain ⟨i, draw, p, _, rfl, hp, rfl, _⟩ := halter hne
    exact h.signedWith hok hp hrow
  · rintro ⟨i, draw, p, _, _, _, rfl, hp, _, rfl, _⟩
    exact h.signedWith hok hp hrow

/-- However the transactions of concurrent requests interleave, a stored
device's text key, capabilities and push tokens are written by the holder of its
signing key alone, if no registration finds its device taken by a rival. -/
theorem device_writes_signed (env : Env) (db : Db) (clock : Int) (es : List Event)
    (h : Along (step env) Unrivalled ⟨{ clock, db }, []⟩ es) :
    ∀ x ∈ trace (step env) ⟨{ clock, db }, []⟩ es, x.1.KeyHolderWrites env x.2 := by
  have hstart : Attributed env ⟨{ clock, db }, []⟩ := ⟨rfl, fun i p o hp => absurd hp nofun⟩
  exact trace_along (step env) Unrivalled (Attributed env) (KeyHolderWrites env)
    (fun t e ht _ => ht.step e) (fun t e ht hok => ht.keyHolderWrites e hok) _ es hstart h

def fullRegistration (userId deviceId key : String) : Request :=
  .registerDevice
    { userId, deviceId
      displayName := deviceId
      signingPublicKey := key
      textEncryptionPublicKey := none
      keyFingerprint := plainEnv.fingerprint (utf8 key)
      platform := "ios"
      voipPushToken := none
      alertPushToken := some "0123456789abcdef0123456789abcdef"
      pushEnvironment := none
      capabilities := ["audio", "webrtc", "video"] }

def unregistered : Traced := ⟨{ clock := 1000, db := {} }, []⟩

/-- A device registers and later registers again with more capabilities. -/
def registeredTwice : List Event :=
  Server.serve "key-a" "a" "nonce-a-00000001" "register a" 0 (plainRegistration "u" "a" "key-a") ++
    Server.serve "key-a" "a" "nonce-a-00000002" "upgrade a" 1 (fullRegistration "u" "a" "key-a")

theorem device_writes_signed_twice :
    Along (step plainEnv) Unrivalled unregistered registeredTwice ∧
      (∀ x ∈ trace (step plainEnv) unregistered registeredTwice, x.1.KeyHolderWrites plainEnv x.2) ∧
      ((run (step plainEnv) unregistered registeredTwice).server.db.devices.find "a").map
        DeviceRow.alertPushToken =
        some (some "0123456789abcdef0123456789abcdef") := by
  obtain ⟨h, htoken⟩ : Along (step plainEnv) Unrivalled unregistered registeredTwice ∧
      ((run (step plainEnv) unregistered registeredTwice).server.db.devices.find "a").map
        DeviceRow.alertPushToken =
        some (some "0123456789abcdef0123456789abcdef") := by
    decide +kernel
  exact ⟨h, device_writes_signed plainEnv {} 1000 registeredTwice h, htoken⟩

def rival : Incoming :=
  plainIncoming "key-x" "a" "1000" "nonce-x-00000001" "register x" (fullRegistration "u" "a" "key-x")

/-- Two first registrations of one device under different keys: both are
authenticated before either is stored. -/
def rivals : List Event :=
  [.arrive (plainIncoming "key-a" "a" "1000" "nonce-a-00000001" "register a"
    (plainRegistration "u" "a" "key-a")),
    .arrive rival, .authenticate 0, .authenticate 0, .body 0 (plainDraw 1000 0)]

/-- The second one overwrites what the first one stored, under a signature that
the stored key does not verify. -/
theorem rival_overwrites_device :
    let t := run (step plainEnv) unregistered rivals
    let after := t.step plainEnv (.body 0 (plainDraw 1000 1))
    (t.server.db.devices.find "a").map (fun r =>
        (r.signingPublicKey, r.capabilities, r.alertPushToken)) = some ("key-a", 9, none) ∧
      (after.server.db.devices.find "a").map
        (fun r => (r.signingPublicKey, r.capabilities, r.alertPushToken)) =
        some ("key-a", 11, some "0123456789abcdef0123456789abcdef") ∧
      ¬t.KeyHolderWrites plainEnv (.body 0 (plainDraw 1000 1)) := by
  intro t after
  -- one evaluation of the run for the three facts about it
  obtain ⟨hbefore, hafter, hforeign⟩ :
      (t.server.db.devices.find "a").map (fun r =>
          (r.signingPublicKey, r.capabilities, r.alertPushToken)) = some ("key-a", 9, none) ∧
        (after.server.db.devices.find "a").map
          (fun r => (r.signingPublicKey, r.capabilities, r.alertPushToken)) =
          some ("key-a", 11, some "0123456789abcdef0123456789abcdef") ∧
        ∀ o ∈ t.origins[0]?, ¬o.waiting.VerifiesUnder plainEnv "key-a" := by
    decide +kernel
  clear_value t
  refine ⟨hbefore, hafter, fun h => ?_⟩
  obtain ⟨row, hrow, hfields⟩ := Option.map_eq_some_iff.mp hbefore
  obtain ⟨hkey, hcapabilities, -⟩ : row.signingPublicKey = "key-a" ∧ row.capabilities = 9 ∧
      row.alertPushToken = none := by
    simpa using hfields
  obtain ⟨⟨row', hrow', -, halter⟩, -⟩ := h "a" row hrow
  have hcapabilities' : row'.capabilities = 11 := by
    obtain ⟨r, hr, hfields'⟩ := Option.map_eq_some_iff.mp hafter
    obtain rfl := Option.some.inj (hr.symm.trans hrow')
    exact congrArg (fun x => x.2.1) hfields'
  have hchanged : row'.capabilities ≠ row.capabilities := by
    rw [hcapabilities, hcapabilities']
    decide
  obtain ⟨i, draw, o, he, ho, hverifies⟩ := halter (.inr (.inl hchanged))
  obtain ⟨rfl, -⟩ := Event.body.inj he
  exact hforeign o ho (hkey ▸ hverifies)

end Traced

end TriNet.CallApi
