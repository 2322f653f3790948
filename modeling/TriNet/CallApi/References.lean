import TriNet.CallApi.DirectoryMoves

namespace TriNet.CallApi

open Lib Lib.BigEndian Lib.Runs

def Db.userOf (db : Db) (deviceId : String) : Option String :=
  (db.devices.find deviceId).map DeviceRow.userId

def Db.DevicesOwned (db : Db) : Prop := ∀ r ∈ db.devices.rows, (db.accounts.find r.userId).isSome = true

def Db.NicknamesHeld (db : Db) : Prop := ∀ n ∈ db.nicknames.rows, db.userOf n.deviceId = some n.userId

def Db.HasActive (db : Db) (userId : String) : Prop :=
  ∃ r ∈ db.devices.rows, r.userId = userId ∧ r.revokedAt = none

instance (db : Db) : Decidable db.DevicesOwned :=
  inferInstanceAs (Decidable (∀ r ∈ db.devices.rows, (db.accounts.find r.userId).isSome = true))

instance (db : Db) : Decidable db.NicknamesHeld :=
  inferInstanceAs (Decidable (∀ n ∈ db.nicknames.rows, db.userOf n.deviceId = some n.userId))

variable {env : Env} {auth : AuthenticatedDevice} {draw : Draw} {db db' : Db}

theorem devicesOwned_iff :
    db.DevicesOwned ↔ ∀ deviceId userId, db.userOf deviceId = some userId →
      (db.accounts.find userId).isSome = true := by
  constructor
  · intro h deviceId userId huser
    obtain ⟨r, hr, rfl⟩ := Option.map_eq_some_iff.mp huser
    exact h r (Table.find_eq_some.mp hr).1
  · intro h r hr
    apply h r.deviceId
    rw [Db.userOf, Table.mem_rows.mp hr, Option.map_some]

theorem userOf_of_devices {devices : Table DeviceRow.deviceId} {f : DeviceRow → DeviceRow}
    (hfind : ∀ d, devices.find d = (db.devices.find d).map f) (hf : ∀ r, (f r).userId = r.userId)
    (deviceId : String) : { db with devices := devices }.userOf deviceId = db.userOf deviceId := by
  rw [Db.userOf, hfind, Option.map_map, Db.userOf]
  congr 1
  funext r
  exact hf r

theorem userOf_register {accounts : Table AccountRow.userId} {row : DeviceRow} (deviceId : String) :
    { db with accounts := accounts, devices := storeRow db.devices row }.userOf deviceId =
      if row.deviceId = deviceId then some ((db.userOf deviceId).getD row.userId)
      else db.userOf deviceId := by
  rw [Db.userOf, find_storeRow]
  split
  · cases h : db.devices.find deviceId <;> simp [Db.userOf, h, refreshRow]
  · rfl

theorem userOf_link {userId : String} (deviceId : String) :
    ((moveDevice db.devices auth userId draw.now).find deviceId).map DeviceRow.userId =
      (db.devices.find deviceId).map (fun r => if memberRow auth r then userId else r.userId) := by
  rw [find_moveDevice, Option.map_map]
  congr 1
  funext r
  simp only [Function.comp]
  split <;> rfl

theorem find_dropEmptyAccount {accounts : Table AccountRow.userId} {devices : Table DeviceRow.deviceId}
    {dropped userId : String} (haccount : (accounts.find userId).isSome = true)
    (hkept : userId = dropped → ∃ r ∈ devices.rows, r.userId = userId) :
    ((dropEmptyAccount accounts devices dropped).find userId).isSome = true := by
  obtain ⟨a, ha⟩ := Option.isSome_iff_exists.mp haccount
  have hkey := Table.key_of_find ha
  rw [dropEmptyAccount, Table.find_delete, ha, Option.filter_some, if_pos]
  · rfl
  · rw [Bool.not_eq_true', decide_eq_false_iff_not]
    rintro ⟨hdropped, hcount⟩
    obtain ⟨r, hr, huser⟩ := hkept (hkey.symm.trans hdropped)
    have hnone := Table.count_eq_zero.mp hcount r.deviceId r (Table.mem_rows.mp hr)
    exact absurd (huser.trans hkey.symm) (of_decide_eq_false hnone)

/-- What a body must find for the references to survive it: a claim its device
still in the account it was authenticated for, a link the account of its code. -/
def Db.Refers (env : Env) (db : Db) (auth : AuthenticatedDevice) : Request → Prop
  | .claimNickname _ => db.userOf auth.deviceId = some auth.userId
  | .linkDevice request => ∀ code ∈ db.deviceLinkCodes.find (env.digestHex (utf8 request.linkCode)),
      (db.accounts.find code.userId).isSome = true
  | _ => True

instance (env : Env) (db : Db) (auth : AuthenticatedDevice) (request : Request) :
    Decidable (db.Refers env auth request) := by
  cases request with
  | claimNickname => exact inferInstanceAs (Decidable (_ = _))
  | linkDevice request =>
      exact inferInstanceAs
        (Decidable (∀ code ∈ db.deviceLinkCodes.find (env.digestHex (utf8 request.linkCode)), _))
  | _ => exact .isTrue trivial

namespace DirectoryMove

variable {request : Request}

theorem devicesOwned (h : DirectoryMove env auth draw db request db') (hdb : db.DevicesOwned)
    (hrefers : db.Refers env auth request) : db'.DevicesOwned := by
  have howned := devicesOwned_iff.mp hdb
  apply devicesOwned_iff.mpr
  intro deviceId userId huser
  cases h with
  | stay haccounts hdevices _ =>
      rw [Db.userOf, hdevices] at huser
      rw [haccounts]
      exact howned deviceId userId huser
  | register hdevice hrow =>
      rw [userOf_register] at huser
      rw [Table.find_insertOrIgnore]
      split
      · rfl
      · next hother =>
          apply howned deviceId
          split at huser
          · cases hold : db.userOf deviceId with
            | some old => rwa [hold] at huser
            | none =>
                rw [hold, Option.getD_none, hrow] at huser
                exact absurd (Option.some.inj huser) hother
          · exact huser
  | link hcode hother =>
      have hmoved := huser
      rw [Db.userOf, userOf_link] at huser
      obtain ⟨r, hr, hru⟩ := Option.map_eq_some_iff.mp huser
      apply find_dropEmptyAccount
      · split at hru
        · rw [← hru]
          exact hrefers _ hcode
        · exact howned deviceId userId (by rw [Db.userOf, hr, Option.map_some, hru])
      · intro _
        obtain ⟨moved, hfind, huserId⟩ := Option.map_eq_some_iff.mp hmoved
        exact ⟨moved, (Table.find_eq_some.mp hfind).1, huserId⟩
  | revoke =>
      rw [userOf_of_devices (find_revokeRows _ _ _) (fun r => by split <;> rfl)] at huser
      exact howned deviceId userId huser
  | claim => exact howned deviceId userId huser

theorem nicknamesHeld (h : DirectoryMove env auth draw db request db') (hdb : db.NicknamesHeld)
    (hrefers : db.Refers env auth request) : db'.NicknamesHeld := by
  intro n hn
  cases h with
  | stay _ hdevices hnicknames =>
      rw [hnicknames] at hn
      rw [Db.userOf, hdevices]
      exact hdb n hn
  | register hdevice hrow =>
      rw [userOf_register, hdb n hn]
      split <;> rfl
  | link hcode hother =>
      obtain ⟨hn, hkept⟩ := List.mem_filter.mp hn
      have hheld := hdb n hn
      obtain ⟨r, hr, hru⟩ := Option.map_eq_some_iff.mp hheld
      have hmember : memberRow auth r = false := by
        simp only [Bool.not_eq_true', decide_eq_false_iff_not] at hkept
        simp [memberRow, hru, hkept]
      rw [Db.userOf, userOf_link, hr, Option.map_some, hmember]
      simpa using hru
  | revoke =>
      rw [userOf_of_devices (find_revokeRows _ _ _) (fun r => by split <;> rfl)]
      exact hdb n hn
  | claim row huser hdevice _ _ hinsert =>
      rw [insertNickname_rows hinsert] at hn
      rcases List.mem_append.mp hn with hn | hn
      · exact hdb n (List.mem_filter.mp hn).1
      · rw [List.mem_singleton.mp hn, huser, hdevice]
        exact hrefers

end DirectoryMove

theorem hasActive_of_revokeDevice {targetDeviceId userId : String} {request : AccountRequest}
    (h : revokeDevice targetDeviceId request auth draw db = .ok db')
    (hbefore : userId = auth.userId ∨ db.HasActive userId) : db'.HasActive userId := by
  rw [revokeDevice_ok h]
  simp only [revokeDevice, bind_eq_ok, okOr_eq_ok, refuseIf_eq_ok, readCount_eq_ok,
    AccountIdentity.mayRevokeDevice,
    Bool.not_eq_false', Bool.and_eq_true, beq_iff_eq, decide_eq_true_iff] at h
  obtain ⟨_, _, target, htarget, _, ⟨_, rfl⟩, _, ⟨⟨howner, _⟩, hothers⟩, _⟩ := h
  have hkept {r : DeviceRow} (hr : r ∈ db.devices.rows) (hne : r.deviceId ≠ targetDeviceId) :
      r ∈ (revokeRows db.devices targetDeviceId draw.now).rows := by
    rw [Table.mem_rows, find_revokeRows, Table.mem_rows.mp hr]
    simp [hne]
  by_cases huser : userId = auth.userId
  · obtain ⟨r, hr, hactive, hne⟩ := Table.exists_of_one_lt_count hothers targetDeviceId
    rw [decide_eq_true_iff] at hactive
    exact ⟨r, hkept hr hne, hactive.1.trans huser.symm, hactive.2⟩
  · obtain ⟨r, hr, hru, hactive⟩ := hbefore.resolve_left huser
    refine ⟨r, hkept hr ?_, hru, hactive⟩
    intro heq
    rw [← heq, Table.mem_rows.mp hr, Option.some.injEq] at htarget
    exact huser (hru.symm.trans (htarget ▸ howner))

namespace Server

/-- The condition of a step: a body that runs finds what it refers to. -/
def Refers (env : Env) (s : Server) : Event → Prop
  | .body i _ => ∀ p ∈ s.pending[i]?, s.db.Refers env p.auth p.request
  | _ => True

instance (env : Env) (s : Server) (e : Event) : Decidable (s.Refers env e) := by
  cases e with
  | body i _ => exact inferInstanceAs (Decidable (∀ p ∈ s.pending[i]?, _))
  | _ => exact .isTrue trivial

theorem references_step (env : Env) (s : Server) (e : Event) (h : s.db.DevicesOwned ∧ s.db.NicknamesHeld)
    (hok : s.Refers env e) : (step env s e).db.DevicesOwned ∧ (step env s e).db.NicknamesHeld := by
  have hstep := step_spec env s e
  generalize step env s e = t at hstep ⊢
  cases hstep with
  | quiet hdb => exact hdb ▸ h
  | @authenticate _ w _ _ hw hauth =>
      obtain ⟨nonces, _, _, rfl⟩ := authenticateUnderLock_ok hauth
      have huser (deviceId : String) := userOf_of_devices
        (find_touchDevice s.db.devices w.ticket.deviceId w.ticket.now) (fun r => by split <;> rfl) deviceId
      constructor
      · apply devicesOwned_iff.mpr
        intro deviceId userId hd
        exact devicesOwned_iff.mp h.1 deviceId userId ((huser deviceId).symm.trans hd)
      · intro n hn
        exact (huser n.deviceId).trans (h.2 n hn)
  | body hp hbody =>
      have hmove := body_directoryMove hbody
      exact ⟨hmove.devicesOwned h.1 (hok _ hp), hmove.nicknamesHeld h.2 (hok _ hp)⟩

/-- From the empty database and in every interleaving of transactions, as long
as claims find their device in its account and links find the account of their
code, every device has its account and every nickname its device. A revocation
never takes the last active device of an account. -/
theorem references_intact (env : Env) (clock : Int) (es : List Event)
    (h : Along (step env) (Refers env) { clock, db := {} } es) :
    (run (step env) { clock, db := {} } es).db.DevicesOwned ∧
    (run (step env) { clock, db := {} } es).db.NicknamesHeld ∧
    ∀ auth draw targetDeviceId request db',
      revokeDevice targetDeviceId request auth draw (run (step env) { clock, db := {} } es).db = .ok db' →
      ∀ userId, userId = auth.userId ∨ (run (step env) { clock, db := {} } es).db.HasActive userId →
        db'.HasActive userId := by
  have hrun := run_along (step env) (Refers env) (fun s => s.db.DevicesOwned ∧ s.db.NicknamesHeld)
    (references_step env) { clock, db := {} } es
    ⟨by simp [Db.DevicesOwned, Table.empty], by simp [Db.NicknamesHeld, Table.empty]⟩ h
  refine ⟨hrun.1, hrun.2, ?_⟩
  intro auth draw targetDeviceId request db' hrevoke userId
  exact hasActive_of_revokeDevice hrevoke

/-- Device `a` takes a nickname for its account. -/
def namedDevice : List Event :=
  serve "key-a" "a" "nonce-a-00000001" "register a" 0 (plainRegistration "u" "a" "key-a") ++
    serve "key-a" "a" "nonce-a-00000002" "claim a" 1 (.claimNickname ⟨"alice", "u", "a"⟩)

theorem references_intact_named :
    Along (step plainEnv) (Refers plainEnv) { clock := 1000, db := {} } namedDevice ∧
      (run (step plainEnv) { clock := 1000, db := {} } namedDevice).db.nicknames.rows.length = 1 ∧
      (run (step plainEnv) { clock := 1000, db := {} } namedDevice).db.NicknamesHeld := by
  obtain ⟨h, hlength⟩ : Along (step plainEnv) (Refers plainEnv) { clock := 1000, db := {} } namedDevice ∧
      (run (step plainEnv) { clock := 1000, db := {} } namedDevice).db.nicknames.rows.length = 1 := by
    decide +kernel
  exact ⟨h, hlength, (references_intact plainEnv 1000 namedDevice h).2.1⟩

/-- Device `a` makes a link code, leaves its account for that of `b`, and device
`c` follows the code into the account that is gone. -/
def codeOfLeftAccount : List Event :=
  serve "key-a" "a" "nonce-a-00000001" "register a" 0 (plainRegistration "u" "a" "key-a") ++
    serve "key-a" "a" "nonce-a-00000002" "code by a" 1 (.createLinkCode ⟨"u", "a"⟩) ++
    serve "key-b" "b" "nonce-b-00000001" "register b" 2 (plainRegistration "v" "b" "key-b") ++
    serve "key-b" "b" "nonce-b-00000002" "code by b" 3 (.createLinkCode ⟨"v", "b"⟩) ++
    serve "key-a" "a" "nonce-a-00000003" "link a" 4 (.linkDevice ⟨"u", "a", plainLinkCode 3⟩) ++
    serve "key-c" "c" "nonce-c-00000001" "register c" 5 (plainRegistration "w" "c" "key-c") ++
    serve "key-c" "c" "nonce-c-00000002" "link c" 6 (.linkDevice ⟨"w", "c", plainLinkCode 1⟩)

/-- A claim of device `a` for its account waits while the device is linked to
the account of `b`. -/
def claimAcrossLink : List Event :=
  serve "key-a" "a" "nonce-a-00000001" "register a" 0 (plainRegistration "u" "a" "key-a") ++
    serve "key-b" "b" "nonce-b-00000001" "register b" 2 (plainRegistration "v" "b" "key-b") ++
    serve "key-b" "b" "nonce-b-00000002" "code by b" 3 (.createLinkCode ⟨"v", "b"⟩) ++
    [.arrive (plainIncoming "key-a" "a" "1000" "nonce-a-00000002" "claim a"
      (.claimNickname ⟨"alice", "u", "a"⟩)),
      .arrive (plainIncoming "key-a" "a" "1000" "nonce-a-00000003" "link a"
        (.linkDevice ⟨"u", "a", plainLinkCode 3⟩)),
      .authenticate 0, .authenticate 0, .body 1 (plainDraw 1000 4), .body 0 (plainDraw 1000 5)]

theorem references_broken :
    ¬ (run (step plainEnv) { clock := 1000, db := {} } codeOfLeftAccount).db.DevicesOwned ∧
      ¬ (run (step plainEnv) { clock := 1000, db := {} } claimAcrossLink).db.NicknamesHeld := by
  decide +kernel

end Server

end TriNet.CallApi
