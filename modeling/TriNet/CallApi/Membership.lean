import TriNet.CallApi.Footprints

namespace TriNet.CallApi

open Lib Lib.BigEndian Lib.Runs

variable {env : Env} {auth : AuthenticatedDevice} {draw : Draw} {db db' : Db}

def Db.membership (db : Db) (deviceId : String) : Option (String × Option Int) :=
  (db.devices.find deviceId).map (fun r => (r.userId, r.revokedAt))

/-- The stored device, if there is one, is active in the account the request
was authenticated for. -/
def Db.Entitled (db : Db) (auth : AuthenticatedDevice) : Prop :=
  ∀ m ∈ db.membership auth.deviceId, m = (auth.userId, none)

def Pending.membershipTarget (p : Pending) (db : Db) : Option String :=
  match p.request with
  | .registerDevice request => if db.devices.find request.deviceId = none then some request.deviceId
      else none
  | .linkDevice _ => some p.auth.deviceId
  | .revokeDevice targetDeviceId _ => some targetDeviceId
  | _ => none

theorem entitled_iff : db.Entitled auth ↔
    ∀ r ∈ db.devices.find auth.deviceId, r.revokedAt = none ∧ r.userId = auth.userId := by
  simp only [Db.Entitled, Db.membership, Option.mem_def]
  cases db.devices.find auth.deviceId with
  | none => simp
  | some r => simp [and_comm]

theorem membership_touchDevice (now : Int) (touched deviceId : String) :
    { db with devices := touchDevice db.devices touched now }.membership deviceId =
      db.membership deviceId := by
  simp only [Db.membership, find_touchDevice, Option.map_map]
  congr 1
  funext r
  by_cases h : r.deviceId = touched <;> simp [h]

theorem membership_of_authenticate {w : Waiting} (h : w.authenticate env db = .ok (db', auth))
    (deviceId : String) : db'.membership deviceId = db.membership deviceId := by
  obtain ⟨nonces, _, _, rfl⟩ := authenticateUnderLock_ok h
  exact membership_touchDevice w.ticket.now w.ticket.deviceId deviceId

theorem entitled_of_authenticate {w : Waiting} (h : w.authenticate env db = .ok (db', auth)) :
    db.Entitled auth := by
  obtain ⟨nonces, hid, _, _⟩ := authenticateUnderLock_ok h
  rw [entitled_iff, identify_deviceId hid]
  intro r hr
  rw [Option.mem_def.mp hr] at hid
  obtain ⟨hactive, huser⟩ := identify_stored hid
  exact ⟨hactive, huser.symm⟩

theorem Footprint.membership {request : Request} {deviceId : String}
    (h : Footprint env auth draw db request db')
    (hother : deviceId ∉ Pending.membershipTarget ⟨auth, request⟩ db) :
    db'.membership deviceId = db.membership deviceId := by
  cases h with
  | @register request row accounts hdevice huser hactive hmatches hmembers =>
      simp only [Db.membership, find_storeRow]
      by_cases hd : row.deviceId = deviceId
      · rw [if_pos hd]
        cases hrow : db.devices.find deviceId with
        | none =>
            rw [← hd, hdevice, hmatches.1] at hrow hother
            simp [Pending.membershipTarget, hrow] at hother
        | some r => rfl
      · rw [if_neg hd]
  | link hcode hunused hfresh hmember =>
      simp only [Db.membership, find_moveDevice]
      cases hrow : db.devices.find deviceId with
      | none => rfl
      | some r =>
          have hne : r.deviceId ≠ auth.deviceId := by
            intro he
            rw [Table.key_of_find hrow] at he
            simp [Pending.membershipTarget, he] at hother
          simp [memberRow, hne]
  | revoke targetDeviceId =>
      simp only [Db.membership, find_revokeRows]
      cases hrow : db.devices.find deviceId with
      | none => rfl
      | some r =>
          have hne : r.deviceId ≠ targetDeviceId := by
            intro he
            rw [Table.key_of_find hrow] at he
            simp [Pending.membershipTarget, he] at hother
          simp [hne]
  | call hmove =>
      obtain ⟨_, _, _, rfl⟩ := hmove.frame
      rfl
  | linkCode | content => rfl

theorem entitled_of_count (h : db.devices.count (memberRow auth) ≠ 0) : db.Entitled auth := by
  rw [entitled_iff]
  intro r hr
  by_contra hnot
  apply h
  rw [Table.count_eq_zero]
  intro k r' hr'
  rw [memberRow, decide_eq_false_iff_not]
  rintro ⟨hd, huser, hactive⟩
  rw [← Table.key_of_find hr', hd, Option.mem_def.mp hr] at hr'
  cases hr'
  exact hnot ⟨hactive, huser⟩

theorem entitled_of_link {request : Request} {c : Db × Reply} (hlink : request.isLink = true)
    (h : request.body env auth draw db = .ok c) : db.Entitled auth := by
  cases request with
  | linkDevice request =>
      rw [Request.body, bind_eq_ok] at h
      obtain ⟨r, hr, _⟩ := h
      obtain ⟨_, _, _, _, _, _, hcount, _⟩ := linkDevice_ok hr
      exact entitled_of_count (by omega)
  | _ => cases hlink

theorem Footprint.isSome_find {request : Request} (h : Footprint env auth draw db request db')
    {deviceId : String} (hfind : (db'.devices.find deviceId).isSome = true) :
    (db.devices.find deviceId).isSome = true ∨ deviceId = auth.deviceId := by
  cases h with
  | register hdevice =>
      rw [find_storeRow] at hfind
      split at hfind
      · next hrow => exact .inr (hrow.symm.trans hdevice)
      · exact .inl hfind
  | link =>
      rw [find_moveDevice, Option.isSome_map] at hfind
      exact .inl hfind
  | revoke =>
      rw [find_revokeRows, Option.isSome_map] at hfind
      exact .inl hfind
  | call hmove =>
      obtain ⟨_, _, _, rfl⟩ := hmove.frame
      exact .inl hfind
  | linkCode | content => exact .inl hfind

namespace Server

/-- Every device that is stored, or is about to be, named itself in a header. -/
structure NamedInHeaders (s : Server) : Prop where
  stored : ∀ deviceId, (s.db.devices.find deviceId).isSome = true →
    (utf8 deviceId).all isVisibleAscii = true
  pending : ∀ p ∈ s.pending, (utf8 p.auth.deviceId).all isVisibleAscii = true

theorem NamedInHeaders.step {s : Server} (hs : s.NamedInHeaders) (e : Event) :
    (step env s e).NamedInHeaders := by
  have hstep := step_spec env s e
  generalize Server.step env s e = t at hstep ⊢
  cases hstep with
  | quiet hdb hpending => exact ⟨hdb ▸ hs.stored, fun p hp => hs.pending p (hpending hp)⟩
  | authenticate hw hauth =>
      obtain ⟨nonces, hid, _, rfl⟩ := authenticateUnderLock_ok hauth
      refine ⟨fun deviceId hfind => hs.stored deviceId ?_, fun p hp => ?_⟩
      · rwa [find_touchDevice, Option.isSome_map] at hfind
      · obtain hp | hp := List.mem_append.mp hp
        · exact hs.pending p hp
        · obtain rfl := List.mem_singleton.mp hp
          rw [identify_deviceId hid]
          exact Ticket.visible _
  | body hp hbody =>
      refine ⟨fun deviceId hfind => ?_, fun p hp => hs.pending p (List.mem_of_mem_eraseIdx hp)⟩
      obtain hfind | rfl := (body_footprint hbody).isSome_find hfind
      · exact hs.stored deviceId hfind
      · exact hs.pending _ (List.mem_of_getElem? hp)

theorem visible_of_stored (env : Env) (clock : Int) (es : List Event) {deviceId : String}
    (h : ((run (step env) { clock, db := {} } es).db.devices.find deviceId).isSome = true) :
    (utf8 deviceId).all isVisibleAscii = true := by
  have hstart : NamedInHeaders { clock, db := {} } :=
    ⟨fun _ hfind => Bool.noConfusion hfind, fun _ hp => absurd hp List.not_mem_nil⟩
  exact (run_invariant (step env) NamedInHeaders (fun s e hs => hs.step e) _ es hstart).stored deviceId h

end Server

end TriNet.CallApi
