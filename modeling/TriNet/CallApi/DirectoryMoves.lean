import TriNet.CallApi.Footprints

namespace TriNet.CallApi

open Lib Lib.BigEndian

variable {env : Env} {auth : AuthenticatedDevice} {draw : Draw} {db db' : Db}

/-- `DELETE FROM accounts WHERE user_id = .. AND NOT EXISTS (SELECT 1 FROM devices ..)` -/
def dropEmptyAccount (accounts : Table AccountRow.userId) (devices : Table DeviceRow.deviceId)
    (userId : String) : Table AccountRow.userId :=
  accounts.delete (fun r => r.userId = userId ∧ devices.count (fun d => d.userId = r.userId) = 0)

/-- What a committed body has done to accounts, devices and nicknames, with what
its handler has checked before. -/
inductive DirectoryMove (env : Env) (auth : AuthenticatedDevice) (draw : Draw) (db : Db) :
    Request → Db → Prop
  | stay {request : Request} {db' : Db} (haccounts : db'.accounts = db.accounts)
      (hdevices : db'.devices = db.devices)
      (hnicknames : db'.nicknames = db.nicknames) : DirectoryMove env auth draw db request db'
  | register {request : DeviceRegistrationRequest} {row : DeviceRow}
      (hdevice : row.deviceId = auth.deviceId) (huser : row.userId = auth.userId) :
      DirectoryMove env auth draw db (.registerDevice request) { db with
        accounts := db.accounts.insertOrIgnore ⟨auth.userId, draw.now⟩
        devices := storeRow db.devices row }
  | link {request : LinkDeviceRequest} {code : LinkCodeRow} {codes : Table LinkCodeRow.codeHash}
      (hcode : db.deviceLinkCodes.find (env.digestHex (utf8 request.linkCode)) = some code)
      (hother : code.userId ≠ auth.userId) :
      DirectoryMove env auth draw db (.linkDevice request) { db with
        devices := moveDevice db.devices auth code.userId draw.now
        deviceLinkCodes := codes
        nicknames := db.nicknames.delete (fun r => r.userId = auth.userId)
        accounts := dropEmptyAccount db.accounts (moveDevice db.devices auth code.userId draw.now)
          auth.userId }
  | revoke {targetDeviceId : String} {request : AccountRequest} :
      DirectoryMove env auth draw db (.revokeDevice targetDeviceId request)
        { db with devices := revokeRows db.devices targetDeviceId draw.now }
  | claim {request : NicknameClaimRequest} (row : NicknameRow) {nicknames : Table NicknameRow.nickname}
      (huser : row.userId = auth.userId) (hdevice : row.deviceId = auth.deviceId)
      (hshape : nicknameShapeValid row.nickname = true)
      (hclear : ∀ r ∈ db.nicknames.rows, r.userId ≠ row.userId →
        nicknamesAreConfusing row.nickname r.nickname = false)
      (hinsert : insertNickname db (db.nicknames.delete (fun r => r.userId = row.userId)) row =
        some nicknames) :
      DirectoryMove env auth draw db (.claimNickname request) { db with nicknames := nicknames }

theorem insertNickname_rows {nicknames nicknames' : Table NicknameRow.nickname} {row : NicknameRow}
    (h : insertNickname db nicknames row = some nicknames') :
    nicknames'.rows = nicknames.rows ++ [row] := by
  rw [insertNickname] at h
  split at h
  · cases h
  · exact (Table.insert_eq_some h).2

theorem registerDevice_move {request : DeviceRegistrationRequest}
    (h : registerDevice env request auth draw db = .ok db') :
    DirectoryMove env auth draw db (.registerDevice request) db' := by
  simp only [registerDevice, bind_eq_ok, refuseIf_eq_ok, Bool.or_eq_false_iff, bne_eq_false_iff_eq] at h
  obtain ⟨device, _, _, ⟨hd, hu⟩, _, _, _, _, hp⟩ := h
  cases hp
  rw [← hu]
  exact .register hd.symm hu.symm

theorem linkDevice_move {request : LinkDeviceRequest} {response : AccountSnapshotResponse}
    (h : linkDevice env request auth draw db = .ok (db', response)) :
    DirectoryMove env auth draw db (.linkDevice request) db' := by
  simp only [linkDevice, bind_eq_ok, okOr_eq_ok, refuseIf_eq_ok, beq_eq_false_iff_ne] at h
  obtain ⟨_, _, _, _, code, hcode, _, hother, _, _, _, _, _, _, _, _, hp⟩ := h
  cases hp
  exact .link hcode hother

theorem revokeDevice_move {targetDeviceId : String} {request : AccountRequest}
    (h : revokeDevice targetDeviceId request auth draw db = .ok db') :
    DirectoryMove env auth draw db (.revokeDevice targetDeviceId request) db' := by
  rw [revokeDevice_ok h]
  exact .revoke

theorem claimNickname_move {request : NicknameClaimRequest} {response : NicknameClaimResponse}
    (h : claimNickname env request auth draw db = .ok (db', response)) :
    DirectoryMove env auth draw db (.claimNickname request) db' := by
  simp only [claimNickname, bind_eq_ok, requireIdentity_eq_ok] at h
  obtain ⟨_, ⟨huser, hdevice⟩, h⟩ := h
  split at h
  · cases h
    exact .stay rfl rfl rfl
  · next hallowed =>
      simp only [bind_eq_ok, okOr_eq_ok] at h
      obtain ⟨_, _, nicknames, hinsert, hp⟩ := h
      cases hp
      simp only [Bool.or_eq_true, not_or, Bool.not_eq_true', Bool.not_eq_false, Bool.not_eq_true,
        List.any_eq_false, Bool.and_eq_true, bne_iff_ne, not_and] at hallowed
      obtain ⟨hshape, hclear⟩ := hallowed
      exact .claim ⟨normalizeNickname request.nickname, request.userId, request.deviceId, draw.now⟩
        huser.symm hdevice.symm hshape hclear hinsert

theorem body_directoryMove {request : Request} {reply : Reply}
    (h : request.body env auth draw db = .ok (db', reply)) :
    DirectoryMove env auth draw db request db' := by
  have hwrites := body_writes h
  cases request
  case registerDevice | linkDevice | revokeDevice | claimNickname =>
    simp only [Request.body, bind_eq_ok] at h
    obtain ⟨_, h, hp⟩ := h
    cases hp
    first
    | exact registerDevice_move h
    | exact linkDevice_move h
    | exact revokeDevice_move h
    | exact claimNickname_move h
  -- no other handler writes one of the three tables
  case query =>
    rw [hwrites]
    exact .stay rfl rfl rfl
  case createLinkCode | markDirectMessagesRead | sendGroupMessage | markGroupChatRead =>
    obtain ⟨_, he⟩ := hwrites
    rw [he]
    exact .stay rfl rfl rfl
  all_goals
    obtain ⟨_, _, _, he⟩ := hwrites
    rw [he]
    exact .stay rfl rfl rfl

end TriNet.CallApi
