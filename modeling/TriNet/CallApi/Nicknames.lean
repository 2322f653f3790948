import TriNet.CallApi.Authenticate

namespace TriNet.CallApi

open Lib Lib.BigEndian

structure NicknameClaimRequest where
  nickname : String
  userId : String
  deviceId : String

structure NicknameClaimResponse where
  claimed : Bool
  normalized : String
  reason : Option String
  suggestions : List String

def isLowercaseByte (b : UInt8) : Bool := 97 ≤ b && b ≤ 122

def isNicknameByte (b : UInt8) : Bool := isLowercaseByte b || (48 ≤ b && b ≤ 57) || b == 95

def nicknameShapeValid (nickname : String) : Bool :=
  NicknameDirectory.nicknameShapeIsValid (min nickname.utf8ByteSize 255)
    ((utf8 nickname).head?.any isLowercaseByte)
    (min ((utf8 nickname).countP (fun b => !isNicknameByte b)) 255)

/-- The cells of the current row after its first; the previous row is read from
the cell diagonally before the next one on. -/
def editCells (a : UInt8) : Nat → List Nat → Bytes → List Nat
  | left, diagonal :: above :: previous, b :: right =>
      let cell := min (min (left + 1) (above + 1)) (diagonal + if a != b then 1 else 0)
      cell :: editCells a cell (above :: previous) right
  | _, _, _ => []

def editRow (right : Bytes) (previous : List Nat) (a : UInt8 × Nat) : List Nat :=
  (a.2 + 1) :: editCells a.1 (a.2 + 1) previous right

def editDistance (left right : Bytes) : Nat :=
  if left.isEmpty then right.length
  else if right.isEmpty then left.length
  else (left.zipIdx.foldl (editRow right) (List.range (right.length + 1))).getD right.length 0

def sharedPrefixLength (left right : Bytes) : Nat :=
  ((left.zip right).takeWhile (fun p => p.1 == p.2)).length

def nicknamesAreConfusing (candidate existing : String) : Bool :=
  NicknameDirectory.nicknameIsConfusing (candidate == existing)
    (min (editDistance (utf8 candidate) (utf8 existing)) 255)
    (min (sharedPrefixLength (utf8 candidate) (utf8 existing)) 255)

def threeDigits (n : Nat) : List Char :=
  let digits := (toString n).toList
  List.replicate (3 - digits.length) '0' ++ digits

def suggestionBase (candidate : String) : List Char :=
  let base := ((utf8 candidate).filter isNicknameByte).map (fun b => Char.ofNat b.toNat)
  let base := if base.head?.any Char.isLower then base else "user_".toList ++ base
  let base := if base.length < NicknameDirectory.nicknameMinLength then base ++ "net".toList else base
  base.take (NicknameDirectory.nicknameMaxLength - 3)

def nicknameSuggestions (env : Env) (candidate seed : String) (existing : List String) : List String :=
  let seed := env.stableId seed % 1000
  let proposals := (List.range 40).map (fun offset =>
    let suffix := threeDigits ((seed + offset * 37) % 1000)
    String.ofList ((suggestionBase candidate).take (NicknameDirectory.nicknameMaxLength -
      suffix.length) ++ suffix))
  (proposals.filter (fun proposal => !existing.any (nicknamesAreConfusing proposal))).take 3

def shapeReason : String :=
  "Nickname must be 3-20 lowercase ASCII letters, numbers, or underscore and start with a letter"

/-- The insert fails on either unique column and on a device that is not stored. -/
def insertNickname (db : Db) (nicknames : Table NicknameRow.nickname) (row : NicknameRow) :
    Option (Table NicknameRow.nickname) :=
  if nicknames.rows.any (fun r => r.deviceId == row.deviceId) ||
      (db.devices.find row.deviceId).isNone then none
  else nicknames.insert row

def claimNickname (env : Env) (request : NicknameClaimRequest) (auth : AuthenticatedDevice)
    (draw : Draw) (db : Db) : Except ApiError (Db × NicknameClaimResponse) := do
  requireIdentity auth request.userId request.deviceId
  let normalized := normalizeNickname request.nickname
  let shapeValid := nicknameShapeValid normalized
  let confusing := db.nicknames.rows.any (fun r =>
    r.userId != request.userId && nicknamesAreConfusing normalized r.nickname)
  if !shapeValid || confusing then
    pure (db, ⟨false, normalized,
      some (if !shapeValid then shapeReason else "Nickname is already used or too similar"),
      nicknameSuggestions env normalized request.userId (db.nicknames.rows.map NicknameRow.nickname)⟩)
  else do
    refuseIf (NicknameDirectory.claimStatus true false true true != .verified ||
        !NicknameDirectory.nicknameOwnerMatches (env.stableId request.userId) (env.stableId auth.userId))
      (.internal "generated nickname policy rejected claim")
    let nicknames ← okOr
      (insertNickname db (db.nicknames.delete (fun r => r.userId = request.userId))
        ⟨normalized, request.userId, request.deviceId, draw.now⟩)
      (.conflict "nickname was claimed concurrently")
    pure ({ db with nicknames := nicknames }, ⟨true, normalized, none, []⟩)

theorem claimNickname_frame {env : Env} {request : NicknameClaimRequest}
    {auth : AuthenticatedDevice} {draw : Draw} {db db' : Db} {response : NicknameClaimResponse}
    (h : claimNickname env request auth draw db = .ok (db', response)) :
    ∃ nicknames, db' = { db with nicknames := nicknames } := by
  simp only [claimNickname, bind_eq_ok] at h
  obtain ⟨_, _, h⟩ := h
  split at h
  · cases h
    exact ⟨db.nicknames, rfl⟩
  · simp only [bind_eq_ok] at h
    obtain ⟨_, _, nicknames, _, hp⟩ := h
    cases hp
    exact ⟨nicknames, rfl⟩

end TriNet.CallApi
