import TriNet.CallApi.DirectoryMoves

namespace TriNet.CallApi

open Lib Lib.BigEndian Lib.Runs

def nicknameAlphabet : List Char := "abcdefghijklmnopqrstuvwxyz0123456789_".toList

/-- Characters a nickname can be made of, a lowercase letter first. -/
structure IsNicknameText (cs : List Char) : Prop where
  alphabet : ∀ c ∈ cs, c ∈ nicknameAlphabet
  start : cs.head?.any Char.isLower = true

section Text

variable {cs ds : List Char} {name : String}

theorem IsNicknameText.ne_nil (h : IsNicknameText cs) : cs ≠ [] := by
  rintro rfl
  exact absurd h.start (by decide)

theorem IsNicknameText.append (h : IsNicknameText cs) (hds : ∀ c ∈ ds, c ∈ nicknameAlphabet) :
    IsNicknameText (cs ++ ds) where
  alphabet c hc := (List.mem_append.mp hc).elim (h.alphabet c) (hds c)
  start := by
    rw [List.head?_append_of_ne_nil _ h.ne_nil]
    exact h.start

theorem IsNicknameText.take (h : IsNicknameText cs) {n : Nat} (hn : 0 < n) :
    IsNicknameText (cs.take n) where
  alphabet c hc := h.alphabet c (List.mem_of_mem_take hc)
  start := by
    rw [List.head?_take, if_neg (Nat.pos_iff_ne_zero.mp hn)]
    exact h.start

theorem IsNicknameText.ascii (h : IsNicknameText cs) : ∀ c ∈ cs, c.toNat < 128 := by
  have hall : ∀ c ∈ nicknameAlphabet, c.toNat < 128 := forall_mem_of_all (by decide +kernel)
  exact fun c hc => hall c (h.alphabet c hc)

theorem IsNicknameText.shapeValid (h : IsNicknameText cs)
    (hmin : NicknameDirectory.nicknameMinLength ≤ cs.length)
    (hmax : cs.length ≤ NicknameDirectory.nicknameMaxLength) :
    nicknameShapeValid (String.ofList cs) = true := by
  have hbyte : ∀ c ∈ nicknameAlphabet, isNicknameByte c.val.toUInt8 = true :=
    forall_mem_of_all (by decide +kernel)
  have hlower : ∀ c ∈ nicknameAlphabet, c.isLower = true → isLowercaseByte c.val.toUInt8 = true :=
    forall_mem_of_all (by decide +kernel)
  have hbytes := utf8_ofList_of_ascii h.ascii
  have hsize : (String.ofList cs).utf8ByteSize = cs.length := by
    rw [← length_utf8, hbytes, List.length_map]
  have hstart : (utf8 (String.ofList cs)).head?.any isLowercaseByte = true := by
    obtain ⟨c, cs, rfl⟩ := List.exists_cons_of_ne_nil h.ne_nil
    rw [hbytes]
    exact hlower c (h.alphabet c List.mem_cons_self) h.start
  have hvalid : (utf8 (String.ofList cs)).countP (fun b => !isNicknameByte b) = 0 := by
    rw [hbytes, List.countP_map]
    apply List.countP_eq_zero.mpr
    intro c hc
    have hc := hbyte c (h.alphabet c hc)
    simpa using hc
  have hlength : min cs.length 255 = cs.length := Nat.min_eq_left (hmax.trans (by decide))
  rw [nicknameShapeValid, hsize, hstart, hvalid, hlength, NicknameDirectory.nicknameShapeIsValid,
    if_neg (by omega)]
  rfl

theorem mem_nicknameAlphabet {b : UInt8} (h : isNicknameByte b = true) :
    Char.ofNat b.toNat ∈ nicknameAlphabet := by
  have hall : ∀ n < 256, isNicknameByte (UInt8.ofNat n) = true →
      Char.ofNat n ∈ nicknameAlphabet := by decide +kernel
  apply hall _ b.toNat_lt
  rwa [UInt8.ofNat_toNat]

theorem toList_of_ascii_bytes (h : ∀ b ∈ utf8 name, b.toNat < 128) :
    name.toList = (utf8 name).map (fun b => Char.ofNat b.toNat) := by
  have hbyte : ∀ n < 128, (Char.ofNat n).toNat = n ∧
      (Char.ofNat n).val.toUInt8 = UInt8.ofNat n := by decide +kernel
  have hascii : ∀ c ∈ (utf8 name).map (fun b => Char.ofNat b.toNat), c.toNat < 128 := by
    intro c hc
    obtain ⟨b, hb, rfl⟩ := List.mem_map.mp hc
    rw [(hbyte _ (h b hb)).1]
    exact h b hb
  have hback : ∀ b ∈ utf8 name, ((fun c : Char => c.val.toUInt8) ∘ fun b => Char.ofNat b.toNat) b = b := by
    intro b hb
    exact (hbyte _ (h b hb)).2.trans UInt8.ofNat_toNat
  have hsame : utf8 (String.ofList ((utf8 name).map (fun b => Char.ofNat b.toNat))) = utf8 name := by
    rw [utf8_ofList_of_ascii hascii, List.map_map, List.map_congr_left hback, List.map_id']
  calc name.toList = (String.ofList ((utf8 name).map (fun b => Char.ofNat b.toNat))).toList := by
        rw [utf8_inj hsame]
    _ = (utf8 name).map (fun b => Char.ofNat b.toNat) := String.toList_ofList

theorem bytes_of_shapeValid (h : nicknameShapeValid name = true) :
    (NicknameDirectory.nicknameMinLength ≤ (utf8 name).length ∧
      (utf8 name).length ≤ NicknameDirectory.nicknameMaxLength) ∧
      (utf8 name).head?.any isLowercaseByte = true ∧ ∀ b ∈ utf8 name, isNicknameByte b = true := by
  rw [nicknameShapeValid, NicknameDirectory.nicknameShapeIsValid] at h
  split at h
  · cases h
  · next hlength =>
      simp only [Bool.and_eq_true, beq_iff_eq] at h
      obtain ⟨hstart, hinvalid⟩ := h
      have hcount : (utf8 name).countP (fun b => !isNicknameByte b) = 0 := by omega
      refine ⟨?_, hstart, fun b hb => by simpa using List.countP_eq_zero.mp hcount b hb⟩
      rw [length_utf8]
      simp only [NicknameDirectory.nicknameMinLength, NicknameDirectory.nicknameMaxLength] at hlength ⊢
      omega

theorem isNicknameText_of_shapeValid (h : nicknameShapeValid name = true) :
    IsNicknameText name.toList := by
  have hsmall : ∀ n < 256, isNicknameByte (UInt8.ofNat n) = true → n < 128 := by decide +kernel
  have hlower : ∀ n < 256, isLowercaseByte (UInt8.ofNat n) = true →
      (Char.ofNat n).isLower = true := by decide +kernel
  obtain ⟨-, hstart, hbytes⟩ := bytes_of_shapeValid h
  have hascii : ∀ b ∈ utf8 name, b.toNat < 128 := by
    intro b hb
    apply hsmall _ b.toNat_lt
    rw [UInt8.ofNat_toNat]
    exact hbytes b hb
  rw [toList_of_ascii_bytes hascii]
  constructor
  · intro c hc
    obtain ⟨b, hb, rfl⟩ := List.mem_map.mp hc
    exact mem_nicknameAlphabet (hbytes b hb)
  · rw [List.head?_map]
    cases hhead : (utf8 name).head? with
    | none =>
        rw [hhead] at hstart
        cases hstart
    | some b =>
        rw [hhead] at hstart
        apply hlower _ b.toNat_lt
        rw [UInt8.ofNat_toNat]
        exact hstart

theorem IsNicknameText.normalize_eq (h : IsNicknameText cs) :
    normalizeNickname (String.ofList cs) = String.ofList cs := by
  have hall : ∀ c ∈ nicknameAlphabet, isWhitespace c = false ∧ (c == '@') = false ∧ c.toLower = c :=
    forall_mem_of_all (by decide +kernel)
  have htext {p : Char → Prop} (hp : ∀ c ∈ nicknameAlphabet, p c) :
      ∀ c ∈ (String.ofList cs).toList, p c := by
    intro c hc
    rw [String.toList_ofList] at hc
    exact hp c (h.alphabet c hc)
  have hat : trimStartMatches (String.ofList cs) '@' = String.ofList cs := by
    rw [trimStartMatches, dropWhile_eq_self (htext fun c hc => (hall c hc).2.1), String.ofList_toList]
  rw [normalizeNickname, trim_eq_self (htext fun c hc => (hall c hc).1), hat,
    toAsciiLowercase_eq_self (htext fun c hc => (hall c hc).2.2)]

end Text

section Suggestions

variable (candidate : String)

theorem suggestionBase_text : IsNicknameText (suggestionBase candidate) := by
  have hword : ∀ c ∈ "user_".toList ++ "net".toList, c ∈ nicknameAlphabet :=
    forall_mem_of_all (by decide +kernel)
  have hkept : ∀ c ∈ ((utf8 candidate).filter isNicknameByte).map (fun b => Char.ofNat b.toNat),
      c ∈ nicknameAlphabet := by
    intro c hc
    obtain ⟨b, hb, rfl⟩ := List.mem_map.mp hc
    exact mem_nicknameAlphabet (List.mem_filter.mp hb).2
  rw [suggestionBase]
  apply IsNicknameText.take _ (by decide)
  have hbase {base : List Char} (h : IsNicknameText base) :
      IsNicknameText (if base.length < NicknameDirectory.nicknameMinLength then base ++ "net".toList
        else base) := by
    split
    · exact h.append (fun c hc => hword c (List.mem_append_right _ hc))
    · exact h
  apply hbase
  split
  · next hstart => exact ⟨hkept, hstart⟩
  · have huser : IsNicknameText "user_".toList :=
      ⟨fun c hc => hword c (List.mem_append_left _ hc), by decide +kernel⟩
    exact huser.append hkept

theorem length_suggestionBase :
    (suggestionBase candidate).length ≤ NicknameDirectory.nicknameMaxLength - 3 := by
  rw [suggestionBase]
  exact List.length_take_le ..

theorem toDigits_of_le {n : Nat} (h : 10 ≤ n) :
    Nat.toDigits 10 n = Nat.toDigits 10 (n / 10) ++ [Nat.digitChar (n % 10)] := by
  have hn : n = 10 * (n / 10) + n % 10 := (Nat.div_add_mod n 10).symm
  conv_lhs => rw [hn]
  rw [← Nat.toDigits_append_toDigits (by decide) (by omega) (by omega : n % 10 < 10),
    Nat.toDigits_of_lt_base (by omega : n % 10 < 10)]

theorem threeDigits_eq {n : Nat} (h : n < 1000) :
    threeDigits n = [Nat.digitChar (n / 100), Nat.digitChar (n / 10 % 10), Nat.digitChar (n % 10)] := by
  have htext : (toString n).toList = Nat.toDigits 10 n := Nat.toList_repr
  rw [threeDigits, htext]
  by_cases hone : n < 10
  · have hdigits : n / 100 = 0 ∧ n / 10 % 10 = 0 ∧ n % 10 = n := by omega
    rw [Nat.toDigits_of_lt_base hone, hdigits.1, hdigits.2.1, hdigits.2.2]
    rfl
  · by_cases htwo : n < 100
    · have hdigits : n / 100 = 0 ∧ n / 10 % 10 = n / 10 := by omega
      rw [toDigits_of_le (by omega), Nat.toDigits_of_lt_base (by omega : n / 10 < 10),
        hdigits.1, hdigits.2]
      rfl
    · have hdigits : n / 10 / 10 = n / 100 := by omega
      rw [toDigits_of_le (by omega), toDigits_of_le (by omega : 10 ≤ n / 10), hdigits,
        Nat.toDigits_of_lt_base (by omega : n / 100 < 10)]
      rfl

theorem threeDigits_mem {n : Nat} (h : n < 1000) : ∀ c ∈ threeDigits n, c ∈ nicknameAlphabet := by
  have hall : ∀ d < 10, Nat.digitChar d ∈ nicknameAlphabet := by decide +kernel
  rw [threeDigits_eq h]
  simp only [List.forall_mem_cons]
  exact ⟨hall _ (by omega), hall _ (by omega), hall _ (by omega), nofun⟩

theorem threeDigits_inj {m n : Nat} (hm : m < 1000) (hn : n < 1000)
    (h : threeDigits m = threeDigits n) : m = n := by
  have hall : ∀ d < 10, ∀ e < 10, Nat.digitChar d = Nat.digitChar e → d = e := by decide +kernel
  simp only [threeDigits_eq hm, threeDigits_eq hn, List.cons.injEq, and_true] at h
  have hhundreds := hall _ (by omega) _ (by omega) h.1
  have htens := hall _ (by omega) _ (by omega) h.2.1
  have hones := hall _ (by omega) _ (by omega) h.2.2
  omega

/-- A proposal of `nickname_suggestions` before it is compared with what exists. -/
def proposal (candidate : String) (n : Nat) : List Char := suggestionBase candidate ++ threeDigits n

theorem nicknameSuggestions_eq (env : Env) (seed : String) (existing : List String) :
    nicknameSuggestions env candidate seed existing =
      (((List.range 40).map (fun offset =>
          String.ofList (proposal candidate ((env.stableId seed % 1000 + offset * 37) % 1000)))).filter
        (fun name => !existing.any (nicknamesAreConfusing name))).take 3 := by
  have hone (offset : Nat) :
      String.ofList ((suggestionBase candidate).take (NicknameDirectory.nicknameMaxLength -
        (threeDigits ((env.stableId seed % 1000 + offset * 37) % 1000)).length) ++
          threeDigits ((env.stableId seed % 1000 + offset * 37) % 1000)) =
        String.ofList (proposal candidate ((env.stableId seed % 1000 + offset * 37) % 1000)) := by
    have hlength : (threeDigits ((env.stableId seed % 1000 + offset * 37) % 1000)).length = 3 := by
      rw [threeDigits_eq (Nat.mod_lt _ (by decide))]
      rfl
    rw [hlength, List.take_of_length_le (length_suggestionBase candidate)]
    rfl
  simp only [nicknameSuggestions, hone]

theorem proposal_text {n : Nat} (h : n < 1000) : IsNicknameText (proposal candidate n) :=
  (suggestionBase_text candidate).append (threeDigits_mem h)

theorem length_proposal {n : Nat} (h : n < 1000) :
    (proposal candidate n).length = (suggestionBase candidate).length + 3 := by
  rw [proposal, List.length_append, threeDigits_eq h]
  rfl

theorem proposal_shapeValid {n : Nat} (h : n < 1000) :
    nicknameShapeValid (String.ofList (proposal candidate n)) = true := by
  have hlength := length_proposal candidate h
  have hbase := length_suggestionBase candidate
  have hmax : NicknameDirectory.nicknameMaxLength = 20 := rfl
  have hmin : NicknameDirectory.nicknameMinLength = 3 := rfl
  exact (proposal_text candidate h).shapeValid (by omega) (by omega)

theorem mem_nicknameSuggestions {env : Env} {seed name : String} {existing : List String}
    {candidate : String} (h : name ∈ nicknameSuggestions env candidate seed existing) :
    (∃ n < 1000, name = String.ofList (proposal candidate n)) ∧
      ∀ nickname ∈ existing, nicknamesAreConfusing name nickname = false := by
  rw [nicknameSuggestions_eq] at h
  obtain ⟨hmem, hclear⟩ := List.mem_filter.mp (List.mem_of_mem_take h)
  obtain ⟨offset, _, rfl⟩ := List.mem_map.mp hmem
  refine ⟨⟨_, Nat.mod_lt _ (by decide), rfl⟩, ?_⟩
  simpa using hclear

/-- Steps of 37 reach no number twice in 40 steps, because 37 has no factor in
common with 1000. -/
theorem nodup_nicknameSuggestions (env : Env) (seed : String) (existing : List String) :
    (nicknameSuggestions env candidate seed existing).Nodup := by
  rw [nicknameSuggestions_eq]
  apply List.Nodup.sublist (List.take_sublist _ _)
  apply List.Nodup.filter
  apply List.Nodup.map_on _ List.nodup_range
  intro i hi j hj h
  rw [List.mem_range] at hi hj
  have hdigits := List.append_cancel_left (String.ofList_injective h)
  have hnumber := threeDigits_inj (Nat.mod_lt _ (by decide)) (Nat.mod_lt _ (by decide)) hdigits
  omega

end Suggestions

section Claim

variable {env : Env} {auth : AuthenticatedDevice} {db : Db} {name : String}

/-- What a claim asks of an account besides the nickname: its device is stored,
and carries no nickname of another account. -/
structure Db.MayClaim (db : Db) (auth : AuthenticatedDevice) : Prop where
  stored : (db.devices.find auth.deviceId).isSome = true
  own : ∀ r ∈ db.nicknames.rows, r.deviceId = auth.deviceId → r.userId = auth.userId

theorem nicknamesAreConfusing_self (name : String) : nicknamesAreConfusing name name = true := by
  simp [nicknamesAreConfusing, NicknameDirectory.nicknameIsConfusing]

theorem insertNickname_of_clear (h : db.MayClaim auth)
    (hclear : ∀ r ∈ db.nicknames.rows, nicknamesAreConfusing name r.nickname = false) (now : Int) :
    ∃ nicknames, insertNickname db (db.nicknames.delete (fun r => r.userId = auth.userId))
        ⟨name, auth.userId, auth.deviceId, now⟩ = some nicknames ∧
      nicknames.find name = some ⟨name, auth.userId, auth.deviceId, now⟩ := by
  have hdevice : (db.nicknames.delete (fun r => r.userId = auth.userId)).rows.any
      (fun r => r.deviceId == auth.deviceId) = false := by
    apply List.any_eq_false.mpr
    intro r hr hsame
    obtain ⟨hr, hother⟩ := List.mem_filter.mp hr
    simp [h.own r hr (by simpa using hsame)] at hother
  have hname : (db.nicknames.delete (fun r => r.userId = auth.userId)).find name = none := by
    apply Table.find_eq_none.mpr
    rintro r hr rfl
    have hconfusing := hclear r (List.mem_of_mem_filter hr)
    rw [nicknamesAreConfusing_self] at hconfusing
    cases hconfusing
  have hstored : (db.devices.find auth.deviceId).isNone = false := by simpa using h.stored
  rw [insertNickname, hdevice, hstored, if_neg (by simp)]
  cases hinsert : (db.nicknames.delete (fun r => r.userId = auth.userId)).insert
      ⟨name, auth.userId, auth.deviceId, now⟩ with
  | none => exact absurd hname (Table.insert_eq_none.mp hinsert)
  | some nicknames => exact ⟨nicknames, rfl, by rw [Table.find_insert hinsert, if_pos rfl]⟩

theorem claimNickname_of_clear (h : db.MayClaim auth) (hshape : nicknameShapeValid name = true)
    (hnormal : normalizeNickname name = name)
    (hclear : ∀ r ∈ db.nicknames.rows, nicknamesAreConfusing name r.nickname = false) (draw : Draw) :
    ∃ nicknames, claimNickname env ⟨name, auth.userId, auth.deviceId⟩ auth draw db =
        .ok ({ db with nicknames := nicknames }, ⟨true, name, none, []⟩) ∧
      nicknames.find name = some ⟨name, auth.userId, auth.deviceId, draw.now⟩ := by
  obtain ⟨nicknames, hinsert, hfind⟩ := insertNickname_of_clear h hclear draw.now
  refine ⟨nicknames, ?_, hfind⟩
  have hidentity : requireIdentity auth auth.userId auth.deviceId = .ok () :=
    requireIdentity_eq_ok.mpr ⟨rfl, rfl⟩
  have hconfusing : db.nicknames.rows.any
      (fun r => r.userId != auth.userId && nicknamesAreConfusing name r.nickname) = false := by
    apply List.any_eq_false.mpr
    intro r hr
    simp [hclear r hr]
  have howner : NicknameDirectory.nicknameOwnerMatches (env.stableId auth.userId)
      (env.stableId auth.userId) = true := by
    have hpos : 1 ≤ env.stableId auth.userId := Nat.le_max_right ..
    simp [NicknameDirectory.nicknameOwnerMatches]
    omega
  simp only [claimNickname, hidentity, hnormal, hshape, hconfusing, howner, hinsert]
  rfl

end Claim

/-- What `nickname_suggestions` returns is well formed, without repeats and not
confusing with any nickname there is, and on a directory of these nicknames
every account can claim each of it. -/
theorem suggestions_claimable (env : Env) (candidate seed : String) (existing : List String) :
    (∀ name ∈ nicknameSuggestions env candidate seed existing, nicknameShapeValid name = true) ∧
    (nicknameSuggestions env candidate seed existing).Nodup ∧
    (∀ name ∈ nicknameSuggestions env candidate seed existing, ∀ nickname ∈ existing,
      nicknamesAreConfusing name nickname = false) ∧
    ∀ name ∈ nicknameSuggestions env candidate seed existing, ∀ (db : Db)
    (auth : AuthenticatedDevice) (draw : Draw),
      db.nicknames.rows.map NicknameRow.nickname = existing → db.MayClaim auth →
      ∃ nicknames, claimNickname env ⟨name, auth.userId, auth.deviceId⟩ auth draw db =
          .ok ({ db with nicknames := nicknames }, ⟨true, name, none, []⟩) ∧
        nicknames.find name = some ⟨name, auth.userId, auth.deviceId, draw.now⟩ := by
  have hshape : ∀ name ∈ nicknameSuggestions env candidate seed existing,
      nicknameShapeValid name = true := by
    intro name hname
    obtain ⟨⟨n, hn, rfl⟩, _⟩ := mem_nicknameSuggestions hname
    exact proposal_shapeValid candidate hn
  refine ⟨hshape, nodup_nicknameSuggestions candidate env seed existing,
    fun name hname => (mem_nicknameSuggestions hname).2, ?_⟩
  rintro name hname db auth draw rfl hmay
  obtain ⟨⟨n, hn, htext⟩, hclear⟩ := mem_nicknameSuggestions hname
  apply claimNickname_of_clear hmay (hshape name hname)
  · rw [htext, (proposal_text candidate hn).normalize_eq]
  · intro r hr
    exact hclear r.nickname (List.mem_map_of_mem hr)

/-- Account `u` is called alice, and device `b` of account `w` has no nickname. -/
def aliceTaken : Db :=
  (run (Server.step plainEnv) { clock := 1000, db := {} }
    (Server.serve "key-a" "a" "nonce-a-00000001" "register a" 0 (plainRegistration "u" "a" "key-a") ++
      Server.serve "key-a" "a" "nonce-a-00000002" "name a" 1 (.claimNickname ⟨"alice", "u", "a"⟩) ++
      Server.serve "key-b" "b" "nonce-b-00000001" "register b" 2 (plainRegistration "w" "b" "key-b"))).db

def secondAlice : AuthenticatedDevice := ⟨"w", "b", "b", "key-b", plainEnv.fingerprint (utf8 "key-b"), 3⟩

theorem suggestions_claimable_second :
    aliceTaken.nicknames.rows.map NicknameRow.nickname = ["alice"] ∧
    "alice384" ∈ nicknameSuggestions plainEnv "alice" "w" ["alice"] ∧
    ∃ nicknames, claimNickname plainEnv ⟨"alice384", "w", "b"⟩ secondAlice (plainDraw 1000 3) aliceTaken =
        .ok ({ aliceTaken with nicknames := nicknames }, ⟨true, "alice384", none, []⟩) ∧
      nicknames.find "alice384" = some ⟨"alice384", "w", "b", 1000⟩ := by
  obtain ⟨hrows, hname, hstored, hown⟩ : aliceTaken.nicknames.rows.map NicknameRow.nickname = ["alice"] ∧
      "alice384" ∈ nicknameSuggestions plainEnv "alice" "w" ["alice"] ∧
      (aliceTaken.devices.find "b").isSome = true ∧
      ∀ r ∈ aliceTaken.nicknames.rows, r.deviceId = "b" → r.userId = "w" := by
    decide +kernel
  have hclaimable := (suggestions_claimable plainEnv "alice" "w" ["alice"]).2.2.2
  exact ⟨hrows, hname,
    hclaimable "alice384" hname aliceTaken secondAlice (plainDraw 1000 3) hrows ⟨hstored, hown⟩⟩

end TriNet.CallApi
