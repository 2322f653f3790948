import TriNet.CallApi.Text
import TriNet.Lib.Base64
import Mathlib.Data.List.DropRight

namespace TriNet.Phone

open CallApi Lib Lib.BigEndian

/-- The number of Swift characters of ASCII text: a carriage return and the
line feed behind it are one. -/
def asciiCount : List Char → Nat
  | '\r' :: '\n' :: cs => asciiCount cs + 1
  | _ :: cs => asciiCount cs + 1
  | [] => 0

/-- What the phone's libraries compute, with the little that is assumed of
them: characters and letter case of ASCII text, that normalising twice changes
nothing, and that base64 reads what it wrote. -/
structure Foundation where
  lowercased : String → String
  count : String → Nat
  base64Decoded : String → Option Bytes
  sha256 : Bytes → { digest : Bytes // digest.length = 32 }
  isX963Key : Bytes → Bool
  isDerSignature : Bytes → Bool
  isValidSignature : (key message signature : Bytes) → Bool
  lowercased_ascii : ∀ s, isAscii s = true → lowercased s = toAsciiLowercase s
  lowercased_trim : ∀ s, lowercased (trim (lowercased (trim s))) = lowercased (trim s)
  count_ascii : ∀ s, isAscii s = true → count s = asciiCount s.toList
  base64Decoded_encode : ∀ bs, base64Decoded (Base64.encode bs) = some bs

namespace NicknamePolicy

def minimumLength : Nat := 3
def maximumLength : Nat := 20

def allowed (c : Char) : Bool := c ∈ "abcdefghijklmnopqrstuvwxyz0123456789_".toList

end NicknamePolicy

def decodeUtf8 (bytes : Bytes) : Option String := String.fromUTF8? ⟨bytes.toArray⟩

namespace Foundation

def normalize (F : Foundation) (value : String) : String := F.lowercased (trim value)

/-- Only whether there is an error is ever asked, so the first scalar stands
for the first character. -/
def validationError (F : Foundation) (value : String) : Option String :=
  let nickname := F.normalize value
  if F.count nickname < NicknamePolicy.minimumLength ||
      F.count nickname > NicknamePolicy.maximumLength then
    some "Use 3 to 20 characters."
  else if !nickname.toList.head?.any Char.isAlpha then some "The first character must be a letter."
  else if !nickname.toList.all NicknamePolicy.allowed then
    some "Use lowercase letters, numbers, and underscore only."
  else none

def digest (F : Foundation) (data : Bytes) : String := lowercaseHex ((F.sha256 data).1.take 12)

def fingerprint (F : Foundation) (publicKey : String) : Option String :=
  (F.base64Decoded publicKey).map F.digest

def verifyMessage (F : Foundation) (message : Bytes) (signature publicKey : String) : Bool :=
  match F.base64Decoded publicKey, F.base64Decoded signature with
  | some key, some proof =>
      F.isX963Key key && F.isDerSignature proof && F.isValidSignature key message proof
  | _, _ => false

end Foundation

theorem decodeUtf8_utf8 (s : String) : decodeUtf8 (utf8 s) = some s := by
  have hbytes : (⟨(utf8 s).toArray⟩ : ByteArray) = s.toByteArray := rfl
  rw [decodeUtf8, hbytes, String.fromUTF8?, dif_pos s.isValidUTF8]
  rfl

theorem utf8_of_decodeUtf8 {bytes : Bytes} {s : String} (h : decodeUtf8 bytes = some s) :
    utf8 s = bytes := by
  rw [decodeUtf8, String.fromUTF8?] at h
  split at h
  · cases h
    rfl
  · cases h

section Graphic

def isGraphic (c : Char) : Bool := decide (c.toNat < 128) && !isWhitespace c

def IsGraphic (s : String) : Prop := ∀ c ∈ s.toList, isGraphic c = true

variable {s : String}

theorem IsGraphic.isAscii (h : IsGraphic s) : isAscii s = true :=
  isAscii_iff.mpr (fun c hc => of_decide_eq_true (Bool.and_eq_true_iff.mp (h c hc)).1)

theorem IsGraphic.not_whitespace (h : IsGraphic s) : ∀ c ∈ s.toList, isWhitespace c = false :=
  fun c hc => by simpa using (Bool.and_eq_true_iff.mp (h c hc)).2

theorem IsGraphic.trim_eq (h : IsGraphic s) : trim s = s := trim_eq_self h.not_whitespace

theorem IsGraphic.utf8ByteSize_eq (h : IsGraphic s) :
    s.utf8ByteSize = s.toList.length := utf8ByteSize_of_ascii h.isAscii

theorem isGraphic_of_forall_mem {alphabet : List Char} (halphabet : alphabet.all isGraphic = true)
    (h : ∀ c ∈ s.toList, c ∈ alphabet) : IsGraphic s :=
  fun c hc => List.all_eq_true.mp halphabet c (h c hc)

theorem isGraphic_base64 (bs : Bytes) : IsGraphic (Base64.encode bs) :=
  isGraphic_of_forall_mem (by decide +kernel) (fun _ hc => Base64.mem_encode hc)

end Graphic

section Characters

theorem length_le_two_mul_asciiCount (cs : List Char) : cs.length ≤ 2 * asciiCount cs := by
  induction cs using asciiCount.induct with
  | case1 cs ih =>
      simp only [asciiCount, List.length_cons]
      omega
  | case2 c cs hne ih =>
      rw [asciiCount, List.length_cons]
      · omega
      · exact hne
  | case3 => exact Nat.le_refl 0

theorem asciiCount_eq_length {cs : List Char} (h : '\r' ∉ cs) : asciiCount cs = cs.length := by
  induction cs with
  | nil => rfl
  | cons c cs ih =>
      rw [List.mem_cons, not_or] at h
      rw [asciiCount, ih h.2, List.length_cons]
      intro ds hc
      exact absurd hc.symm h.1

end Characters

/-- A nickname of the policy, as it is after normalising. -/
structure IsNickname (s : String) : Prop where
  graphic : IsGraphic s
  lower : ∀ c ∈ s.toList, c.toLower = c
  not_at : ∀ c ∈ s.toList, (c == '@') = false
  length : s.toList.length ≤ NicknamePolicy.maximumLength

theorem IsNickname.normalizeNickname_eq {s : String} (h : IsNickname s) : normalizeNickname s = s := by
  rw [normalizeNickname, h.graphic.trim_eq, trimStartMatches, dropWhile_eq_self h.not_at,
    String.ofList_toList, toAsciiLowercase_eq_self h.lower]

namespace Foundation

variable {F : Foundation} {s : String}

theorem count_of_graphic (h : IsGraphic s) : F.count s = s.toList.length := by
  rw [F.count_ascii s h.isAscii, asciiCount_eq_length]
  intro hmem
  exact absurd (h.not_whitespace _ hmem) (by decide)

theorem lowercased_of_graphic (h : IsGraphic s) (hlower : ∀ c ∈ s.toList, c.toLower = c) :
    F.lowercased s = s := by
  rw [F.lowercased_ascii s h.isAscii, toAsciiLowercase_eq_self hlower]

theorem validationError_eq_none_iff {value : String} :
    F.validationError value = none ↔
      (NicknamePolicy.minimumLength ≤ F.count (F.normalize value) ∧
        F.count (F.normalize value) ≤ NicknamePolicy.maximumLength) ∧
      (F.normalize value).toList.head?.any Char.isAlpha = true ∧
      ∀ c ∈ (F.normalize value).toList, NicknamePolicy.allowed c = true := by
  have hguard (c : Prop) [Decidable c] (e : String) (rest : Option String) :
      (if c then some e else rest) = none ↔ ¬c ∧ rest = none := by
    by_cases hc : c <;> simp [hc]
  simp only [validationError, hguard, Bool.or_eq_true, decide_eq_true_eq, not_or, Nat.not_lt,
    gt_iff_lt, Bool.not_eq_true', Bool.not_eq_false, List.all_eq_true, and_true]

theorem normalize_normalize (value : String) : F.normalize (F.normalize value) = F.normalize value :=
  F.lowercased_trim value

theorem isNickname_normalize {value : String} (h : F.validationError (F.normalize value) = none) :
    IsNickname (F.normalize value) := by
  have hspec := validationError_eq_none_iff.mp h
  rw [normalize_normalize] at hspec
  obtain ⟨⟨-, hcount⟩, -, hallowed⟩ := hspec
  have hchars : ∀ c, NicknamePolicy.allowed c = true → isGraphic c = true ∧ c.toLower = c ∧
      (c == '@') = false := by
    have hall : ∀ c ∈ "abcdefghijklmnopqrstuvwxyz0123456789_".toList,
        isGraphic c = true ∧ c.toLower = c ∧ (c == '@') = false := forall_mem_of_all (by decide +kernel)
    exact fun c hc => hall c (of_decide_eq_true hc)
  have hgraphic : IsGraphic (F.normalize value) := fun c hc => (hchars c (hallowed c hc)).1
  rw [count_of_graphic hgraphic] at hcount
  exact ⟨hgraphic, fun c hc => (hchars c (hallowed c hc)).2.1, fun c hc =>
    (hchars c (hallowed c hc)).2.2, hcount⟩

end Foundation

/-- Libraries over ASCII alone, with a digest that keeps the first bytes; a
signature is the digest of the key and the message. -/
def plainFoundation : Foundation where
  lowercased := toAsciiLowercase
  count s := asciiCount s.toList
  base64Decoded := Base64.decode
  sha256 bytes := ⟨(bytes ++ List.replicate 32 0).take 32, length_take_digest bytes⟩
  isX963Key _ := true
  isDerSignature _ := true
  isValidSignature key message signature := signature == ((key ++ message) ++ List.replicate 32 0).take 32
  lowercased_ascii _ _ := rfl
  lowercased_trim s := by rw [trim_toAsciiLowercase, trim_trim, toAsciiLowercase_idem]
  count_ascii _ _ := rfl
  base64Decoded_encode := Base64.decode_encode

end TriNet.Phone
