import Mathlib.Data.List.DropRight
import TriNet.Lib.BigEndian

namespace TriNet.CallApi

open Lib.BigEndian

def utf8 (s : String) : Bytes := s.toByteArray.data.toList

def hexDigits (b : UInt8) : List Char := [Nat.digitChar (b.toNat / 16), Nat.digitChar (b.toNat % 16)]

def lowercaseHex (bytes : Bytes) : String := String.ofList (bytes.flatMap hexDigits)

def lowerHex : List Char := "0123456789abcdef".toList

theorem mem_lowercaseHex {bs : Bytes} {c : Char} (h : c ∈ (lowercaseHex bs).toList) : c ∈ lowerHex := by
  have hdigit : ∀ n < 16, Nat.digitChar n ∈ lowerHex := by decide +kernel
  rw [lowercaseHex, String.toList_ofList, List.mem_flatMap] at h
  obtain ⟨b, -, hc⟩ := h
  have hb := b.toNat_lt
  simp only [hexDigits, List.mem_cons, List.not_mem_nil, or_false] at hc
  rcases hc with rfl | rfl
  · exact hdigit _ (by omega)
  · exact hdigit _ (by omega)

theorem length_lowercaseHex (bs : Bytes) : (lowercaseHex bs).toList.length = 2 * bs.length := by
  rw [lowercaseHex, String.toList_ofList]
  induction bs with
  | nil => rfl
  | cons b bs ih =>
      rw [List.flatMap_cons, List.length_append, ih, List.length_cons]
      simp only [hexDigits, List.length_cons, List.length_nil]
      omega

/-- The White_Space property, which decides what `str::trim` takes away. -/
def isWhitespace (c : Char) : Bool :=
  let n := c.toNat
  (9 ≤ n && n ≤ 13) || n == 0x20 || n == 0x85 || n == 0xA0 || n == 0x1680 || (0x2000 ≤ n && n ≤ 0x200A) ||
    n == 0x2028 || n == 0x2029 || n == 0x202F || n == 0x205F || n == 0x3000

def trim (s : String) : String :=
  String.ofList (((s.toList.dropWhile isWhitespace).reverse.dropWhile isWhitespace).reverse)

def trimStartMatches (s : String) (c : Char) : String := String.ofList (s.toList.dropWhile (· == c))

def toAsciiLowercase (s : String) : String := String.ofList (s.toList.map Char.toLower)

def toAsciiUppercase (s : String) : String := String.ofList (s.toList.map Char.toUpper)

def isAscii (s : String) : Bool := s.toList.all (fun c => decide (c.toNat < 128))

/-- The bytes that `HeaderValue::to_str` takes. -/
def isVisibleAscii (b : UInt8) : Bool := b ≥ 32 && b < 127 || b == 9

def isAsciiHexdigit (c : Char) : Bool :=
  c.isDigit || ('a' ≤ c && c ≤ 'f') || ('A' ≤ c && c ≤ 'F')

def startsWith (s start : String) : Bool := start.toList.isPrefixOf s.toList

def stripPrefix (s start : String) : Option String :=
  if startsWith s start then some (String.ofList (s.toList.drop start.toList.length)) else none

def nonBlank (value : Option String) : Option String := (value.map trim).filter (fun s => !s.isEmpty)

def parseDigits (cs : List Char) : Option Nat :=
  if cs.isEmpty || !cs.all Char.isDigit then none
  else some (cs.foldl (fun n c => 10 * n + (c.toNat - '0'.toNat)) 0)

def parseI64 (s : String) : Option Int :=
  let value : Option Int :=
    match s.toList with
    | '-' :: cs => (parseDigits cs).map (fun n => -(n : Int))
    | '+' :: cs => (parseDigits cs).map (fun n => (n : Int))
    | cs => (parseDigits cs).map (fun n => (n : Int))
  value.filter (fun v => -2 ^ 63 ≤ v && v < 2 ^ 63)

namespace IpAddr

def toDigit (radix : Nat) (c : Char) : Option Nat :=
  let n :=
    if c.isDigit then c.toNat - '0'.toNat
    else if 'a' ≤ c && c ≤ 'f' then c.toNat - 'a'.toNat + 10
    else if 'A' ≤ c && c ≤ 'F' then c.toNat - 'A'.toNat + 10
    else radix
  if n < radix then some n else none

def readChar (c : Char) : List Char → Option (List Char)
  | d :: cs => if c = d then some cs else none
  | [] => none

/-- The readers of `core::net` give back what is left of the text; the address
itself is not used. -/
def readNumber (radix maxDigits limit : Nat) (allowZeroPrefix : Bool) (cs : List Char) :
    Option (List Char) :=
  let digits := cs.takeWhile (fun c => (toDigit radix c).isSome)
  let value := digits.foldl (fun n c => radix * n + (toDigit radix c).getD 0) 0
  if digits.length > maxDigits || digits.isEmpty || limit ≤ value then none
  else if !allowZeroPrefix && digits.head? == some '0' && digits.length > 1 then none
  else some (cs.drop digits.length)

def readIpv4 (cs : List Char) : Option (List Char) := do
  let cs ← readNumber 10 3 256 false cs
  let cs ← (readChar '.' cs).bind (readNumber 10 3 256 false)
  let cs ← (readChar '.' cs).bind (readNumber 10 3 256 false)
  (readChar '.' cs).bind (readNumber 10 3 256 false)

def readGroups : Nat → Nat → List Char → Nat × Bool × List Char
  | 0, index, cs => (index, false, cs)
  | left + 1, index, cs =>
      let start := if index = 0 then some cs else readChar ':' cs
      match if 0 < left then start.bind readIpv4 else none with
      | some rest => (index + 2, true, rest)
      | none =>
          match start.bind (readNumber 16 4 65536 true) with
          | some rest => readGroups left (index + 1) rest
          | none => (index, false, cs)

def readIpv6 (cs : List Char) : Option (List Char) :=
  let (headSize, headIpv4, rest) := readGroups 8 0 cs
  if headSize = 8 then some rest
  else if headIpv4 then none
  else do
    let rest ← (readChar ':' rest).bind (readChar ':')
    some (readGroups (8 - (headSize + 1)) 0 rest).2.2

def parses (cs : List Char) : Bool := (readIpv4 cs).or (readIpv6 cs) == some []

end IpAddr

def isRawIpAddress (value : String) : Bool :=
  let candidate := (trimStartMatches (trim value) '@').toList
  let host :=
    match candidate with
    | '[' :: bracketed => if ']' ∈ bracketed then bracketed.takeWhile (· != ']') else candidate
    | _ =>
        if candidate.count ':' = 1 then
          let port := (candidate.dropWhile (· != ':')).drop 1
          if !port.isEmpty && port.all Char.isDigit then candidate.takeWhile (· != ':') else candidate
        else candidate
  IpAddr.parses (host.takeWhile (· != '%'))

def safeDisplayName (value : String) : String :=
  let candidate := trim value
  if candidate.isEmpty || candidate.toList.length > 64 || isRawIpAddress candidate then "TRI-NET peer"
  else candidate

def normalizeNickname (value : String) : String := toAsciiLowercase (trimStartMatches (trim value) '@')

theorem forall_mem_of_all {p : Char → Prop} [DecidablePred p] {alphabet : List Char}
    (h : alphabet.all (fun c => decide (p c)) = true) : ∀ c ∈ alphabet, p c :=
  fun c hc => of_decide_eq_true (List.all_eq_true.mp h c hc)

theorem utf8_inj {s t : String} (h : utf8 s = utf8 t) : s = t := by
  apply String.toByteArray_inj.mp
  apply ByteArray.ext
  exact Array.toList_inj.mp h

theorem utf8_append (s t : String) : utf8 (s ++ t) = utf8 s ++ utf8 t := by
  simp [utf8]

theorem length_utf8 (s : String) : (utf8 s).length = s.utf8ByteSize := rfl

theorem isAscii_iff {s : String} : isAscii s = true ↔ ∀ c ∈ s.toList, c.toNat < 128 := by
  simp [isAscii]

theorem utf8_ofList_of_ascii {cs : List Char} (h : ∀ c ∈ cs, c.toNat < 128) :
    utf8 (String.ofList cs) = cs.map (fun c => c.val.toUInt8) := by
  have hsize : ∀ c ∈ cs, String.utf8EncodeChar c = [c.val.toUInt8] := by
    intro c hc
    apply String.utf8EncodeChar_eq_singleton
    exact Char.utf8Size_eq_one_iff.mpr (UInt32.le_iff_toNat_le.mpr (Nat.le_of_lt_succ (h c hc)))
  rw [utf8, String.toByteArray_ofList, List.utf8Encode, List.data_toByteArray, List.flatMap_congr hsize]
  exact List.map_eq_flatMap.symm

theorem utf8ByteSize_of_ascii {s : String} (h : isAscii s = true) : s.utf8ByteSize = s.toList.length := by
  rw [← length_utf8, ← String.ofList_toList (s := s), utf8_ofList_of_ascii (isAscii_iff.mp h),
    List.length_map]
  rw [String.toList_ofList]

theorem notMem_return_of_visible {s : String} (h : (utf8 s).all isVisibleAscii = true) :
    '\r' ∉ s.toList := by
  intro hc
  have hbytes : utf8 s = s.toList.flatMap String.utf8EncodeChar := by
    rw [← String.ofList_toList (s := s), utf8, String.toByteArray_ofList, List.utf8Encode,
      List.data_toByteArray, String.toList_ofList]
  have hbyte : (13 : UInt8) ∈ utf8 s := by
    rw [hbytes, List.mem_flatMap]
    exact ⟨'\r', hc, by decide⟩
  exact absurd (List.all_eq_true.mp h 13 hbyte) (by decide)

theorem dropWhile_eq_self {p : Char → Bool} {cs : List Char} (h : ∀ c ∈ cs, p c = false) :
    cs.dropWhile p = cs := by
  cases cs with
  | nil => rfl
  | cons c cs => simp [h c List.mem_cons_self]

theorem trim_eq_self {s : String} (h : ∀ c ∈ s.toList, isWhitespace c = false) : trim s = s := by
  have hrev : ∀ c ∈ s.toList.reverse, isWhitespace c = false := fun c hc => h c (List.mem_reverse.mp hc)
  rw [trim, dropWhile_eq_self h, dropWhile_eq_self hrev, List.reverse_reverse, String.ofList_toList]

theorem mem_of_mem_trim {s : String} {c : Char} (h : c ∈ (trim s).toList) : c ∈ s.toList := by
  rw [trim, String.toList_ofList, List.mem_reverse] at h
  have hfront := List.mem_reverse.mp ((List.dropWhile_sublist _).subset h)
  exact (List.dropWhile_sublist _).subset hfront

theorem trim_trim (s : String) : trim (trim s) = trim s := by
  have hdrop : ((s.toList.dropWhile isWhitespace).rdropWhile isWhitespace).dropWhile isWhitespace =
      (s.toList.dropWhile isWhitespace).rdropWhile isWhitespace := by
    rw [List.dropWhile_eq_self_iff]
    intro hpos
    -- what is left at the end starts as what is left at the front
    have hstart := List.rdropWhile_prefix isWhitespace (s.toList.dropWhile isWhitespace)
    rw [hstart.getElem hpos]
    exact List.dropWhile_get_zero_not _ _ (Nat.lt_of_lt_of_le hpos hstart.length_le)
  have hlist : (trim s).toList = (s.toList.dropWhile isWhitespace).rdropWhile isWhitespace :=
    String.toList_ofList
  rw [trim, hlist, hdrop]
  exact congrArg String.ofList (List.rdropWhile_idempotent _ _)

theorem toAsciiLowercase_eq_self {s : String} (h : ∀ c ∈ s.toList, c.toLower = c) :
    toAsciiLowercase s = s := by
  rw [toAsciiLowercase, List.map_congr_left h, List.map_id', String.ofList_toList]

theorem toLower_cases (c : Char) :
    (¬ (65 ≤ c.toNat ∧ c.toNat ≤ 90) ∧ c.toLower = c) ∨
      (65 ≤ c.toNat ∧ c.toNat ≤ 90 ∧ c.toLower.toNat = c.toNat + 32) := by
  by_cases h : c.val ≥ 'A'.val ∧ c.val ≤ 'Z'.val
  · refine .inr ⟨UInt32.le_iff_toNat_le.mp h.1, UInt32.le_iff_toNat_le.mp h.2, ?_⟩
    have hle : c.toNat ≤ 90 := UInt32.le_iff_toNat_le.mp h.2
    have hshift : c.toLower.toNat = (c.val + ('a'.val - 'A'.val)).toNat := congrArg Char.toNat (dif_pos h)
    rw [hshift, UInt32.toNat_add]
    exact Nat.mod_eq_of_lt (by simp; omega)
  · refine .inl ⟨fun hc => h ⟨UInt32.le_iff_toNat_le.mpr hc.1, UInt32.le_iff_toNat_le.mpr hc.2⟩, ?_⟩
    exact dif_neg h

theorem toLower_toLower (c : Char) : c.toLower.toLower = c.toLower := by
  obtain ⟨-, h⟩ | ⟨hlo, hhi, h⟩ := toLower_cases c
  · rw [h, h]
  · obtain ⟨-, h'⟩ | ⟨-, hhi', -⟩ := toLower_cases c.toLower
    · exact h'
    · omega

theorem isWhitespace_toLower (c : Char) : isWhitespace c.toLower = isWhitespace c := by
  obtain ⟨-, h⟩ | ⟨hlo, hhi, h⟩ := toLower_cases c
  · rw [h]
  · have hblank (d : Char) (hd : 65 ≤ d.toNat) (hd' : d.toNat ≤ 122) : isWhitespace d = false := by
      simp [isWhitespace]
      omega
    rw [hblank c hlo (by omega), hblank c.toLower (by omega) (by omega)]

theorem trim_toAsciiLowercase (s : String) : trim (toAsciiLowercase s) = toAsciiLowercase (trim s) := by
  have hlower : isWhitespace ∘ Char.toLower = isWhitespace := funext isWhitespace_toLower
  simp only [trim, toAsciiLowercase, String.toList_ofList, List.dropWhile_map, hlower, ← List.map_reverse]

theorem toAsciiLowercase_idem (s : String) :
    toAsciiLowercase (toAsciiLowercase s) = toAsciiLowercase s := by
  apply toAsciiLowercase_eq_self
  intro c hc
  rw [toAsciiLowercase, String.toList_ofList] at hc
  obtain ⟨d, -, rfl⟩ := List.mem_map.mp hc
  exact toLower_toLower d

end TriNet.CallApi
