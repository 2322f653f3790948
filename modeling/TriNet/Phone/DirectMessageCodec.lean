import TriNet.CallApi.DirectMessages
import TriNet.Phone.DirectMessage

namespace TriNet.Phone.InternetDirectMessageCrypto

open CallApi Lib Lib.BigEndian Lib.Reading

variable {F : Foundation}

section Payload

def readField : Reader Bytes := do take (← uint 4)

theorem reads_readField {v : Bytes} (h : v.length < 2 ^ 32) : Reads readField v (appendLengthPrefixed v) :=
  (reads_uint (by simpa using h)).bind (reads_take rfl)

theorem appendLengthPrefixed_inj {v w rest rest' : Bytes} (hv : v.length < 2 ^ 32) (hw : w.length < 2 ^ 32)
    (h : appendLengthPrefixed v ++ rest = appendLengthPrefixed w ++ rest') : v = w ∧ rest = rest' := by
  have heq := (reads_readField hv rest).symm.trans
    ((congrArg readField h).trans (reads_readField hw rest'))
  exact ⟨congrArg Prod.fst (Option.some.inj heq), congrArg Prod.snd (Option.some.inj heq)⟩

theorem flatMap_appendLengthPrefixed_inj {vs ws : List Bytes} (hlen : vs.length = ws.length)
    (hv : ∀ v ∈ vs, v.length < 2 ^ 32) (hw : ∀ w ∈ ws, w.length < 2 ^ 32)
    (h : vs.flatMap appendLengthPrefixed = ws.flatMap appendLengthPrefixed) : vs = ws := by
  induction vs generalizing ws with
  | nil => exact (List.length_eq_zero_iff.mp hlen.symm).symm
  | cons v vs ih =>
      cases ws with
      | nil => cases hlen
      | cons w ws =>
          rw [List.flatMap_cons, List.flatMap_cons] at h
          obtain ⟨hhead, htail⟩ :=
            appendLengthPrefixed_inj (hv v List.mem_cons_self) (hw w List.mem_cons_self) h
          rw [hhead, ih (Nat.succ.inj hlen) (fun x hx => hv x (List.mem_cons_of_mem v hx))
            (fun x hx => hw x (List.mem_cons_of_mem w hx)) htail]

def FieldsFit (c : MessageContext) (ciphertext : Bytes) (version : UInt8) : Prop :=
  ∀ field ∈ signatureFields c ciphertext version, field.length < 2 ^ 32

theorem senderSignaturePayload_eq {c : MessageContext} {ciphertext : Bytes} {version : UInt8}
    (h : FieldsFit c ciphertext version) :
    senderSignaturePayload c ciphertext version =
      directMessageSignaturePayload c.senderUserID c.senderDeviceID c.recipientNickname
        version c.recipientDeviceID
        c.recipientKeyFingerprint c.clientMessageID c.ephemeralPublicKey c.nonce ciphertext := by
  have hprefix : ∀ field ∈ signatureFields c ciphertext version,
      appendLengthPrefixed field = lengthPrefixed field := by
    intro field hfield
    have hle : field.length ≤ 2 ^ 32 - 1 := Nat.le_pred_of_lt (h field hfield)
    rw [lengthPrefixed, Nat.min_eq_left hle, appendLengthPrefixed]
  exact congrArg (signatureDomain ++ ·) (List.flatMap_congr hprefix)

theorem senderSignaturePayload_inj {c c' : MessageContext} {ciphertext ciphertext' : Bytes}
    {version version' : UInt8}
    (hc : FieldsFit c ciphertext version) (hc' : FieldsFit c' ciphertext' version')
    (h : senderSignaturePayload c ciphertext version = senderSignaturePayload c' ciphertext' version') :
    c = c' ∧ ciphertext = ciphertext' ∧ version = version' := by
  have hlen : (signatureFields c ciphertext version).length =
      (signatureFields c' ciphertext' version').length := rfl
  have hfields := flatMap_appendLengthPrefixed_inj hlen hc hc' (List.append_cancel_left h)
  simp only [signatureFields, List.cons.injEq, and_true] at hfields
  obtain ⟨huser, hdevice, hnickname, hversion, hrecipient, hfingerprint, hmessage, hkey,
      hnonce, htext⟩ := hfields
  refine ⟨?_, htext, hversion⟩
  cases c
  cases c'
  simp only [MessageContext.mk.injEq]
  exact ⟨utf8_inj huser, utf8_inj hdevice, utf8_inj hnickname, utf8_inj hrecipient,
    utf8_inj hfingerprint, utf8_inj hmessage, hkey, hnonce⟩

end Payload

section Identifiers

structure IsMessageID (id : String) : Prop where
  valid : uuidIsValid id = true
  lower : ∀ c ∈ id.toList, c.toLower = c

theorem IsMessageID.graphic {id : String} (h : IsMessageID id) : IsGraphic id :=
  isGraphic_of_forall_mem (by decide +kernel) (fun _ hc => mem_uuid h.valid hc)

theorem IsMessageID.length {id : String} (h : IsMessageID id) :
    id.toList.length = 36 := (uuidIsValid_iff.mp h.valid).1

theorem uuidIsValid_map {s : String} {f : Char → Char} (h : uuidIsValid s = true)
    (hhyphen : f '-' = '-') (hdigit : ∀ c ∈ hexadecimal, isAsciiHexdigit (f c) = true) :
    uuidIsValid (String.ofList (s.toList.map f)) = true := by
  obtain ⟨hlen, hchars⟩ := uuidIsValid_iff.mp h
  rw [uuidIsValid_iff, String.toList_ofList, List.length_map]
  refine ⟨hlen, fun i c hget => ?_⟩
  rw [List.getElem?_map, Option.map_eq_some_iff] at hget
  obtain ⟨d, hd, rfl⟩ := hget
  have hchar := hchars i d hd
  split at hchar
  · rw [eq_of_beq hchar, hhyphen, if_pos ‹_›]
    rfl
  · rw [if_neg ‹_›]
    exact hdigit d (mem_hexadecimal hchar)

theorem lowercased_toAsciiUppercase {s : String} (h : uuidIsValid s = true) :
    F.lowercased (toAsciiUppercase s) = String.ofList (s.toList.map (Char.toLower ∘ Char.toUpper)) := by
  have hascii : isAscii (toAsciiUppercase s) = true := by
    rw [isAscii_iff, toAsciiUppercase, String.toList_ofList]
    intro c hc
    obtain ⟨d, hd, rfl⟩ := List.mem_map.mp hc
    have hall : ∀ d ∈ '-' :: hexadecimal, d.toUpper.toNat < 128 := forall_mem_of_all (by decide +kernel)
    exact hall d (mem_uuid h hd)
  rw [F.lowercased_ascii _ hascii, toAsciiLowercase, toAsciiUppercase, String.toList_ofList, List.map_map]

theorem isMessageID_of_normalizedUUID {value id : String} (h : normalizedUUID F value = some id) :
    IsMessageID id := by
  rw [normalizedUUID] at h
  split at h
  · next hvalid =>
      rw [lowercased_toAsciiUppercase hvalid] at h
      obtain rfl := Option.some.inj h
      refine ⟨uuidIsValid_map hvalid (by decide) (forall_mem_of_all (by decide +kernel)), ?_⟩
      intro c hc
      rw [String.toList_ofList] at hc
      obtain ⟨d, -, rfl⟩ := List.mem_map.mp hc
      exact toLower_toLower d.toUpper
  · cases h

theorem IsMessageID.normalizedUUID_eq {id : String} (h : IsMessageID id) :
    normalizedUUID F id = some id := by
  have hall : ∀ c ∈ '-' :: hexadecimal, c.toLower = c → (Char.toLower ∘ Char.toUpper) c = c :=
    forall_mem_of_all (by decide +kernel)
  have hmap : id.toList.map (Char.toLower ∘ Char.toUpper) = id.toList := by
    rw [List.map_congr_left (fun c hc => hall c (mem_uuid h.valid hc) (h.lower c hc)), List.map_id']
  rw [normalizedUUID, h.graphic.trim_eq, if_pos h.valid, lowercased_toAsciiUppercase h.valid, hmap,
    String.ofList_toList]

structure IsFingerprint (s : String) : Prop where
  hex : ∀ c ∈ s.toList, c ∈ lowerHex
  length : s.toList.length = 24

theorem IsFingerprint.graphic {s : String} (h : IsFingerprint s) : IsGraphic s :=
  isGraphic_of_forall_mem (by decide +kernel) h.hex

theorem IsFingerprint.lower {s : String} (h : IsFingerprint s) : ∀ c ∈ s.toList, c.toLower = c := by
  have hall : ∀ c ∈ lowerHex, c.toLower = c := forall_mem_of_all (by decide +kernel)
  exact fun c hc => hall c (h.hex c hc)

theorem IsFingerprint.normalizedFingerprint_eq {s : String} (h : IsFingerprint s) :
    normalizedFingerprint F s = some s := by
  have hall : ∀ c ∈ lowerHex, (c.isDigit || ('a' ≤ c && c ≤ 'f')) = true :=
    forall_mem_of_all (by decide +kernel)
  rw [normalizedFingerprint, h.graphic.trim_eq, Foundation.lowercased_of_graphic h.graphic h.lower]
  apply if_pos
  rw [Bool.and_eq_true, decide_eq_true_eq, List.all_eq_true]
  exact ⟨(Foundation.count_of_graphic h.graphic).trans h.length, fun c hc => hall c (h.hex c hc)⟩

theorem isFingerprint_digest (data : Bytes) : IsFingerprint (F.digest data) := by
  refine ⟨fun c hc => mem_lowercaseHex hc, ?_⟩
  rw [Foundation.digest, length_lowercaseHex, List.length_take, (F.sha256 data).2]
  rfl

theorem validIdentifier_spec {s : String} (h : validIdentifier F s = true) :
    s.isEmpty = false ∧ isAscii s = true ∧ trim s = s ∧ s.utf8ByteSize ≤ 256 := by
  simp only [validIdentifier, Bool.and_eq_true, decide_eq_true_eq, Bool.not_eq_true', beq_iff_eq] at h
  obtain ⟨⟨⟨hempty, hcount⟩, hascii⟩, htrim⟩ := h
  refine ⟨hempty, hascii, htrim.symm, ?_⟩
  -- a character of ASCII text is one byte or two
  rw [F.count_ascii s hascii] at hcount
  rw [utf8ByteSize_of_ascii hascii]
  have hlen := length_le_two_mul_asciiCount s.toList
  omega

end Identifiers

section Plaintext

theorem reads_readString {s : String} (h : (utf8 s).length ≤ maximumPlaintextBytes) :
    Reads readString s (appendLengthPrefixed (utf8 s)) := by
  have hlen : (utf8 s).length < 256 ^ 4 := Nat.lt_of_le_of_lt h (by decide)
  apply (reads_uint hlen).bind
  apply (reads_require (decide_eq_true h)).bind
  apply (reads_take rfl).bind_nil
  exact reads_lift (decodeUtf8_utf8 s)

theorem reads_readInt64 (v : Int64) : Reads readInt64 v (appendInt64 v) := by
  have hlt : v.toUInt64.toNat < 256 ^ 8 := v.toUInt64.toNat_lt
  apply (reads_uint hlt).bind_nil
  rw [UInt64.ofNat_toNat, Int64.toInt64_toUInt64]
  exact reads_pure v

structure Normalized (F : Foundation) (p : InternetDirectMessagePlaintext) : Prop where
  clientMessageID : IsMessageID p.clientMessageID
  senderNickname : IsNickname p.senderNickname
  recipientNickname : IsNickname p.recipientNickname
  senderError : F.validationError p.senderNickname = none
  recipientError : F.validationError p.recipientNickname = none
  senderFixed : F.normalize p.senderNickname = p.senderNickname
  recipientFixed : F.normalize p.recipientNickname = p.recipientNickname
  textNonempty : p.text.isEmpty = false
  textBytes : (utf8 p.text).length ≤ maximumTextBytes
  createdAt : 0 < p.createdAtMilliseconds

theorem normalized_of_validatedPlaintext {p n : InternetDirectMessagePlaintext} {requireCanonical : Bool}
    (h : validatedPlaintext F p requireCanonical = .ok n) : Normalized F n := by
  simp only [validatedPlaintext, bind_eq_ok, unwrap_eq_ok, ensure_eq_ok, Bool.and_eq_true,
    Option.isNone_iff_eq_none, Bool.not_eq_true', decide_eq_true_eq] at h
  obtain ⟨id, hid, _, ⟨hsender, hrecipient⟩, _, -, _, ⟨hempty, hbytes⟩, _, hcreated, hn⟩ := h
  cases hn
  exact
    { clientMessageID := isMessageID_of_normalizedUUID hid
      senderNickname := Foundation.isNickname_normalize hsender
      recipientNickname := Foundation.isNickname_normalize hrecipient
      senderError := hsender
      recipientError := hrecipient
      senderFixed := Foundation.normalize_normalize _
      recipientFixed := Foundation.normalize_normalize _
      textNonempty := hempty
      textBytes := hbytes
      createdAt := hcreated }

namespace Normalized

variable {p : InternetDirectMessagePlaintext}

theorem validatedPlaintext_eq (h : Normalized F p) : validatedPlaintext F p true = .ok p := by
  simp only [validatedPlaintext, h.clientMessageID.normalizedUUID_eq, h.senderFixed,
    h.recipientFixed, h.senderError,
    h.recipientError, h.textNonempty, h.textBytes, h.createdAt, unwrap_some, ok_bind,
    Option.isNone_none, bne_self_eq_false,
    Bool.or_self, Bool.and_false, Bool.not_false, Bool.and_self, decide_true, ensure_true]
  rfl

theorem length_clientMessageID (h : Normalized F p) : (utf8 p.clientMessageID).length = 36 := by
  rw [length_utf8, h.clientMessageID.graphic.utf8ByteSize_eq, h.clientMessageID.length]

theorem length_nickname {s : String} (h : IsNickname s) : (utf8 s).length ≤ 20 := by
  rw [length_utf8, h.graphic.utf8ByteSize_eq]
  exact h.length

theorem length_plaintextBody (h : Normalized F p) : (plaintextBody p).length ≤ 3974 := by
  have hid := h.length_clientMessageID
  have hsender := length_nickname h.senderNickname
  have hrecipient := length_nickname h.recipientNickname
  have htext : (utf8 p.text).length ≤ 3840 := h.textBytes
  have hdomain : plaintextDomain.length = 34 := by decide +kernel
  simp only [plaintextBody, appendLengthPrefixed, appendInt64, List.length_append, beBytes_length]
  omega

theorem reads_readPlaintext (h : Normalized F p) :
    Reads readPlaintext p
      (appendLengthPrefixed (utf8 p.clientMessageID) ++ (appendLengthPrefixed (utf8 p.senderNickname) ++
        (appendLengthPrefixed (utf8 p.recipientNickname) ++ (appendLengthPrefixed (utf8 p.text) ++
          appendInt64 p.createdAtMilliseconds)))) := by
  have hsender := length_nickname h.senderNickname
  have hrecipient := length_nickname h.recipientNickname
  apply (reads_readString (Nat.le_trans (Nat.le_of_eq h.length_clientMessageID) (by decide))).bind
  apply (reads_readString (Nat.le_trans hsender (by decide))).bind
  apply (reads_readString (Nat.le_trans hrecipient (by decide))).bind
  apply (reads_readString (Nat.le_trans h.textBytes (by decide))).bind
  apply (reads_readInt64 p.createdAtMilliseconds).bind_nil
  exact reads_pure p

theorem decodePlaintext_eq (h : Normalized F p) : decodePlaintext F (plaintextBody p) = .ok p := by
  have hlen : (plaintextBody p).length ≤ maximumPlaintextBytes :=
    Nat.le_trans h.length_plaintextBody (by decide)
  have hbody : plaintextBody p = plaintextDomain ++ (appendLengthPrefixed (utf8 p.clientMessageID) ++
      (appendLengthPrefixed (utf8 p.senderNickname) ++ (appendLengthPrefixed (utf8 p.recipientNickname) ++
        (appendLengthPrefixed (utf8 p.text) ++ appendInt64 p.createdAtMilliseconds)))) := by
    simp only [plaintextBody, List.append_assoc]
  have hstart : plaintextDomain.isPrefixOf (plaintextBody p) = true := by
    rw [hbody, List.isPrefixOf_iff_prefix]
    exact List.prefix_append _ _
  have hread := h.reads_readPlaintext []
  rw [List.append_nil] at hread
  rw [decodePlaintext, hstart, decide_eq_true hlen, hbody, List.drop_left, hread]
  simp only [Bool.and_self, ensure_true, ok_bind, unwrap_some, List.isEmpty_nil, h.validatedPlaintext_eq]
  rfl

end Normalized

end Plaintext

end TriNet.Phone.InternetDirectMessageCrypto
