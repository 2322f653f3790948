import TriNet.Lib.Slices
import TriNet.Routing.EtxTable
import TriNet.Lib.BigEndian

namespace TriNet.Routing

open Lib.BigEndian Lib.Slices

abbrev Mac := { bytes : Bytes // bytes.length = 16 }

abbrev MacKey := { bytes : Bytes // bytes.length = 32 }

/-- An AEAD whose ciphertexts are a tag longer than their plaintexts. -/
structure TagCipher where
  encrypt : (key : MacKey) → (nonce aad msg : Bytes) → Bytes
  length_encrypt : ∀ key nonce aad msg, (encrypt key nonce aad msg).length = msg.length + 16

def TagCipher.zeroTag : TagCipher where
  encrypt _ _ _ msg := msg ++ List.replicate 16 0
  length_encrypt _ _ _ msg := by rw [List.length_append, List.length_replicate]

def helloMacKey : MacKey :=
  ⟨[0x74, 0x72, 0x69, 0x6f, 0x73, 0x2d, 0x6d, 0x65, 0x73, 0x68, 0x2d, 0x68, 0x65, 0x6c, 0x6c, 0x6f,
    0x2d, 0x6d, 0x61, 0x63, 0x2d, 0x6b, 0x65, 0x79, 0x2d, 0x76, 0x31, 0x00, 0x00, 0x00, 0x00, 0x00], rfl⟩

structure Hello where
  src : NodeId
  seq : UInt32
  ts : UInt64
  heard : List NodeId
  mac : Mac
  deriving DecidableEq

namespace Hello

def u32FromBeBytes (bs : Bytes) : UInt32 := UInt32.ofNat (ofBe bs)

def u64FromBeBytes (bs : Bytes) : UInt64 := UInt64.ofNat (ofBe bs)

/-- What `compute_mac` authenticates. -/
def macInput (src : NodeId) (seq : UInt32) (ts : UInt64) (heard : List NodeId) : Bytes :=
  let n := min heard.length 255
  beBytes 4 src.toNat ++ beBytes 4 seq.toNat ++ beBytes 8 ts.toNat ++
    (heard.take n).flatMap (fun id => beBytes 4 id.toNat)

def computeMac (A : TagCipher) (src : NodeId) (seq : UInt32) (ts : UInt64) (heard : List NodeId)
    (macKey : Option MacKey) : Mac :=
  let keyBytes := macKey.getD helloMacKey
  let ct := A.encrypt keyBytes (List.replicate 12 0) (macInput src seq ts heard) []
  ⟨ct.take 16, by rw [List.length_take, A.length_encrypt, List.length_nil]; rfl⟩

def verifyMac (A : TagCipher) (h : Hello) (macKey : Option MacKey) : Bool :=
  h.mac = computeMac A h.src h.seq h.ts h.heard macKey

def toBytes (h : Hello) : Bytes :=
  let n := min h.heard.length 255
  beBytes 4 h.src.toNat ++ beBytes 4 h.seq.toNat ++ beBytes 8 h.ts.toNat ++ [UInt8.ofNat n] ++
    (h.heard.take n).flatMap (fun id => beBytes 4 id.toNat) ++ h.mac.1

def parse (b : Bytes) : Option Hello :=
  if b.length < 17 then none
  else
    let src := u32FromBeBytes (slice b 0 4)
    let seq := u32FromBeBytes (slice b 4 8)
    let ts := u64FromBeBytes (slice b 8 16)
    let n := (b.getD 16 0).toNat
    if b.length < 17 + n * 4 then none
    else
      let heard := (List.range n).map (fun i => u32FromBeBytes (slice b (17 + i * 4) (17 + i * 4 + 4)))
      let macOff := 17 + n * 4
      if h : b.length < macOff + 16 then none
      else
        let mac := ⟨slice b macOff (macOff + 16), by rw [length_slice (Nat.not_lt.mp h),
          Nat.add_sub_cancel_left]⟩
        some ⟨src, seq, ts, heard, mac⟩

def cut (h : Hello) : Hello := { h with heard := h.heard.take 255 }

section Words

theorem u32FromBeBytes_beBytes (x : UInt32) : u32FromBeBytes (beBytes 4 x.toNat) = x := by
  rw [u32FromBeBytes, uint32_ofBe_beBytes]

theorem beBytes_u32FromBeBytes {bs : Bytes} (h : bs.length = 4) :
    beBytes 4 (u32FromBeBytes bs).toNat = bs := by
  have hlt := ofBe_lt bs
  rw [h] at hlt
  rw [u32FromBeBytes, UInt32.toNat_ofNat_of_lt' hlt, ← h, beBytes_ofBe]

theorem u64FromBeBytes_beBytes (x : UInt64) : u64FromBeBytes (beBytes 8 x.toNat) = x := by
  rw [u64FromBeBytes, uint64_ofBe_beBytes]

theorem beBytes_u64FromBeBytes {bs : Bytes} (h : bs.length = 8) :
    beBytes 8 (u64FromBeBytes bs).toNat = bs := by
  have hlt := ofBe_lt bs
  rw [h] at hlt
  rw [u64FromBeBytes, UInt64.toNat_ofNat_of_lt' hlt, ← h, beBytes_ofBe]

end Words

def idBytes (ids : List NodeId) : Bytes := ids.flatMap (fun id => beBytes 4 id.toNat)

theorem length_idBytes (ids : List NodeId) : (idBytes ids).length = ids.length * 4 := by
  rw [idBytes, List.length_flatMap, List.map_congr_left (fun id _ => beBytes_length 4 id.toNat),
    List.map_const', List.sum_replicate_nat]

theorem cut_heard_length (h : Hello) : h.cut.heard.length ≤ 255 := List.length_take_le ..

theorem toBytes_eq (h : Hello) :
    h.toBytes = beBytes 4 h.src.toNat ++ (beBytes 4 h.seq.toNat ++ (beBytes 8 h.ts.toNat ++
      ([UInt8.ofNat h.cut.heard.length] ++ (idBytes h.cut.heard ++ h.mac.1)))) := by
  have hcut : h.heard.take (min h.heard.length 255) = h.cut.heard := by
    rw [Nat.min_comm, ← List.take_eq_take_min]
    rfl
  have hlen : min h.heard.length 255 = h.cut.heard.length := by
    rw [← hcut, List.length_take, Nat.min_eq_left (Nat.min_le_left _ _)]
  rw [toBytes, hcut, hlen, ← idBytes]
  simp only [List.append_assoc]

theorem length_toBytes (h : Hello) : h.toBytes.length = 17 + h.cut.heard.length * 4 + 16 := by
  simp only [toBytes_eq, List.length_append, beBytes_length, List.length_singleton,
    length_idBytes, h.mac.2]
  omega

theorem parse_toBytes_append (h : Hello) (rest : Bytes) : parse (h.toBytes ++ rest) = some h.cut := by
  have hlen := h.length_toBytes
  have hids := h.cut_heard_length
  generalize hb : h.toBytes ++ rest = b
  have hblen : b.length = 17 + h.cut.heard.length * 4 + 16 + rest.length := by
    rw [← hb, List.length_append, hlen]
  rw [toBytes_eq] at hb
  simp only [List.append_assoc] at hb
  have hsrc : slice b 0 4 = beBytes 4 h.src.toNat := slice_middle [] hb.symm rfl rfl
  have hseq : slice b 4 8 = beBytes 4 h.seq.toNat := slice_middle _ hb.symm (beBytes_length ..) rfl
  rw [← List.append_assoc] at hb
  have hts : slice b 8 16 = beBytes 8 h.ts.toNat := slice_middle _ hb.symm rfl rfl
  rw [← List.append_assoc] at hb
  have hn : (b.getD 16 0).toNat = h.cut.heard.length := by
    have hbyte : b.getD 16 0 = UInt8.ofNat h.cut.heard.length := by
      rw [← hb, List.getD_eq_getElem?_getD, List.getElem?_append_right (by simp)]
      simp
    rw [hbyte, UInt8.toNat_ofNat_of_lt' (Nat.lt_succ_of_le hids)]
  rw [← List.append_assoc] at hb
  have hheard : (List.range h.cut.heard.length).map (fun i => slice b (17 + i * 4) (17 + i * 4 + 4)) =
      h.cut.heard.map (fun id => beBytes 4 id.toNat) := by
    rw [← hb]
    exact map_slice_flatMap (fun id => beBytes_length 4 id.toNat) h.cut.heard rfl
  rw [← List.append_assoc] at hb
  have hmac : slice b (17 + h.cut.heard.length * 4) (17 + h.cut.heard.length * 4 + 16) = h.mac.1 := by
    apply slice_middle _ hb.symm
    · simp only [List.length_append, beBytes_length, List.length_singleton, length_idBytes]
    · rw [h.mac.2]
  have hmap : (List.range h.cut.heard.length).map
      (fun i => u32FromBeBytes (slice b (17 + i * 4) (17 + i * 4 + 4))) = h.cut.heard := by
    have hdecoded := congrArg (List.map u32FromBeBytes) hheard
    rw [List.map_map, List.map_map] at hdecoded
    exact hdecoded.trans
      ((List.map_congr_left (fun id _ => u32FromBeBytes_beBytes id)).trans (List.map_id' _))
  have hshort : ¬ b.length < 17 := by omega
  have hlist : ¬ b.length < 17 + h.cut.heard.length * 4 := by omega
  have htag : ¬ b.length < 17 + h.cut.heard.length * 4 + 16 := by omega
  simp only [parse, if_neg hshort, hn, if_neg hlist, dif_neg htag, hsrc, hseq, hts, hmap, hmac,
    u32FromBeBytes_beBytes, u64FromBeBytes_beBytes]
  rfl

theorem parse_spec {b : Bytes} {g : Hello} (h : parse b = some g) :
    ∃ n, (b.getD 16 0).toNat = n ∧ 17 + n * 4 + 16 ≤ b.length ∧
      (g.src = u32FromBeBytes (slice b 0 4) ∧ g.seq = u32FromBeBytes (slice b 4 8) ∧
        g.ts = u64FromBeBytes (slice b 8 16)) ∧
      g.heard = (List.range n).map (fun i => u32FromBeBytes (slice b (17 + i * 4) (17 + i * 4 + 4))) ∧
      g.mac.1 = slice b (17 + n * 4) (17 + n * 4 + 16) := by
  rw [parse] at h
  split at h
  · cases h
  · dsimp only at h
    split at h
    · cases h
    · split at h
      · cases h
      · next htag =>
          cases h
          exact ⟨_, rfl, Nat.not_lt.mp htag, ⟨rfl, rfl, rfl⟩, rfl, rfl⟩

theorem parse_heard_length {b : Bytes} {g : Hello} (h : parse b = some g) : g.heard.length ≤ 255 := by
  obtain ⟨n, hn, _, _, hheard, _⟩ := parse_spec h
  rw [hheard, List.length_map, List.length_range, ← hn]
  exact Nat.le_of_lt_succ (b.getD 16 0).toNat_lt

theorem cut_eq_self {h : Hello} (hheard : h.heard.length ≤ 255) : h.cut = h := by
  rw [cut, List.take_of_length_le hheard]

theorem toBytes_prefix_of_parse {b : Bytes} {g : Hello} (h : parse b = some g) : g.toBytes <+: b := by
  have hcut := cut_eq_self (parse_heard_length h)
  obtain ⟨n, hn, hlen, ⟨hsrc, hseq, hts⟩, hheard, hmac⟩ := parse_spec h
  have hids : idBytes g.heard = slice b 17 (17 + n * 4) := by
    rw [← flatten_map_slice, hheard, idBytes, List.flatMap_map, List.flatMap_def]
    congr 1
    apply List.map_congr_left
    intro i hi
    have hi := List.mem_range.mp hi
    exact beBytes_u32FromBeBytes (by rw [length_slice (by omega)]; omega)
  have hcount : [UInt8.ofNat g.heard.length] = slice b 16 17 := by
    have h16 : 16 < b.length := by omega
    rw [slice_single h16, hheard, List.length_map, List.length_range, ← hn, UInt8.ofNat_toNat,
      List.getD_eq_getElem?_getD, List.getElem?_eq_getElem h16, Option.getD_some]
  rw [toBytes_eq, hcut, hids, hcount, hmac, hsrc, hseq, hts,
    beBytes_u32FromBeBytes (by rw [length_slice (by omega)]),
    beBytes_u32FromBeBytes (by rw [length_slice (by omega)]),
    beBytes_u64FromBeBytes (by rw [length_slice (by omega)]),
    slice_append_slice (by omega) (by omega), slice_append_slice (by omega) (by omega),
    slice_append_slice (by omega) (by omega), slice_append_slice (by omega) (by omega),
    slice_append_slice (by omega) (by omega), slice_zero]
  exact List.take_prefix _ b

theorem parse_of_proper_prefix {h : Hello} {b : Bytes} (hpre : b <+: h.toBytes)
    (hne : b ≠ h.toBytes) : parse b = none := by
  by_contra hsome
  obtain ⟨g, hg⟩ := Option.ne_none_iff_exists'.mp hsome
  obtain ⟨more, hmore⟩ := (toBytes_prefix_of_parse hg).trans hpre
  have hread := parse_toBytes_append g more
  have hself := parse_toBytes_append h []
  rw [List.append_nil, ← hmore, hread, cut_eq_self (parse_heard_length hg)] at hself
  have hbytes : g.toBytes = h.toBytes := by
    rw [Option.some.inj hself, toBytes_eq, toBytes_eq, cut_eq_self h.cut_heard_length]
    rfl
  have hle := (toBytes_prefix_of_parse hg).length_le
  rw [hbytes] at hle
  exact hne (hpre.eq_of_length_le hle)

theorem macInput_eq (src : NodeId) (seq : UInt32) (ts : UInt64) {heard : List NodeId}
    (h : heard.length ≤ 255) :
    macInput src seq ts heard =
      beBytes 4 src.toNat ++ (beBytes 4 seq.toNat ++ (beBytes 8 ts.toNat ++ idBytes heard)) := by
  simp only [macInput, Nat.min_eq_left h, List.take_length, List.append_assoc]
  rfl

theorem beBytes4_inj {x y : UInt32} (h : beBytes 4 x.toNat = beBytes 4 y.toNat) : x = y := by
  rw [← u32FromBeBytes_beBytes x, h, u32FromBeBytes_beBytes]

theorem idBytes_inj {ids ids' : List NodeId} (h : idBytes ids = idBytes ids') : ids = ids' := by
  induction ids generalizing ids' with
  | nil =>
      have hlen := congrArg List.length h
      rw [length_idBytes, length_idBytes] at hlen
      exact (List.length_eq_zero_iff.mp (by simpa using hlen.symm)).symm
  | cons id ids ih =>
      cases ids' with
      | nil =>
          have hlen := congrArg List.length h
          simp [length_idBytes] at hlen
      | cons id' ids' =>
          have hsplit : beBytes 4 id.toNat ++ idBytes ids = beBytes 4 id'.toNat ++ idBytes ids' := h
          obtain ⟨hhead, htail⟩ := List.append_inj hsplit (by simp)
          rw [beBytes4_inj hhead, ih htail]

/-- The list has no length in the input, but it is the last part of it. -/
theorem macInput_inj {src src' : NodeId} {seq seq' : UInt32} {ts ts' : UInt64}
    {heard heard' : List NodeId} (hheard : heard.length ≤ 255) (hheard' : heard'.length ≤ 255)
    (h : macInput src seq ts heard = macInput src' seq' ts' heard') :
    src = src' ∧ seq = seq' ∧ ts = ts' ∧ heard = heard' := by
  rw [macInput_eq _ _ _ hheard, macInput_eq _ _ _ hheard'] at h
  obtain ⟨hsrc, h⟩ := List.append_inj h (by simp)
  obtain ⟨hseq, h⟩ := List.append_inj h (by simp)
  obtain ⟨hts, h⟩ := List.append_inj h (by simp)
  refine ⟨beBytes4_inj hsrc, beBytes4_inj hseq, ?_, idBytes_inj h⟩
  rw [← u64FromBeBytes_beBytes ts, hts, u64FromBeBytes_beBytes]

theorem verifyMac_cut (A : TagCipher) (h : Hello) (macKey : Option MacKey) :
    h.cut.verifyMac A macKey = h.verifyMac A macKey := by
  have hinput : macInput h.src h.seq h.ts h.cut.heard = macInput h.src h.seq h.ts h.heard := by
    rw [macInput_eq _ _ _ h.cut_heard_length, macInput, Nat.min_comm, ← List.take_eq_take_min]
    simp only [List.append_assoc]
    rfl
  have hmac : computeMac A h.src h.seq h.ts h.cut.heard macKey =
      computeMac A h.src h.seq h.ts h.heard macKey := by
    simp only [computeMac, hinput]
  exact congrArg (fun mac => decide (h.mac = mac)) hmac

/-- Beacons on the air: what is read back from a beacon and what its MAC says of
it, that no part of one is read as another, and what the MAC binds. -/
theorem beacons_read_exactly (A : TagCipher) :
    (∀ h : Hello, ∃ h', parse h.toBytes = some h' ∧ h' = { h with heard := h.heard.take 255 } ∧
      ∀ k, h'.verifyMac A k = h.verifyMac A k) ∧
    (∀ (h : Hello) (b : Bytes), b <+: h.toBytes → b ≠ h.toBytes → parse b = none) ∧
    (∀ (b : Bytes) (g : Hello), parse b = some g → g.toBytes <+: b) ∧
    ∀ (b b' : Bytes) (g g' : Hello), parse b = some g → parse b' = some g' →
      macInput g.src g.seq g.ts g.heard = macInput g'.src g'.seq g'.ts g'.heard →
        g.src = g'.src ∧ g.seq = g'.seq ∧ g.ts = g'.ts ∧ g.heard = g'.heard := by
  refine ⟨fun h => ⟨h.cut, ?_, rfl, h.verifyMac_cut A⟩, fun h b => parse_of_proper_prefix,
    fun b g => toBytes_prefix_of_parse, ?_⟩
  · have hread := parse_toBytes_append h []
    rwa [List.append_nil] at hread
  · intro b b' g g' hg hg' hinput
    exact macInput_inj (parse_heard_length hg) (parse_heard_length hg') hinput

def crowded : Hello :=
  let ids := (List.range 300).map UInt32.ofNat
  ⟨1, 1, 0, ids, computeMac .zeroTag 1 1 0 ids none⟩

theorem beacons_read_exactly_crowded :
    crowded.heard.length = 300 ∧
      ∃ h, parse crowded.toBytes = some h ∧ h.heard.length = 255 ∧ h.verifyMac .zeroTag none = true := by
  have hlength : crowded.heard.length = 300 := by rw [crowded, List.length_map, List.length_range]
  obtain ⟨h, hread, hcut, hmac⟩ := (beacons_read_exactly .zeroTag).1 crowded
  refine ⟨hlength, h, hread, ?_, (hmac none).trans (decide_eq_true rfl)⟩
  rw [hcut, List.length_take, hlength]
  rfl

end Hello

end TriNet.Routing
