import TriNet.Lib.Checked
import TriNet.Lib.Slices
import TriNet.Lib.BigEndian

namespace TriNet.Phone.Stun

open Lib.BigEndian Lib.Slices

def magicCookie : Nat := 0x2112A442

def cookieBytes : Bytes := [0x21, 0x12, 0xA4, 0x42]

def attrXorMappedAddress : Nat := 0x0020

structure MappedAddress where
  ip : String
  port : UInt16
deriving DecidableEq, Repr

/-- `UInt16(b[i]) << 8 | UInt16(b[i + 1])`; `none` where an index is out of bounds. -/
def word (b : Bytes) (i : Nat) : Option Nat := do
  let high ← b[i]?
  let low ← b[i + 1]?
  return high.toNat <<< 8 ||| low.toNat

def longWord (b : Bytes) (i : Nat) : Option Nat := do
  let first ← b[i]?
  let second ← b[i + 1]?
  let third ← b[i + 2]?
  let fourth ← b[i + 3]?
  return first.toNat <<< 24 ||| second.toNat <<< 16 ||| third.toNat <<< 8 ||| fourth.toNat

/-- `Array(b[i ..< j])` -/
def range (b : Bytes) (i j : Nat) : Option Bytes :=
  if i ≤ j ∧ j ≤ b.length then some (slice b i j) else none

def unmask (v mask : Bytes) (n : Nat) : Option Bytes :=
  (List.range n).mapM (fun k => do return (← v[4 + k]?) ^^^ (← mask[k]?))

def radix16 (n : Nat) : String := String.ofList (Nat.toDigits 16 n)

def formatIPv6 (a : Bytes) : Option String := do
  let groups ← (List.range 8).mapM (fun g => word a (2 * g))
  return ":".intercalate (groups.map radix16)

def decodeXorMapped (v transactionID : Bytes) : Option (Option MappedAddress) :=
  if v.length < 8 then some none
  else do
    let family ← v[1]?
    let port := UInt16.ofNat ((← word v 2) ^^^ magicCookie >>> 16)
    if family = 0x01 then
      let a ← unmask v cookieBytes 4
      return some ⟨".".intercalate (a.map (fun octet => toString octet.toNat)), port⟩
    else if family = 0x02 then
      if v.length < 20 then return none
      else
        let mask := cookieBytes ++ transactionID
        if mask.length ≠ 16 then return none
        else
          let a ← unmask v mask 16
          return some ⟨← formatIPv6 a, port⟩
    else return none

/-- The attribute loop from `i` on. A run that used up its fuel would count as
one that reads out of bounds. -/
def walk (b transactionID : Bytes) (stop : Nat) : Nat → Nat → Option (Option MappedAddress)
  | 0, _ => none
  | fuel + 1, i =>
      if i + 4 ≤ stop then do
        let type ← word b i
        let len ← word b (i + 2)
        let valueStart := i + 4
        if valueStart + len ≤ b.length then
          if type = attrXorMappedAddress then
            decodeXorMapped (← range b valueStart (valueStart + len)) transactionID
          else walk b transactionID stop fuel (valueStart + len + ((4 - (len &&& 3)) &&& 3))
        else return none
      else return none

def parseBindingResponse (b transactionID : Bytes) : Option (Option MappedAddress) :=
  if b.length < 20 then some none
  else do
    let cookie ← longWord b 4
    if cookie ≠ magicCookie then return none
    else
      let msgLen ← word b 2
      if 20 + msgLen ≤ b.length then walk b transactionID (20 + msgLen) b.length 20 else return none

section Reads

variable {b r : Bytes} {i j n : Nat}

theorem shiftLeft_or_eq (x : Nat) {k y : Nat} (h : y < 2 ^ k) : x <<< k ||| y = x * 2 ^ k + y := by
  rw [← Nat.shiftLeft_add_eq_or_of_lt h, Nat.shiftLeft_eq]

theorem getElem?_of_drop {x : UInt8} {k : Nat} (h : (b.drop i)[k]? = some x) : b[i + k]? = some x := by
  rwa [List.getElem?_drop] at h

theorem word_of_drop {x y : UInt8} (h : b.drop i = x :: y :: r) : word b i = some (ofBe [x, y]) := by
  have hx : b[i]? = some x := getElem?_of_drop (k := 0) (by rw [h]; rfl)
  have hy : b[i + 1]? = some y := getElem?_of_drop (by rw [h]; rfl)
  have hlt : y.toNat < 2 ^ 8 := y.toNat_lt
  rw [word, hx, hy]
  simp only [Option.bind_eq_bind, Option.bind_some, Option.pure_def, shiftLeft_or_eq x.toNat hlt,
    ofBe, List.length_cons, List.length_nil, Option.some.injEq]
  omega

theorem longWord_of_drop {x y z w : UInt8} (h : b.drop i = x :: y :: z :: w :: r) :
    longWord b i = some (ofBe [x, y, z, w]) := by
  have hx : b[i]? = some x := getElem?_of_drop (k := 0) (by rw [h]; rfl)
  have hy : b[i + 1]? = some y := getElem?_of_drop (by rw [h]; rfl)
  have hz : b[i + 2]? = some z := getElem?_of_drop (by rw [h]; rfl)
  have hw : b[i + 3]? = some w := getElem?_of_drop (by rw [h]; rfl)
  have hylt := y.toNat_lt
  have hzlt := z.toNat_lt
  have hwlt := w.toNat_lt
  have hone : x.toNat <<< 24 ||| y.toNat <<< 16 = (x.toNat * 256 + y.toNat) <<< 16 := by
    rw [shiftLeft_or_eq _ (by rw [Nat.shiftLeft_eq]; omega), Nat.shiftLeft_eq, Nat.shiftLeft_eq]
    omega
  have htwo : (x.toNat * 256 + y.toNat) <<< 16 ||| z.toNat <<< 8 =
      ((x.toNat * 256 + y.toNat) * 256 + z.toNat) <<< 8 := by
    rw [shiftLeft_or_eq _ (by rw [Nat.shiftLeft_eq]; omega), Nat.shiftLeft_eq, Nat.shiftLeft_eq]
    omega
  rw [longWord, hx, hy, hz, hw]
  simp only [Option.bind_eq_bind, Option.bind_some, Option.pure_def, hone, htwo,
    shiftLeft_or_eq _ hwlt, ofBe, List.length_cons, List.length_nil, Option.some.injEq]
  omega

theorem exists_word (h : i + 2 ≤ b.length) :
    ∃ n, n < 65536 ∧ word b i = some n ∧ b.drop i = beBytes 2 n ++ b.drop (i + 2) := by
  have hfirst : b.drop i = b[i] :: b.drop (i + 1) := List.drop_eq_getElem_cons (by omega)
  have hsecond : b.drop (i + 1) = b[i + 1] :: b.drop (i + 2) := List.drop_eq_getElem_cons (by omega)
  rw [hsecond] at hfirst
  have hlt : ofBe [b[i], b[i + 1]] < 65536 := by simpa using ofBe_lt [b[i], b[i + 1]]
  refine ⟨ofBe [b[i], b[i + 1]], hlt, word_of_drop hfirst, ?_⟩
  have hbytes := beBytes_ofBe [b[i], b[i + 1]]
  rw [List.length_cons, List.length_cons, List.length_nil] at hbytes
  rw [hbytes, hfirst]
  rfl

theorem word_beBytes (hn : n < 65536) (h : b.drop i = beBytes 2 n ++ r) : word b i = some n := by
  have hvalue : ofBe (beBytes 2 n) = n := ofBe_beBytes_of_lt hn
  rw [← hvalue]
  exact word_of_drop h

theorem drop_add_of_drop {a c : Bytes} (h : b.drop i = a ++ c) (hj : i + a.length = j) : b.drop j = c := by
  rw [← hj, ← List.drop_drop, h, List.drop_left]

theorem range_of_drop {a c : Bytes} (h : b.drop i = a ++ c) (hi : i ≤ b.length) :
    range b i (i + a.length) = some a := by
  have hlen := congrArg List.length h
  rw [List.length_drop, List.length_append] at hlen
  rw [range, if_pos ⟨by omega, by omega⟩, slice, h, Nat.add_sub_cancel_left, List.take_left]

end Reads

/-- The values from which an address can be read: long enough for their family,
and for IPv6 a request id that completes the mask. -/
def Readable (v transactionID : Bytes) : Prop :=
  (8 ≤ v.length ∧ v[1]? = some 0x01) ∨ (20 ≤ v.length ∧ v[1]? = some 0x02 ∧ transactionID.length = 12)

section Decode

variable {v mask transactionID : Bytes} {n : Nat}

theorem unmask_eq (hv : 4 + n ≤ v.length) (hmask : n ≤ mask.length) :
    unmask v mask n = some (List.zipWith (· ^^^ ·) ((v.drop 4).take n) mask) := by
  have hreads : ∀ k ∈ List.range n,
      (do return (← v[4 + k]?) ^^^ (← mask[k]?) : Option UInt8) =
        some (v.getD (4 + k) 0 ^^^ mask.getD k 0) := by
    intro k hk
    have hk := List.mem_range.mp hk
    rw [List.getElem?_eq_getElem (show 4 + k < v.length by omega),
      List.getElem?_eq_getElem (show k < mask.length by omega), List.getD_eq_getElem?_getD,
      List.getD_eq_getElem?_getD, List.getElem?_eq_getElem (show 4 + k < v.length by omega),
      List.getElem?_eq_getElem (show k < mask.length by omega)]
    rfl
  rw [unmask, Lib.Checked.mapM_eq_map hreads]
  apply congrArg some
  apply List.ext_getElem
  · rw [List.length_map, List.length_range, List.length_zipWith, List.length_take, List.length_drop]
    omega
  · intro k hk hk'
    rw [List.length_map, List.length_range] at hk
    rw [List.getElem_map, List.getElem_range, List.getElem_zipWith, List.getElem_take,
      List.getElem_drop, List.getD_eq_getElem?_getD, List.getD_eq_getElem?_getD,
      List.getElem?_eq_getElem (show 4 + k < v.length by omega),
      List.getElem?_eq_getElem (show k < mask.length by omega), Option.getD_some, Option.getD_some]

theorem exists_formatIPv6 {a : Bytes} (h : a.length = 16) : ∃ ip, formatIPv6 a = some ip := by
  have hreads : ∀ g ∈ List.range 8, word a (2 * g) = some ((word a (2 * g)).getD 0) := by
    intro g hg
    have hg := List.mem_range.mp hg
    obtain ⟨n, -, hn, -⟩ := exists_word (show 2 * g + 2 ≤ a.length by omega)
    rw [hn, Option.getD_some]
  rw [formatIPv6, Lib.Checked.mapM_eq_map hreads]
  exact ⟨_, rfl⟩

theorem decodeXorMapped_of_readable (h : Readable v transactionID) :
    ∃ a, decodeXorMapped v transactionID = some (some a) := by
  have hlong : 8 ≤ v.length := by
    obtain h | h := h
    · exact h.1
    · omega
  obtain ⟨port, -, hport, -⟩ := exists_word (show 2 + 2 ≤ v.length by omega)
  rw [decodeXorMapped, if_neg (by omega), hport]
  obtain ⟨-, hfamily⟩ | ⟨hfull, hfamily, hid⟩ := h
  · rw [hfamily, unmask_eq (n := 4) (by omega) (by decide)]
    exact ⟨_, rfl⟩
  · have hmask : (cookieBytes ++ transactionID).length = 16 := by rw [List.length_append, hid]; rfl
    have hunmask : unmask v (cookieBytes ++ transactionID) 16 =
        some (List.zipWith (· ^^^ ·) ((v.drop 4).take 16) (cookieBytes ++ transactionID)) :=
      unmask_eq (by omega) (by omega)
    obtain ⟨ip, hip⟩ := exists_formatIPv6
      (show (List.zipWith (· ^^^ ·) ((v.drop 4).take 16) (cookieBytes ++ transactionID)).length = 16 by
        rw [List.length_zipWith, List.length_take, List.length_drop]
        omega)
    rw [hfamily]
    simp only [Option.bind_eq_bind, Option.bind_some, hunmask, hip, hmask, ne_eq,
      not_true_eq_false, if_false,
      if_neg (show ¬ v.length < 20 by omega), if_neg (show ¬ (0x02 : UInt8) = 0x01 by decide), if_true]
    exact ⟨_, rfl⟩

theorem decodeXorMapped_of_not_readable (h : ¬ Readable v transactionID) :
    decodeXorMapped v transactionID = some none := by
  rw [decodeXorMapped]
  by_cases hshort : v.length < 8
  · rw [if_pos hshort]
  · obtain ⟨port, -, hport, -⟩ := exists_word (show 2 + 2 ≤ v.length by omega)
    have hfamily : v[1]? = some v[1] := List.getElem?_eq_getElem (by omega)
    rw [if_neg hshort, hport, hfamily]
    simp only [Option.bind_eq_bind, Option.bind_some]
    rw [Readable, hfamily] at h
    have hfour : v[1] ≠ 0x01 := fun heq => h (Or.inl ⟨by omega, by rw [heq]⟩)
    rw [if_neg hfour]
    by_cases hsix : v[1] = 0x02
    · rw [if_pos hsix]
      by_cases hfull : v.length < 20
      · rw [if_pos hfull]
        rfl
      · have hid : (cookieBytes ++ transactionID).length ≠ 16 := by
          intro hlen
          rw [List.length_append, show cookieBytes.length = 4 from rfl] at hlen
          exact h (Or.inr ⟨by omega, by rw [hsix], by omega⟩)
        rw [if_neg hfull, if_pos hid]
        rfl
    · rw [if_neg hsix]
      rfl

end Decode

inductive Address where
  | v4 (octets : List UInt8) (length_eq : octets.length = 4)
  | v6 (groups : List UInt16) (length_eq : groups.length = 8)

namespace Address

def family : Address → UInt8
  | v4 .. => 0x01
  | v6 .. => 0x02

def bytes : Address → Bytes
  | v4 octets _ => octets
  | v6 groups _ => groups.flatMap (fun g => beBytes 2 g.toNat)

def text : Address → String
  | v4 octets _ => ".".intercalate (octets.map (fun octet => toString octet.toNat))
  | v6 groups _ => ":".intercalate (groups.map (fun g => radix16 g.toNat))

/-- The value of XOR-MAPPED-ADDRESS: the port and the address masked with the
cookie and the id of the request. -/
def xorMapped (address : Address) (reserved : UInt8) (port : UInt16) (transactionID : Bytes) : Bytes :=
  [reserved, address.family] ++ beBytes 2 (port.toNat ^^^ 0x2112) ++
    List.zipWith (· ^^^ ·) address.bytes (cookieBytes ++ transactionID)

end Address

section Mapped

open Address

theorem zipWith_xor_xor {xs mask : Bytes} (h : xs.length ≤ mask.length) (rest : Bytes) :
    List.zipWith (· ^^^ ·) (List.zipWith (· ^^^ ·) xs (mask ++ rest)) mask = xs := by
  induction xs generalizing mask with
  | nil => rfl
  | cons x xs ih =>
      cases mask with
      | nil => exact absurd h (by simp)
      | cons m mask =>
          rw [List.length_cons, List.length_cons] at h
          rw [List.cons_append, List.zipWith_cons_cons, List.zipWith_cons_cons, ih (by omega),
            UInt8.xor_assoc, UInt8.xor_self, UInt8.xor_zero]

theorem formatIPv6_groups {groups : List UInt16} (h : groups.length = 8) :
    formatIPv6 (groups.flatMap (fun g => beBytes 2 g.toNat)) =
      some (":".intercalate (groups.map (fun g => radix16 g.toNat))) := by
  have hreads : ∀ k ∈ List.range 8,
      word (groups.flatMap (fun g => beBytes 2 g.toNat)) (2 * k) = some (groups.getD k 0).toNat := by
    intro k hk
    have hk : k < groups.length := by
      have := List.mem_range.mp hk
      omega
    have hdrop := drop_flatMap (fun g : UInt16 => beBytes_length 2 g.toNat) groups k
    rw [List.drop_eq_getElem_cons hk, List.flatMap_cons, Nat.mul_comm] at hdrop
    rw [List.getD_eq_getElem?_getD, List.getElem?_eq_getElem hk, Option.getD_some]
    exact word_beBytes groups[k].toNat_lt hdrop
  have hgroups : (List.range 8).map (fun k => groups.getD k 0) = groups := by
    apply List.ext_getElem
    · rw [List.length_map, List.length_range, h]
    · intro k hk hk'
      rw [List.getElem_map, List.getElem_range, List.getD_eq_getElem?_getD,
        List.getElem?_eq_getElem hk', Option.getD_some]
  rw [formatIPv6, Lib.Checked.mapM_eq_map hreads]
  conv_rhs => rw [← hgroups]
  rw [List.map_map]
  simp only [Option.bind_eq_bind, Option.bind_some, List.map_map]
  rfl

theorem length_groups {groups : List UInt16} (h : groups.length = 8) :
    (groups.flatMap (fun g => beBytes 2 g.toNat)).length = 16 := by
  rw [List.length_flatMap, List.map_congr_left (fun g _ => beBytes_length 2 g.toNat),
    List.map_const', List.sum_replicate_nat, h]

section Value

variable (address : Address) (reserved : UInt8) (port : UInt16) (transactionID : Bytes)

theorem length_xorMapped (h : address.bytes.length ≤ (cookieBytes ++ transactionID).length) :
    (address.xorMapped reserved port transactionID).length = 4 + address.bytes.length := by
  rw [xorMapped, List.length_append, List.length_append, beBytes_length,
    List.length_zipWith, Nat.min_eq_left h]
  rfl

theorem port_xorMapped :
    (word (address.xorMapped reserved port transactionID) 2).map
      (fun masked => UInt16.ofNat (masked ^^^ magicCookie >>> 16)) = some port := by
  have hword : word (address.xorMapped reserved port transactionID) 2 = some (port.toNat ^^^ 0x2112) :=
    word_beBytes (r := List.zipWith (· ^^^ ·) address.bytes (cookieBytes ++ transactionID))
      (Nat.xor_lt_two_pow (n := 16) port.toNat_lt (by decide)) rfl
  rw [hword, Option.map_some, show magicCookie >>> 16 = 0x2112 from rfl, Nat.xor_assoc,
    Nat.xor_self, Nat.xor_zero, UInt16.ofNat_toNat]

theorem unmask_xorMapped {mask rest : Bytes} (hmask : mask ++ rest = cookieBytes ++ transactionID)
    (hlen : address.bytes.length = mask.length) :
    unmask (address.xorMapped reserved port transactionID) mask mask.length = some address.bytes := by
  have hle : address.bytes.length ≤ (cookieBytes ++ transactionID).length := by
    rw [← hmask, List.length_append]
    omega
  have hvalue := length_xorMapped address reserved port transactionID hle
  have hdrop : (address.xorMapped reserved port transactionID).drop 4 =
      List.zipWith (· ^^^ ·) address.bytes (mask ++ rest) := by
    rw [hmask]
    rfl
  rw [unmask_eq (by omega) le_rfl, hdrop, List.take_of_length_le, zipWith_xor_xor hlen.le]
  rw [List.length_zipWith, hlen]
  exact Nat.min_le_left ..

end Value

theorem decodeXorMapped_xorMapped (address : Address) (reserved : UInt8) (port : UInt16)
    {transactionID : Bytes} (hid : transactionID.length = 12) :
    decodeXorMapped (address.xorMapped reserved port transactionID) transactionID =
      some (some ⟨address.text, port⟩) := by
  have hmask : (cookieBytes ++ transactionID).length = 16 := by rw [List.length_append, hid]; rfl
  have hfamily : (address.xorMapped reserved port transactionID)[1]? = some address.family := rfl
  obtain ⟨masked, hword, hport⟩ :=
    Option.map_eq_some_iff.mp (port_xorMapped address reserved port transactionID)
  have hunmask := @unmask_xorMapped address reserved port transactionID
  have hlen := length_xorMapped address reserved port transactionID
  rw [decodeXorMapped, hfamily, hword]
  simp only [Option.bind_eq_bind, Option.bind_some, hport]
  cases address with
  | v4 octets hoctets =>
      have hfour := hlen (by rw [hmask, bytes, hoctets]; decide)
      rw [bytes, hoctets] at hfour
      rw [if_neg (by omega), show (4 : Nat) = cookieBytes.length from rfl, hunmask rfl hoctets]
      rfl
  | v6 groups hgroups =>
      have hbytes := length_groups hgroups
      have htwenty := hlen (by rw [hmask]; exact hbytes.le)
      rw [bytes, hbytes] at htwenty
      have hread := hunmask (List.append_nil _) (hbytes.trans hmask.symm)
      rw [hmask] at hread
      simp only [if_neg
        (show ¬ ((v6 groups hgroups).xorMapped reserved port transactionID).length < 8 by omega),
        if_neg (show ¬ ((v6 groups hgroups).xorMapped reserved port transactionID).length <
          20 by omega), hmask, hread,
        family, if_neg (show ¬ (0x02 : UInt8) = 0x01 by decide), if_true, ne_eq, not_true_eq_false,
        if_false, Option.bind_some, bytes, formatIPv6_groups hgroups]
      rfl

end Mapped

def bindingSuccess : Nat := 0x0101

/-- An attribute of any type, filled up to a multiple of four bytes. -/
@[ext] structure Attribute where
  type : Nat
  value : Bytes
  padding : Bytes
  type_lt : type < 65536
  value_lt : value.length < 65536
  padding_length : padding.length = (4 - value.length % 4) % 4

def Attribute.bytes (x : Attribute) : Bytes :=
  beBytes 2 x.type ++ (beBytes 2 x.value.length ++ (x.value ++ x.padding))

/-- A datagram that holds an address attribute where the attributes of the
declared message are read, with whatever may stand before and after it. -/
@[ext] structure Message where
  type : Nat
  declared : Nat
  transactionID : Bytes
  before : List Attribute
  value : Bytes
  after : Bytes
  type_lt : type < 65536
  declared_lt : declared < 65536
  transactionID_length : transactionID.length = 12
  before_type : ∀ x ∈ before, x.type ≠ attrXorMappedAddress
  value_lt : value.length < 65536
  reached : (before.flatMap Attribute.bytes).length + 4 ≤ declared
  declared_le : declared ≤ (before.flatMap Attribute.bytes).length + 4 + value.length + after.length

namespace Message

def body (m : Message) : Bytes :=
  m.before.flatMap Attribute.bytes ++
    (beBytes 2 attrXorMappedAddress ++ (beBytes 2 m.value.length ++ (m.value ++ m.after)))

def bytes (m : Message) : Bytes :=
  beBytes 2 m.type ++ (beBytes 2 m.declared ++ (cookieBytes ++ (m.transactionID ++ m.body)))

def Inside (m : Message) : Prop :=
  (m.before.flatMap Attribute.bytes).length + 4 + m.value.length ≤ m.declared

def Answers (m : Message) (transactionID : Bytes) : Prop :=
  m.type = bindingSuccess ∧ m.transactionID = transactionID ∧ m.Inside

end Message

section Walk

variable {b transactionID : Bytes} {stop i fuel : Nat}

theorem padding_eq (n : Nat) : (4 - (n &&& 3)) &&& 3 = (4 - n % 4) % 4 := by
  have hmod (k : Nat) : k &&& 3 = k % 4 := Nat.and_two_pow_sub_one_eq_mod k 2
  rw [hmod, hmod]

theorem walk_total (hstop : stop ≤ b.length) (hfuel : b.length < i + fuel) (hpos : 0 < fuel) :
    ∃ r, walk b transactionID stop fuel i = some r := by
  induction fuel generalizing i with
  | zero => exact absurd hpos (Nat.lt_irrefl 0)
  | succ fuel ih =>
      rw [walk]
      by_cases hmore : i + 4 ≤ stop
      · obtain ⟨type, -, htype, -⟩ := exists_word (b := b) (show i + 2 ≤ b.length by omega)
        obtain ⟨len, -, hlen, -⟩ := exists_word (b := b) (show i + 2 + 2 ≤ b.length by omega)
        rw [if_pos hmore, htype, hlen]
        simp only [Option.bind_eq_bind, Option.bind_some]
        by_cases hvalue : i + 4 + len ≤ b.length
        · rw [if_pos hvalue]
          by_cases haddress : type = attrXorMappedAddress
          · rw [if_pos haddress, range, if_pos ⟨by omega, hvalue⟩, Option.bind_some]
            by_cases hread : Readable (slice b (i + 4) (i + 4 + len)) transactionID
            · obtain ⟨a, ha⟩ := decodeXorMapped_of_readable hread
              exact ⟨_, ha⟩
            · exact ⟨_, decodeXorMapped_of_not_readable hread⟩
          · rw [if_neg haddress]
            exact ih (by omega) (by omega)
        · rw [if_neg hvalue]
          exact ⟨_, rfl⟩
      · rw [if_neg hmore]
        exact ⟨_, rfl⟩

theorem walk_before {before : List Attribute} {value after : Bytes}
    (htypes : ∀ x ∈ before, x.type ≠ attrXorMappedAddress) (hvalue : value.length < 65536)
    (hbytes : b.drop i = before.flatMap Attribute.bytes ++
      (beBytes 2 attrXorMappedAddress ++ (beBytes 2 value.length ++ (value ++ after))))
    (hi : i ≤ b.length) (hreach : i + (before.flatMap Attribute.bytes).length + 4 ≤ stop)
    (hfuel : before.length < fuel) :
    walk b transactionID stop fuel i = decodeXorMapped value transactionID := by
  induction before generalizing i fuel with
  | nil =>
      obtain ⟨fuel, rfl⟩ : ∃ k, fuel = k + 1 := ⟨fuel - 1, by simp only [List.length_nil] at hfuel; omega⟩
      simp only [List.flatMap_nil, List.nil_append, List.length_nil, Nat.add_zero] at hbytes hreach
      have hlen := congrArg List.length hbytes
      simp only [List.length_drop, List.length_append, beBytes_length] at hlen
      have hafter := drop_add_of_drop hbytes (j := i + 2) (by rw [beBytes_length])
      have hstart := drop_add_of_drop hafter (j := i + 4) (by rw [beBytes_length])
      rw [walk, if_pos hreach, word_beBytes (by decide) hbytes, word_beBytes hvalue hafter]
      simp only [Option.bind_eq_bind, Option.bind_some, if_true]
      rw [if_pos (by omega), range_of_drop hstart (by omega), Option.bind_some]
  | cons x before ih =>
      obtain ⟨fuel, rfl⟩ : ∃ k, fuel = k + 1 := ⟨fuel - 1, by simp only [List.length_cons] at hfuel; omega⟩
      have hother := htypes x (List.mem_cons_self ..)
      rw [List.flatMap_cons, List.append_assoc] at hbytes
      rw [List.flatMap_cons, List.length_append] at hreach
      have hwidth : x.bytes.length = 4 + x.value.length + (4 - x.value.length % 4) % 4 := by
        simp only [Attribute.bytes, List.length_append, beBytes_length, x.padding_length]
        omega
      have hnext := drop_add_of_drop hbytes rfl
      have hlen := congrArg List.length hbytes
      rw [List.length_drop, List.length_append] at hlen
      rw [Attribute.bytes, List.append_assoc, List.append_assoc] at hbytes
      have hafter := drop_add_of_drop hbytes (j := i + 2) (by rw [beBytes_length])
      rw [walk, if_pos (by omega), word_beBytes x.type_lt hbytes, word_beBytes x.value_lt hafter]
      simp only [Option.bind_eq_bind, Option.bind_some]
      rw [if_pos (by omega), if_neg hother, padding_eq,
        show i + 4 + x.value.length + (4 - x.value.length % 4) % 4 = i + x.bytes.length by omega]
      rw [List.length_cons] at hfuel
      exact ih (fun y hy => htypes y (List.mem_cons_of_mem _ hy)) hnext (by omega) (by omega) (by omega)

theorem exists_attribute {type len : Nat} (htype : type < 65536) (hlen : len < 65536)
    (htbytes : b.drop i = beBytes 2 type ++ b.drop (i + 2))
    (hlbytes : b.drop (i + 2) = beBytes 2 len ++ b.drop (i + 2 + 2))
    (hend : i + 4 + len + (4 - len % 4) % 4 ≤ b.length) :
    ∃ x : Attribute, x.type = type ∧ x.bytes.length = 4 + len + (4 - len % 4) % 4 ∧
      b.drop i = x.bytes ++ b.drop (i + 4 + len + (4 - len % 4) % 4) := by
  have hcut : b.drop (i + 2 + 2) = slice b (i + 4) (i + 4 + len) ++ b.drop (i + 4 + len) :=
    (slice_append_drop (by omega)).symm
  have hpad : b.drop (i + 4 + len) = slice b (i + 4 + len) (i + 4 + len + (4 - len % 4) % 4) ++
      b.drop (i + 4 + len + (4 - len % 4) % 4) :=
    (slice_append_drop (by omega)).symm
  have hcutlen : (slice b (i + 4) (i + 4 + len)).length = len := by
    rw [length_slice (by omega)]
    omega
  have hpadlen : (slice b (i + 4 + len) (i + 4 + len + (4 - len % 4) % 4)).length = (4 - len % 4) % 4 := by
    rw [length_slice (by omega)]
    omega
  refine ⟨⟨type, slice b (i + 4) (i + 4 + len),
    slice b (i + 4 + len) (i + 4 + len + (4 - len % 4) % 4), htype,
    by omega, by rw [hpadlen, hcutlen]⟩, rfl, ?_, ?_⟩
  · simp only [Attribute.bytes, List.length_append, beBytes_length, hcutlen, hpadlen]
    omega
  · simp only [Attribute.bytes, List.append_assoc]
    rw [hcutlen, ← hpad, ← hcut, ← hlbytes, ← htbytes]

theorem walk_found {a : MappedAddress} (hstop : stop ≤ b.length)
    (h : walk b transactionID stop fuel i = some (some a)) :
    ∃ (before : List Attribute) (value after : Bytes),
      (∀ x ∈ before, x.type ≠ attrXorMappedAddress) ∧ value.length < 65536 ∧
      b.drop i = before.flatMap Attribute.bytes ++
        (beBytes 2 attrXorMappedAddress ++ (beBytes 2 value.length ++ (value ++ after))) ∧
      i + (before.flatMap Attribute.bytes).length + 4 ≤ stop ∧
      decodeXorMapped value transactionID = some (some a) := by
  induction fuel generalizing i with
  | zero => cases h
  | succ fuel ih =>
      rw [walk] at h
      by_cases hmore : i + 4 ≤ stop
      · obtain ⟨type, htlt, htype, htbytes⟩ := exists_word (b := b) (show i + 2 ≤ b.length by omega)
        obtain ⟨len, hllt, hlen, hlbytes⟩ := exists_word (b := b) (show i + 2 + 2 ≤ b.length by omega)
        rw [if_pos hmore, htype, hlen] at h
        simp only [Option.bind_eq_bind, Option.bind_some] at h
        by_cases hvalue : i + 4 + len ≤ b.length
        · rw [if_pos hvalue] at h
          by_cases haddress : type = attrXorMappedAddress
          · have hcut : b.drop (i + 2 + 2) = slice b (i + 4) (i + 4 + len) ++ b.drop (i + 4 + len) :=
              (slice_append_drop (by omega)).symm
            have hcutlen : (slice b (i + 4) (i + 4 + len)).length = len := by
              rw [length_slice hvalue]
              omega
            rw [if_pos haddress, range, if_pos ⟨by omega, hvalue⟩, Option.bind_some] at h
            refine ⟨[], slice b (i + 4) (i + 4 + len), b.drop (i + 4 + len), ?_, by omega, ?_, hmore, h⟩
            · intro x hmem
              cases hmem
            · rw [List.flatMap_nil, List.nil_append, hcutlen, ← hcut, ← hlbytes, ← haddress, ← htbytes]
          · rw [if_neg haddress, padding_eq] at h
            obtain ⟨before, value, after, htypes, hlt, hbytes, hreach, hdecode⟩ := ih h
            obtain ⟨x, hx, hwidth, hcut⟩ := exists_attribute htlt hllt htbytes hlbytes (by omega)
            refine ⟨x :: before, value, after, ?_, hlt, ?_, ?_, hdecode⟩
            · exact List.forall_mem_cons.mpr ⟨hx ▸ haddress, htypes⟩
            · rw [List.flatMap_cons, List.append_assoc, ← hbytes, hcut]
            · rw [List.flatMap_cons, List.length_append, hwidth]
              omega
        · rw [if_neg hvalue] at h
          cases h
      · rw [if_neg hmore] at h
        cases h

end Walk

section Parse

variable {b transactionID : Bytes}

theorem longWord_eq_magicCookie (h : 8 ≤ b.length) :
    ∃ cookie, longWord b 4 = some cookie ∧
      (cookie = magicCookie ↔ b.drop 4 = cookieBytes ++ b.drop 8) := by
  have h4 : b.drop 4 = b[4] :: b.drop 5 := List.drop_eq_getElem_cons (by omega)
  have h5 : b.drop 5 = b[5] :: b.drop 6 := List.drop_eq_getElem_cons (by omega)
  have h6 : b.drop 6 = b[6] :: b.drop 7 := List.drop_eq_getElem_cons (by omega)
  have h7 : b.drop 7 = b[7] :: b.drop 8 := List.drop_eq_getElem_cons (by omega)
  rw [h7] at h6
  rw [h6] at h5
  rw [h5] at h4
  refine ⟨_, longWord_of_drop h4, ?_⟩
  have hcookie : magicCookie = ofBe cookieBytes := by decide
  have happend : b.drop 4 = [b[4], b[5], b[6], b[7]] ++ b.drop 8 := h4
  rw [hcookie, happend, List.append_cancel_right_eq]
  constructor
  · intro heq
    have hbytes := congrArg (beBytes 4) heq
    exact (beBytes_ofBe [b[4], b[5], b[6], b[7]]).symm.trans (hbytes.trans (beBytes_ofBe cookieBytes))
  · exact congrArg ofBe

theorem parseBindingResponse_total (b transactionID : Bytes) :
    ∃ r, parseBindingResponse b transactionID = some r := by
  rw [parseBindingResponse]
  by_cases hshort : b.length < 20
  · exact ⟨none, if_pos hshort⟩
  · obtain ⟨cookie, hcookie, -⟩ := longWord_eq_magicCookie (show 8 ≤ b.length by omega)
    obtain ⟨msgLen, -, hmsgLen, -⟩ := exists_word (b := b) (show 2 + 2 ≤ b.length by omega)
    rw [if_neg hshort, hcookie, hmsgLen]
    simp only [Option.bind_eq_bind, Option.bind_some]
    split_ifs with hwrong hfits
    · exact ⟨none, rfl⟩
    · exact walk_total hfits (by omega) (by omega)
    · exact ⟨none, rfl⟩

namespace Message

theorem length_body (m : Message) :
    m.body.length = (m.before.flatMap Attribute.bytes).length + 4 + m.value.length + m.after.length := by
  simp only [body, List.length_append, beBytes_length]
  omega

theorem length_bytes (m : Message) : m.bytes.length = 20 + m.body.length := by
  simp only [bytes, List.length_append, beBytes_length, m.transactionID_length]
  rw [show cookieBytes.length = 4 from rfl]
  omega

theorem length_before_le (before : List Attribute) :
    before.length ≤ (before.flatMap Attribute.bytes).length := by
  induction before with
  | nil => exact Nat.zero_le _
  | cons x before ih =>
      simp only [List.flatMap_cons, List.length_append, List.length_cons, Attribute.bytes, beBytes_length]
      omega

theorem drop_four (m : Message) : m.bytes.drop 4 = cookieBytes ++ (m.transactionID ++ m.body) := rfl

theorem drop_eight (m : Message) : m.bytes.drop 8 = m.transactionID ++ m.body := rfl

theorem drop_twenty (m : Message) : m.bytes.drop 20 = m.body :=
  drop_add_of_drop m.drop_eight (by rw [m.transactionID_length])

end Message

/-- What the client makes of a datagram with an address attribute: the value is
decoded, whatever the header says. -/
theorem parseBindingResponse_bytes (m : Message) (transactionID : Bytes) :
    parseBindingResponse m.bytes transactionID = decodeXorMapped m.value transactionID := by
  have hlen := m.length_bytes
  have hbody := m.length_body
  have hbefore := Message.length_before_le m.before
  have hreached := m.reached
  have hdeclared := m.declared_le
  obtain ⟨cookie, hcookie, hiff⟩ := longWord_eq_magicCookie (show 8 ≤ m.bytes.length by omega)
  have hmagic : cookie = magicCookie := hiff.mpr m.drop_four
  have hword : word m.bytes 2 = some m.declared := word_beBytes m.declared_lt (show _ = _ ++ _ from rfl)
  rw [parseBindingResponse, if_neg (by omega), hcookie, hword]
  simp only [Option.bind_eq_bind, Option.bind_some]
  rw [if_neg (not_not.mpr hmagic), if_pos (by omega)]
  exact walk_before m.before_type m.value_lt m.drop_twenty (by omega) (by omega) (by omega)

theorem parseBindingResponse_found {a : MappedAddress}
    (h : parseBindingResponse b transactionID = some (some a)) :
    ∃ m : Message, m.bytes = b ∧ decodeXorMapped m.value transactionID = some (some a) := by
  rw [parseBindingResponse] at h
  by_cases hshort : b.length < 20
  · rw [if_pos hshort] at h
    cases h
  · obtain ⟨cookie, hcookie, hiff⟩ := longWord_eq_magicCookie (show 8 ≤ b.length by omega)
    obtain ⟨type, htlt, -, htbytes⟩ := exists_word (b := b) (show 0 + 2 ≤ b.length by omega)
    obtain ⟨msgLen, hmlt, hmsgLen, hmbytes⟩ := exists_word (b := b) (show 2 + 2 ≤ b.length by omega)
    rw [if_neg hshort, hcookie, hmsgLen] at h
    simp only [Option.bind_eq_bind, Option.bind_some] at h
    split_ifs at h with hwrong hfits
    · cases h
    · obtain ⟨before, value, after, htypes, hvlt, hbytes, hreach, hdecode⟩ := walk_found hfits h
      have hid : slice b 8 20 ++ b.drop 20 = b.drop 8 := slice_append_drop (by omega)
      have hlen := congrArg List.length hbytes
      simp only [List.length_drop, List.length_append, beBytes_length] at hlen
      refine ⟨⟨type, msgLen, slice b 8 20, before, value, after, htlt, hmlt, ?_, htypes,
        hvlt, by omega, by omega⟩, ?_, hdecode⟩
      · rw [length_slice (by omega)]
      · rw [Message.bytes, Message.body, ← hbytes, hid, ← hiff.mp (not_not.mp hwrong)]
        exact (htbytes.trans (congrArg (beBytes 2 type ++ ·) hmbytes)).symm
    · cases h

end Parse

section Unique

theorem beBytes_append_inj {n n' : Nat} {r r' : Bytes} (hn : n < 65536) (hn' : n' < 65536)
    (h : beBytes 2 n ++ r = beBytes 2 n' ++ r') : n = n' ∧ r = r' := by
  obtain ⟨hbytes, hrest⟩ := List.append_inj h (by rw [beBytes_length, beBytes_length])
  have hvalue := congrArg ofBe hbytes
  rw [ofBe_beBytes_of_lt hn, ofBe_beBytes_of_lt hn'] at hvalue
  exact ⟨hvalue, hrest⟩

theorem Attribute.bytes_append_inj {x y : Attribute} {r r' : Bytes}
    (h : x.bytes ++ r = y.bytes ++ r') : x = y ∧ r = r' := by
  simp only [Attribute.bytes, List.append_assoc] at h
  obtain ⟨htype, h⟩ := beBytes_append_inj x.type_lt y.type_lt h
  obtain ⟨hlen, h⟩ := beBytes_append_inj x.value_lt y.value_lt h
  obtain ⟨hvalue, h⟩ := List.append_inj h hlen
  obtain ⟨hpadding, hrest⟩ := List.append_inj h (by rw [x.padding_length, y.padding_length, hlen])
  exact ⟨Attribute.ext htype hvalue hpadding, hrest⟩

theorem Attribute.type_of_bytes_append {x : Attribute} {r r' : Bytes}
    (h : x.bytes ++ r = beBytes 2 attrXorMappedAddress ++ r') : x.type = attrXorMappedAddress := by
  simp only [Attribute.bytes, List.append_assoc] at h
  exact (beBytes_append_inj x.type_lt (by decide) h).1

theorem before_unique {before before' : List Attribute} {r r' : Bytes}
    (htypes : ∀ x ∈ before, x.type ≠ attrXorMappedAddress)
    (htypes' : ∀ x ∈ before', x.type ≠ attrXorMappedAddress)
    (h : before.flatMap Attribute.bytes ++ (beBytes 2 attrXorMappedAddress ++ r) =
      before'.flatMap Attribute.bytes ++ (beBytes 2 attrXorMappedAddress ++ r')) : before =
        before' ∧ r = r' := by
  induction before generalizing before' with
  | nil =>
      cases before' with
      | nil => exact ⟨rfl, List.append_cancel_left h⟩
      | cons y before' =>
          rw [List.flatMap_cons, List.append_assoc] at h
          exact absurd (Attribute.type_of_bytes_append h.symm) (htypes' y (List.mem_cons_self ..))
  | cons x before ih =>
      rw [List.flatMap_cons, List.append_assoc] at h
      cases before' with
      | nil => exact absurd (Attribute.type_of_bytes_append h) (htypes x (List.mem_cons_self ..))
      | cons y before' =>
          rw [List.flatMap_cons, List.append_assoc] at h
          obtain ⟨rfl, hmore⟩ := Attribute.bytes_append_inj h
          obtain ⟨rfl, hrest⟩ := ih (fun z hz => htypes z (List.mem_cons_of_mem x hz))
            (fun z hz => htypes' z (List.mem_cons_of_mem x hz)) hmore
          exact ⟨rfl, hrest⟩

theorem Message.bytes_inj {m m' : Message} (h : m.bytes = m'.bytes) : m = m' := by
  obtain ⟨htype, h⟩ := beBytes_append_inj m.type_lt m'.type_lt h
  obtain ⟨hdeclared, h⟩ := beBytes_append_inj m.declared_lt m'.declared_lt h
  obtain ⟨hid, h⟩ := List.append_inj (List.append_cancel_left h)
    (by rw [m.transactionID_length, m'.transactionID_length])
  obtain ⟨hbefore, h⟩ := before_unique m.before_type m'.before_type h
  obtain ⟨hlen, h⟩ := beBytes_append_inj m.value_lt m'.value_lt h
  obtain ⟨hvalue, hafter⟩ := List.append_inj h hlen
  exact Message.ext htype hdeclared hid hbefore hvalue hafter

end Unique

/-- No datagram makes the client read out of bounds, and of a datagram that holds
an address it returns the first one. That it returns only addresses from answers
to the request is left to the datagrams: the type and the id in their header are
not looked at, nor is the end of the declared message. -/
theorem addresses_answer_iff (b transactionID : Bytes) :
    (∃ r, parseBindingResponse b transactionID = some r) ∧
      ((∀ a, parseBindingResponse b transactionID = some (some a) →
          ∃ m : Message, m.bytes = b ∧ m.Answers transactionID) ↔
        ∀ m : Message, m.bytes = b → Readable m.value transactionID → m.Answers transactionID) ∧
      ∀ (m : Message) (address : Address) (reserved : UInt8) (port : UInt16), m.bytes = b →
        m.transactionID = transactionID → m.value = address.xorMapped reserved port transactionID →
        parseBindingResponse b transactionID = some (some ⟨address.text, port⟩) := by
  refine ⟨parseBindingResponse_total b transactionID, ⟨?_, ?_⟩, ?_⟩
  · intro hanswers m hm hread
    obtain ⟨a, ha⟩ := decodeXorMapped_of_readable hread
    obtain ⟨m', hm', hanswer⟩ := hanswers a (by rw [← hm, parseBindingResponse_bytes, ha])
    rwa [Message.bytes_inj (hm'.trans hm.symm)] at hanswer
  · intro hread a ha
    obtain ⟨m, hm, hdecode⟩ := parseBindingResponse_found ha
    refine ⟨m, hm, hread m hm ?_⟩
    by_contra hnot
    rw [decodeXorMapped_of_not_readable hnot] at hdecode
    cases hdecode
  · rintro m address reserved port rfl rfl hvalue
    rw [parseBindingResponse_bytes, hvalue,
      decodeXorMapped_xorMapped address reserved port m.transactionID_length]

theorem addresses_answer_iff_software :
    ∃ m : Message, m.before.length = 1 ∧ m.Answers m.transactionID ∧
      parseBindingResponse m.bytes m.transactionID =
        some (some ⟨(Address.v4 [192, 0, 2, 1] rfl).text, 32853⟩) := by
  refine ⟨⟨bindingSuccess, 24, [0, 1, 2, 3, 4, 5, 6, 7, 8, 9, 10, 11],
    [⟨0x8022, [116, 114, 105], [0], by decide, by decide, rfl⟩],
    [0x00, 0x01, 0xa1, 0x47, 0xe1, 0x12, 0xa6, 0x43],
    [1, 2, 3, 4], by decide, by decide, rfl, by decide, by decide, by decide, by decide⟩, rfl,
      ⟨rfl, rfl, by unfold Message.Inside; decide⟩, ?_⟩
  exact (addresses_answer_iff _ _).2.2 _ (.v4 [192, 0, 2, 1] rfl) 0 32853 rfl rfl (by decide)

/-- The answer to an earlier request: its id is that of no request now open. -/
theorem addresses_from_other_requests :
    ∃ b transactionID : Bytes, transactionID.length = 12 ∧
      parseBindingResponse b transactionID = some (some ⟨"192.0.2.1", 32853⟩) ∧
      ¬ ∃ m : Message, m.bytes = b ∧ m.Answers transactionID := by
  refine ⟨[0x01, 0x01, 0x00, 0x0c, 0x21, 0x12, 0xa4, 0x42, 0xb7, 0xe7, 0xa7, 0x01, 0xbc, 0x34,
      0xd6, 0x86, 0xfa, 0x87,
      0xdf, 0xae, 0x00, 0x20, 0x00, 0x08, 0x00, 0x01, 0xa1, 0x47, 0xe1, 0x12, 0xa6, 0x43],
    [0, 1, 2, 3, 4, 5, 6, 7, 8, 9, 10, 11], rfl, by decide +kernel, ?_⟩
  rintro ⟨m, hm, -, hid, -⟩
  have hheader := m.drop_eight
  rw [hm, hid] at hheader
  exact absurd (List.cons.inj hheader).1 (by decide)

end TriNet.Phone.Stun
