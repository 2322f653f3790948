import TriNet.Lib.BigEndian
import TriNet.Routing.EtxTable

namespace TriNet.Routing

open Lib.BigEndian

def version : UInt8 := 1
def kindHello : UInt8 := 0
def kindData : UInt8 := 1
def headerLen : Nat := 11

def frameKindValid (k : UInt8) : Bool := k ≤ kindData

def beByte (w : UInt32) (i : Nat) : UInt8 :=
  if i = 0 then (w >>> 24 &&& 255).toUInt8
  else if i = 1 then (w >>> 16 &&& 255).toUInt8
  else if i = 2 then (w >>> 8 &&& 255).toUInt8
  else (w &&& 255).toUInt8

def u32Be (b0 b1 b2 b3 : UInt8) : UInt32 :=
  b0.toUInt32 <<< 24 ||| b1.toUInt32 <<< 16 ||| b2.toUInt32 <<< 8 ||| b3.toUInt32

def headerByte (kind : UInt8) (src dst : UInt32) (ttl : UInt8) (idx : Nat) : UInt8 :=
  if idx = 0 then version
  else if idx = 1 then kind
  else if idx ≤ 5 then beByte src (idx - 2)
  else if idx ≤ 9 then beByte dst (idx - 6)
  else ttl

def parseAccepts (b0 b1 : UInt8) : Bool := if b0 = version then frameKindValid b1 else false

inductive FrameKind
  | hello
  | data
  deriving DecidableEq

namespace FrameKind

def toU8 : FrameKind → UInt8
  | hello => kindHello
  | data => kindData

def fromU8 (b : UInt8) : Option FrameKind :=
  if !frameKindValid b then none
  else if b = kindHello then some hello
  else if b = kindData then some data
  else none

end FrameKind

structure Header where
  kind : FrameKind
  src : NodeId
  dst : NodeId
  ttl : UInt8
  deriving DecidableEq

namespace Header

def toBytes (h : Header) : Bytes := (List.range headerLen).map (headerByte h.kind.toU8 h.src h.dst h.ttl)

def parse : Bytes → Option Header
  | b0 :: b1 :: b2 :: b3 :: b4 :: b5 :: b6 :: b7 :: b8 :: b9 :: b10 :: _ =>
      if !parseAccepts b0 b1 then none
      else (FrameKind.fromU8 b1).map (fun kind => ⟨kind, u32Be b2 b3 b4 b5, u32Be b6 b7 b8 b9, b10⟩)
  | _ => none

end Header

theorem toNat_shiftRight_and (w : UInt32) {i : Nat} (hi : i < 32) :
    (w >>> UInt32.ofNat i &&& 255).toUInt8.toNat = w.toNat / 2 ^ i % 256 := by
  have h255 : (255 : UInt32).toNat = 2 ^ 8 - 1 := rfl
  rw [UInt32.toNat_toUInt8, UInt32.toNat_and, h255, Nat.and_two_pow_sub_one_eq_mod,
    UInt32.toNat_shiftRight,
    UInt32.toNat_ofNat_of_lt' (by simp [UInt32.size]; omega), Nat.mod_eq_of_lt hi,
    Nat.shiftRight_eq_div_pow, Nat.mod_mod]

theorem toNat_byte_shiftLeft (b : UInt8) {i : Nat} (hi : i ≤ 24) :
    (b.toUInt32 <<< UInt32.ofNat i).toNat = 2 ^ i * b.toNat := by
  have hb := b.toNat_lt
  have hlt : 2 ^ i * b.toNat < 2 ^ 32 := by
    calc 2 ^ i * b.toNat ≤ 2 ^ 24 * 255 := Nat.mul_le_mul (Nat.pow_le_pow_right (by omega) hi) (by omega)
      _ < 2 ^ 32 := by norm_num
  rw [UInt32.toNat_shiftLeft, UInt8.toNat_toUInt32,
    UInt32.toNat_ofNat_of_lt' (by simp [UInt32.size]; omega),
    Nat.mod_eq_of_lt (by omega : i < 32), Nat.shiftLeft_eq, mul_comm, Nat.mod_eq_of_lt hlt]

theorem toNat_u32Be (b0 b1 b2 b3 : UInt8) : (u32Be b0 b1 b2 b3).toNat = ofBe [b0, b1, b2, b3] := by
  have h1 := b1.toNat_lt
  have h2 := b2.toNat_lt
  have h3 := b3.toNat_lt
  have hor : (u32Be b0 b1 b2 b3).toNat =
      2 ^ 24 * b0.toNat ||| 2 ^ 16 * b1.toNat ||| 2 ^ 8 * b2.toNat ||| b3.toNat := by
    rw [← toNat_byte_shiftLeft b0 le_rfl, ← toNat_byte_shiftLeft b1 (by omega),
      ← toNat_byte_shiftLeft b2 (by omega),
      ← UInt8.toNat_toUInt32 b3, ← UInt32.toNat_or, ← UInt32.toNat_or, ← UInt32.toNat_or]
    rfl
  -- each byte fits below the ones already placed, so the disjunctions are sums
  have e01 : 2 ^ 24 * b0.toNat ||| 2 ^ 16 * b1.toNat = 2 ^ 16 * (2 ^ 8 * b0.toNat + b1.toNat) := by
    rw [← Nat.two_pow_add_eq_or_of_lt (by omega)]
    ring
  have e012 : 2 ^ 16 * (2 ^ 8 * b0.toNat + b1.toNat) ||| 2 ^ 8 * b2.toNat =
      2 ^ 8 * (2 ^ 16 * b0.toNat + 2 ^ 8 * b1.toNat + b2.toNat) := by
    rw [← Nat.two_pow_add_eq_or_of_lt (by omega)]
    ring
  rw [hor, e01, e012, ← Nat.two_pow_add_eq_or_of_lt (by omega)]
  simp only [ofBe, List.length_cons, List.length_nil]
  ring

theorem beByte_eq (w : UInt32) : [beByte w 0, beByte w 1, beByte w 2, beByte w 3] = beBytes 4 w.toNat := by
  have hbyte {i : Nat} (hi : i < 32) :
      (w >>> UInt32.ofNat i &&& 255).toUInt8 = UInt8.ofNat (w.toNat / 2 ^ i) := by
    apply UInt8.toNat_inj.mp
    rw [toNat_shiftRight_and w hi, UInt8.toNat_ofNat']
  have hlow : (w &&& 255).toUInt8 = (w >>> UInt32.ofNat 0 &&& 255).toUInt8 := by simp
  have h0 : beByte w 0 = UInt8.ofNat (w.toNat / 256 ^ 3) := hbyte (i := 24) (by omega)
  have h1 : beByte w 1 = UInt8.ofNat (w.toNat / 256 ^ 2) := hbyte (i := 16) (by omega)
  have h2 : beByte w 2 = UInt8.ofNat (w.toNat / 256 ^ 1) := hbyte (i := 8) (by omega)
  have h3 : beByte w 3 = UInt8.ofNat (w.toNat / 256 ^ 0) := hlow.trans (hbyte (by omega))
  rw [h0, h1, h2, h3]
  rfl

theorem u32Be_beByte (w : UInt32) : u32Be (beByte w 0) (beByte w 1) (beByte w 2) (beByte w 3) = w := by
  apply UInt32.toNat_inj.mp
  rw [toNat_u32Be, beByte_eq, ofBe_beBytes_of_lt w.toNat_lt]

namespace Header

@[simp] theorem toBytes_length (h : Header) : h.toBytes.length = headerLen := by simp [toBytes]

theorem toBytes_eq (h : Header) :
    h.toBytes = [version, h.kind.toU8, beByte h.src 0, beByte h.src 1, beByte h.src 2,
      beByte h.src 3, beByte h.dst 0, beByte h.dst 1, beByte h.dst 2, beByte h.dst 3, h.ttl] := rfl

theorem parse_toBytes (h : Header) (rest : Bytes) : parse (h.toBytes ++ rest) = some h := by
  have hkind : parseAccepts version h.kind.toU8 = true ∧ FrameKind.fromU8 h.kind.toU8 = some h.kind := by
    cases h.kind <;> decide
  simp only [toBytes_eq, List.cons_append, parse, hkind.1, hkind.2, u32Be_beByte, Bool.not_true,
    Bool.false_eq_true, if_false, Option.map_some]

end Header

end TriNet.Routing
