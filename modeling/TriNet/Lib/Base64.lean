import TriNet.Lib.BigEndian

namespace TriNet.Lib.Base64

open BigEndian

def alphabet : List Char :=
  ['A', 'B', 'C', 'D', 'E', 'F', 'G', 'H', 'I', 'J', 'K', 'L', 'M', 'N', 'O', 'P',
    'Q', 'R', 'S', 'T', 'U', 'V', 'W', 'X', 'Y', 'Z', 'a', 'b', 'c', 'd', 'e', 'f',
    'g', 'h', 'i', 'j', 'k', 'l', 'm', 'n', 'o', 'p', 'q', 'r', 's', 't', 'u', 'v',
    'w', 'x', 'y', 'z', '0', '1', '2', '3', '4', '5', '6', '7', '8', '9', '+', '/']

def digit (n : Nat) : Char := alphabet.getD n '='

def value (c : Char) : Option Nat := alphabet.idxOf? c

def encodeChars : Bytes → List Char
  | a :: b :: c :: bs =>
      digit (a.toNat / 4) :: digit (a.toNat % 4 * 16 + b.toNat / 16) ::
        digit (b.toNat % 16 * 4 + c.toNat / 64) :: digit (c.toNat % 64) :: encodeChars bs
  | [a, b] => [digit (a.toNat / 4), digit (a.toNat % 4 * 16 + b.toNat / 16), digit (b.toNat % 16 * 4), '=']
  | [a] => [digit (a.toNat / 4), digit (a.toNat % 4 * 16), '=', '=']
  | [] => []

def encode (bs : Bytes) : String := String.ofList (encodeChars bs)

def decodeChars : List Char → Option Bytes
  | [] => some []
  | w :: x :: y :: z :: cs => do
      let m ← value w
      let n ← value x
      let a := UInt8.ofNat (m * 4 + n / 16)
      if z = '=' then
        if cs ≠ [] then none
        else if y = '=' then if n % 16 = 0 then some [a] else none
        else
          let k ← value y
          if k % 4 = 0 then some [a, UInt8.ofNat (n % 16 * 16 + k / 4)] else none
      else
        let k ← value y
        let l ← value z
        let bs ← decodeChars cs
        some (a :: UInt8.ofNat (n % 16 * 16 + k / 4) :: UInt8.ofNat (k % 4 * 64 + l) :: bs)
  | _ => none

/-- Only canonical encodings are taken: no white space, full padding, and no
bits beyond the last byte. -/
def decode (s : String) : Option Bytes := decodeChars s.toList

theorem value_digit {n : Nat} (h : n < 64) : value (digit n) = some n := by
  have hall : ∀ m : Fin 64, value (digit m) = some m.1 := by decide +kernel
  exact hall ⟨n, h⟩

theorem digit_mem {n : Nat} (h : n < 64) : digit n ∈ alphabet := by
  have hlen : n < alphabet.length := h
  rw [digit, List.getD_eq_getElem?_getD, List.getElem?_eq_getElem hlen]
  exact List.getElem_mem hlen

theorem digit_ne_pad {n : Nat} (h : n < 64) : digit n ≠ '=' := by
  intro heq
  have hmem := digit_mem h
  rw [heq] at hmem
  exact absurd hmem (by decide)

theorem ofNat_eq {n : Nat} {a : UInt8} (h : n = a.toNat) : UInt8.ofNat n = a := by
  rw [h, UInt8.ofNat_toNat]

theorem decodeChars_encodeChars (bs : Bytes) : decodeChars (encodeChars bs) = some bs := by
  -- each group of bytes makes one group of digits
  induction bs using encodeChars.induct with
  | case1 a b c bs ih =>
      have ha := a.toNat_lt
      have hb := b.toNat_lt
      have hc := c.toNat_lt
      have hw : a.toNat / 4 < 64 := by omega
      have hx : a.toNat % 4 * 16 + b.toNat / 16 < 64 := by omega
      have hy : b.toNat % 16 * 4 + c.toNat / 64 < 64 := by omega
      have hz : c.toNat % 64 < 64 := by omega
      simp only [encodeChars, decodeChars, value_digit hw, value_digit hx, value_digit hy,
        value_digit hz, digit_ne_pad hz, ih, Option.bind_eq_bind, Option.bind_some, if_false]
      rw [ofNat_eq (a := a) (by omega), ofNat_eq (a := b) (by omega), ofNat_eq (a := c) (by omega)]
  | case2 a b =>
      have ha := a.toNat_lt
      have hb := b.toNat_lt
      have hw : a.toNat / 4 < 64 := by omega
      have hx : a.toNat % 4 * 16 + b.toNat / 16 < 64 := by omega
      have hy : b.toNat % 16 * 4 < 64 := by omega
      have hrest : b.toNat % 16 * 4 % 4 = 0 := by omega
      simp only [encodeChars, decodeChars, value_digit hw, value_digit hx, value_digit hy,
        digit_ne_pad hy, hrest,
        Option.bind_eq_bind, Option.bind_some, if_true, if_false, ne_eq, not_true_eq_false]
      rw [ofNat_eq (a := a) (by omega), ofNat_eq (a := b) (by omega)]
  | case3 a =>
      have ha := a.toNat_lt
      have hw : a.toNat / 4 < 64 := by omega
      have hx : a.toNat % 4 * 16 < 64 := by omega
      have hrest : a.toNat % 4 * 16 % 16 = 0 := by omega
      simp only [encodeChars, decodeChars, value_digit hw, value_digit hx, hrest,
        Option.bind_eq_bind, Option.bind_some, if_true, if_false, ne_eq, not_true_eq_false]
      rw [ofNat_eq (a := a) (by omega)]
  | case4 => rfl

theorem decode_encode (bs : Bytes) : decode (encode bs) = some bs := by
  rw [decode, encode, String.toList_ofList, decodeChars_encodeChars]

theorem length_encode (bs : Bytes) : (encode bs).toList.length = (bs.length + 2) / 3 * 4 := by
  rw [encode, String.toList_ofList]
  induction bs using encodeChars.induct with
  | case1 a b c bs ih =>
      simp only [encodeChars, List.length_cons, ih]
      omega
  | case2 a b => simp [encodeChars]
  | case3 a => simp [encodeChars]
  | case4 => rfl

theorem mem_encode {bs : Bytes} {ch : Char} (h : ch ∈ (encode bs).toList) : ch ∈ '=' :: alphabet := by
  rw [encode, String.toList_ofList] at h
  induction bs using encodeChars.induct with
  | case1 a b c bs ih =>
      have ha := a.toNat_lt
      have hb := b.toNat_lt
      have hc := c.toNat_lt
      simp only [encodeChars, List.mem_cons] at h
      rcases h with rfl | rfl | rfl | rfl | h
      · exact List.mem_cons_of_mem _ (digit_mem (by omega))
      · exact List.mem_cons_of_mem _ (digit_mem (by omega))
      · exact List.mem_cons_of_mem _ (digit_mem (by omega))
      · exact List.mem_cons_of_mem _ (digit_mem (by omega))
      · exact ih h
  | case2 a b =>
      have ha := a.toNat_lt
      have hb := b.toNat_lt
      simp only [encodeChars, List.mem_cons, List.not_mem_nil, or_false] at h
      rcases h with rfl | rfl | rfl | rfl
      · exact List.mem_cons_of_mem _ (digit_mem (by omega))
      · exact List.mem_cons_of_mem _ (digit_mem (by omega))
      · exact List.mem_cons_of_mem _ (digit_mem (by omega))
      · exact List.mem_cons_self
  | case3 a =>
      have ha := a.toNat_lt
      simp only [encodeChars, List.mem_cons, List.not_mem_nil, or_false] at h
      rcases h with rfl | rfl | rfl | rfl
      · exact List.mem_cons_of_mem _ (digit_mem (by omega))
      · exact List.mem_cons_of_mem _ (digit_mem (by omega))
      · exact List.mem_cons_self
      · exact List.mem_cons_self
  | case4 => exact absurd h List.not_mem_nil

end TriNet.Lib.Base64
