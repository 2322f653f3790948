import TriNet.Lib.BigEndian
import TriNet.Lib.Slices
import Mathlib.Algebra.Order.Field.Basic
import Mathlib.Analysis.Complex.Norm

namespace TriNet.Radio

open Lib.BigEndian Lib.Slices

structure Sample (K : Type) where
  re : K
  im : K
  deriving DecidableEq

section Modem

variable {K : Type} [Field K] [LinearOrder K]

namespace Sample

def add (a b : Sample K) : Sample K := ⟨a.re + b.re, a.im + b.im⟩

def scale (a : Sample K) (x : K) : Sample K := ⟨a.re * x, a.im * x⟩

/-- The square of `norm`; norms are only compared, with each other and with the
threshold. -/
def normSq (a : Sample K) : K := a.re * a.re + a.im * a.im

end Sample

def barker13 : List K := [1, 1, 1, 1, 1, -1, -1, 1, 1, -1, 1, -1, 1]

def syncThreshold : K := 8

def belowThreshold (c : Sample K) : Prop := c.normSq < syncThreshold * syncThreshold

instance (c : Sample K) : Decidable (belowThreshold c) := inferInstanceAs (Decidable (_ < _))

def pushByte (byte : UInt8) : List (Sample K) :=
  (List.range 8).map (fun i => ⟨if byte >>> UInt8.ofNat i &&& 1 = 1 then 1 else -1, 0⟩)

/-- `none` is the failed assertion. -/
def modulate (payload : Bytes) : Option (List (Sample K)) :=
  if payload.length ≤ 255 then
    some (barker13.map (fun c => ⟨c, 0⟩) ++ pushByte (UInt8.ofNat payload.length) ++
      payload.flatMap pushByte)
  else none

def corrAt (samples : List (Sample K)) (start : Nat) : Sample K :=
  barker13.zipIdx.foldl (fun c (chip, k) => c.add ((samples.getD (start + k) ⟨0, 0⟩).scale chip)) ⟨0, 0⟩

/-- The loop that climbs to the peak of the first excursion, from the positions
still to come. -/
def climb (samples : List (Sample K)) : List Nat → Nat × Sample K → Nat × Sample K
  | [], best => best
  | s :: rest, (start, corr) =>
      let c := corrAt samples s
      if belowThreshold c then (start, corr)
      else climb samples rest (if c.normSq > corr.normSq then (s, c) else (start, corr))

def lock (samples : List (Sample K)) : Option (Nat × Sample K) :=
  let last := samples.length - (barker13 (K := K)).length
  ((List.range (last + 1)).find? (fun start => ¬ belowThreshold (corrAt samples start))).map (fun start =>
    climb samples (List.range' (start + 1) (last - start)) (start, corrAt samples start))

def decodeByte (samples : List (Sample K)) (flip : Bool) (symStart : Nat) : UInt8 :=
  (List.range 8).foldl (fun v i =>
    let positive := decide ((samples.getD (symStart + i) ⟨0, 0⟩).re > 0)
    v ||| (if positive ^^ flip then 1 else 0) <<< UInt8.ofNat i) 0

def decode (samples : List (Sample K)) (flip : Bool) (symStart outLen : Nat) : Option Bytes :=
  if symStart + outLen * 8 > samples.length then none
  else some ((List.range outLen).map (fun bi => decodeByte samples flip (symStart + bi * 8)))

def demodulate (samples : List (Sample K)) : Option Bytes :=
  if samples.length < (barker13 (K := K)).length + 8 then none
  else do
    let (start, corr) ← lock samples
    let flip := decide (corr.re < 0)
    let data := start + (barker13 (K := K)).length
    let len ← decode samples flip data 1
    decode samples flip (data + 8) (len.getD 0 0).toNat

end Modem

section Norm

def Sample.toComplex (a : Sample ℝ) : ℂ := ⟨a.re, a.im⟩

theorem normSq_toComplex (a : Sample ℝ) : ‖a.toComplex‖ ^ 2 = a.normSq := Complex.sq_norm _

theorem belowThreshold_iff (c : Sample ℝ) : belowThreshold c ↔ ‖c.toComplex‖ < syncThreshold := by
  have hthreshold : (0 : ℝ) ≤ syncThreshold := by norm_num [syncThreshold]
  rw [belowThreshold, ← normSq_toComplex, ← sq, sq_lt_sq₀ (norm_nonneg _) hthreshold]

theorem normSq_lt_iff (a b : Sample ℝ) : a.normSq < b.normSq ↔ ‖a.toComplex‖ < ‖b.toComplex‖ := by
  rw [← normSq_toComplex, ← normSq_toComplex, sq_lt_sq₀ (norm_nonneg _) (norm_nonneg _)]

end Norm

section Correlation

variable {K : Type} [Field K]

def preamble (s : K) : List (Sample K) := barker13.map (fun c => (Sample.mk c 0).scale s)

theorem corrAt_zero (s : K) (rest : List (Sample K)) : corrAt (preamble s ++ rest) 0 = ⟨13 * s, 0⟩ := by
  simp [corrAt, preamble, barker13, Sample.add, Sample.scale]
  ring

/-- One sample later the chips cancel, and only the first bit of the length byte
is left. -/
theorem corrAt_one (s x : K) (rest : List (Sample K)) :
    corrAt (preamble s ++ ⟨x, 0⟩ :: rest) 1 = ⟨x, 0⟩ := by
  simp [corrAt, preamble, barker13, Sample.add, Sample.scale]

def IsSign (s : K) : Prop := s = 1 ∨ s = -1

theorem IsSign.mul_self {s : K} (hs : IsSign s) : s * s = 1 := by
  obtain rfl | rfl := hs
  · exact one_mul 1
  · exact (neg_mul_neg 1 1).trans (one_mul 1)

theorem IsSign.bit {s : K} (hs : IsSign s) (bit : Prop) [Decidable bit] :
    IsSign ((if bit then 1 else -1) * s) := by
  split
  · rwa [one_mul]
  · rw [neg_one_mul]
    obtain rfl | rfl := hs
    · exact .inr rfl
    · exact .inl (neg_neg 1)

theorem length_pushByte (byte : UInt8) : (pushByte (K := K) byte).length = 8 := by
  rw [pushByte, List.length_map, List.length_range]

def byteSymbols (s : K) (byte : UInt8) : List (Sample K) := (pushByte byte).map (fun x => x.scale s)

theorem length_byteSymbols (s : K) (byte : UInt8) : (byteSymbols s byte).length = 8 := by
  rw [byteSymbols, List.length_map, length_pushByte]

theorem byteSymbols_head {s : K} (hs : IsSign s) (byte : UInt8) :
    ∃ x rest, IsSign x ∧ byteSymbols s byte = ⟨x, 0⟩ :: rest := by
  refine ⟨_, (byteSymbols s byte).tail, hs.bit (byte >>> UInt8.ofNat 0 &&& 1 = 1), ?_⟩
  rw [byteSymbols, pushByte, List.range_succ_eq_map, List.map_cons, List.map_cons, Sample.scale,
    zero_mul, List.tail_cons]

end Correlation

section Reception

variable {K : Type} [Field K] [LinearOrder K] [IsStrictOrderedRing K] {s : K}

theorem not_below_preamble (hs : IsSign s) : ¬ belowThreshold (⟨13 * s, 0⟩ : Sample K) := by
  have hsq : 13 * s * (13 * s) = 169 * (s * s) := by ring
  simp only [belowThreshold, Sample.normSq, syncThreshold, hsq, hs.mul_self]
  norm_num

theorem below_bit {x : K} (hx : IsSign x) : belowThreshold (⟨x, 0⟩ : Sample K) := by
  simp only [belowThreshold, Sample.normSq, syncThreshold, hx.mul_self]
  norm_num

/-- The lock is on the preamble and does not move, whatever follows. -/
theorem lock_preamble (hs : IsSign s) {x : K} (hx : IsSign x) (rest : List (Sample K)) :
    lock (preamble s ++ ⟨x, 0⟩ :: rest) = some (0, ⟨13 * s, 0⟩) := by
  have hlast : (preamble s ++ ⟨x, 0⟩ :: rest).length - (barker13 (K := K)).length = rest.length + 1 := by
    simp [preamble]
  have hpeak : decide (¬ belowThreshold (corrAt (preamble s ++ ⟨x, 0⟩ :: rest) 0)) = true := by
    rw [corrAt_zero]
    exact decide_eq_true (not_below_preamble hs)
  have hfound : (List.range (rest.length + 1 + 1)).find?
      (fun start => ¬ belowThreshold (corrAt (preamble s ++ ⟨x, 0⟩ :: rest) start)) = some 0 := by
    rw [List.range_succ_eq_map]
    exact List.find?_cons_of_pos hpeak
  have hclimb : climb (preamble s ++ ⟨x, 0⟩ :: rest) (List.range' 1 (rest.length + 1)) (0, ⟨13 * s, 0⟩) =
      (0, ⟨13 * s, 0⟩) := by
    simp only [List.range'_succ, climb, corrAt_one, below_bit hx, if_true]
  rw [lock]
  simp only [hlast, hfound, Option.map_some, corrAt_zero]
  exact congrArg some hclimb

theorem foldl_bits (byte : UInt8) :
    (List.range 8).foldl (fun v i =>
      v ||| (if byte >>> UInt8.ofNat i &&& 1 = 1 then (1 : UInt8) else 0) <<< UInt8.ofNat i) 0 = byte := by
  have hall : ∀ n < 256, (List.range 8).foldl (fun v i =>
      v ||| (if UInt8.ofNat n >>> UInt8.ofNat i &&& 1 = 1 then (1 : UInt8)
        else 0) <<< UInt8.ofNat i) 0 = UInt8.ofNat n := by
    decide +kernel
  have hbyte := hall byte.toNat byte.toNat_lt
  rwa [UInt8.ofNat_toNat] at hbyte

theorem positive_xor_flip (hs : IsSign s) (bit : Prop) [Decidable bit] :
    (decide ((if bit then 1 else -1) * s > 0) ^^ decide (13 * s < 0)) = decide bit := by
  obtain rfl | rfl := hs
  · by_cases hbit : bit <;> norm_num [hbit]
  · by_cases hbit : bit <;> norm_num [hbit]

theorem decodeByte_byteSymbols (hs : IsSign s) {samples : List (Sample K)} {symStart : Nat}
    {byte : UInt8} (h : slice samples symStart (symStart + 8) = byteSymbols s byte) :
    decodeByte samples (decide (13 * s < 0)) symStart = byte := by
  refine Eq.trans ?_ (foldl_bits byte)
  apply List.foldl_ext
  intro v i hi
  have hi := List.mem_range.mp hi
  have hsample : samples.getD (symStart + i) ⟨0, 0⟩ =
      ⟨(if byte >>> UInt8.ofNat i &&& 1 = 1 then 1 else -1) * s, 0⟩ := by
    rw [← getD_slice (by omega : symStart + i < symStart + 8), h, byteSymbols, pushByte,
      List.map_map, List.getD_eq_getElem?_getD, List.getElem?_map, List.getElem?_range hi]
    simp [Sample.scale]
  dsimp only
  rw [hsample, positive_xor_flip hs]
  simp only [decide_eq_true_eq]

theorem decode_flatMap (hs : IsSign s) (a c : List (Sample K)) (bytes : Bytes) :
    decode (a ++ (bytes.flatMap (byteSymbols s) ++ c)) (decide (13 * s < 0)) a.length bytes.length =
      some bytes := by
  have hlen : (bytes.flatMap (byteSymbols s)).length = bytes.length * 8 := by
    rw [List.length_flatMap, List.map_congr_left (fun b _ => length_byteSymbols s b),
      List.map_const', List.sum_replicate_nat]
  rw [decode, if_neg (by rw [List.length_append, List.length_append, hlen]; omega)]
  congr 1
  apply List.ext_getElem
  · rw [List.length_map, List.length_range]
  · intro i hi hi'
    rw [List.getElem_map, List.getElem_range]
    exact decodeByte_byteSymbols hs (slice_flatMap (length_byteSymbols s) bytes hi')

def received (s : K) (payload : Bytes) (trailing : List (Sample K)) : List (Sample K) :=
  preamble s ++
    (byteSymbols s (UInt8.ofNat payload.length) ++ (payload.flatMap (byteSymbols s) ++ trailing))

theorem lock_received (hs : IsSign s) (payload : Bytes) (trailing : List (Sample K)) :
    lock (received s payload trailing) = some (0, ⟨13 * s, 0⟩) := by
  obtain ⟨x, rest, hx, hbits⟩ := byteSymbols_head hs (UInt8.ofNat payload.length)
  rw [received, hbits, List.cons_append]
  exact lock_preamble hs hx _

theorem demodulate_received (hs : IsSign s) (payload : Bytes) (hlen : payload.length ≤ 255)
    (trailing : List (Sample K)) : demodulate (received s payload trailing) = some payload := by
  have hpreamble : (preamble s).length = 13 := rfl
  have hlong : ¬ (received s payload trailing).length < (barker13 (K := K)).length + 8 := by
    rw [received, List.length_append, List.length_append, length_byteSymbols, hpreamble]
    change ¬ _ < 13 + 8
    omega
  have hcount : decode (received s payload trailing) (decide (13 * s < 0))
      (0 + (barker13 (K := K)).length) 1 =
      some [UInt8.ofNat payload.length] := by
    have h := decode_flatMap hs (preamble s) (payload.flatMap (byteSymbols s) ++ trailing)
      [UInt8.ofNat payload.length]
    rwa [List.flatMap_singleton] at h
  have hbytes : decode (received s payload trailing) (decide (13 * s < 0))
      (0 + (barker13 (K := K)).length + 8) payload.length = some payload := by
    have h := decode_flatMap hs (preamble s ++ byteSymbols s (UInt8.ofNat payload.length)) trailing payload
    rwa [List.append_assoc, List.length_append, length_byteSymbols, hpreamble] at h
  have hbyte : (UInt8.ofNat payload.length).toNat = payload.length :=
    UInt8.toNat_ofNat_of_lt' (Nat.lt_succ_of_le hlen)
  rw [demodulate, if_neg hlong, lock_received hs]
  simp only [Option.bind_eq_bind, Option.bind_some, hcount, List.getD_cons_zero, hbyte, hbytes]

end Reception

/-- Over exact samples every frame is read back through a channel that may turn
it by half a turn, whatever follows it: the lock stays at its first sample. -/
theorem demodulate_modulate {K : Type} [Field K] [LinearOrder K] [IsStrictOrderedRing K] (payload : Bytes)
    (hlen : payload.length ≤ 255) (s : K) (hs : s = 1 ∨ s = -1) (trailing : List (Sample K)) :
    ∃ frame, modulate payload = some frame ∧
      lock (frame.map (fun c => c.scale s) ++ trailing) = some (0, ⟨13 * s, 0⟩) ∧
      demodulate (frame.map (fun c => c.scale s) ++ trailing) = some payload := by
  have harrives : ∀ symbols : List (Sample K), symbols = barker13.map (fun c => ⟨c, 0⟩) ++
      pushByte (UInt8.ofNat payload.length) ++ payload.flatMap pushByte →
        symbols.map (fun c => c.scale s) ++ trailing = received s payload trailing := by
    rintro _ rfl
    rw [List.map_append, List.map_append, List.map_flatMap, List.map_map,
      List.append_assoc, List.append_assoc]
    rfl
  refine ⟨_, if_pos hlen, ?_⟩
  rw [harrives _ rfl]
  exact ⟨lock_received hs payload trailing, demodulate_received hs payload hlen trailing⟩

/-- A turned frame with samples behind it that are far louder than its own. -/
theorem demodulate_modulate_turned :
    ([0x74, 0x00, 0xff] : Bytes).length ≤ 255 ∧
      ∃ frame : List (Sample ℚ), modulate [0x74, 0x00, 0xff] = some frame ∧
        lock (frame.map (fun c => c.scale (-1)) ++ [⟨100, -7⟩, ⟨0, 1000⟩]) = some (0, ⟨13 * -1, 0⟩) ∧
        demodulate (frame.map (fun c => c.scale (-1)) ++ [⟨100, -7⟩, ⟨0, 1000⟩]) =
          some [0x74, 0x00, 0xff] :=
  ⟨by decide, demodulate_modulate _ (by decide) (-1) (.inr rfl) _⟩

end TriNet.Radio
