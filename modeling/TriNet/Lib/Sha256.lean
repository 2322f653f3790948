import TriNet.Lib.BigEndian

namespace TriNet.Lib.Sha256

/-! SHA-256 as FIPS 180-4 defines it. -/

open BigEndian

def rotateRight (x : UInt32) (n : Nat) : UInt32 := ⟨x.toBitVec.rotateRight n⟩

def ch (x y z : UInt32) : UInt32 := (x &&& y) ^^^ (~~~x &&& z)

def maj (x y z : UInt32) : UInt32 := (x &&& y) ^^^ (x &&& z) ^^^ (y &&& z)

def bigSigma0 (x : UInt32) : UInt32 := rotateRight x 2 ^^^ rotateRight x 13 ^^^ rotateRight x 22

def bigSigma1 (x : UInt32) : UInt32 := rotateRight x 6 ^^^ rotateRight x 11 ^^^ rotateRight x 25

def smallSigma0 (x : UInt32) : UInt32 := rotateRight x 7 ^^^ rotateRight x 18 ^^^ x >>> 3

def smallSigma1 (x : UInt32) : UInt32 := rotateRight x 17 ^^^ rotateRight x 19 ^^^ x >>> 10

def constants : List UInt32 := [
  0x428a2f98, 0x71374491, 0xb5c0fbcf, 0xe9b5dba5, 0x3956c25b, 0x59f111f1, 0x923f82a4, 0xab1c5ed5,
  0xd807aa98, 0x12835b01, 0x243185be, 0x550c7dc3, 0x72be5d74, 0x80deb1fe, 0x9bdc06a7, 0xc19bf174,
  0xe49b69c1, 0xefbe4786, 0x0fc19dc6, 0x240ca1cc, 0x2de92c6f, 0x4a7484aa, 0x5cb0a9dc, 0x76f988da,
  0x983e5152, 0xa831c66d, 0xb00327c8, 0xbf597fc7, 0xc6e00bf3, 0xd5a79147, 0x06ca6351, 0x14292967,
  0x27b70a85, 0x2e1b2138, 0x4d2c6dfc, 0x53380d13, 0x650a7354, 0x766a0abb, 0x81c2c92e, 0x92722c85,
  0xa2bfe8a1, 0xa81a664b, 0xc24b8b70, 0xc76c51a3, 0xd192e819, 0xd6990624, 0xf40e3585, 0x106aa070,
  0x19a4c116, 0x1e376c08, 0x2748774c, 0x34b0bcb5, 0x391c0cb3, 0x4ed8aa4a, 0x5b9cca4f, 0x682e6ff3,
  0x748f82ee, 0x78a5636f, 0x84c87814, 0x8cc70208, 0x90befffa, 0xa4506ceb, 0xbef9a3f7, 0xc67178f2]

structure State where
  a : UInt32
  b : UInt32
  c : UInt32
  d : UInt32
  e : UInt32
  f : UInt32
  g : UInt32
  h : UInt32
  deriving DecidableEq

def initial : State :=
  ⟨0x6a09e667, 0xbb67ae85, 0x3c6ef372, 0xa54ff53a, 0x510e527f, 0x9b05688c, 0x1f83d9ab, 0x5be0cd19⟩

def schedule (block : Nat → UInt32) (t : Nat) : UInt32 :=
  if t < 16 then block t
  else smallSigma1 (schedule block (t - 2)) + schedule block (t - 7) +
    smallSigma0 (schedule block (t - 15)) + schedule block (t - 16)

namespace State

def words (s : State) : List UInt32 := [s.a, s.b, s.c, s.d, s.e, s.f, s.g, s.h]

def round (s : State) (k w : UInt32) : State :=
  let t1 := s.h + bigSigma1 s.e + ch s.e s.f s.g + k + w
  let t2 := bigSigma0 s.a + maj s.a s.b s.c
  ⟨t1 + t2, s.a, s.b, s.c, s.d + t1, s.e, s.f, s.g⟩

def rounds (s : State) (block : Nat → UInt32) : Nat → State
  | 0 => s
  | t + 1 => (s.rounds block t).round (constants.getD t 0) (schedule block t)

def add (s r : State) : State :=
  ⟨s.a + r.a, s.b + r.b, s.c + r.c, s.d + r.d, s.e + r.e, s.f + r.f, s.g + r.g, s.h + r.h⟩

def compress (s : State) (block : Nat → UInt32) : State := s.add (s.rounds block 64)

end State

/-- The message, a one bit, as few zeros as fill up a block with the length in
bits at its end, and that length in eight bytes. -/
def pad (message : Bytes) : Bytes :=
  message ++ 0x80 :: List.replicate ((119 - message.length % 64) % 64) 0 ++ beBytes 8 (8 * message.length)

def word (bytes : Bytes) (i : Nat) : UInt32 := UInt32.ofNat (ofBe ((bytes.drop (4 * i)).take 4))

def hash (message : Bytes) : State :=
  (List.range ((pad message).length / 64)).foldl
    (fun s i => s.compress (fun t => word (pad message) (16 * i + t))) initial

section Constants

def primes : List Nat := [
  2, 3, 5, 7, 11, 13, 17, 19, 23, 29, 31, 37, 41, 43, 47, 53, 59, 61, 67, 71, 73, 79,
  83, 89, 97, 101, 103, 107, 109, 113, 127, 131, 137, 139, 149, 151, 157, 163, 167,
  173, 179, 181, 191, 193,
  197, 199, 211, 223, 227, 229, 233, 239, 241, 251, 257, 263, 269, 271, 277, 281, 283, 293, 307, 311]

/-- The round constants are the first bits of the fractional parts of the cube
roots of the first primes. -/
theorem constants_eq : constants.length = 64 ∧
    ∀ pk ∈ primes.zip constants, ∃ i < 7, (i * 2 ^ 32 + pk.2.toNat) ^ 3 ≤ pk.1 * 2 ^ 96 ∧
      pk.1 * 2 ^ 96 < (i * 2 ^ 32 + pk.2.toNat + 1) ^ 3 := by
  decide +kernel

theorem initial_eq :
    ∀ pk ∈ primes.zip initial.words, ∃ i < 5, (i * 2 ^ 32 + pk.2.toNat) ^ 2 ≤ pk.1 * 2 ^ 64 ∧
      pk.1 * 2 ^ 64 < (i * 2 ^ 32 + pk.2.toNat + 1) ^ 2 := by
  decide +kernel

end Constants

section Rounds

variable (s : State) {block block' : Nat → UInt32} {t : Nat} {k : UInt32}

theorem schedule_of_lt (h : t < 16) : schedule block t = block t := by
  rw [schedule, if_pos h]

theorem schedule_step (block : Nat → UInt32) (t : Nat) :
    smallSigma1 (schedule block (t + 14)) + schedule block (t + 9) +
      smallSigma0 (schedule block (t + 1)) + schedule block t = schedule block (t + 16) := by
  rw [schedule.eq_1 block (t + 16), if_neg (by omega)]
  rfl

theorem schedule_congr (h : ∀ t < 16, block t = block' t) (t : Nat) :
    schedule block t = schedule block' t := by
  induction t using Nat.strongRecOn with
  | ind t ih =>
      rw [schedule, schedule.eq_1 block']
      split
      · next ht => exact h t ht
      · next ht => rw [ih (t - 2) (by omega), ih (t - 7) (by omega), ih (t - 15) (by omega),
            ih (t - 16) (by omega)]

theorem compress_congr (h : ∀ t < 16, block t = block' t) : s.compress block = s.compress block' := by
  have hrounds (n : Nat) : s.rounds block n = s.rounds block' n := by
    induction n with
    | zero => rfl
    | succ n ih => rw [State.rounds, State.rounds, ih, schedule_congr h]
  rw [State.compress, State.compress, hrounds]

/-! A round moves six of the eight words on, so all states lie in two sequences:
`b`, `c` and `d` are earlier values of `a`, and `f`, `g` and `h` of `e`. -/

def seqA (block : Nat → UInt32) : Nat → UInt32
  | 0 => s.d
  | 1 => s.c
  | 2 => s.b
  | t + 3 => (s.rounds block t).a

def seqE (block : Nat → UInt32) : Nat → UInt32
  | 0 => s.h
  | 1 => s.g
  | 2 => s.f
  | t + 3 => (s.rounds block t).e

theorem rounds_eq (block : Nat → UInt32) (t : Nat) :
    s.rounds block t = ⟨seqA s block (t + 3), seqA s block (t + 2), seqA s block (t + 1), seqA s block t,
      seqE s block (t + 3), seqE s block (t + 2), seqE s block (t + 1), seqE s block t⟩ := by
  induction t with
  | zero => rfl
  | succ t ih =>
      have hmoved : s.rounds block (t + 1) =
          ⟨seqA s block (t + 4), (s.rounds block t).a, (s.rounds block t).b,
          (s.rounds block t).c, seqE s block (t + 4), (s.rounds block t).e, (s.rounds block t).f,
          (s.rounds block t).g⟩ := rfl
      rw [hmoved, ih]

theorem seqA_step (block : Nat → UInt32) (hk : k = constants.getD t 0) :
    seqE s block t + bigSigma1 (seqE s block (t + 3)) +
        ch (seqE s block (t + 3)) (seqE s block (t + 2)) (seqE s block (t + 1)) + k + schedule block t +
      (bigSigma0 (seqA s block (t + 3)) +
        maj (seqA s block (t + 3)) (seqA s block (t + 2)) (seqA s block (t + 1))) =
      seqA s block (t + 4) := by
  have hnext : seqA s block (t + 4) =
      ((s.rounds block t).round (constants.getD t 0) (schedule block t)).a := rfl
  rw [hnext, rounds_eq, hk]
  rfl

theorem seqE_step (block : Nat → UInt32) (hk : k = constants.getD t 0) :
    seqA s block t + (seqE s block t + bigSigma1 (seqE s block (t + 3)) +
        ch (seqE s block (t + 3)) (seqE s block (t + 2)) (seqE s block (t + 1)) + k + schedule block t) =
      seqE s block (t + 4) := by
  have hnext : seqE s block (t + 4) =
      ((s.rounds block t).round (constants.getD t 0) (schedule block t)).e := rfl
  rw [hnext, rounds_eq, hk]
  rfl

end Rounds

section Words

def bytesOf (ws : List UInt32) : Bytes := ws.flatMap (fun w => beBytes 4 w.toNat)

def padWords (ws : List UInt32) : List UInt32 :=
  ws ++ 0x80000000 :: List.replicate ((29 - ws.length % 16) % 16) 0 ++
    [UInt32.ofNat (32 * ws.length / 2 ^ 32), UInt32.ofNat (32 * ws.length)]

variable (ws : List UInt32)

@[simp] theorem length_bytesOf : (bytesOf ws).length = 4 * ws.length := by
  induction ws with
  | nil => rfl
  | cons w ws ih =>
      rw [bytesOf, List.flatMap_cons, List.length_append, beBytes_length, ← bytesOf, ih, List.length_cons]
      omega

theorem bytesOf_append (ws' : List UInt32) :
    bytesOf (ws ++ ws') = bytesOf ws ++ bytesOf ws' := List.flatMap_append

theorem word_bytesOf {i : Nat} (h : i < ws.length) : word (bytesOf ws) i = ws.getD i 0 := by
  induction ws generalizing i with
  | nil => exact absurd h (Nat.not_lt_zero i)
  | cons w ws ih =>
      have hcons : bytesOf (w :: ws) = beBytes 4 w.toNat ++ bytesOf ws := rfl
      cases i with
      | zero =>
          have hfirst : ((bytesOf (w :: ws)).drop (4 * 0)).take 4 = beBytes 4 w.toNat := by
            rw [hcons, Nat.mul_zero, List.drop_zero, List.take_left' (beBytes_length 4 _)]
          rw [word, hfirst, uint32_ofBe_beBytes]
          rfl
      | succ i =>
          have hrest : (bytesOf (w :: ws)).drop (4 * (i + 1)) = (bytesOf ws).drop (4 * i) := by
            rw [hcons, Nat.mul_succ, Nat.add_comm, ← List.drop_drop, List.drop_left' (beBytes_length 4 _)]
          rw [word, hrest]
          exact ih (Nat.lt_of_succ_lt_succ h)

theorem bytesOf_zeros (n : Nat) : bytesOf (List.replicate n 0) = List.replicate (4 * n) 0 := by
  induction n with
  | zero => rfl
  | succ n ih =>
      have hzero : bytesOf [0] = List.replicate 4 0 := by decide
      rw [List.replicate_succ, ← List.singleton_append, bytesOf_append, ih, hzero,
        List.replicate_append_replicate]
      congr 1
      omega

theorem beBytes_add (v w n : Nat) : beBytes (v + w) n = beBytes v (n / 256 ^ w) ++ beBytes w n := by
  induction v with
  | zero => simp [beBytes]
  | succ v ih => rw [Nat.succ_add, beBytes, beBytes, ih, Nat.div_div_eq_div_mul, ← pow_add,
      Nat.add_comm v w, List.cons_append]

theorem bytesOf_singleton_ofNat (n : Nat) : bytesOf [UInt32.ofNat n] = beBytes 4 n := by
  have hcut : (UInt32.ofNat n).toNat = n % 256 ^ 4 := UInt32.toNat_ofNat'
  rw [bytesOf, List.flatMap_singleton, hcut, beBytes_mod]

theorem pad_bytesOf : pad (bytesOf ws) = bytesOf (padWords ws) := by
  have hmark : bytesOf [0x80000000] = 0x80 :: List.replicate 3 0 := by decide
  have hzeros : (119 - 4 * ws.length % 64) % 64 = 3 + 4 * ((29 - ws.length % 16) % 16) := by omega
  have hlength : beBytes 8 (8 * (4 * ws.length)) =
      bytesOf [UInt32.ofNat (32 * ws.length / 2 ^ 32), UInt32.ofNat (32 * ws.length)] := by
    rw [← List.singleton_append, bytesOf_append, bytesOf_singleton_ofNat,
      bytesOf_singleton_ofNat, ← mul_assoc]
    exact beBytes_add 4 4 _
  have hmarked (n : Nat) :
      bytesOf (0x80000000 :: List.replicate n 0) = 0x80 :: List.replicate (3 + 4 * n) 0 := by
    rw [← List.singleton_append, bytesOf_append, hmark, bytesOf_zeros, List.cons_append,
      List.replicate_append_replicate]
  rw [pad, length_bytesOf, hzeros, hlength, padWords, bytesOf_append, bytesOf_append, hmarked]

theorem length_padWords : (padWords ws).length % 16 = 0 := by
  simp only [padWords, List.length_append, List.length_cons, List.length_replicate, List.length_nil]
  omega

theorem hash_bytesOf :
    hash (bytesOf ws) = (List.range ((padWords ws).length / 16)).foldl
      (fun s i => s.compress (fun t => (padWords ws).getD (16 * i + t) 0)) initial := by
  have hblocks : (pad (bytesOf ws)).length / 64 = (padWords ws).length / 16 := by
    rw [pad_bytesOf, length_bytesOf]
    omega
  rw [hash, hblocks]
  apply List.foldl_ext
  intro s i hi
  apply compress_congr
  intro t ht
  have hwhole := length_padWords ws
  have hi : i < (padWords ws).length / 16 := List.mem_range.mp hi
  rw [pad_bytesOf, word_bytesOf]
  omega

end Words

end TriNet.Lib.Sha256
