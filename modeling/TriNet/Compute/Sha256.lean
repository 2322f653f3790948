import TriNet.Lib.Sha256
import TriNet.Compute.Preimages
import Mathlib.Tactic.IntervalCases

namespace TriNet.Compute

open Lib

def rotr (x n : UInt32) : UInt32 := (x >>> n) ||| (x <<< (32 - n))

def shr (x n : UInt32) : UInt32 := x >>> n

def ch (x y z : UInt32) : UInt32 := (x &&& y) ^^^ ((x ^^^ 0xFFFFFFFF) &&& z)

def maj (x y z : UInt32) : UInt32 := (x &&& y) ^^^ (x &&& z) ^^^ (y &&& z)

def bsig0 (x : UInt32) : UInt32 := rotr x 2 ^^^ rotr x 13 ^^^ rotr x 22

def bsig1 (x : UInt32) : UInt32 := rotr x 6 ^^^ rotr x 11 ^^^ rotr x 25

def ssig0 (x : UInt32) : UInt32 := rotr x 7 ^^^ rotr x 18 ^^^ shr x 3

def ssig1 (x : UInt32) : UInt32 := rotr x 17 ^^^ rotr x 19 ^^^ shr x 10

set_option maxRecDepth 4000 in
/-- One block, with its 48 schedule words and 64 rounds written out. -/
def sha256Compress
    (s0 s1 s2 s3 s4 s5 s6 s7 w0 w1 w2 w3 w4 w5 w6 w7 w8 w9 w10 w11 w12 w13 w14 w15 which : UInt32) :
    UInt32 :=
  let w16 := ssig1 w14 + w9 + ssig0 w1 + w0; let w17 := ssig1 w15 + w10 + ssig0 w2 + w1
  let w18 := ssig1 w16 + w11 + ssig0 w3 + w2; let w19 := ssig1 w17 + w12 + ssig0 w4 + w3
  let w20 := ssig1 w18 + w13 + ssig0 w5 + w4; let w21 := ssig1 w19 + w14 + ssig0 w6 + w5
  let w22 := ssig1 w20 + w15 + ssig0 w7 + w6; let w23 := ssig1 w21 + w16 + ssig0 w8 + w7
  let w24 := ssig1 w22 + w17 + ssig0 w9 + w8; let w25 := ssig1 w23 + w18 + ssig0 w10 + w9
  let w26 := ssig1 w24 + w19 + ssig0 w11 + w10; let w27 := ssig1 w25 + w20 + ssig0 w12 + w11
  let w28 := ssig1 w26 + w21 + ssig0 w13 + w12; let w29 := ssig1 w27 + w22 + ssig0 w14 + w13
  let w30 := ssig1 w28 + w23 + ssig0 w15 + w14; let w31 := ssig1 w29 + w24 + ssig0 w16 + w15
  let w32 := ssig1 w30 + w25 + ssig0 w17 + w16; let w33 := ssig1 w31 + w26 + ssig0 w18 + w17
  let w34 := ssig1 w32 + w27 + ssig0 w19 + w18; let w35 := ssig1 w33 + w28 + ssig0 w20 + w19
  let w36 := ssig1 w34 + w29 + ssig0 w21 + w20; let w37 := ssig1 w35 + w30 + ssig0 w22 + w21
  let w38 := ssig1 w36 + w31 + ssig0 w23 + w22; let w39 := ssig1 w37 + w32 + ssig0 w24 + w23
  let w40 := ssig1 w38 + w33 + ssig0 w25 + w24; let w41 := ssig1 w39 + w34 + ssig0 w26 + w25
  let w42 := ssig1 w40 + w35 + ssig0 w27 + w26; let w43 := ssig1 w41 + w36 + ssig0 w28 + w27
  let w44 := ssig1 w42 + w37 + ssig0 w29 + w28; let w45 := ssig1 w43 + w38 + ssig0 w30 + w29
  let w46 := ssig1 w44 + w39 + ssig0 w31 + w30; let w47 := ssig1 w45 + w40 + ssig0 w32 + w31
  let w48 := ssig1 w46 + w41 + ssig0 w33 + w32; let w49 := ssig1 w47 + w42 + ssig0 w34 + w33
  let w50 := ssig1 w48 + w43 + ssig0 w35 + w34; let w51 := ssig1 w49 + w44 + ssig0 w36 + w35
  let w52 := ssig1 w50 + w45 + ssig0 w37 + w36; let w53 := ssig1 w51 + w46 + ssig0 w38 + w37
  let w54 := ssig1 w52 + w47 + ssig0 w39 + w38; let w55 := ssig1 w53 + w48 + ssig0 w40 + w39
  let w56 := ssig1 w54 + w49 + ssig0 w41 + w40; let w57 := ssig1 w55 + w50 + ssig0 w42 + w41
  let w58 := ssig1 w56 + w51 + ssig0 w43 + w42; let w59 := ssig1 w57 + w52 + ssig0 w44 + w43
  let w60 := ssig1 w58 + w53 + ssig0 w45 + w44; let w61 := ssig1 w59 + w54 + ssig0 w46 + w45
  let w62 := ssig1 w60 + w55 + ssig0 w47 + w46; let w63 := ssig1 w61 + w56 + ssig0 w48 + w47
  let a0 := s0; let b0 := s1; let c0 := s2; let d0 := s3
  let e0 := s4; let f0 := s5; let g0 := s6; let h0 := s7
  let t1_0 := h0 + bsig1 e0 + ch e0 f0 g0 + 0x428A2F98 + w0; let t2_0 := bsig0 a0 + maj a0 b0 c0
  let a1 := t1_0 + t2_0; let b1 := a0; let c1 := b0; let d1 := c0
  let e1 := d0 + t1_0; let f1 := e0; let g1 := f0; let h1 := g0
  let t1_1 := h1 + bsig1 e1 + ch e1 f1 g1 + 0x71374491 + w1; let t2_1 := bsig0 a1 + maj a1 b1 c1
  let a2 := t1_1 + t2_1; let b2 := a1; let c2 := b1; let d2 := c1
  let e2 := d1 + t1_1; let f2 := e1; let g2 := f1; let h2 := g1
  let t1_2 := h2 + bsig1 e2 + ch e2 f2 g2 + 0xB5C0FBCF + w2; let t2_2 := bsig0 a2 + maj a2 b2 c2
  let a3 := t1_2 + t2_2; let b3 := a2; let c3 := b2; let d3 := c2
  let e3 := d2 + t1_2; let f3 := e2; let g3 := f2; let h3 := g2
  let t1_3 := h3 + bsig1 e3 + ch e3 f3 g3 + 0xE9B5DBA5 + w3; let t2_3 := bsig0 a3 + maj a3 b3 c3
  let a4 := t1_3 + t2_3; let b4 := a3; let c4 := b3; let d4 := c3
  let e4 := d3 + t1_3; let f4 := e3; let g4 := f3; let h4 := g3
  let t1_4 := h4 + bsig1 e4 + ch e4 f4 g4 + 0x3956C25B + w4; let t2_4 := bsig0 a4 + maj a4 b4 c4
  let a5 := t1_4 + t2_4; let b5 := a4; let c5 := b4; let d5 := c4
  let e5 := d4 + t1_4; let f5 := e4; let g5 := f4; let h5 := g4
  let t1_5 := h5 + bsig1 e5 + ch e5 f5 g5 + 0x59F111F1 + w5; let t2_5 := bsig0 a5 + maj a5 b5 c5
  let a6 := t1_5 + t2_5; let b6 := a5; let c6 := b5; let d6 := c5
  let e6 := d5 + t1_5; let f6 := e5; let g6 := f5; let h6 := g5
  let t1_6 := h6 + bsig1 e6 + ch e6 f6 g6 + 0x923F82A4 + w6; let t2_6 := bsig0 a6 + maj a6 b6 c6
  let a7 := t1_6 + t2_6; let b7 := a6; let c7 := b6; let d7 := c6
  let e7 := d6 + t1_6; let f7 := e6; let g7 := f6; let h7 := g6
  let t1_7 := h7 + bsig1 e7 + ch e7 f7 g7 + 0xAB1C5ED5 + w7; let t2_7 := bsig0 a7 + maj a7 b7 c7
  let a8 := t1_7 + t2_7; let b8 := a7; let c8 := b7; let d8 := c7
  let e8 := d7 + t1_7; let f8 := e7; let g8 := f7; let h8 := g7
  let t1_8 := h8 + bsig1 e8 + ch e8 f8 g8 + 0xD807AA98 + w8; let t2_8 := bsig0 a8 + maj a8 b8 c8
  let a9 := t1_8 + t2_8; let b9 := a8; let c9 := b8; let d9 := c8
  let e9 := d8 + t1_8; let f9 := e8; let g9 := f8; let h9 := g8
  let t1_9 := h9 + bsig1 e9 + ch e9 f9 g9 + 0x12835B01 + w9; let t2_9 := bsig0 a9 + maj a9 b9 c9
  let a10 := t1_9 + t2_9; let b10 := a9; let c10 := b9; let d10 := c9
  let e10 := d9 + t1_9; let f10 := e9; let g10 := f9; let h10 := g9
  let t1_10 := h10 + bsig1 e10 + ch e10 f10 g10 + 0x243185BE + w10
  let t2_10 := bsig0 a10 + maj a10 b10 c10
  let a11 := t1_10 + t2_10; let b11 := a10; let c11 := b10; let d11 := c10
  let e11 := d10 + t1_10; let f11 := e10; let g11 := f10; let h11 := g10
  let t1_11 := h11 + bsig1 e11 + ch e11 f11 g11 + 0x550C7DC3 + w11
  let t2_11 := bsig0 a11 + maj a11 b11 c11
  let a12 := t1_11 + t2_11; let b12 := a11; let c12 := b11; let d12 := c11
  let e12 := d11 + t1_11; let f12 := e11; let g12 := f11; let h12 := g11
  let t1_12 := h12 + bsig1 e12 + ch e12 f12 g12 + 0x72BE5D74 + w12
  let t2_12 := bsig0 a12 + maj a12 b12 c12
  let a13 := t1_12 + t2_12; let b13 := a12; let c13 := b12; let d13 := c12
  let e13 := d12 + t1_12; let f13 := e12; let g13 := f12; let h13 := g12
  let t1_13 := h13 + bsig1 e13 + ch e13 f13 g13 + 0x80DEB1FE + w13
  let t2_13 := bsig0 a13 + maj a13 b13 c13
  let a14 := t1_13 + t2_13; let b14 := a13; let c14 := b13; let d14 := c13
  let e14 := d13 + t1_13; let f14 := e13; let g14 := f13; let h14 := g13
  let t1_14 := h14 + bsig1 e14 + ch e14 f14 g14 + 0x9BDC06A7 + w14
  let t2_14 := bsig0 a14 + maj a14 b14 c14
  let a15 := t1_14 + t2_14; let b15 := a14; let c15 := b14; let d15 := c14
  let e15 := d14 + t1_14; let f15 := e14; let g15 := f14; let h15 := g14
  let t1_15 := h15 + bsig1 e15 + ch e15 f15 g15 + 0xC19BF174 + w15
  let t2_15 := bsig0 a15 + maj a15 b15 c15
  let a16 := t1_15 + t2_15; let b16 := a15; let c16 := b15; let d16 := c15
  let e16 := d15 + t1_15; let f16 := e15; let g16 := f15; let h16 := g15
  let t1_16 := h16 + bsig1 e16 + ch e16 f16 g16 + 0xE49B69C1 + w16
  let t2_16 := bsig0 a16 + maj a16 b16 c16
  let a17 := t1_16 + t2_16; let b17 := a16; let c17 := b16; let d17 := c16
  let e17 := d16 + t1_16; let f17 := e16; let g17 := f16; let h17 := g16
  let t1_17 := h17 + bsig1 e17 + ch e17 f17 g17 + 0xEFBE4786 + w17
  let t2_17 := bsig0 a17 + maj a17 b17 c17
  let a18 := t1_17 + t2_17; let b18 := a17; let c18 := b17; let d18 := c17
  let e18 := d17 + t1_17; let f18 := e17; let g18 := f17; let h18 := g17
  let t1_18 := h18 + bsig1 e18 + ch e18 f18 g18 + 0x0FC19DC6 + w18
  let t2_18 := bsig0 a18 + maj a18 b18 c18
  let a19 := t1_18 + t2_18; let b19 := a18; let c19 := b18; let d19 := c18
  let e19 := d18 + t1_18; let f19 := e18; let g19 := f18; let h19 := g18
  let t1_19 := h19 + bsig1 e19 + ch e19 f19 g19 + 0x240CA1CC + w19
  let t2_19 := bsig0 a19 + maj a19 b19 c19
  let a20 := t1_19 + t2_19; let b20 := a19; let c20 := b19; let d20 := c19
  let e20 := d19 + t1_19; let f20 := e19; let g20 := f19; let h20 := g19
  let t1_20 := h20 + bsig1 e20 + ch e20 f20 g20 + 0x2DE92C6F + w20
  let t2_20 := bsig0 a20 + maj a20 b20 c20
  let a21 := t1_20 + t2_20; let b21 := a20; let c21 := b20; let d21 := c20
  let e21 := d20 + t1_20; let f21 := e20; let g21 := f20; let h21 := g20
  let t1_21 := h21 + bsig1 e21 + ch e21 f21 g21 + 0x4A7484AA + w21
  let t2_21 := bsig0 a21 + maj a21 b21 c21
  let a22 := t1_21 + t2_21; let b22 := a21; let c22 := b21; let d22 := c21
  let e22 := d21 + t1_21; let f22 := e21; let g22 := f21; let h22 := g21
  let t1_22 := h22 + bsig1 e22 + ch e22 f22 g22 + 0x5CB0A9DC + w22
  let t2_22 := bsig0 a22 + maj a22 b22 c22
  let a23 := t1_22 + t2_22; let b23 := a22; let c23 := b22; let d23 := c22
  let e23 := d22 + t1_22; let f23 := e22; let g23 := f22; let h23 := g22
  let t1_23 := h23 + bsig1 e23 + ch e23 f23 g23 + 0x76F988DA + w23
  let t2_23 := bsig0 a23 + maj a23 b23 c23
  let a24 := t1_23 + t2_23; let b24 := a23; let c24 := b23; let d24 := c23
  let e24 := d23 + t1_23; let f24 := e23; let g24 := f23; let h24 := g23
  let t1_24 := h24 + bsig1 e24 + ch e24 f24 g24 + 0x983E5152 + w24
  let t2_24 := bsig0 a24 + maj a24 b24 c24
  let a25 := t1_24 + t2_24; let b25 := a24; let c25 := b24; let d25 := c24
  let e25 := d24 + t1_24; let f25 := e24; let g25 := f24; let h25 := g24
  let t1_25 := h25 + bsig1 e25 + ch e25 f25 g25 + 0xA831C66D + w25
  let t2_25 := bsig0 a25 + maj a25 b25 c25
  let a26 := t1_25 + t2_25; let b26 := a25; let c26 := b25; let d26 := c25
  let e26 := d25 + t1_25; let f26 := e25; let g26 := f25; let h26 := g25
  let t1_26 := h26 + bsig1 e26 + ch e26 f26 g26 + 0xB00327C8 + w26
  let t2_26 := bsig0 a26 + maj a26 b26 c26
  let a27 := t1_26 + t2_26; let b27 := a26; let c27 := b26; let d27 := c26
  let e27 := d26 + t1_26; let f27 := e26; let g27 := f26; let h27 := g26
  let t1_27 := h27 + bsig1 e27 + ch e27 f27 g27 + 0xBF597FC7 + w27
  let t2_27 := bsig0 a27 + maj a27 b27 c27
  let a28 := t1_27 + t2_27; let b28 := a27; let c28 := b27; let d28 := c27
  let e28 := d27 + t1_27; let f28 := e27; let g28 := f27; let h28 := g27
  let t1_28 := h28 + bsig1 e28 + ch e28 f28 g28 + 0xC6E00BF3 + w28
  let t2_28 := bsig0 a28 + maj a28 b28 c28
  let a29 := t1_28 + t2_28; let b29 := a28; let c29 := b28; let d29 := c28
  let e29 := d28 + t1_28; let f29 := e28; let g29 := f28; let h29 := g28
  let t1_29 := h29 + bsig1 e29 + ch e29 f29 g29 + 0xD5A79147 + w29
  let t2_29 := bsig0 a29 + maj a29 b29 c29
  let a30 := t1_29 + t2_29; let b30 := a29; let c30 := b29; let d30 := c29
  let e30 := d29 + t1_29; let f30 := e29; let g30 := f29; let h30 := g29
  let t1_30 := h30 + bsig1 e30 + ch e30 f30 g30 + 0x06CA6351 + w30
  let t2_30 := bsig0 a30 + maj a30 b30 c30
  let a31 := t1_30 + t2_30; let b31 := a30; let c31 := b30; let d31 := c30
  let e31 := d30 + t1_30; let f31 := e30; let g31 := f30; let h31 := g30
  let t1_31 := h31 + bsig1 e31 + ch e31 f31 g31 + 0x14292967 + w31
  let t2_31 := bsig0 a31 + maj a31 b31 c31
  let a32 := t1_31 + t2_31; let b32 := a31; let c32 := b31; let d32 := c31
  let e32 := d31 + t1_31; let f32 := e31; let g32 := f31; let h32 := g31
  let t1_32 := h32 + bsig1 e32 + ch e32 f32 g32 + 0x27B70A85 + w32
  let t2_32 := bsig0 a32 + maj a32 b32 c32
  let a33 := t1_32 + t2_32; let b33 := a32; let c33 := b32; let d33 := c32
  let e33 := d32 + t1_32; let f33 := e32; let g33 := f32; let h33 := g32
  let t1_33 := h33 + bsig1 e33 + ch e33 f33 g33 + 0x2E1B2138 + w33
  let t2_33 := bsig0 a33 + maj a33 b33 c33
  let a34 := t1_33 + t2_33; let b34 := a33; let c34 := b33; let d34 := c33
  let e34 := d33 + t1_33; let f34 := e33; let g34 := f33; let h34 := g33
  let t1_34 := h34 + bsig1 e34 + ch e34 f34 g34 + 0x4D2C6DFC + w34
  let t2_34 := bsig0 a34 + maj a34 b34 c34
  let a35 := t1_34 + t2_34; let b35 := a34; let c35 := b34; let d35 := c34
  let e35 := d34 + t1_34; let f35 := e34; let g35 := f34; let h35 := g34
  let t1_35 := h35 + bsig1 e35 + ch e35 f35 g35 + 0x53380D13 + w35
  let t2_35 := bsig0 a35 + maj a35 b35 c35
  let a36 := t1_35 + t2_35; let b36 := a35; let c36 := b35; let d36 := c35
  let e36 := d35 + t1_35; let f36 := e35; let g36 := f35; let h36 := g35
  let t1_36 := h36 + bsig1 e36 + ch e36 f36 g36 + 0x650A7354 + w36
  let t2_36 := bsig0 a36 + maj a36 b36 c36
  let a37 := t1_36 + t2_36; let b37 := a36; let c37 := b36; let d37 := c36
  let e37 := d36 + t1_36; let f37 := e36; let g37 := f36; let h37 := g36
  let t1_37 := h37 + bsig1 e37 + ch e37 f37 g37 + 0x766A0ABB + w37
  let t2_37 := bsig0 a37 + maj a37 b37 c37
  let a38 := t1_37 + t2_37; let b38 := a37; let c38 := b37; let d38 := c37
  let e38 := d37 + t1_37; let f38 := e37; let g38 := f37; let h38 := g37
  let t1_38 := h38 + bsig1 e38 + ch e38 f38 g38 + 0x81C2C92E + w38
  let t2_38 := bsig0 a38 + maj a38 b38 c38
  let a39 := t1_38 + t2_38; let b39 := a38; let c39 := b38; let d39 := c38
  let e39 := d38 + t1_38; let f39 := e38; let g39 := f38; let h39 := g38
  let t1_39 := h39 + bsig1 e39 + ch e39 f39 g39 + 0x92722C85 + w39
  let t2_39 := bsig0 a39 + maj a39 b39 c39
  let a40 := t1_39 + t2_39; let b40 := a39; let c40 := b39; let d40 := c39
  let e40 := d39 + t1_39; let f40 := e39; let g40 := f39; let h40 := g39
  let t1_40 := h40 + bsig1 e40 + ch e40 f40 g40 + 0xA2BFE8A1 + w40
  let t2_40 := bsig0 a40 + maj a40 b40 c40
  let a41 := t1_40 + t2_40; let b41 := a40; let c41 := b40; let d41 := c40
  let e41 := d40 + t1_40; let f41 := e40; let g41 := f40; let h41 := g40
  let t1_41 := h41 + bsig1 e41 + ch e41 f41 g41 + 0xA81A664B + w41
  let t2_41 := bsig0 a41 + maj a41 b41 c41
  let a42 := t1_41 + t2_41; let b42 := a41; let c42 := b41; let d42 := c41
  let e42 := d41 + t1_41; let f42 := e41; let g42 := f41; let h42 := g41
  let t1_42 := h42 + bsig1 e42 + ch e42 f42 g42 + 0xC24B8B70 + w42
  let t2_42 := bsig0 a42 + maj a42 b42 c42
  let a43 := t1_42 + t2_42; let b43 := a42; let c43 := b42; let d43 := c42
  let e43 := d42 + t1_42; let f43 := e42; let g43 := f42; let h43 := g42
  let t1_43 := h43 + bsig1 e43 + ch e43 f43 g43 + 0xC76C51A3 + w43
  let t2_43 := bsig0 a43 + maj a43 b43 c43
  let a44 := t1_43 + t2_43; let b44 := a43; let c44 := b43; let d44 := c43
  let e44 := d43 + t1_43; let f44 := e43; let g44 := f43; let h44 := g43
  let t1_44 := h44 + bsig1 e44 + ch e44 f44 g44 + 0xD192E819 + w44
  let t2_44 := bsig0 a44 + maj a44 b44 c44
  let a45 := t1_44 + t2_44; let b45 := a44; let c45 := b44; let d45 := c44
  let e45 := d44 + t1_44; let f45 := e44; let g45 := f44; let h45 := g44
  let t1_45 := h45 + bsig1 e45 + ch e45 f45 g45 + 0xD6990624 + w45
  let t2_45 := bsig0 a45 + maj a45 b45 c45
  let a46 := t1_45 + t2_45; let b46 := a45; let c46 := b45; let d46 := c45
  let e46 := d45 + t1_45; let f46 := e45; let g46 := f45; let h46 := g45
  let t1_46 := h46 + bsig1 e46 + ch e46 f46 g46 + 0xF40E3585 + w46
  let t2_46 := bsig0 a46 + maj a46 b46 c46
  let a47 := t1_46 + t2_46; let b47 := a46; let c47 := b46; let d47 := c46
  let e47 := d46 + t1_46; let f47 := e46; let g47 := f46; let h47 := g46
  let t1_47 := h47 + bsig1 e47 + ch e47 f47 g47 + 0x106AA070 + w47
  let t2_47 := bsig0 a47 + maj a47 b47 c47
  let a48 := t1_47 + t2_47; let b48 := a47; let c48 := b47; let d48 := c47
  let e48 := d47 + t1_47; let f48 := e47; let g48 := f47; let h48 := g47
  let t1_48 := h48 + bsig1 e48 + ch e48 f48 g48 + 0x19A4C116 + w48
  let t2_48 := bsig0 a48 + maj a48 b48 c48
  let a49 := t1_48 + t2_48; let b49 := a48; let c49 := b48; let d49 := c48
  let e49 := d48 + t1_48; let f49 := e48; let g49 := f48; let h49 := g48
  let t1_49 := h49 + bsig1 e49 + ch e49 f49 g49 + 0x1E376C08 + w49
  let t2_49 := bsig0 a49 + maj a49 b49 c49
  let a50 := t1_49 + t2_49; let b50 := a49; let c50 := b49; let d50 := c49
  let e50 := d49 + t1_49; let f50 := e49; let g50 := f49; let h50 := g49
  let t1_50 := h50 + bsig1 e50 + ch e50 f50 g50 + 0x2748774C + w50
  let t2_50 := bsig0 a50 + maj a50 b50 c50
  let a51 := t1_50 + t2_50; let b51 := a50; let c51 := b50; let d51 := c50
  let e51 := d50 + t1_50; let f51 := e50; let g51 := f50; let h51 := g50
  let t1_51 := h51 + bsig1 e51 + ch e51 f51 g51 + 0x34B0BCB5 + w51
  let t2_51 := bsig0 a51 + maj a51 b51 c51
  let a52 := t1_51 + t2_51; let b52 := a51; let c52 := b51; let d52 := c51
  let e52 := d51 + t1_51; let f52 := e51; let g52 := f51; let h52 := g51
  let t1_52 := h52 + bsig1 e52 + ch e52 f52 g52 + 0x391C0CB3 + w52
  let t2_52 := bsig0 a52 + maj a52 b52 c52
  let a53 := t1_52 + t2_52; let b53 := a52; let c53 := b52; let d53 := c52
  let e53 := d52 + t1_52; let f53 := e52; let g53 := f52; let h53 := g52
  let t1_53 := h53 + bsig1 e53 + ch e53 f53 g53 + 0x4ED8AA4A + w53
  let t2_53 := bsig0 a53 + maj a53 b53 c53
  let a54 := t1_53 + t2_53; let b54 := a53; let c54 := b53; let d54 := c53
  let e54 := d53 + t1_53; let f54 := e53; let g54 := f53; let h54 := g53
  let t1_54 := h54 + bsig1 e54 + ch e54 f54 g54 + 0x5B9CCA4F + w54
  let t2_54 := bsig0 a54 + maj a54 b54 c54
  let a55 := t1_54 + t2_54; let b55 := a54; let c55 := b54; let d55 := c54
  let e55 := d54 + t1_54; let f55 := e54; let g55 := f54; let h55 := g54
  let t1_55 := h55 + bsig1 e55 + ch e55 f55 g55 + 0x682E6FF3 + w55
  let t2_55 := bsig0 a55 + maj a55 b55 c55
  let a56 := t1_55 + t2_55; let b56 := a55; let c56 := b55; let d56 := c55
  let e56 := d55 + t1_55; let f56 := e55; let g56 := f55; let h56 := g55
  let t1_56 := h56 + bsig1 e56 + ch e56 f56 g56 + 0x748F82EE + w56
  let t2_56 := bsig0 a56 + maj a56 b56 c56
  let a57 := t1_56 + t2_56; let b57 := a56; let c57 := b56; let d57 := c56
  let e57 := d56 + t1_56; let f57 := e56; let g57 := f56; let h57 := g56
  let t1_57 := h57 + bsig1 e57 + ch e57 f57 g57 + 0x78A5636F + w57
  let t2_57 := bsig0 a57 + maj a57 b57 c57
  let a58 := t1_57 + t2_57; let b58 := a57; let c58 := b57; let d58 := c57
  let e58 := d57 + t1_57; let f58 := e57; let g58 := f57; let h58 := g57
  let t1_58 := h58 + bsig1 e58 + ch e58 f58 g58 + 0x84C87814 + w58
  let t2_58 := bsig0 a58 + maj a58 b58 c58
  let a59 := t1_58 + t2_58; let b59 := a58; let c59 := b58; let d59 := c58
  let e59 := d58 + t1_58; let f59 := e58; let g59 := f58; let h59 := g58
  let t1_59 := h59 + bsig1 e59 + ch e59 f59 g59 + 0x8CC70208 + w59
  let t2_59 := bsig0 a59 + maj a59 b59 c59
  let a60 := t1_59 + t2_59; let b60 := a59; let c60 := b59; let d60 := c59
  let e60 := d59 + t1_59; let f60 := e59; let g60 := f59; let h60 := g59
  let t1_60 := h60 + bsig1 e60 + ch e60 f60 g60 + 0x90BEFFFA + w60
  let t2_60 := bsig0 a60 + maj a60 b60 c60
  let a61 := t1_60 + t2_60; let b61 := a60; let c61 := b60; let d61 := c60
  let e61 := d60 + t1_60; let f61 := e60; let g61 := f60; let h61 := g60
  let t1_61 := h61 + bsig1 e61 + ch e61 f61 g61 + 0xA4506CEB + w61
  let t2_61 := bsig0 a61 + maj a61 b61 c61
  let a62 := t1_61 + t2_61; let b62 := a61; let c62 := b61; let d62 := c61
  let e62 := d61 + t1_61; let f62 := e61; let g62 := f61; let h62 := g61
  let t1_62 := h62 + bsig1 e62 + ch e62 f62 g62 + 0xBEF9A3F7 + w62
  let t2_62 := bsig0 a62 + maj a62 b62 c62
  let a63 := t1_62 + t2_62; let b63 := a62; let c63 := b62; let d63 := c62
  let e63 := d62 + t1_62; let f63 := e62; let g63 := f62; let h63 := g62
  let t1_63 := h63 + bsig1 e63 + ch e63 f63 g63 + 0xC67178F2 + w63
  let t2_63 := bsig0 a63 + maj a63 b63 c63
  let a64 := t1_63 + t2_63; let b64 := a63; let c64 := b63; let d64 := c63
  let e64 := d63 + t1_63; let f64 := e63; let g64 := f63; let h64 := g63
  let out0 := s0 + a64; let out1 := s1 + b64; let out2 := s2 + c64; let out3 := s3 + d64
  let out4 := s4 + e64; let out5 := s5 + f64; let out6 := s6 + g64; let out7 := s7 + h64
  if which = 0 then out0
  else if which = 1 then out1
  else if which = 2 then out2
  else if which = 3 then out3
  else if which = 4 then out4
  else if which = 5 then out5
  else if which = 6 then out6
  else out7

def sha256Word (w0 w1 w2 w3 w4 w5 w6 w7 w8 w9 w10 w11 w12 w13 w14 w15 which : UInt32) : UInt32 :=
  sha256Compress 0x6A09E667 0xBB67AE85 0x3C6EF372 0xA54FF53A 0x510E527F 0x9B05688C 0x1F83D9AB
    0x5BE0CD19 w0 w1 w2 w3 w4 w5 w6 w7 w8 w9 w10 w11 w12 w13 w14 w15 which

def shaPadMark : UInt32 := 0x80000000

def sha256Pad2Word (idx totalBits : UInt32) : UInt32 :=
  if idx = 0 then shaPadMark
  else if idx = 15 then totalBits
  else 0

section Blocks

def Hash256.state (h : Hash256) : Sha256.State := ⟨h.w0, h.w1, h.w2, h.w3, h.w4, h.w5, h.w6, h.w7⟩

def compressBlock (s : Hash256) (block : Nat → UInt32) (which : UInt32) : UInt32 :=
  sha256Compress s.w0 s.w1 s.w2 s.w3 s.w4 s.w5 s.w6 s.w7 (block 0) (block 1) (block 2)
    (block 3) (block 4) (block 5)
    (block 6) (block 7) (block 8) (block 9) (block 10) (block 11) (block 12) (block 13)
      (block 14) (block 15) which

def wordBlock (block : Nat → UInt32) (which : UInt32) : UInt32 :=
  sha256Word (block 0) (block 1) (block 2) (block 3) (block 4) (block 5) (block 6) (block 7)
    (block 8) (block 9) (block 10) (block 11) (block 12) (block 13) (block 14) (block 15) which

/-- All eight words of the first block, which the second starts from. -/
def wordState (block : Nat → UInt32) : Hash256 :=
  ⟨wordBlock block 0, wordBlock block 1, wordBlock block 2, wordBlock block 3, wordBlock block 4,
    wordBlock block 5, wordBlock block 6, wordBlock block 7⟩

def Preimage.digest (p : Preimage) (which : UInt32) : UInt32 :=
  let w := fun i => p.pre (UInt32.ofNat i)
  if p.blocks = 1 then wordBlock w which else compressBlock (wordState w) (fun i => w (16 + i)) which

/-- The step of the ledger head: two full values and a block of padding. -/
def chainHead (prev leaf : Hash256) (which : UInt32) : UInt32 :=
  compressBlock (wordState (fun i => (prev.words ++ leaf.words).getD i 0))
    (fun i => sha256Pad2Word (UInt32.ofNat i) 512) which

end Blocks

section Functions

variable (x y z : UInt32)

theorem rotr_eq {n : UInt32} (hpos : 0 < n.toNat) (hlt : n.toNat < 32) :
    rotr x n = Sha256.rotateRight x n.toNat := by
  have hback : (32 - n).toNat % 32 = 32 - n.toNat := by
    rw [UInt32.toNat_sub_of_le _ _ (UInt32.le_iff_toNat_le.mpr hlt.le)]
    exact Nat.mod_eq_of_lt (by simp; omega)
  apply UInt32.toBitVec_inj.mp
  have hn : (n.toBitVec % 32).toNat = n.toNat := Nat.mod_eq_of_lt hlt
  have hr : ((32 - n).toBitVec % 32).toNat = 32 - n.toNat := hback
  rw [rotr, UInt32.toBitVec_or, UInt32.toBitVec_shiftLeft, UInt32.toBitVec_shiftRight,
    BitVec.shiftLeft_eq',
    BitVec.ushiftRight_eq', hn, hr, Sha256.rotateRight, BitVec.rotateRight_def, Nat.mod_eq_of_lt hlt]

theorem bsig0_eq : bsig0 x = Sha256.bigSigma0 x := by
  rw [bsig0, rotr_eq x (by decide) (by decide), rotr_eq x (by decide) (by decide),
    rotr_eq x (by decide) (by decide)]
  rfl

theorem bsig1_eq : bsig1 x = Sha256.bigSigma1 x := by
  rw [bsig1, rotr_eq x (by decide) (by decide), rotr_eq x (by decide) (by decide),
    rotr_eq x (by decide) (by decide)]
  rfl

theorem ssig0_eq : ssig0 x = Sha256.smallSigma0 x := by
  rw [ssig0, rotr_eq x (by decide) (by decide), rotr_eq x (by decide) (by decide)]
  rfl

theorem ssig1_eq : ssig1 x = Sha256.smallSigma1 x := by
  rw [ssig1, rotr_eq x (by decide) (by decide), rotr_eq x (by decide) (by decide)]
  rfl

theorem ch_eq : ch x y z = Sha256.ch x y z := by
  have hnot : x ^^^ 0xFFFFFFFF = ~~~x := by
    apply UInt32.toBitVec_inj.mp
    exact BitVec.xor_allOnes
  rw [ch, hnot, Sha256.ch]

theorem maj_eq : maj x y z = Sha256.maj x y z := rfl

end Functions

section Compress

variable (s : Sha256.State) (block : Nat → UInt32) {t : Nat} {k : UInt32}

theorem schedule_line (t : Nat) :
    ssig1 (Sha256.schedule block (t + 14)) + Sha256.schedule block (t + 9) +
      ssig0 (Sha256.schedule block (t + 1)) +
      Sha256.schedule block t = Sha256.schedule block (t + 16) := by
  rw [ssig0_eq, ssig1_eq, Sha256.schedule_step]

theorem round_lines_a (hk : k = Sha256.constants.getD t 0) :
    Sha256.seqE s block t + bsig1 (Sha256.seqE s block (t + 3)) +
        ch (Sha256.seqE s block (t + 3)) (Sha256.seqE s block (t + 2))
        (Sha256.seqE s block (t + 1)) + k + Sha256.schedule block t +
      (bsig0 (Sha256.seqA s block (t + 3)) +
        maj (Sha256.seqA s block (t + 3)) (Sha256.seqA s block (t + 2)) (Sha256.seqA s block (t + 1))) =
      Sha256.seqA s block (t + 4) := by
  rw [bsig0_eq, bsig1_eq, ch_eq, maj_eq, Sha256.seqA_step s block hk]

theorem round_lines_e (hk : k = Sha256.constants.getD t 0) :
    Sha256.seqA s block t + (Sha256.seqE s block t + bsig1 (Sha256.seqE s block (t + 3)) +
        ch (Sha256.seqE s block (t + 3)) (Sha256.seqE s block (t + 2))
        (Sha256.seqE s block (t + 1)) + k + Sha256.schedule block t) =
      Sha256.seqE s block (t + 4) := by
  rw [bsig1_eq, ch_eq, Sha256.seqE_step s block hk]

set_option maxRecDepth 4000 in
/-- Folded line by line from the first one on, the written-out block is the loop. -/
theorem sha256Compress_eq (which : UInt32) :
    sha256Compress (Sha256.seqA s block 3) (Sha256.seqA s block 2) (Sha256.seqA s block 1)
      (Sha256.seqA s block 0)
        (Sha256.seqE s block 3) (Sha256.seqE s block 2) (Sha256.seqE s block 1) (Sha256.seqE s block 0)
        (Sha256.schedule block 0) (Sha256.schedule block 1) (Sha256.schedule block 2)
          (Sha256.schedule block 3)
        (Sha256.schedule block 4) (Sha256.schedule block 5) (Sha256.schedule block 6)
          (Sha256.schedule block 7)
        (Sha256.schedule block 8) (Sha256.schedule block 9) (Sha256.schedule block 10)
          (Sha256.schedule block 11)
        (Sha256.schedule block 12) (Sha256.schedule block 13) (Sha256.schedule block 14)
        (Sha256.schedule block 15) which =
      if which = 0 then (s.compress block).a
      else if which = 1 then (s.compress block).b
      else if which = 2 then (s.compress block).c
      else if which = 3 then (s.compress block).d
      else if which = 4 then (s.compress block).e
      else if which = 5 then (s.compress block).f
      else if which = 6 then (s.compress block).g
      else (s.compress block).h := by
  rw [Sha256.State.compress, Sha256.rounds_eq]
  unfold sha256Compress
  simp (disch := decide +kernel) only [schedule_line, round_lines_a, round_lines_e]
  rfl

theorem pick_eq (r : Sha256.State) {which : UInt32} (h : which < 8) :
    (if which = 0 then r.a
      else if which = 1 then r.b
      else if which = 2 then r.c
      else if which = 3 then r.d
      else if which = 4 then r.e
      else if which = 5 then r.f
      else if which = 6 then r.g
      else r.h) = r.words.getD which.toNat 0 := by
  obtain ⟨n, hn, rfl⟩ : ∃ n < 8, UInt32.ofNat n = which :=
    ⟨which.toNat, UInt32.lt_iff_toNat_lt.mp h, UInt32.ofNat_toNat⟩
  interval_cases n <;> rfl

theorem compressBlock_eq (s : Hash256) {which : UInt32} (h : which < 8) :
    compressBlock s block which = (s.state.compress block).words.getD which.toNat 0 := by
  have hblock {t : Nat} (ht : t < 16) : block t = Sha256.schedule block t :=
    (Sha256.schedule_of_lt ht).symm
  rw [← pick_eq _ h, ← sha256Compress_eq, compressBlock]
  simp (disch := decide) only [hblock]
  rfl

theorem wordBlock_eq {which : UInt32} (h : which < 8) :
    wordBlock block which = (Sha256.initial.compress block).words.getD which.toNat 0 :=
  compressBlock_eq block ⟨0x6A09E667, 0xBB67AE85, 0x3C6EF372, 0xA54FF53A, 0x510E527F, 0x9B05688C,
    0x1F83D9AB, 0x5BE0CD19⟩ h

theorem wordState_eq : (wordState block).state = Sha256.initial.compress block := by
  simp only [wordState, Hash256.state]
  rw [wordBlock_eq block (by decide), wordBlock_eq block (by decide), wordBlock_eq block (by decide),
    wordBlock_eq block (by decide), wordBlock_eq block (by decide), wordBlock_eq block (by decide),
    wordBlock_eq block (by decide), wordBlock_eq block (by decide)]
  rfl

theorem compressBlock_wordState (block' : Nat → UInt32) {which : UInt32} (h : which < 8) :
    compressBlock (wordState block) block' which =
      ((Sha256.initial.compress block).compress block').words.getD which.toNat 0 := by
  rw [compressBlock_eq block' _ h, wordState_eq]

end Compress

section Messages

variable {message : List UInt32} {which : UInt32}

theorem hash_one (h : (Sha256.padWords message).length = 16) :
    Sha256.hash (Sha256.bytesOf message) =
      Sha256.initial.compress (fun t => (Sha256.padWords message).getD t 0) := by
  rw [Sha256.hash_bytesOf, h]
  simp [List.range_succ]

theorem hash_two (h : (Sha256.padWords message).length = 32) :
    Sha256.hash (Sha256.bytesOf message) =
      (Sha256.initial.compress (fun t => (Sha256.padWords message).getD t 0)).compress
        (fun t => (Sha256.padWords message).getD (16 + t) 0) := by
  rw [Sha256.hash_bytesOf, h]
  simp [List.range_succ]

theorem length_padWords_one (h : message.length ≤ 13) : (Sha256.padWords message).length = 16 := by
  simp only [Sha256.padWords, List.length_append, List.length_cons, List.length_replicate, List.length_nil]
  omega

namespace Preimage

variable (p : Preimage)

theorem padWords_message : Sha256.padWords p.message = p.padded := by
  have hbits : 32 * p.message.length / 2 ^ 32 = 0 := by
    cases p <;> simp [message, Hash256.words]
  have hzeros : 16 * p.blocks - p.message.length - 2 = (29 - p.message.length % 16) % 16 + 1 := by
    cases p <;> simp [message, Hash256.words, blocks]
  rw [padded_eq, Sha256.padWords, hbits, hzeros, List.replicate_succ']
  simp [shaPad]

theorem length_padded : p.padded.length = 16 * p.blocks := by
  rw [padded, List.length_map, List.length_range]

theorem getD_padded {i : Nat} (h : i < 16 * p.blocks) : p.padded.getD i 0 = p.pre (UInt32.ofNat i) := by
  rw [padded, List.getD_eq_getElem?_getD, List.getElem?_map, List.getElem?_range h]
  rfl

theorem digest_eq (h : which < 8) :
    p.digest which = (Sha256.hash (Sha256.bytesOf p.message)).words.getD which.toNat 0 := by
  have hlen : (Sha256.padWords p.message).length = 16 * p.blocks := by rw [padWords_message, length_padded]
  have hword {i : Nat} (hi : i < 16 * p.blocks) :
      p.pre (UInt32.ofNat i) = (Sha256.padWords p.message).getD i 0 := by
    rw [padWords_message, getD_padded p hi]
  have hfirst (hpos : 1 ≤ p.blocks) (t : Nat) (ht : t < 16) :
      p.pre (UInt32.ofNat t) = (Sha256.padWords p.message).getD t 0 :=
    hword (by omega)
  obtain hone | htwo : p.blocks = 1 ∨ p.blocks = 2 := by cases p <;> simp [blocks]
  · rw [hone] at hlen
    simp only [digest, if_pos hone]
    rw [wordBlock_eq _ h, hash_one hlen, Sha256.compress_congr _ (hfirst (by omega))]
  · rw [htwo] at hlen
    have hnot : ¬ p.blocks = 1 := by omega
    have hsecond (t : Nat) (ht : t < 16) :
        p.pre (UInt32.ofNat (16 + t)) = (Sha256.padWords p.message).getD (16 + t) 0 :=
      hword (by omega)
    simp only [digest, if_neg hnot]
    rw [compressBlock_wordState _ _ h, hash_two hlen, Sha256.compress_congr _ (hfirst (by omega)),
      Sha256.compress_congr _ hsecond]

end Preimage

theorem chainHead_eq (prev leaf : Hash256) (h : which < 8) :
    chainHead prev leaf which = (Preimage.merklePair prev leaf).digest which := by
  have hfirst (t : Nat) (ht : t < 16) :
      (prev.words ++ leaf.words).getD t 0 = (Preimage.merklePair prev leaf).pre (UInt32.ofNat t) := by
    interval_cases t <;> rfl
  have hsecond (t : Nat) (ht : t < 16) :
      sha256Pad2Word (UInt32.ofNat t) 512 =
        (Preimage.merklePair prev leaf).pre (UInt32.ofNat (16 + t)) := by
    interval_cases t <;> rfl
  have hnot : ¬ (Preimage.merklePair prev leaf).blocks = 1 := by simp [Preimage.blocks]
  simp only [Preimage.digest, if_neg hnot]
  rw [chainHead, compressBlock_wordState _ _ h, compressBlock_wordState _ _ h,
    Sha256.compress_congr _ hfirst, Sha256.compress_congr _ hsecond]

theorem sha256_equals_fips :
    (∀ (s : Hash256) (block : Nat → UInt32) (which : UInt32), which < 8 →
      sha256Compress s.w0 s.w1 s.w2 s.w3 s.w4 s.w5 s.w6 s.w7 (block 0) (block 1)
        (block 2) (block 3) (block 4)
          (block 5) (block 6) (block 7) (block 8) (block 9) (block 10) (block 11) (block 12)
          (block 13) (block 14) (block 15) which =
        (s.state.compress block).words.getD which.toNat 0) ∧
    (∀ (message : List UInt32) (which : UInt32), message.length ≤ 13 → which < 8 →
      wordBlock (fun i => (Sha256.padWords message).getD i 0) which =
        (Sha256.hash (Sha256.bytesOf message)).words.getD which.toNat 0) ∧
    (∀ (p : Preimage) (which : UInt32), which < 8 →
      p.digest which = (Sha256.hash (Sha256.bytesOf p.message)).words.getD which.toNat 0) ∧
    ∀ (prev leaf : Hash256) (which : UInt32), which < 8 →
      chainHead prev leaf which =
        (Sha256.hash (Sha256.bytesOf (prev.words ++ leaf.words))).words.getD which.toNat 0 := by
  refine ⟨fun s block which h => compressBlock_eq block s h, fun message which hlen h => ?_,
    fun p which h => p.digest_eq h, fun prev leaf which h => ?_⟩
  · rw [wordBlock_eq _ h, hash_one (length_padWords_one hlen)]
  · rw [chainHead_eq prev leaf h, Preimage.digest_eq _ h]
    rfl

/-- The hash of the five operand words of one multiplication. -/
theorem sha256_equals_fips_operands :
    (3 : UInt32) < 8 ∧ (Preimage.operands 1 41 256 41 256).digest 3 =
      (Sha256.hash (Sha256.bytesOf [1, 41, 256, 41, 256])).words.getD 3 0 :=
  ⟨by decide, sha256_equals_fips.2.2.1 (.operands 1 41 256 41 256) 3 (by decide)⟩

end Messages

example : sha256Word 0x61626380 0 0 0 0 0 0 0 0 0 0 0 0 0 0 0x18 0 = 0xBA7816BF := by decide +kernel

end TriNet.Compute
