import TriNet.Lib.Runs
import TriNet.Lib.Slices
import TriNet.Lib.BigEndian

namespace TriNet.Phone

open Lib.BigEndian Lib.Runs Lib.Slices

namespace AudioRED

def maxFrames : Nat := 3

def lenBytes (frame : Bytes) : Bytes :=
  let n := min frame.length 0xFFFF
  [UInt8.ofNat (n &&& 0xFF), UInt8.ofNat (n >>> 8 &&& 0xFF)]

def pack (seq : UInt8) (frames : List Bytes) : Bytes :=
  let count := min frames.length maxFrames
  [seq, UInt8.ofNat count] ++
    (frames.take count).flatMap lenBytes ++ (frames.take count).flatten

def cutFrames (b : Bytes) : Nat → List Nat → List Bytes
  | _, [] => []
  | off, len :: lens => slice b off (off + len) :: cutFrames b (off + len) lens

def parse (b : Bytes) : Option (UInt8 × List Bytes) :=
  if b.length < 2 then none
  else
    let seq := b.getD 0 0
    let count := (b.getD 1 0).toNat
    if count < 1 ∨ count > maxFrames then none
    else if b.length < 2 + count * 2 then none
    else
      let lens := (List.range count).map (fun i =>
        (b.getD (2 + i * 2) 0).toNat ||| (b.getD (2 + i * 2 + 1) 0).toNat <<< 8)
      let off := 2 + count * 2
      if b.length < off + lens.sum then none else some (seq, cutFrames b off lens)

section Codec

theorem length_lenBytes (frame : Bytes) : (lenBytes frame).length = 2 := rfl

theorem or_lenBytes {frame : Bytes} (h : frame.length ≤ 65535) :
    ((lenBytes frame).getD 0 0).toNat ||| ((lenBytes frame).getD 1 0).toNat <<< 8 = frame.length := by
  have hmin : min frame.length 0xFFFF = frame.length := Nat.min_eq_left h
  have hlow : frame.length &&& 0xFF = frame.length % 256 := Nat.and_two_pow_sub_one_eq_mod _ 8
  have hhigh : frame.length >>> 8 &&& 0xFF = frame.length / 256 := by
    have hmod : frame.length >>> 8 &&& 0xFF = frame.length >>> 8 % 256 :=
      Nat.and_two_pow_sub_one_eq_mod _ 8
    rw [hmod, Nat.shiftRight_eq_div_pow]
    omega
  have hlt : frame.length % 256 < 2 ^ 8 := Nat.mod_lt _ (by decide)
  simp only [lenBytes, hmin, hlow, hhigh, List.getD_cons_zero, List.getD_cons_succ]
  rw [UInt8.toNat_ofNat_of_lt' hlt,
    UInt8.toNat_ofNat_of_lt' (show frame.length / 256 < 256 by omega), Nat.or_comm,
    ← Nat.shiftLeft_add_eq_or_of_lt hlt, Nat.shiftLeft_eq]
  omega

theorem cutFrames_flatten (frames : List Bytes) (a c : Bytes) :
    cutFrames (a ++ (frames.flatten ++ c)) a.length (frames.map List.length) = frames := by
  induction frames generalizing a with
  | nil => rfl
  | cons frame frames ih =>
      have hhead : slice (a ++ ((frame :: frames).flatten ++ c)) a.length (a.length +
          frame.length) = frame := by
        have hbytes : a ++ ((frame :: frames).flatten ++ c) = a ++ (frame ++ (frames.flatten ++ c)) := by
          rw [List.flatten_cons, List.append_assoc]
        exact slice_middle a hbytes rfl rfl
      have htail := ih (a ++ frame)
      rw [List.append_assoc, ← List.append_assoc frame, ← List.flatten_cons, List.length_append] at htail
      rw [List.map_cons, cutFrames, hhead, htail]

theorem pack_eq (seq : UInt8) (frames : List Bytes) :
    pack seq frames = [seq, UInt8.ofNat (frames.take 3).length] ++
      ((frames.take 3).flatMap lenBytes ++ (frames.take 3).flatten) := by
  have htake : frames.take (min frames.length maxFrames) = frames.take 3 := by
    rw [Nat.min_comm, ← List.take_eq_take_min]
    rfl
  have hcount : min frames.length maxFrames = (frames.take 3).length := by
    rw [List.length_take, Nat.min_comm]
    rfl
  rw [pack, htake, hcount, List.append_assoc]

theorem lens_lenBytes {a c : Bytes} (ha : a.length = 2) {fs : List Bytes}
    (hshort : ∀ f ∈ fs, f.length ≤ 65535) :
    let b := a ++ (fs.flatMap lenBytes ++ c)
    (List.range fs.length).map (fun i =>
      (b.getD (2 + i * 2) 0).toNat ||| (b.getD (2 + i * 2 + 1) 0).toNat <<< 8) = fs.map List.length := by
  intro b
  apply List.ext_getElem
  · rw [List.length_map, List.length_map, List.length_range]
  · intro i hi hi'
    have hin : i < fs.length := by rwa [List.length_map] at hi'
    have hcut : slice b (2 + i * 2) (2 + i * 2 + 2) = lenBytes fs[i] := by
      have hrecord := slice_flatMap length_lenBytes (a := a) (c := c) fs hin
      rwa [ha] at hrecord
    have hlow : (lenBytes fs[i]).getD 0 0 = b.getD (2 + i * 2) 0 := by
      rw [← hcut]
      exact getD_slice (by omega) 0
    have hhigh : (lenBytes fs[i]).getD 1 0 = b.getD (2 + i * 2 + 1) 0 := by
      rw [← hcut]
      exact getD_slice (by omega) 0
    rw [List.getElem_map, List.getElem_map, List.getElem_range, ← hlow, ← hhigh]
    exact or_lenBytes (hshort _ (List.getElem_mem hin))

theorem parse_pack (seq : UInt8) {frames : List Bytes} (hne : frames ≠ [])
    (hlen : ∀ f ∈ frames, f.length ≤ 65535) :
    parse (pack seq frames) = some (seq, frames.take 3) := by
  rw [pack_eq]
  obtain ⟨fs, hfs⟩ : ∃ fs, fs = frames.take 3 := ⟨_, rfl⟩
  rw [← hfs]
  have hcount : 1 ≤ fs.length ∧ fs.length ≤ 3 := by
    have hpos := List.length_pos_iff.mpr hne
    rw [hfs, List.length_take]
    omega
  have hshort : ∀ f ∈ fs, f.length ≤ 65535 := by
    intro f hf
    rw [hfs] at hf
    exact hlen f (List.mem_of_mem_take hf)
  have hheader : (fs.flatMap lenBytes).length = fs.length * 2 := by
    rw [List.length_flatMap, List.map_congr_left (fun f _ => length_lenBytes f), List.map_const',
      List.sum_replicate_nat]
  have hbyte : (UInt8.ofNat fs.length).toNat = fs.length :=
    UInt8.toNat_ofNat_of_lt' (show fs.length < 256 by omega)
  obtain ⟨b, hb⟩ : ∃ b, b = [seq, UInt8.ofNat fs.length] ++ (fs.flatMap lenBytes ++ fs.flatten) := ⟨_, rfl⟩
  have hblen : b.length = 2 + fs.length * 2 + fs.flatten.length := by
    rw [hb, List.length_append, List.length_append, hheader, Nat.add_assoc]
    rfl
  have hlens : (List.range fs.length).map (fun i =>
      (b.getD (2 + i * 2) 0).toNat ||| (b.getD (2 + i * 2 + 1) 0).toNat <<< 8) = fs.map List.length := by
    rw [hb]
    exact lens_lenBytes rfl hshort
  have hcut : cutFrames b (2 + fs.length * 2) (fs.map List.length) = fs := by
    have hflat := cutFrames_flatten fs ([seq, UInt8.ofNat fs.length] ++ fs.flatMap lenBytes) []
    rw [List.append_nil, List.append_assoc, ← hb, List.length_append, hheader] at hflat
    exact hflat
  have hone : (b.getD 1 0).toNat = fs.length := by
    rw [hb]
    exact hbyte
  have hzero : b.getD 0 0 = seq := by
    rw [hb]
    rfl
  rw [← hb, parse, if_neg (by omega)]
  simp only [hone, hzero, hlens, hcut]
  rw [if_neg (by simp only [maxFrames]; omega), if_neg (by omega), if_neg]
  rw [hblen, List.length_flatten]
  omega

end Codec

end AudioRED

/-- The number heard last, negative before the first packet. -/
structure AudioREDReceiver where
  lastSeq : Int

namespace AudioREDReceiver

def new : AudioREDReceiver := ⟨-1⟩

def misorderWindow : Int := 16

def receive (r : AudioREDReceiver) (seq : UInt8) (frames : List Bytes) : AudioREDReceiver × List Bytes :=
  if frames.isEmpty then (r, [])
  else
    let s : Int := seq.toNat
    if r.lastSeq < 0 then (⟨s⟩, frames.take 1)
    else
      let gap := (s - r.lastSeq + 256) % 256
      if gap = 0 then (r, [])
      else if gap ≥ 256 - misorderWindow then (r, [])
      else (⟨s⟩, (frames.take (min gap.toNat frames.length)).reverse)

end AudioREDReceiver

/-- Packet `index` of a stream: it carries the frames `index`, `index - 1`, …,
as many as its depth. -/
structure AudioPacket where
  index : Nat
  depth : Nat
  depth_pos : 0 < depth
  depth_le : depth ≤ index + 1

namespace AudioPacket

def Carries (p : AudioPacket) (j : Nat) : Prop := j ≤ p.index ∧ p.index < j + p.depth

def frames (frame : Nat → Bytes) (p : AudioPacket) : List Bytes :=
  (List.range p.depth).map (fun k => frame (p.index - k))

/-- The window about the largest index heard in which a wrapped number tells
which packet it is. -/
def Near (largest : Nat) (p : AudioPacket) : Prop := largest ≤ p.index + 16 ∧ p.index ≤ largest + 239

def advance (largest : Nat) (p : AudioPacket) : Nat := max largest p.index

def added (largest : Nat) (p : AudioPacket) : List Nat :=
  List.range' (p.index + 1 - min (p.index - largest) p.depth) (min (p.index - largest) p.depth)

end AudioPacket

namespace AudioREDReceiver

def hear (frame : Nat → Bytes) (r : AudioREDReceiver) (p : AudioPacket) : AudioREDReceiver × List Bytes :=
  r.receive (UInt8.ofNat p.index) (p.frames frame)

/-- All that a receiver emits for the packets that arrive, in order. -/
def emitted (frame : Nat → Bytes) (r : AudioREDReceiver) (arrivals : List AudioPacket) : List Bytes :=
  (trace (fun r p => (hear frame r p).1) r arrivals).flatMap (fun s => (hear frame s.1 s.2).2)

end AudioREDReceiver

section Stream

open AudioPacket AudioREDReceiver

variable {frame : Nat → Bytes} {largest j : Nat} {p : AudioPacket}

theorem reverse_take_frames (frame : Nat → Bytes) {m : Nat} (hm : m ≤ p.depth) :
    ((p.frames frame).take m).reverse = (List.range' (p.index + 1 - m) m).map frame := by
  have hdepth := p.depth_le
  apply List.ext_getElem
  · rw [List.length_reverse, List.length_take, frames, List.length_map, List.length_range,
      List.length_map, List.length_range', Nat.min_eq_left hm]
  · intro i hi hi'
    rw [List.length_map, List.length_range'] at hi'
    have hlast : ((p.frames frame).take m).length = m := by
      rw [List.length_take, frames, List.length_map, List.length_range, Nat.min_eq_left hm]
    rw [List.getElem_reverse, List.getElem_take, List.getElem_map, List.getElem_range']
    simp only [frames, List.getElem_map, List.getElem_range, List.length_take, List.length_map,
      List.length_range, Nat.min_eq_left hm]
    congr 1
    omega

theorem mem_added : j ∈ added largest p ↔ largest < j ∧ p.Carries j := by
  have hdepth := p.depth_le
  rw [added, List.mem_range'_1, Carries]
  omega

theorem added_eq_nil (h : p.index ≤ largest) : added largest p = [] := by
  rw [added, Nat.sub_eq_zero_of_le h, Nat.zero_min]
  rfl

theorem hear_near (frame : Nat → Bytes) (h : Near largest p) :
    hear frame ⟨((largest % 256 : Nat) : Int)⟩ p =
      (⟨((advance largest p % 256 : Nat) : Int)⟩, (added largest p).map frame) := by
  obtain ⟨hlow, hhigh⟩ := h
  have hdepth := p.depth_pos
  have hlen : (p.frames frame).length = p.depth := by rw [frames, List.length_map, List.length_range]
  have hne : (p.frames frame).isEmpty = false := by
    rw [List.isEmpty_eq_false_iff, ← List.length_pos_iff, hlen]
    exact hdepth
  have hseq : ((UInt8.ofNat p.index).toNat : Int) = ((p.index % 256 : Nat) : Int) := by
    rw [UInt8.toNat_ofNat']
  rw [hear, receive, hne, if_neg Bool.false_ne_true]
  simp only [hseq, hlen, misorderWindow]
  rw [if_neg (by omega)]
  by_cases hold : p.index ≤ largest
  · have hadv : advance largest p = largest := Nat.max_eq_left hold
    rw [hadv, added_eq_nil hold]
    split_ifs with hsame hlate
    · rfl
    · rfl
    · omega
  · have hgap : ((p.index % 256 : Nat) - (largest % 256 : Nat) + 256 : Int) % 256 =
        ((p.index - largest : Nat) : Int) := by
      omega
    have hadv : advance largest p = p.index := Nat.max_eq_right (by omega)
    rw [hgap, if_neg (by omega), if_neg (by omega), hadv, Int.toNat_natCast,
      reverse_take_frames frame (Nat.min_le_right _ _)]
    rfl

theorem hear_new (frame : Nat → Bytes) (p : AudioPacket) :
    hear frame new p = (⟨((p.index % 256 : Nat) : Int)⟩, [frame p.index]) := by
  obtain ⟨d, hd⟩ : ∃ d, p.depth = d + 1 := ⟨p.depth - 1, by have := p.depth_pos; omega⟩
  have hframes : p.frames frame =
      frame p.index :: (List.range d).map (fun k => frame (p.index - (k + 1))) := by
    rw [frames, hd, List.range_succ_eq_map, List.map_cons, List.map_map]
    rfl
  rw [hear, receive, hframes, List.isEmpty_cons, if_neg Bool.false_ne_true, UInt8.toNat_ofNat']
  rfl

/-- The indices behind what the receiver emits after it has heard `largest`. -/
def addedBy (largest : Nat) (arrivals : List AudioPacket) : List Nat :=
  (trace advance largest arrivals).flatMap (fun s => added s.1 s.2)

theorem emitted_eq (frame : Nat → Bytes) {arrivals : List AudioPacket}
    (h : Along advance Near largest arrivals) :
    emitted frame ⟨((largest % 256 : Nat) : Int)⟩ arrivals = (addedBy largest arrivals).map frame := by
  induction arrivals generalizing largest with
  | nil => rfl
  | cons p arrivals ih =>
      have hhear := hear_near frame h.1
      have hrest := ih h.2
      rw [emitted, addedBy] at hrest ⊢
      rw [trace, trace, List.flatMap_cons, List.flatMap_cons, List.map_append, hhear, hrest]

theorem lt_of_mem_addedBy {arrivals : List AudioPacket} (h : j ∈ addedBy largest arrivals) :
    largest < j := by
  induction arrivals generalizing largest with
  | nil => cases h
  | cons p arrivals ih =>
      rw [addedBy, trace, List.flatMap_cons, List.mem_append] at h
      obtain hnow | hlater := h
      · exact (mem_added.mp hnow).1
      · exact Nat.lt_of_le_of_lt (Nat.le_max_left _ _) (ih hlater)

theorem pairwise_addedBy (largest : Nat) (arrivals : List AudioPacket) :
    (addedBy largest arrivals).Pairwise (· < ·) := by
  induction arrivals generalizing largest with
  | nil => exact List.Pairwise.nil
  | cons p arrivals ih =>
      rw [addedBy, trace, List.flatMap_cons, List.pairwise_append]
      refine ⟨List.pairwise_lt_range', ih _, ?_⟩
      intro i hi j hj
      have hcarried := (mem_added.mp hi).2
      have hbeyond : advance largest p < j := lt_of_mem_addedBy hj
      exact Nat.lt_of_le_of_lt (Nat.le_trans hcarried.1 (Nat.le_max_right _ _)) hbeyond

theorem mem_addedBy {arrivals : List AudioPacket} (hj : largest < j) :
    j ∈ addedBy largest arrivals ↔
      ∃ p, arrivals.find? (fun p => decide (j ≤ p.index)) = some p ∧ p.Carries j := by
  induction arrivals generalizing largest with
  | nil => simp [addedBy, trace]
  | cons p arrivals ih =>
      rw [addedBy, trace, List.flatMap_cons, List.mem_append, mem_added]
      by_cases hreach : j ≤ p.index
      · have hlater : j ∉ addedBy (advance largest p) arrivals := by
          intro hmem
          have hbeyond : advance largest p < j := lt_of_mem_addedBy hmem
          exact Nat.not_lt_of_le (Nat.le_trans hreach (Nat.le_max_right _ _)) hbeyond
        rw [List.find?_cons_of_pos (by simpa using hreach)]
        constructor
        · rintro (hnow | hmem)
          · exact ⟨p, rfl, hnow.2⟩
          · exact absurd hmem hlater
        · rintro ⟨q, hq, hcarried⟩
          rw [← Option.some.inj hq] at hcarried
          exact Or.inl ⟨hj, hcarried⟩
      · have hbeyond : advance largest p < j := Nat.max_lt.mpr ⟨hj, by omega⟩
        rw [List.find?_cons_of_neg (by simpa using hreach), ← ih hbeyond]
        constructor
        · rintro (hnow | hmem)
          · exact absurd hnow.2.1 hreach
          · exact hmem
        · exact Or.inr

/-- A packed frame list comes back as its first three frames. A receiver plays
every frame at most once and in order; beyond the packet it starts with, it plays
a frame exactly if the first packet that reaches the frame carries it. -/
theorem audio_played_in_order :
    (∀ (seq : UInt8) (frames : List Bytes), frames ≠ [] → (∀ f ∈ frames, f.length ≤ 65535) →
      AudioRED.parse (AudioRED.pack seq frames) = some (seq, frames.take 3)) ∧
    ∀ (first : AudioPacket) (rest : List AudioPacket), Along advance Near first.index rest →
      ∃ played : List Nat, (∀ frame : Nat → Bytes, emitted frame new (first :: rest) = played.map frame) ∧
        played.Pairwise (· < ·) ∧
        (∀ j ≤ first.index, j ∈ played ↔ j = first.index) ∧
        ∀ j, first.index < j → (j ∈ played ↔
          ∃ p, (first :: rest).find? (fun p => decide (j ≤ p.index)) = some p ∧ p.Carries j) := by
  refine ⟨fun seq frames => AudioRED.parse_pack seq, ?_⟩
  intro first rest hnear
  refine ⟨first.index :: addedBy first.index rest, ?_, ?_, ?_, ?_⟩
  · intro frame
    have hrest := emitted_eq frame hnear
    rw [emitted] at hrest ⊢
    rw [trace, List.flatMap_cons, hear_new frame first, hrest]
    rfl
  · exact List.pairwise_cons.mpr ⟨fun j hj => lt_of_mem_addedBy hj, pairwise_addedBy _ _⟩
  · intro j hj
    rw [List.mem_cons]
    constructor
    · rintro (heq | hmem)
      · exact heq
      · exact absurd (lt_of_mem_addedBy hmem) (Nat.not_lt_of_le hj)
    · exact Or.inl
  · intro j hj
    have hnot : ¬ j ≤ first.index := Nat.not_le_of_lt hj
    rw [List.find?_cons_of_neg (by simpa using hnot), ← mem_addedBy hj, List.mem_cons]
    constructor
    · rintro (heq | hmem)
      · exact absurd heq (Nat.ne_of_gt hj)
      · exact hmem
    · exact Or.inr

theorem audio_played_in_order_wrap :
    AudioRED.parse (AudioRED.pack 1 [[7, 8], [9]]) = some (1, [[7, 8], [9]]) ∧
    ∃ played : List Nat, ∀ frame : Nat → Bytes,
      emitted frame new [⟨254, 1, by decide, by decide⟩, ⟨257, 2, by decide, by decide⟩,
        ⟨255, 2, by decide, by decide⟩] = played.map frame := by
  refine ⟨audio_played_in_order.1 1 [[7, 8], [9]] (by decide) (by decide), ?_⟩
  obtain ⟨played, hplayed, -⟩ := audio_played_in_order.2 ⟨254, 1, by decide, by decide⟩
    [⟨257, 2, by decide, by decide⟩, ⟨255, 2, by decide, by decide⟩]
    ⟨⟨by decide, by decide⟩, ⟨by decide, by decide⟩, trivial⟩
  exact ⟨played, hplayed⟩

end Stream

end TriNet.Phone
