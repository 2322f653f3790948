import TriNet.Lib.Runs
import TriNet.Mesh.ReplayWindow

namespace TriNet.Mesh

open Lib.Runs

def windowWidth : Nat := 64

def replayAccept (seenAny : Bool) (top : Nat) (blo bhi : BitVec 32) (ctr : Nat) : Bool :=
  if seenAny = false then true
  else if ctr > top then true
  else
    let d := top - ctr
    if d ≥ windowWidth then false
    else if d < 32 then blo &&& 1#32 <<< d = 0#32
    else bhi &&& 1#32 <<< (d - 32) = 0#32

def replayNextTop (seenAny : Bool) (top ctr : Nat) : Nat :=
  if seenAny = false then ctr else if ctr > top then ctr else top

def replayNextBlo (seenAny : Bool) (top : Nat) (blo _bhi : BitVec 32) (ctr : Nat) : BitVec 32 :=
  if seenAny = false then 1#32
  else if ctr > top then
    let s := ctr - top
    if s ≥ 32 then 1#32 else blo <<< s ||| 1#32
  else
    let d := top - ctr
    if d < 32 then blo ||| 1#32 <<< d else blo

def replayNextBhi (seenAny : Bool) (top : Nat) (blo bhi : BitVec 32) (ctr : Nat) : BitVec 32 :=
  if seenAny = false then 0#32
  else if ctr > top then
    let s := ctr - top
    if s ≥ windowWidth then 0#32
    else if s ≥ 32 then blo <<< (s - 32)
    else bhi <<< s ||| blo >>> (32 - s)
  else
    let d := top - ctr
    if d ≥ 32 then bhi ||| 1#32 <<< (d - 32) else bhi

structure LaneWindow where
  seenAny : Bool
  top : Nat
  blo : BitVec 32
  bhi : BitVec 32
  deriving DecidableEq

namespace LaneWindow

def new : LaneWindow := ⟨false, 0, 0#32, 0#32⟩

def recv (l : LaneWindow) (ctr : Nat) : LaneWindow × Bool :=
  if replayAccept l.seenAny l.top l.blo l.bhi ctr then
    (⟨true, replayNextTop l.seenAny l.top ctr, replayNextBlo l.seenAny l.top l.blo l.bhi ctr,
      replayNextBhi l.seenAny l.top l.blo l.bhi ctr⟩, true)
  else (l, false)

def joined (l : LaneWindow) : ReplayWindow := ⟨l.top, l.bhi ++ l.blo, l.seenAny⟩

end LaneWindow

section Lanes

variable (hi lo : BitVec 32) {s d : Nat}

theorem getLsbD_one64 (i : Nat) : (1#64).getLsbD i = decide (i = 0) := by
  rw [Bool.eq_iff_iff, ReplayWindow.getLsbD_one, decide_eq_true_eq]

theorem getLsbD_one32 (i : Nat) : (1#32).getLsbD i = decide (i = 0) := by
  have h : 1#32 = BitVec.twoPow 32 0 := rfl
  rw [h, BitVec.getLsbD_twoPow]
  simp [eq_comm]

theorem append_shiftLeft_low (hs : s < 32) (hpos : 0 < s) :
    (hi ++ lo) <<< s ||| 1#64 = (hi <<< s ||| lo >>> (32 - s)) ++ (lo <<< s ||| 1#32) := by
  apply BitVec.eq_of_getLsbD_eq
  intro i hi64
  simp only [BitVec.getLsbD_or, BitVec.getLsbD_shiftLeft, BitVec.getLsbD_append,
    BitVec.getLsbD_ushiftRight, getLsbD_one64, getLsbD_one32]
  by_cases hlow : i < 32
  · have hsub : i - s < 32 := by omega
    simp [hlow, hi64, hsub]
  · have hne : i ≠ 0 := by omega
    have hup : i - 32 < 32 := by omega
    have hge : ¬ i < s := by omega
    by_cases hborder : i - 32 < s
    · have hsub : i - s < 32 := by omega
      have hidx : 32 - s + (i - 32) = i - s := by omega
      simp [hlow, hi64, hne, hge, hborder, hsub, hidx]
    · have hsub : ¬ i - s < 32 := by omega
      have hidx : i - 32 - s = i - s - 32 := by omega
      have hout : ¬ 32 - s + (i - 32) < 32 := by omega
      simp [hlow, hi64, hne, hge, hborder, hsub, hidx, hup, BitVec.getLsbD_of_ge lo _ (Nat.not_lt.mp hout)]

theorem append_shiftLeft_high (hs : 32 ≤ s) :
    (hi ++ lo) <<< s ||| 1#64 = lo <<< (s - 32) ++ 1#32 := by
  apply BitVec.eq_of_getLsbD_eq
  intro i hi64
  simp only [BitVec.getLsbD_or, BitVec.getLsbD_shiftLeft, BitVec.getLsbD_append,
    getLsbD_one64, getLsbD_one32]
  by_cases hlow : i < 32
  · have hlt : i < s := by omega
    simp [hlow, hlt]
  · have hne : i ≠ 0 := by omega
    have hup : i - 32 < 32 := by omega
    by_cases hlt : i < s
    · have hlt' : i - 32 < s - 32 := by omega
      simp [hlow, hne, hlt, hlt']
    · have hlt' : ¬ i - 32 < s - 32 := by omega
      have hsub : i - s < 32 := by omega
      have hidx : i - 32 - (s - 32) = i - s := by omega
      simp [hlow, hi64, hne, hlt, hlt', hsub, hidx, hup]

theorem mask_low (hd : d < 32) : 1#64 <<< d = 0#32 ++ 1#32 <<< d := by
  apply BitVec.eq_of_getLsbD_eq
  intro i _
  simp only [BitVec.getLsbD_shiftLeft, BitVec.getLsbD_append, getLsbD_one64, getLsbD_one32,
    BitVec.getLsbD_zero]
  by_cases hlow : i < 32
  · have hi64 : i < 64 := by omega
    simp [hlow, hi64]
  · have hne : i - d ≠ 0 := by omega
    simp [hlow, hne]

theorem mask_high (hd : 32 ≤ d) : 1#64 <<< d = 1#32 <<< (d - 32) ++ 0#32 := by
  apply BitVec.eq_of_getLsbD_eq
  intro i hi64
  simp only [BitVec.getLsbD_shiftLeft, BitVec.getLsbD_append, getLsbD_one64, getLsbD_one32,
    BitVec.getLsbD_zero]
  by_cases hlow : i < 32
  · have hlt : i < d := by omega
    simp [hlow, hlt]
  · have hup : i - 32 < 32 := by omega
    have hlt : i - 32 < d - 32 ↔ i < d := by omega
    have hidx : i - 32 - (d - 32) = i - d := by omega
    simp [hlow, hi64, hup, hlt, hidx]

theorem append_eq_zero : hi ++ lo = 0#64 ↔ hi = 0#32 ∧ lo = 0#32 := by
  constructor
  · intro h
    have hhi := congrArg (BitVec.extractLsb' 32 32) h
    have hlo := congrArg (BitVec.extractLsb' 0 32) h
    rw [BitVec.extractLsb'_append_eq_left] at hhi
    rw [BitVec.extractLsb'_append_eq_right] at hlo
    exact ⟨hhi, hlo⟩
  · rintro ⟨rfl, rfl⟩
    rfl

theorem mask_clear : (hi ++ lo) &&& 1#64 <<< d = 0#64 ↔
    if d < 32 then lo &&& 1#32 <<< d = 0#32 else hi &&& 1#32 <<< (d - 32) = 0#32 := by
  split
  · next hlow => rw [mask_low hlow, BitVec.and_append, append_eq_zero, BitVec.and_zero, eq_self, true_and]
  · next hhigh =>
      rw [mask_high (Nat.not_lt.mp hhigh), BitVec.and_append, append_eq_zero,
        BitVec.and_zero, eq_self, and_true]

theorem append_mask : (hi ++ lo) ||| 1#64 <<< d =
    (if d ≥ 32 then hi ||| 1#32 <<< (d - 32) else hi) ++ (if d < 32 then lo ||| 1#32 <<< d else lo) := by
  by_cases hlow : d < 32
  · rw [if_pos hlow, if_neg (Nat.not_le.mpr hlow), mask_low hlow, BitVec.or_append, BitVec.or_zero]
  · have hhigh := Nat.not_lt.mp hlow
    rw [if_neg hlow, if_pos hhigh, mask_high hhigh, BitVec.or_append, BitVec.or_zero]

theorem append_jump (hpos : 0 < s) :
    (if s ≥ 64 then 1#64 else (hi ++ lo) <<< s ||| 1#64) =
      (if s ≥ 64 then 0#32 else if s ≥ 32 then lo <<< (s - 32) else hi <<< s ||| lo >>> (32 - s)) ++
        (if s ≥ 32 then 1#32 else lo <<< s ||| 1#32) := by
  by_cases hfar : s ≥ 64
  · have hhigh : s ≥ 32 := by omega
    rw [if_pos hfar, if_pos hfar, if_pos hhigh]
    rfl
  · rw [if_neg hfar, if_neg hfar]
    by_cases hhigh : s ≥ 32
    · rw [if_pos hhigh, if_pos hhigh, append_shiftLeft_high hi lo hhigh]
    · rw [if_neg hhigh, if_neg hhigh, append_shiftLeft_low hi lo (Nat.not_le.mp hhigh) hpos]

end Lanes

namespace LaneWindow

/-- One lane step is one step of the window it stands for. -/
theorem joined_recv (l : LaneWindow) (ctr : Nat) :
    (l.recv ctr).2 = (l.joined.checkAndSet ctr).2 ∧
      (l.recv ctr).1.joined = (l.joined.checkAndSet ctr).1 := by
  obtain ⟨seenAny, top, blo, bhi⟩ := l
  cases seenAny with
  | false =>
      have hone : 0#32 ++ 1#32 = 1#64 := rfl
      exact ⟨rfl, congrArg (ReplayWindow.mk ctr · true) hone⟩
  | true =>
      by_cases hahead : ctr > top
      · have hjump := append_jump bhi blo (Nat.sub_pos_of_lt hahead)
        simp [recv, joined, replayAccept, replayNextTop, replayNextBlo, replayNextBhi,
          ReplayWindow.checkAndSet, ReplayWindow.width, windowWidth, hahead, hjump]
      · by_cases hold : top - ctr ≥ 64
        · simp [recv, joined, replayAccept, ReplayWindow.checkAndSet, ReplayWindow.width,
            windowWidth, hahead, hold]
        · have hclear := mask_clear bhi blo (d := top - ctr)
          have hmask := append_mask bhi blo (d := top - ctr)
          have haccept : replayAccept true top blo bhi ctr =
              decide ((bhi ++ blo) &&& 1#64 <<< (top - ctr) = 0#64) := by
            by_cases hlow : top - ctr < 32
            · simp [replayAccept, windowWidth, hahead, hold, hclear, hlow]
            · simp [replayAccept, windowWidth, hahead, hold, hclear, hlow]
          rw [recv, haccept]
          by_cases hfree : (bhi ++ blo) &&& 1#64 <<< (top - ctr) = 0#64
          · simp [joined, replayNextTop, replayNextBlo, replayNextBhi, ReplayWindow.checkAndSet,
              ReplayWindow.width, hahead, hold, hfree, hmask]
          · simp [joined, ReplayWindow.checkAndSet, ReplayWindow.width, hahead, hold, hfree]

end LaneWindow

namespace ReplayWindow

def feed (cs : List Nat) : ReplayWindow := run (fun w c => (w.checkAndSet c).1) new cs

def accepted (cs : List Nat) : List Nat :=
  ((trace (fun w c => (w.checkAndSet c).1) new cs).filter (fun (w, c) => (w.checkAndSet c).2)).map Prod.snd

theorem feed_concat (cs : List Nat) (c : Nat) :
    feed (cs ++ [c]) = ((feed cs).checkAndSet c).1 := run_concat ..

theorem accepted_concat (cs : List Nat) (c : Nat) :
    accepted (cs ++ [c]) = accepted cs ++ if ((feed cs).checkAndSet c).2 then [c] else [] := by
  rw [accepted, trace_concat, List.filter_append, List.map_append, ← accepted, ← feed]
  cases hok : ((feed cs).checkAndSet c).2 <;> simp [hok]

theorem feed_represents (cs : List Nat) : Represents (feed cs) (accepted cs).toFinset := by
  induction cs using List.reverseRecOn with
  | nil => exact new_represents
  | append_singleton cs c ih =>
      obtain ⟨haccept, hrefuse⟩ := checkAndSet_spec ih c
      rw [feed_concat, accepted_concat]
      by_cases hfresh : Fresh (accepted cs).toFinset c
      · obtain ⟨hok, hnext⟩ := haccept hfresh
        rw [if_pos hok, List.toFinset_append, Finset.union_comm]
        exact hnext
      · rw [hrefuse hfresh]
        simpa using ih

theorem fresh_iff (l : List Nat) (c : Nat) :
    Fresh l.toFinset c ↔ c ∉ l ∧ ∀ m, l.max? = some m → m < c + 64 := by
  rw [Fresh, List.mem_toFinset]
  apply and_congr_right
  intro _
  constructor
  · intro h m hm
    exact h m (List.mem_toFinset.mpr (List.max?_mem hm))
  · intro h a ha
    have hmem := List.mem_toFinset.mp ha
    obtain ⟨m, hm⟩ := Option.isSome_iff_exists.mp (List.isSome_max?_of_mem hmem)
    have hle := List.le_max?_getD_of_mem (k := 0) hmem
    rw [hm, Option.getD_some] at hle
    exact Nat.lt_of_le_of_lt hle (h m hm)

theorem checkAndSet_seenAny (w : ReplayWindow) (c : Nat) : (w.checkAndSet c).1.seenAny = true := by
  rw [checkAndSet]
  split
  · rfl
  · next hany =>
      have hany : w.seenAny = true := by simpa using hany
      dsimp only
      split
      · exact hany
      · split
        · exact hany
        · split <;> exact hany

theorem feed_of_not_seenAny {cs : List Nat} (h : (feed cs).seenAny = false) : cs = [] := by
  cases cs using List.reverseRecOn with
  | nil => rfl
  | append_singleton cs c =>
      rw [feed_concat, checkAndSet_seenAny] at h
      cases h

theorem feed_bits (cs : List Nat) {i : Nat} (hi : i < 64) (hle : i ≤ (feed cs).highest) :
    (feed cs).bitmap.getLsbD i = true ↔ (feed cs).highest - i ∈ accepted cs := by
  cases hany : (feed cs).seenAny with
  | false =>
      obtain rfl := feed_of_not_seenAny hany
      simp [feed, accepted, run, trace, new]
  | true =>
      rw [(feed_represents cs).bits hany i hi, List.mem_toFinset]
      exact and_iff_right hle

end ReplayWindow

namespace LaneWindow

def feed (cs : List Nat) : LaneWindow := run (fun l c => (l.recv c).1) new cs

theorem joined_feed (cs : List Nat) : (feed cs).joined = ReplayWindow.feed cs := by
  induction cs using List.reverseRecOn with
  | nil => rfl
  | append_singleton cs c ih =>
      have hstep : feed (cs ++ [c]) = ((feed cs).recv c).1 := run_concat ..
      rw [hstep, ReplayWindow.feed_concat, (joined_recv _ c).2, ih]

end LaneWindow

/-- Both windows, on every sequence of counters: which counter is accepted next,
what the bits say, and that the lanes are the two halves of the bitmap. -/
theorem replay_windows_exact (cs : List Nat) :
    (∀ c, ((ReplayWindow.feed cs).checkAndSet c).2 = true ↔
      c ∉ ReplayWindow.accepted cs ∧ ∀ m, (ReplayWindow.accepted cs).max? = some m → m < c + 64) ∧
    (∀ i < 64, i ≤ (ReplayWindow.feed cs).highest →
      ((ReplayWindow.feed cs).bitmap.getLsbD i = true ↔
        (ReplayWindow.feed cs).highest - i ∈ ReplayWindow.accepted cs)) ∧
    (∀ c, ((LaneWindow.feed cs).recv c).2 = ((ReplayWindow.feed cs).checkAndSet c).2) ∧
    (ReplayWindow.feed cs).bitmap.toNat = (LaneWindow.feed cs).blo.toNat + 2 ^ 32 *
      (LaneWindow.feed cs).bhi.toNat := by
  have hlanes := LaneWindow.joined_feed cs
  refine ⟨?_, fun i hi hle => ReplayWindow.feed_bits cs hi hle, ?_, ?_⟩
  · intro c
    rw [ReplayWindow.accepts_iff_fresh (ReplayWindow.feed_represents cs), ReplayWindow.fresh_iff]
  · intro c
    rw [(LaneWindow.joined_recv _ c).1, hlanes]
  · rw [← hlanes, LaneWindow.joined, BitVec.toNat_append,
      ← Nat.shiftLeft_add_eq_or_of_lt (LaneWindow.feed cs).blo.isLt, Nat.shiftLeft_eq]
    omega

end TriNet.Mesh
