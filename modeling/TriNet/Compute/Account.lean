import TriNet.Compute.Exposure
import Mathlib.Data.List.Infix

namespace TriNet.Compute

open Lib.Runs

def balAfterLock (balance amt : UInt32) : UInt32 := if amt ≤ balance then balance - amt else balance

def lockedAfterLock (balance locked amt : UInt32) : UInt32 :=
  if amt ≤ balance then locked + amt else locked

def balAfterRelease (balance locked : UInt32) : UInt32 := balance + locked

def balAfterSlash (balance : UInt32) : UInt32 := balance

def balAddSat (balance amount : UInt32) : UInt32 := addOrMax balance amount

def balAfterClawback (balance : UInt32) : UInt32 := balance

def isFinal (settleEpoch nowEpoch window : UInt32) : Bool :=
  if nowEpoch ≥ settleEpoch then nowEpoch - settleEpoch ≥ window else false

def balAfterFinalizeGated (balance pending settleEpoch nowEpoch window : UInt32) : UInt32 :=
  if nowEpoch ≥ settleEpoch then
    if nowEpoch - settleEpoch ≥ window then balAddSat balance pending else balance
  else balance

def balAfterFinalizeChecked (balance pending settleEpoch nowEpoch window slashed : UInt32) : UInt32 :=
  if slashed = 1 then balance else balAfterFinalizeGated balance pending settleEpoch nowEpoch window

inductive Phase
  | inFlight
  | finalized (now : UInt32)
  | clawedBack
  deriving DecidableEq

structure Task where
  reward : UInt32
  settleEpoch : UInt32
  window : UInt32
  slashed : Bool
  phase : Phase

namespace Task

def slashFlag (t : Task) : UInt32 := if t.slashed then 1 else 0

def finalizes (t : Task) (now : UInt32) : Bool := isFinal t.settleEpoch now t.window && t.slashFlag != 1

def Due (t : Task) (now : UInt32) : Prop :=
  t.slashed = false ∧ t.settleEpoch.toNat + t.window.toNat ≤ now.toNat

instance (t : Task) (now : UInt32) : Decidable (t.Due now) := inferInstanceAs (Decidable (_ ∧ _))

end Task

def taskInFlight (tasks : List Task) (i : Nat) : Option Task :=
  tasks[i]?.filter (fun t => t.phase = .inFlight)

inductive AccountOp
  | lock (amt : UInt32)
  | release
  | slash
  | settle (reward settleEpoch window : UInt32)
  | proveFraud (i : Nat)
  | finalize (i : Nat) (now : UInt32)
  | clawback (i : Nat)

/-- One node's account. The tasks and the bonds lost to challengers are what
the claims on it rest on; the code keeps the four numbers only. -/
structure Account where
  balance : UInt32
  locked : UInt32
  pending : UInt32
  outstanding : UInt32
  tasks : List Task
  slashedBonds : Nat

namespace Account

def opened (balance locked : UInt32) : Account := ⟨balance, locked, 0, 0, [], 0⟩

def leave (s : Account) (i : Nat) (t : Task) (phase : Phase) : Account :=
  { s with
    pending := pendingAfterRelease s.pending t.reward
    outstanding := outstandingAfterRelease s.outstanding t.reward
    tasks := s.tasks.set i { t with phase } }

def step (s : Account) : AccountOp → Account
  | .lock amt =>
      { s with balance := balAfterLock s.balance amt, locked := lockedAfterLock s.balance s.locked amt }
  | .release => { s with balance := balAfterRelease s.balance s.locked, locked := 0 }
  | .slash =>
      { s with
        balance := balAfterSlash s.balance
        locked := 0
        slashedBonds := s.slashedBonds + s.locked.toNat }
  | .settle reward settleEpoch window =>
      { s with
        pending := pendingAfterSettle s.pending reward
        outstanding := outstandingAfterEscrow s.outstanding reward
        tasks := s.tasks ++ [⟨reward, settleEpoch, window, false, .inFlight⟩] }
  | .proveFraud i => { s with tasks := s.tasks.modify i (fun t => { t with slashed := true }) }
  | .finalize i now =>
      match taskInFlight s.tasks i with
      | none => s
      | some t =>
          let balance := balAfterFinalizeChecked s.balance t.reward t.settleEpoch now t.window t.slashFlag
          if t.finalizes now then { s with balance }.leave i t (.finalized now) else { s with balance }
  | .clawback i =>
      match taskInFlight s.tasks i with
      | none => s
      | some t => { s with balance := balAfterClawback s.balance }.leave i t .clawedBack

end Account

/-- The account as it is meant: integers, no bound and no saturation. -/
@[ext]
structure Books where
  balance : Int
  locked : Int
  pending : Int
  outstanding : Int
  tasks : List Task
  slashedBonds : Int

namespace Books

def opened (balance locked : Nat) : Books := ⟨balance, locked, 0, 0, [], 0⟩

def leave (s : Books) (i : Nat) (t : Task) (phase : Phase) : Books :=
  { s with
    pending := s.pending - t.reward.toNat
    outstanding := s.outstanding - t.reward.toNat
    tasks := s.tasks.set i { t with phase } }

def step (s : Books) : AccountOp → Books
  | .lock amt =>
      if (amt.toNat : Int) ≤ s.balance then
        { s with balance := s.balance - amt.toNat, locked := s.locked + amt.toNat }
      else s
  | .release => { s with balance := s.balance + s.locked, locked := 0 }
  | .slash => { s with locked := 0, slashedBonds := s.slashedBonds + s.locked }
  | .settle reward settleEpoch window =>
      { s with
        pending := s.pending + reward.toNat
        outstanding := s.outstanding + reward.toNat
        tasks := s.tasks ++ [⟨reward, settleEpoch, window, false, .inFlight⟩] }
  | .proveFraud i => { s with tasks := s.tasks.modify i (fun t => { t with slashed := true }) }
  | .finalize i now =>
      match taskInFlight s.tasks i with
      | none => s
      | some t =>
          if t.Due now then
            { s with balance := s.balance + t.reward.toNat }.leave i t (.finalized now) else s
  | .clawback i =>
      match taskInFlight s.tasks i with
      | none => s
      | some t => s.leave i t .clawedBack

def total (s : Books) : Int := s.balance + s.locked + s.pending

end Books

def Account.books (s : Account) : Books where
  balance := s.balance.toNat
  locked := s.locked.toNat
  pending := s.pending.toNat
  outstanding := s.outstanding.toNat
  tasks := s.tasks
  slashedBonds := s.slashedBonds

/-- The rewards of the tasks in the phases that `p` selects. -/
def rewards (p : Phase → Bool) (tasks : List Task) : Nat :=
  (tasks.map (fun t => if p t.phase then t.reward.toNat else 0)).sum

def Phase.isInFlight : Phase → Bool
  | inFlight => true
  | _ => false

def Phase.isFinalized : Phase → Bool
  | finalized _ => true
  | _ => false

def Phase.isClawedBack : Phase → Bool
  | clawedBack => true
  | _ => false

namespace Account

def settled (s : Account) : Nat := rewards (fun _ => true) s.tasks

def inFlight (s : Account) : Nat := rewards Phase.isInFlight s.tasks

def paid (s : Account) : Nat := rewards Phase.isFinalized s.tasks

def clawedBack (s : Account) : Nat := rewards Phase.isClawedBack s.tasks

end Account

theorem rewards_cons (p : Phase → Bool) (t : Task) (tasks : List Task) :
    rewards p (t :: tasks) = (if p t.phase then t.reward.toNat else 0) + rewards p tasks := by
  rw [rewards, List.map_cons, List.sum_cons, rewards]

theorem rewards_concat (p : Phase → Bool) (tasks : List Task) (t : Task) :
    rewards p (tasks ++ [t]) = rewards p tasks + if p t.phase then t.reward.toNat else 0 := by
  rw [rewards, List.map_append, List.sum_append, List.map_singleton, List.sum_singleton, rewards]

theorem rewards_proveFraud (p : Phase → Bool) (tasks : List Task) (i : Nat) :
    rewards p (tasks.modify i (fun t => { t with slashed := true })) = rewards p tasks := by
  induction tasks generalizing i with
  | nil => rw [List.modify_nil]
  | cons t tasks ih =>
      cases i with
      | zero => rw [List.modify_zero_cons, rewards_cons, rewards_cons]
      | succ i => rw [List.modify_succ_cons, rewards_cons, rewards_cons, ih]

theorem taskInFlight_eq_some {tasks : List Task} {i : Nat} {t : Task} :
    taskInFlight tasks i = some t ↔ tasks[i]? = some t ∧ t.phase = .inFlight := by
  rw [taskInFlight, Option.filter_eq_some_iff, decide_eq_true_iff]

theorem rewards_set (p : Phase → Bool) {tasks : List Task} {i : Nat} {t : Task}
    (h : tasks[i]? = some t) (phase : Phase) :
    rewards p (tasks.set i { t with phase }) + (if p t.phase then t.reward.toNat else 0) =
      rewards p tasks + if p phase then t.reward.toNat else 0 := by
  induction tasks generalizing i with
  | nil => simp at h
  | cons u tasks ih =>
      cases i with
      | zero =>
          obtain rfl : u = t := by simpa using h
          simp only [List.set_cons_zero, rewards_cons]
          omega
      | succ i =>
          have htail := ih (i := i) (by simpa using h)
          rw [List.set_cons_succ, rewards_cons, rewards_cons]
          omega

theorem rewards_split (tasks : List Task) :
    rewards (fun _ => true) tasks =
      rewards Phase.isInFlight tasks + rewards Phase.isFinalized tasks +
        rewards Phase.isClawedBack tasks := by
  induction tasks with
  | nil => rfl
  | cons t tasks ih =>
      simp only [rewards_cons, ih]
      cases t.phase <;> simp only [Phase.isInFlight, Phase.isFinalized, Phase.isClawedBack] <;>
        simp <;> omega

theorem Task.finalizes_iff (t : Task) (now : UInt32) : t.finalizes now = true ↔ t.Due now := by
  have hnow : isFinal t.settleEpoch now t.window = true ↔
      t.settleEpoch.toNat + t.window.toNat ≤ now.toNat := by
    rw [isFinal]
    split
    · next h =>
        have hsub := UInt32.toNat_sub_of_le _ _ h
        rw [ge_iff_le, UInt32.le_iff_toNat_le] at h
        rw [decide_eq_true_iff, ge_iff_le, UInt32.le_iff_toNat_le, hsub]
        omega
    · next h =>
        rw [ge_iff_le, UInt32.le_iff_toNat_le] at h
        simp only [Bool.false_eq_true, false_iff]
        omega
  have hflag : (t.slashFlag != 1) = true ↔ t.slashed = false := by
    cases h : t.slashed <;> simp [Task.slashFlag, h]
  rw [Task.finalizes, Bool.and_eq_true, hnow, hflag, Task.Due, and_comm]

theorem balAfterFinalizeChecked_eq (balance : UInt32) (t : Task) (now : UInt32) :
    balAfterFinalizeChecked balance t.reward t.settleEpoch now t.window t.slashFlag =
      if t.Due now then balAddSat balance t.reward else balance := by
  rw [← if_congr (Task.finalizes_iff t now) rfl rfl, Task.finalizes, isFinal,
    balAfterFinalizeChecked, balAfterFinalizeGated]
  by_cases hflag : t.slashFlag = 1
  · simp [hflag]
  · by_cases hnow : now ≥ t.settleEpoch <;> simp [hflag, hnow]

namespace Books

/-- The exact account adds up in every state: what is in flight is pending,
and beside what it held at first only finalized rewards reach the two buckets a
node can spend or bond. -/
structure Balanced (initial : Int) (s : Books) : Prop where
  balance_nonneg : 0 ≤ s.balance
  locked_nonneg : 0 ≤ s.locked
  pending : s.pending = rewards Phase.isInFlight s.tasks
  outstanding : s.outstanding = rewards Phase.isInFlight s.tasks
  spendable : s.balance + s.locked + s.slashedBonds = initial + rewards Phase.isFinalized s.tasks

theorem balanced_opened (balance locked : Nat) : Balanced (balance + locked) (opened balance locked) where
  balance_nonneg := Int.natCast_nonneg balance
  locked_nonneg := Int.natCast_nonneg locked
  pending := rfl
  outstanding := rfl
  spendable := rfl

variable {initial : Int} {s : Books}

theorem Balanced.leave (h : Balanced initial s) {i : Nat} {t : Task}
    (ht : taskInFlight s.tasks i = some t) :
    Balanced initial (s.leave i t .clawedBack) ∧
      ∀ now, Balanced initial
        ({ s with balance := s.balance + t.reward.toNat }.leave i t (.finalized now)) := by
  obtain ⟨hi, hphase⟩ := taskInFlight_eq_some.mp ht
  have hset (p : Phase → Bool) (phase : Phase) := rewards_set p hi phase
  have hpending := h.pending
  have houtstanding := h.outstanding
  have hspendable := h.spendable
  have hbalance := h.balance_nonneg
  rw [hphase] at hset
  constructor
  · have hin := hset Phase.isInFlight .clawedBack
    have hpaid := hset Phase.isFinalized .clawedBack
    simp only [Phase.isInFlight, Phase.isFinalized, if_true, Bool.false_eq_true, if_false] at hin hpaid
    constructor <;> simp only [Books.leave] <;> try omega
    exact h.locked_nonneg
  · intro now
    have hin := hset Phase.isInFlight (.finalized now)
    have hpaid := hset Phase.isFinalized (.finalized now)
    simp only [Phase.isInFlight, Phase.isFinalized, if_true, Bool.false_eq_true, if_false] at hin hpaid
    constructor <;> simp only [Books.leave] <;> try omega
    exact h.locked_nonneg

theorem Balanced.step (h : Balanced initial s) (op : AccountOp) : Balanced initial (s.step op) := by
  have hbalance := h.balance_nonneg
  have hlocked := h.locked_nonneg
  have hpending := h.pending
  have houtstanding := h.outstanding
  have hspendable := h.spendable
  cases op with
  | lock amt =>
      simp only [Books.step]
      split
      · constructor <;> dsimp only <;> omega
      · exact h
  | release => constructor <;> simp only [Books.step] <;> omega
  | slash => constructor <;> simp only [Books.step] <;> omega
  | settle reward settleEpoch window =>
      constructor <;> simp only [Books.step, rewards_concat, Phase.isInFlight, Phase.isFinalized,
        if_true, Bool.false_eq_true, if_false] <;> omega
  | proveFraud i => constructor <;> simp only [Books.step, rewards_proveFraud] <;> omega
  | finalize i now =>
      simp only [Books.step]
      split
      · exact h
      · next t ht =>
          split
          · exact (h.leave ht).2 now
          · exact h
  | clawback i =>
      simp only [Books.step]
      split
      · exact h
      · next t ht => exact (h.leave ht).1

theorem Balanced.total (h : Balanced initial s) :
    s.total + s.slashedBonds + rewards Phase.isClawedBack s.tasks =
      initial + rewards (fun _ => true) s.tasks := by
  have hpending := h.pending
  have hspendable := h.spendable
  rw [rewards_split, Books.total]
  omega

end Books

namespace Account

theorem toNat_balAddSat {balance amount : UInt32} (h : balance.toNat + amount.toNat ≤ u32Max) :
    (balAddSat balance amount).toNat = balance.toNat + amount.toNat := by
  rw [balAddSat, toNat_addOrMax, min_eq_left h]

theorem books_leave {s : Account} {i : Nat} {t : Task} (phase : Phase)
    (hpending : t.reward.toNat ≤ s.pending.toNat)
    (houtstanding : t.reward.toNat ≤ s.outstanding.toNat) :
    (s.leave i t phase).books = s.books.leave i t phase := by
  ext1 <;> simp only [leave, books, Books.leave, pendingAfterRelease,
    outstandingAfterRelease, toNat_subOrZero]
  · omega
  · omega

theorem reward_le_pending {initial : Int} {s : Account} (h : s.books.Balanced initial) {i : Nat}
    {t : Task} (ht : taskInFlight s.tasks i = some t) :
    t.reward.toNat ≤ s.pending.toNat ∧ t.reward.toNat ≤ s.outstanding.toNat := by
  obtain ⟨hi, hphase⟩ := taskInFlight_eq_some.mp ht
  have hset := rewards_set Phase.isInFlight hi .clawedBack
  have hpending : (s.pending.toNat : Int) = rewards Phase.isInFlight s.tasks := h.pending
  have houtstanding : (s.outstanding.toNat : Int) = rewards Phase.isInFlight s.tasks := h.outstanding
  rw [hphase] at hset
  simp only [Phase.isInFlight, if_true, Bool.false_eq_true, if_false] at hset
  omega

theorem books_lock {s : Account} (amt : UInt32) (htotal : s.books.total ≤ u32Max) :
    (s.step (.lock amt)).books = s.books.step (.lock amt) := by
  have hfits : (s.balance.toNat + s.locked.toNat + s.pending.toNat : Int) ≤ 4294967295 := htotal
  have hiff : amt ≤ s.balance ↔ (amt.toNat : Int) ≤ s.books.balance := by
    rw [UInt32.le_iff_toNat_le]
    exact Int.ofNat_le.symm
  by_cases hle : amt ≤ s.balance
  · have hsub := UInt32.toNat_sub_of_le _ _ hle
    have hadd := UInt32.toNat_add s.locked amt
    simp only [step, balAfterLock, lockedAfterLock, if_pos hle, Books.step, if_pos (hiff.mp hle)]
    rw [UInt32.le_iff_toNat_le] at hle
    ext1 <;> simp only [books, hsub, hadd]
    · omega
    · omega
  · simp only [step, balAfterLock, lockedAfterLock, if_neg hle, Books.step, if_neg (hiff.not.mp hle)]

theorem books_finalize {initial : Int} {s : Account} (h : s.books.Balanced initial)
    (i : Nat) (now : UInt32)
    (htotal : s.books.total ≤ u32Max) :
    (s.step (.finalize i now)).books = s.books.step (.finalize i now) := by
  have hfits : (s.balance.toNat + s.locked.toNat + s.pending.toNat : Int) ≤ 4294967295 := htotal
  cases ht : taskInFlight s.tasks i with
  | none => simp only [step, Books.step, books, ht]
  | some t =>
      have hle := reward_le_pending h ht
      have hsat : (balAddSat s.balance t.reward).toNat = _ := toNat_balAddSat (by rw [u32Max]; omega)
      have htask : taskInFlight s.books.tasks i = some t := ht
      simp only [step, Books.step, ht, htask, balAfterFinalizeChecked_eq,
        if_congr (Task.finalizes_iff t now) rfl rfl]
      by_cases hdue : t.Due now
      · simp only [if_pos hdue]
        rw [books_leave (.finalized now) (by exact hle.1) (by exact hle.2)]
        simp only [books, hsat]
        rfl
      · simp only [if_neg hdue]

/-- As long as the exact total fits in 32 bits, the account does exactly what
the books do: nothing wraps, saturates or is cut off at zero. -/
theorem books_step {initial : Int} {s : Account} (h : s.books.Balanced initial) {op : AccountOp}
    (hbefore : s.books.total ≤ u32Max) (hafter : (s.books.step op).total ≤ u32Max) :
    (s.step op).books = s.books.step op := by
  have htotal : (s.balance.toNat + s.locked.toNat + s.pending.toNat : Int) ≤ 4294967295 := hbefore
  cases op with
  | lock amt => exact books_lock amt hbefore
  | release =>
      have hadd := UInt32.toNat_add s.balance s.locked
      ext1 <;> simp only [step, Books.step, books, balAfterRelease, hadd, UInt32.toNat_zero]
      · omega
      · omega
  | slash => ext1 <;> rfl
  | settle reward settleEpoch window =>
      have hreward : (s.balance.toNat + s.locked.toNat + (s.pending.toNat + reward.toNat) : Int) ≤
          u32Max := hafter
      have hsame : (s.outstanding.toNat : Int) = s.pending.toNat := h.outstanding.trans h.pending.symm
      ext1 <;> simp only [step, Books.step, books, pendingAfterSettle,
        outstandingAfterEscrow, toNat_addOrMax]
      · omega
      · omega
  | proveFraud i => rfl
  | finalize i now => exact books_finalize h i now hbefore
  | clawback i =>
      cases ht : taskInFlight s.tasks i with
      | none => simp only [step, Books.step, books, ht]
      | some t =>
          have hle := reward_le_pending h ht
          have htask : taskInFlight s.books.tasks i = some t := ht
          simp only [step, Books.step, ht, htask, balAfterClawback]
          exact books_leave .clawedBack hle.1 hle.2

end Account

inductive Task.Moves (t : Task) : Task → Prop
  | same : t.Moves t
  | slashed : t.Moves { t with slashed := true }
  | clawedBack (h : t.phase = .inFlight) : t.Moves { t with phase := .clawedBack }
  | finalized (now : UInt32) (h : t.phase = .inFlight) (hdue : t.Due now) :
      t.Moves { t with phase := .finalized now }

def Phase.Unpaid (p : Phase) : Prop := ∀ now, p ≠ .finalized now

theorem Task.Moves.slashed_unpaid {t t' : Task} (h : t.Moves t') (hslashed : t.slashed = true)
    (hunpaid : t.phase.Unpaid) : t'.slashed = true ∧ t'.phase.Unpaid := by
  cases h with
  | same => exact ⟨hslashed, hunpaid⟩
  | slashed => exact ⟨rfl, hunpaid⟩
  | clawedBack h => exact ⟨hslashed, fun now => nofun⟩
  | finalized now h hdue => exact absurd (hslashed.symm.trans hdue.1) (by decide)

theorem exists_moves_set {tasks : List Task} {i j : Nat} {t u u' : Task} (ht : tasks[i]? = some t)
    (hu : tasks[j]? = some u) (h : u.Moves u') : ∃ t', (tasks.set j u')[i]? = some t' ∧ t.Moves t' := by
  by_cases hij : j = i
  · subst hij
    obtain rfl : t = u := Option.some.inj (ht.symm.trans hu)
    have hlt := (List.getElem?_eq_some_iff.mp ht).1
    exact ⟨u', List.getElem?_set_self hlt, h⟩
  · exact ⟨t, by rw [List.getElem?_set_ne hij, ht], .same⟩

namespace Account

theorem step_task (s : Account) (op : AccountOp) {i : Nat} {t : Task} (h : s.tasks[i]? = some t) :
    ∃ t', (s.step op).tasks[i]? = some t' ∧ t.Moves t' := by
  cases op with
  | lock _ | release | slash => exact ⟨t, h, .same⟩
  | settle reward settleEpoch window =>
      have hlt := (List.getElem?_eq_some_iff.mp h).1
      exact ⟨t, by rw [step, List.getElem?_append_left hlt, h], .same⟩
  | proveFraud j =>
      by_cases hij : j = i
      · exact ⟨_, by simp [step, h, hij], .slashed⟩
      · exact ⟨t, by simp [step, h, hij], .same⟩
  | finalize j now =>
      cases hj : taskInFlight s.tasks j with
      | none => exact ⟨t, by simp only [step, hj, h], .same⟩
      | some u =>
          obtain ⟨hu, hphase⟩ := taskInFlight_eq_some.mp hj
          by_cases hdue : u.Due now
          · simp only [step, hj, if_pos ((u.finalizes_iff now).mpr hdue), leave]
            exact exists_moves_set h hu (.finalized now hphase hdue)
          · simp only [step, hj, if_neg ((u.finalizes_iff now).not.mpr hdue)]
            exact ⟨t, h, .same⟩
  | clawback j =>
      cases hj : taskInFlight s.tasks j with
      | none => exact ⟨t, by simp only [step, hj, h], .same⟩
      | some u =>
          obtain ⟨hu, hphase⟩ := taskInFlight_eq_some.mp hj
          simp only [step, hj, leave]
          exact exists_moves_set h hu (.clawedBack hphase)

theorem phase_of_new (s : Account) (op : AccountOp) {i : Nat} {t' : Task} (h : s.tasks[i]? = none)
    (h' : (s.step op).tasks[i]? = some t') : t'.phase = .inFlight := by
  have hge := List.getElem?_eq_none_iff.mp h
  have hlt := (List.getElem?_eq_some_iff.mp h').1
  cases op with
  | lock _ | release | slash => exact absurd hge (Nat.not_le.mpr hlt)
  | settle reward settleEpoch window =>
      rw [step, List.getElem?_append_right hge, List.getElem?_singleton] at h'
      split at h'
      · rw [← Option.some.inj h']
      · exact absurd h' nofun
  | proveFraud j =>
      rw [step, List.length_modify] at hlt
      exact absurd hge (Nat.not_le.mpr hlt)
  | finalize j now =>
      have hlength : (s.step (.finalize j now)).tasks.length = s.tasks.length := by
        simp only [step]
        split
        · rfl
        · split
          · exact List.length_set
          · rfl
      exact absurd hge (Nat.not_le.mpr (hlength ▸ hlt))
  | clawback j =>
      have hlength : (s.step (.clawback j)).tasks.length = s.tasks.length := by
        simp only [step]
        split
        · rfl
        · exact List.length_set
      exact absurd hge (Nat.not_le.mpr (hlength ▸ hlt))

def Waited (s : Account) : Prop :=
  ∀ (i : Nat) (t : Task), s.tasks[i]? = some t → ∀ now, t.phase = .finalized now →
    t.settleEpoch.toNat + t.window.toNat ≤ now.toNat

theorem Waited.step {s : Account} (h : s.Waited) (op : AccountOp) : (s.step op).Waited := by
  intro i t' ht' now hpaid
  cases ht : s.tasks[i]? with
  | none =>
      rw [phase_of_new s op ht ht'] at hpaid
      exact absurd hpaid nofun
  | some t =>
      obtain ⟨u, hu, hmoves⟩ := step_task s op ht
      obtain rfl : u = t' := Option.some.inj (hu.symm.trans ht')
      cases hmoves with
      | same | slashed => exact h i t ht now hpaid
      | clawedBack _ => exact absurd hpaid nofun
      | finalized now' _ hdue =>
          obtain rfl : now' = now := by simpa using hpaid
          exact hdue.2

theorem slashed_stays_unpaid {s : Account} {i : Nat} {t : Task} (h : s.tasks[i]? = some t)
    (hslashed : t.slashed = true) (hunpaid : t.phase.Unpaid) (ops : List AccountOp) :
    ∃ t', (run step s ops).tasks[i]? = some t' ∧ t'.phase.Unpaid := by
  induction ops generalizing s t with
  | nil => exact ⟨t, h, hunpaid⟩
  | cons op ops ih =>
      obtain ⟨u, hu, hmoves⟩ := step_task s op h
      obtain ⟨hs, hp⟩ := hmoves.slashed_unpaid hslashed hunpaid
      exact ih hu hs hp

theorem balanced_run (balance locked : UInt32) (ops : List AccountOp) :
    (run Books.step (opened balance locked).books ops).Balanced (balance.toNat + locked.toNat) :=
  run_invariant Books.step (Books.Balanced (balance.toNat + locked.toNat)) (fun _ op h => h.step op)
    _ ops (Books.balanced_opened balance.toNat locked.toNat)

theorem books_run (balance locked : UInt32) (ops : List AccountOp)
    (hfits : ∀ past, past <+: ops → (run Books.step (opened balance locked).books past).total ≤ u32Max) :
    (run step (opened balance locked) ops).books = run Books.step (opened balance locked).books ops := by
  refine run_refines step Books.step books
    (fun b => b.Balanced (balance.toNat + locked.toNat) ∧ b.total ≤ u32Max) ?_ _ ops ?_
  · intro s op hbefore hafter
    exact books_step hbefore.1 hbefore.2 hafter.2
  · intro past hpast
    exact ⟨balanced_run balance locked past, hfits past hpast⟩

/-- Value is neither created nor lost in any history whose exact total fits
in 32 bits, and no reward reaches the balance early or after a slash. -/
theorem account_conserved (balance locked : UInt32) (ops : List AccountOp)
    (hfits : ∀ past, past <+: ops → (run Books.step (opened balance locked).books past).total ≤ u32Max) :
    ∀ past, past <+: ops →
      let s := run step (opened balance locked) past
      s.books = run Books.step (opened balance locked).books past ∧
      s.balance.toNat + s.locked.toNat + s.pending.toNat + s.slashedBonds + s.clawedBack =
        balance.toNat + locked.toNat + s.settled ∧
      s.pending.toNat = s.inFlight ∧ s.outstanding.toNat = s.inFlight ∧
      s.balance.toNat + s.locked.toNat + s.slashedBonds = balance.toNat + locked.toNat + s.paid ∧
      s.Waited ∧
      ∀ (i : Nat) (t : Task), s.tasks[i]? = some t → t.slashed = true → t.phase.Unpaid →
        ∀ more, ∃ t' : Task, (run step s more).tasks[i]? = some t' ∧ t'.phase.Unpaid := by
  intro past hpast s
  have hbooks : s.books = run Books.step (opened balance locked).books past :=
    books_run balance locked past (fun p hp => hfits p (hp.trans hpast))
  have hbalanced : s.books.Balanced (balance.toNat + locked.toNat) :=
    hbooks ▸ balanced_run balance locked past
  have htotal := hbalanced.total
  have hpending := hbalanced.pending
  have houtstanding := hbalanced.outstanding
  have hspendable := hbalanced.spendable
  simp only [books, Books.total] at htotal hpending houtstanding hspendable
  refine ⟨hbooks, ?_, ?_, ?_, ?_, ?_, ?_⟩
  · rw [clawedBack, settled]
    omega
  · rw [inFlight]
    omega
  · rw [inFlight]
    omega
  · rw [paid]
    omega
  · refine run_invariant step Waited (fun _ op h => h.step op) _ past ?_
    intro i t ht
    exact absurd ht nofun
  · intro i t ht hslashed hunpaid more
    exact slashed_stays_unpaid ht hslashed hunpaid more

/-- Two tasks in flight at once: the first one is asked for too early and then
paid, the second one is slashed, asked for and clawed back, and the bond is lost. -/
def twoTasks : List AccountOp :=
  [.lock 200, .settle 50 0 10, .settle 70 1 10, .finalize 0 5, .proveFraud 1, .finalize 0 10,
    .finalize 1 30, .clawback 1, .slash]

theorem account_conserved_twoTasks :
    let s := run step (opened 1000 0) twoTasks
    s.balance = 850 ∧ s.slashedBonds = 200 ∧ s.clawedBack = 70 ∧ s.settled = 120 ∧
      s.balance.toNat + s.locked.toNat + s.pending.toNat + s.slashedBonds + s.clawedBack =
        1000 + 0 + s.settled := by
  have hfits : ∀ past ∈ twoTasks.inits,
      (run Books.step (opened 1000 0).books past).total ≤ u32Max := by decide
  have h := account_conserved 1000 0 twoTasks
    (fun past hpast => hfits past ((List.mem_inits past _).mpr hpast)) twoTasks (List.prefix_refl _)
  exact ⟨by decide, by decide, by decide, by decide, h.2.1⟩

end Account

end TriNet.Compute
