import TriNet.Compute.Receipt
import TriNet.Lib.Runs
import Mathlib.Data.Fintype.EquivFin

namespace TriNet.Compute

open Lib.Runs

def rC : UInt32 := 0x9E3779B9
def receiptGenesis : UInt32 := 0x54524352

structure ComputeReceipt where
  executor : UInt32
  task : UInt32
  inHash : UInt32
  out : UInt32
  epoch : UInt32

def ComputeReceipt.leaf (r : ComputeReceipt) : UInt32 :=
  receiptLeaf r.executor r.task r.inHash r.out r.epoch

def ComputeReceipt.fields (r : ComputeReceipt) : List UInt32 :=
  [r.executor, r.task, r.inHash, r.out, r.epoch]

def receiptStep (prevHead leaf : UInt32) : UInt32 := mix32 (prevHead ^^^ mix32 (leaf ^^^ rC))

def ComputeReceipt.fold (head : UInt32) (r : ComputeReceipt) : UInt32 := receiptStep head r.leaf

def receiptHead (genesis : UInt32) (rs : List ComputeReceipt) : UInt32 :=
  run ComputeReceipt.fold genesis rs

def ledgerGenesis : UInt32 := 0x54524C47

structure LedgerRound where
  roundRoot : UInt32
  epoch : UInt32

def LedgerRound.fields (r : LedgerRound) : List UInt32 := [r.roundRoot, r.epoch]

def stateStep (prevState roundRoot epoch : UInt32) : UInt32 :=
  mix32 (prevState ^^^ mix32 (roundRoot ^^^ rotl epoch 13))

def LedgerRound.fold (state : UInt32) (r : LedgerRound) : UInt32 := stateStep state r.roundRoot r.epoch

def stateRoot (genesis : UInt32) (rounds : List LedgerRound) : UInt32 :=
  run LedgerRound.fold genesis rounds

def triGenesis : UInt32 := 0x54524921
def triPhi : UInt32 := 0x9E3779B9

structure RelayRecord where
  pktDigest : UInt32
  nbytes : UInt32

def RelayRecord.fields (r : RelayRecord) : List UInt32 := [r.pktDigest, r.nbytes]

def relayAbsorb (acc pktDigest nbytes : UInt32) : UInt32 :=
  mix32 (acc ^^^ pktDigest ^^^ rotl nbytes 7 ^^^ triPhi)

def RelayRecord.fold (acc : UInt32) (r : RelayRecord) : UInt32 := relayAbsorb acc r.pktDigest r.nbytes

def epochSeal (acc totalBytes nodeKey epoch : UInt32) : UInt32 :=
  let idbind := mix32 (nodeKey ^^^ rotl epoch 13)
  let workbind := mix32 (acc ^^^ rotl totalBytes 19)
  mix32 (workbind ^^^ idbind)

/-- All a seal is made of: the records of an epoch, and the inputs of the seal
itself. The metered total is an input of its own, not derived from the records. -/
structure RelayEpoch where
  records : List RelayRecord
  totalBytes : UInt32
  nodeKey : UInt32
  epoch : UInt32

def RelayEpoch.inputs (e : RelayEpoch) : List UInt32 := [e.totalBytes, e.nodeKey, e.epoch]

def RelayEpoch.acc (genesis : UInt32) (e : RelayEpoch) : UInt32 := run RelayRecord.fold genesis e.records

def RelayEpoch.sealed (genesis : UInt32) (e : RelayEpoch) : UInt32 :=
  epochSeal (e.acc genesis) e.totalBytes e.nodeKey e.epoch

def FieldChanged {ρ : Type} (fields : ρ → List UInt32) (r r' : ρ) : Prop :=
  Altered (· ≠ ·) (fields r) (fields r')

/-- Exactly one field of exactly one record, or exactly one input of the seal. -/
def RelayEpoch.Changed (e e' : RelayEpoch) : Prop :=
  Altered (FieldChanged RelayRecord.fields) e.records e'.records ∧ e.inputs = e'.inputs ∨
    e.records = e'.records ∧ Altered (· ≠ ·) e.inputs e'.inputs

theorem mix32_bijective : Function.Bijective mix32 := by
  have : Finite UInt32 := Finite.of_injective UInt32.toFin (fun _ _ => UInt32.toFin_inj.mp)
  exact Finite.injective_iff_bijective.mp mix32_injective

theorem rotl_inj {k x y : UInt32} (hpos : 0 < k.toNat) (hlt : k.toNat < 32) :
    rotl x k = rotl y k ↔ x = y :=
  (rotl_injective hpos hlt).eq_iff

theorem leaf_ne_of_fieldChanged {r r' : ComputeReceipt}
    (h : FieldChanged ComputeReceipt.fields r r') : r.leaf ≠ r'.leaf := by
  obtain ⟨executor, task, inHash, out, epoch⟩ := r
  obtain ⟨executor', task', inHash', out', epoch'⟩ := r'
  simp only [FieldChanged, ComputeReceipt.fields, altered_cons_iff, not_altered_nil,
    List.cons.injEq, and_true, and_false, or_false] at h
  intro heq
  simp only [ComputeReceipt.leaf, receiptLeaf] at heq
  -- all fields but one agree, so each round of the leaf peels off down to the one that differs
  rcases h with ⟨hne, rfl, rfl, rfl, rfl⟩ | ⟨rfl,
    ⟨hne, rfl, rfl, rfl⟩ | ⟨rfl, ⟨hne, rfl, rfl⟩ | ⟨rfl, ⟨hne, rfl⟩ | ⟨rfl, hne⟩⟩⟩⟩
  all_goals
    simp only [mix32_xor_inj, mix32_inj_xor] at heq
  · exact hne heq
  · exact hne ((rotl_inj (by decide) (by decide)).mp heq)
  · exact hne ((rotl_inj (by decide) (by decide)).mp heq)
  · exact hne ((rotl_inj (by decide) (by decide)).mp heq)
  · exact hne ((rotl_inj (by decide) (by decide)).mp heq)

theorem ComputeReceipt.fold_injective (r : ComputeReceipt) :
    Function.Injective (ComputeReceipt.fold · r) := by
  intro head head' h
  simpa only [ComputeReceipt.fold, receiptStep, mix32_xor_inj] using h

theorem ComputeReceipt.fold_ne (head : UInt32) (r r' : ComputeReceipt)
    (h : FieldChanged ComputeReceipt.fields r r') : r.fold head ≠ r'.fold head := by
  intro heq
  rw [ComputeReceipt.fold, ComputeReceipt.fold, receiptStep, receiptStep, mix32_inj_xor,
    mix32_xor_inj] at heq
  exact leaf_ne_of_fieldChanged h heq

theorem LedgerRound.fold_injective (r : LedgerRound) : Function.Injective (LedgerRound.fold · r) := by
  intro state state' h
  simpa only [LedgerRound.fold, stateStep, mix32_xor_inj] using h

theorem LedgerRound.fold_ne (state : UInt32) (r r' : LedgerRound)
    (h : FieldChanged LedgerRound.fields r r') : r.fold state ≠ r'.fold state := by
  obtain ⟨roundRoot, epoch⟩ := r
  obtain ⟨roundRoot', epoch'⟩ := r'
  simp only [FieldChanged, LedgerRound.fields, altered_cons_iff, not_altered_nil, List.cons.injEq,
    and_true, and_false, or_false] at h
  intro heq
  rw [LedgerRound.fold, LedgerRound.fold, stateStep, stateStep, mix32_inj_xor] at heq
  rcases h with ⟨hne, rfl⟩ | ⟨rfl, hne⟩
  · exact hne (mix32_xor_inj.mp heq)
  · exact hne ((rotl_inj (by decide) (by decide)).mp (mix32_inj_xor.mp heq))

theorem RelayRecord.fold_injective (r : RelayRecord) : Function.Injective (RelayRecord.fold · r) := by
  intro acc acc' h
  simpa only [RelayRecord.fold, relayAbsorb, mix32_xor_inj, UInt32.xor_left_inj] using h

theorem RelayRecord.fold_ne (acc : UInt32) (r r' : RelayRecord)
    (h : FieldChanged RelayRecord.fields r r') : r.fold acc ≠ r'.fold acc := by
  obtain ⟨pktDigest, nbytes⟩ := r
  obtain ⟨pktDigest', nbytes'⟩ := r'
  simp only [FieldChanged, RelayRecord.fields, altered_cons_iff, not_altered_nil, List.cons.injEq,
    and_true, and_false, or_false] at h
  intro heq
  rw [RelayRecord.fold, RelayRecord.fold, relayAbsorb, relayAbsorb, mix32_xor_inj] at heq
  rcases h with ⟨hne, rfl⟩ | ⟨rfl, hne⟩
  · rw [UInt32.xor_left_inj, UInt32.xor_right_inj] at heq
    exact hne heq
  · rw [UInt32.xor_right_inj] at heq
    exact hne ((rotl_inj (by decide) (by decide)).mp heq)

theorem epochSeal_injective (totalBytes nodeKey epoch : UInt32) :
    Function.Injective (epochSeal · totalBytes nodeKey epoch) := by
  intro acc acc' h
  simpa only [epochSeal, mix32_xor_inj] using h

theorem epochSeal_ne {acc : UInt32} {e e' : RelayEpoch} (h : Altered (· ≠ ·) e.inputs e'.inputs) :
    epochSeal acc e.totalBytes e.nodeKey e.epoch ≠ epochSeal acc e'.totalBytes e'.nodeKey e'.epoch := by
  obtain ⟨records, totalBytes, nodeKey, epoch⟩ := e
  obtain ⟨records', totalBytes', nodeKey', epoch'⟩ := e'
  simp only [RelayEpoch.inputs, altered_cons_iff, not_altered_nil, List.cons.injEq, and_true,
    and_false, or_false] at h
  intro heq
  simp only [epochSeal] at heq
  rcases h with ⟨hne, rfl, rfl⟩ | ⟨rfl, ⟨hne, rfl⟩ | ⟨rfl, hne⟩⟩
  · exact hne ((rotl_inj (by decide) (by decide)).mp (mix32_inj_xor.mp (mix32_xor_inj.mp heq)))
  · exact hne (mix32_xor_inj.mp (mix32_inj_xor.mp heq))
  · exact hne ((rotl_inj (by decide) (by decide)).mp (mix32_inj_xor.mp (mix32_inj_xor.mp heq)))

theorem sealed_ne {e e' : RelayEpoch} (h : e.Changed e') (genesis : UInt32) :
    e.sealed genesis ≠ e'.sealed genesis := by
  rcases h with ⟨hrecords, hinputs⟩ | ⟨hrecords, hinputs⟩
  · have hacc : e.acc genesis ≠ e'.acc genesis :=
      run_ne_of_altered RelayRecord.fold RelayRecord.fold_injective RelayRecord.fold_ne hrecords genesis
    simp only [RelayEpoch.inputs, List.cons.injEq, and_true] at hinputs
    obtain ⟨htotal, hkey, hepoch⟩ := hinputs
    rw [RelayEpoch.sealed, RelayEpoch.sealed, htotal, hkey, hepoch]
    exact fun heq => hacc (epochSeal_injective _ _ _ heq)
  · have hacc : e.acc genesis = e'.acc genesis := by rw [RelayEpoch.acc, RelayEpoch.acc, hrecords]
    rw [RelayEpoch.sealed, RelayEpoch.sealed, hacc]
    exact epochSeal_ne hinputs

/-- The three chains give away a change of any one field, however long they are
and wherever they start. -/
theorem hash_chains_tamper_evident :
    Function.Bijective mix32 ∧
    (∀ genesis rs rs', Altered (FieldChanged ComputeReceipt.fields) rs rs' →
      receiptHead genesis rs ≠ receiptHead genesis rs') ∧
    (∀ genesis rounds rounds', Altered (FieldChanged LedgerRound.fields) rounds rounds' →
      stateRoot genesis rounds ≠ stateRoot genesis rounds') ∧
    ∀ genesis (e e' : RelayEpoch), e.Changed e' → e.sealed genesis ≠ e'.sealed genesis := by
  refine ⟨mix32_bijective, ?_, ?_, fun genesis _ _ h => sealed_ne h genesis⟩
  · intro genesis rs rs' h
    exact run_ne_of_altered ComputeReceipt.fold ComputeReceipt.fold_injective ComputeReceipt.fold_ne
      h genesis
  · intro genesis rounds rounds' h
    exact run_ne_of_altered LedgerRound.fold LedgerRound.fold_injective LedgerRound.fold_ne h genesis

/-- An output changed in the second of three receipts, an epoch in the first of
two rounds, and a byte total claimed one higher. -/
theorem hash_chains_tamper_evident_small :
    receiptHead receiptGenesis [⟨1, 2, 3, 4, 5⟩, ⟨6, 7, 8, 9, 10⟩, ⟨11, 12, 13, 14, 15⟩] ≠
      receiptHead receiptGenesis [⟨1, 2, 3, 4, 5⟩, ⟨6, 7, 8, 0, 10⟩, ⟨11, 12, 13, 14, 15⟩] ∧
    stateRoot ledgerGenesis [⟨1, 2⟩, ⟨3, 4⟩] ≠ stateRoot ledgerGenesis [⟨1, 1⟩, ⟨3, 4⟩] ∧
    (RelayEpoch.mk [⟨1, 64⟩, ⟨2, 128⟩] 192 7 1).sealed triGenesis ≠
      (RelayEpoch.mk [⟨1, 64⟩, ⟨2, 128⟩] 193 7 1).sealed triGenesis := by
  refine ⟨hash_chains_tamper_evident.2.1 _ _ _ ?_, hash_chains_tamper_evident.2.2.1 _ _ _ ?_,
    hash_chains_tamper_evident.2.2.2 _ _ _ ?_⟩
  · exact .later _ (.here (.later _ (.later _ (.later _ (.here (by decide) _)))) _)
  · exact .here (.later _ (.here (by decide) _)) _
  · exact .inr ⟨rfl, .here (by decide) _⟩

end TriNet.Compute
