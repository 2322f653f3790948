import TriNet.CallApi.DirectoryMoves
import TriNet.Lib.EditDistance

namespace TriNet.CallApi

open Lib Lib.BigEndian Lib.Runs Lib.EditDistance

theorem editCells_row (a : UInt8) (xs ys right : Bytes) :
    distance (a :: xs) ys :: editCells a (distance (a :: xs) ys) (row xs ys right) right =
      row (a :: xs) ys right := by
  induction right generalizing ys with
  | nil => simp [editCells, row]
  | cons b right ih =>
      have hcell : min (min (distance (a :: xs) ys + 1) (distance xs (b :: ys) + 1))
          (distance xs ys + if a != b then 1 else 0) = distance (a :: xs) (b :: ys) := by
        rw [distance]
        by_cases h : a = b <;> simp [h]
      rw [row, row, row_eq_cons xs (b :: ys) right, editCells, hcell, ← row_eq_cons, ih]

theorem editRow_row (a : UInt8) (xs right : Bytes) :
    editRow right (row xs [] right) (a, xs.length) = row (a :: xs) [] right := by
  have h := editCells_row a xs [] right
  rwa [distance_nil_right] at h

/-- The dynamic program over the prefixes computes the edit distance. -/
theorem editDistance_eq (left right : Bytes) :
    editDistance left right = distance left.reverse right.reverse :=
  distance_of_rows (fun a xs => editRow_row a xs right) left

theorem editDistance_comm (left right : Bytes) : editDistance left right = editDistance right left := by
  rw [editDistance_eq, editDistance_eq, distance_comm]

theorem sharedPrefixLength_comm (left right : Bytes) :
    sharedPrefixLength left right = sharedPrefixLength right left := by
  induction left generalizing right with
  | nil => simp [sharedPrefixLength]
  | cons a left ih =>
      cases right with
      | nil => simp [sharedPrefixLength]
      | cons b right =>
          have h := ih right
          simp only [sharedPrefixLength, List.zip_cons_cons, List.takeWhile_cons, beq_iff_eq] at h ⊢
          by_cases hab : a = b
          · simp [hab, h]
          · simp [hab, Ne.symm hab]

theorem nicknamesAreConfusing_comm (candidate existing : String) :
    nicknamesAreConfusing candidate existing = nicknamesAreConfusing existing candidate := by
  rw [nicknamesAreConfusing, nicknamesAreConfusing, editDistance_comm,
    sharedPrefixLength_comm, Bool.beq_comm]

/-- The rows of the directory: one nickname an account, well formed, and told
apart from those of all other accounts. -/
structure Db.DirectoryClear (db : Db) : Prop where
  single : ∀ r ∈ db.nicknames.rows, ∀ t ∈ db.nicknames.rows, r.userId = t.userId → r = t
  shape : ∀ r ∈ db.nicknames.rows, nicknameShapeValid r.nickname = true
  clear : ∀ r ∈ db.nicknames.rows, ∀ t ∈ db.nicknames.rows, r.userId ≠ t.userId →
    nicknamesAreConfusing r.nickname t.nickname = false

variable {env : Env} {auth : AuthenticatedDevice} {draw : Draw} {db db' : Db}

theorem Db.DirectoryClear.of_subset (h : db.DirectoryClear)
    (hsub : db'.nicknames.rows ⊆ db.nicknames.rows) :
    db'.DirectoryClear where
  single r hr t ht := h.single r (hsub hr) t (hsub ht)
  shape r hr := h.shape r (hsub hr)
  clear r hr t ht := h.clear r (hsub hr) t (hsub ht)

theorem Db.DirectoryClear.claim (h : db.DirectoryClear) {row : NicknameRow}
    {nicknames : Table NicknameRow.nickname} (hshape : nicknameShapeValid row.nickname = true)
    (hclear : ∀ r ∈ db.nicknames.rows, r.userId ≠ row.userId →
      nicknamesAreConfusing row.nickname r.nickname = false)
    (hinsert : insertNickname db (db.nicknames.delete (fun r => r.userId = row.userId)) row =
      some nicknames) :
    { db with nicknames := nicknames }.DirectoryClear := by
  have hrows : ∀ r ∈ nicknames.rows, (r ∈ db.nicknames.rows ∧ r.userId ≠ row.userId) ∨ r = row := by
    intro r hr
    rw [insertNickname_rows hinsert] at hr
    simpa [Table.delete] using hr
  constructor
  · intro r hr t ht huser
    rcases hrows r hr with ⟨hr, hne⟩ | rfl <;> rcases hrows t ht with ⟨ht, hne'⟩ | rfl
    · exact h.single r hr t ht huser
    · exact absurd huser hne
    · exact absurd huser.symm hne'
    · rfl
  · intro r hr
    rcases hrows r hr with ⟨hr, _⟩ | rfl
    · exact h.shape r hr
    · exact hshape
  · intro r hr t ht huser
    rcases hrows r hr with ⟨hr, hne⟩ | rfl <;> rcases hrows t ht with ⟨ht, hne'⟩ | rfl
    · exact h.clear r hr t ht huser
    · rw [nicknamesAreConfusing_comm]
      exact hclear r hr hne
    · exact hclear t ht hne'
    · exact absurd rfl huser

theorem DirectoryMove.directoryClear {request : Request} (h : DirectoryMove env auth draw db request db')
    (hdb : db.DirectoryClear) : db'.DirectoryClear := by
  cases h with
  | stay _ _ hnicknames => exact hdb.of_subset (by rw [hnicknames]; exact List.Subset.refl _)
  | register | revoke => exact hdb.of_subset (List.Subset.refl _)
  | link => exact hdb.of_subset (fun r hr => List.mem_of_mem_filter hr)
  | claim row _ _ hshape hclear hinsert => exact hdb.claim hshape hclear hinsert

namespace Server

theorem directoryClear_step (env : Env) (s : Server) (e : Event) (h : s.db.DirectoryClear) :
    (step env s e).db.DirectoryClear := by
  have hstep := step_spec env s e
  generalize step env s e = t at hstep ⊢
  cases hstep with
  | quiet hdb => exact hdb ▸ h
  | authenticate hw hauth =>
      obtain ⟨_, _, _, rfl⟩ := authenticateUnderLock_ok hauth
      exact h.of_subset (List.Subset.refl _)
  | body hp hbody => exact (body_directoryMove hbody).directoryClear h

/-- From the empty database and in every interleaving of transactions, an
account has at most one nickname, every stored nickname is well formed, and
nicknames of different accounts are not confusing in either order. -/
theorem directory_unambiguous (env : Env) (clock : Int) (es : List Event) :
    (∀ userId, (run (step env) { clock, db := {} } es).db.nicknames.count (fun r =>
      r.userId = userId) ≤ 1) ∧
    (∀ r ∈ (run (step env) { clock, db := {} } es).db.nicknames.rows,
      nicknameShapeValid r.nickname = true) ∧
    ∀ r ∈ (run (step env) { clock, db := {} } es).db.nicknames.rows,
      ∀ t ∈ (run (step env) { clock, db := {} } es).db.nicknames.rows, r.userId ≠ t.userId →
        nicknamesAreConfusing r.nickname t.nickname = false ∧
          nicknamesAreConfusing t.nickname r.nickname = false := by
  have hclear : (run (step env) { clock, db := {} } es).db.DirectoryClear :=
    run_invariant (step env) (fun s => s.db.DirectoryClear) (directoryClear_step env) _ es
      ⟨by simp [Table.empty], by simp [Table.empty], by simp [Table.empty]⟩
  refine ⟨?_, hclear.shape, ?_⟩
  · intro userId
    apply Table.count_le_one
    intro r hr t ht huser huser'
    rw [decide_eq_true_iff] at huser huser'
    exact hclear.single r hr t ht (huser.trans huser'.symm)
  · intro r hr t ht huser
    exact ⟨hclear.clear r hr t ht huser, hclear.clear t ht r hr (Ne.symm huser)⟩

end Server

end TriNet.CallApi
