import Mathlib.Data.List.Nodup
import Mathlib.Data.List.Count

namespace TriNet.Lib

/-- A table with a primary key: no two of its rows share one. -/
structure Table {ρ κ : Type} (key : ρ → κ) where
  rows : List ρ
  nodup : (rows.map key).Nodup

namespace Table

variable {ρ κ : Type} {key : ρ → κ}

instance [DecidableEq ρ] : DecidableEq (Table key) := fun s t =>
  decidable_of_iff (s.rows = t.rows) ⟨fun h => by cases s; cases t; cases h; rfl, fun h => h ▸ rfl⟩

def empty : Table key := ⟨[], List.nodup_nil⟩

def select (t : Table key) (p : ρ → Bool) : List ρ := t.rows.filter p

def count (t : Table key) (p : ρ → Bool) : Nat := t.rows.countP p

def delete (t : Table key) (p : ρ → Bool) : Table key :=
  ⟨t.rows.filter (fun r => !p r), t.nodup.sublist (List.filter_sublist.map key)⟩

def update (t : Table key) (p : ρ → Bool) (f : ρ → ρ) (hf : ∀ r, key (f r) = key r) : Table key where
  rows := t.rows.map (fun r => if p r then f r else r)
  nodup := by
    have hkey : key ∘ (fun r => if p r then f r else r) = key := by
      funext r
      by_cases h : p r <;> simp [h, hf]
    rw [List.map_map, hkey]
    exact t.nodup

theorem count_update (t : Table key) (q : ρ → Bool) {f : ρ → ρ} (hf : ∀ r, key (f r) = key r)
    {p : ρ → Bool} (hp : ∀ r, p (f r) = p r) : (t.update q f hf).count p = t.count p := by
  have hsame : p ∘ (fun r => if q r then f r else r) = p := by
    funext r
    by_cases h : q r <;> simp [h, hp]
  rw [count, update, List.countP_map, hsame]
  rfl

theorem count_delete_le (t : Table key) (q p : ρ → Bool) : (t.delete q).count p ≤ t.count p :=
  List.filter_sublist.countP_le

theorem count_le_one {t : Table key} {p : ρ → Bool}
    (h : ∀ r ∈ t.rows, ∀ s ∈ t.rows, p r = true → p s = true → r = s) : t.count p ≤ 1 := by
  have hnodup : (t.rows.filter p).Nodup := t.nodup.of_map.filter p
  rw [count, List.countP_eq_length_filter]
  cases hrows : t.rows.filter p with
  | nil => simp
  | cons r rest =>
      cases rest with
      | nil => simp
      | cons s rest =>
          have hr := List.mem_filter.mp (hrows ▸ List.mem_cons_self : r ∈ t.rows.filter p)
          have hs := List.mem_filter.mp
            (hrows ▸ List.mem_cons_of_mem r List.mem_cons_self : s ∈ t.rows.filter p)
          rw [hrows, h r hr.1 s hs.1 hr.2 hs.2] at hnodup
          exact absurd List.mem_cons_self (List.nodup_cons.mp hnodup).1

theorem exists_of_one_lt_count {t : Table key} {p : ρ → Bool} (h : 1 < t.count p) (k : κ) :
    ∃ r ∈ t.rows, p r = true ∧ key r ≠ k := by
  by_contra hall
  have hkey : ∀ r ∈ t.rows, p r = true → key r = k := by
    intro r hr hpr
    by_contra hne
    exact hall ⟨r, hr, hpr, hne⟩
  apply Nat.not_le.mpr h
  apply count_le_one
  intro r hr s hs hpr hps
  exact List.inj_on_of_nodup_map t.nodup hr hs ((hkey r hr hpr).trans (hkey s hs hps).symm)

variable [DecidableEq κ]

def find (t : Table key) (k : κ) : Option ρ := t.rows.find? (fun r => key r = k)

def insert (t : Table key) (r : ρ) : Option (Table key) :=
  if h : key r ∈ t.rows.map key then none
  else some ⟨t.rows ++ [r], by
    rw [List.map_append]
    exact t.nodup.append (List.nodup_singleton _) (by simpa using h)⟩

def insertOrIgnore (t : Table key) (r : ρ) : Table key := (t.insert r).getD t

def upsert (t : Table key) (r : ρ) (f : ρ → ρ) (hf : ∀ r, key (f r) = key r) : Table key :=
  (t.insert r).getD (t.update (fun s => key s = key r) f hf)

theorem find_eq_some {t : Table key} {k : κ} {r : ρ} : t.find k = some r ↔ r ∈ t.rows ∧ key r = k := by
  constructor
  · intro h
    exact ⟨List.mem_of_find?_eq_some h, by simpa using List.find?_some h⟩
  · rintro ⟨hr, rfl⟩
    cases hf : t.find (key r) with
    | none => exact absurd (List.find?_eq_none.mp hf r hr) (by simp)
    | some s =>
        have hs : s ∈ t.rows := List.mem_of_find?_eq_some hf
        have hk : key s = key r := by simpa using List.find?_some hf
        rw [List.inj_on_of_nodup_map t.nodup hs hr hk]

theorem find_eq_none {t : Table key} {k : κ} : t.find k = none ↔ ∀ r ∈ t.rows, key r ≠ k := by
  simp [find]

theorem mem_rows {t : Table key} {r : ρ} : r ∈ t.rows ↔ t.find (key r) = some r := by
  simp [find_eq_some]

theorem key_of_find {t : Table key} {k : κ} {r : ρ} (h : t.find k = some r) :
    key r = k := (find_eq_some.mp h).2

theorem insert_eq_some {t u : Table key} {r : ρ} (h : t.insert r = some u) :
    t.find (key r) = none ∧ u.rows = t.rows ++ [r] := by
  rw [insert] at h
  split at h
  · cases h
  · next hnew =>
      rw [← Option.some.inj h]
      refine ⟨find_eq_none.mpr (fun s hs hk => hnew ?_), rfl⟩
      exact List.mem_map.mpr ⟨s, hs, hk⟩

theorem insert_eq_none {t : Table key} {r : ρ} : t.insert r = none ↔ t.find (key r) ≠ none := by
  rw [Ne, find_eq_none]
  simp [insert]

theorem find_insert {t u : Table key} {r : ρ} (h : t.insert r = some u) (k : κ) :
    u.find k = if key r = k then some r else t.find k := by
  obtain ⟨hnone, hrows⟩ := insert_eq_some h
  split
  · next hk => exact find_eq_some.mpr ⟨by rw [hrows]; simp, hk⟩
  · next hk => simp [find, hrows, List.find?_append, hk]

theorem find_update (t : Table key) (p : ρ → Bool) (f : ρ → ρ) (hf : ∀ r, key (f r) = key r)
    (k : κ) : (t.update p f hf).find k = (t.find k).map (fun r => if p r then f r else r) := by
  have hkey (r : ρ) : key (if p r then f r else r) = key r := by split <;> simp [hf]
  cases h : t.find k with
  | none =>
      apply find_eq_none.mpr
      intro s hs
      obtain ⟨r, hr, rfl⟩ := List.mem_map.mp hs
      rw [hkey]
      exact find_eq_none.mp h r hr
  | some r =>
      obtain ⟨hr, hk⟩ := find_eq_some.mp h
      exact find_eq_some.mpr ⟨List.mem_map.mpr ⟨r, hr, rfl⟩, by rw [hkey, hk]⟩

theorem find_upsert (t : Table key) (r : ρ) (f : ρ → ρ) (hf : ∀ r, key (f r) = key r) (k : κ) :
    (t.upsert r f hf).find k = if key r = k then some ((t.find k).elim r f) else t.find k := by
  rw [upsert]
  cases h : t.insert r with
  | some u =>
      obtain ⟨hnone, _⟩ := insert_eq_some h
      rw [Option.getD_some, find_insert h]
      split
      · next hk =>
          subst hk
          rw [hnone]
          rfl
      · rfl
  | none =>
      obtain ⟨s, hs⟩ := Option.ne_none_iff_exists'.mp (insert_eq_none.mp h)
      rw [Option.getD_none, find_update]
      by_cases hk : key r = k
      · subst hk
        simp [hs, key_of_find hs]
      · cases hf : t.find k with
        | none => simp [hk]
        | some u =>
            have huk := key_of_find hf
            have hne : key u ≠ key r := fun he => hk (he.symm.trans huk)
            simp [hk, hne]

theorem map_find_upsert {β : Type} (t : Table key) (r : ρ) (f : ρ → ρ) (hf : ∀ r, key (f r) = key r)
    (column : ρ → β) (hcolumn : ∀ s, column (f s) = column r) (k : κ) :
    ((t.upsert r f hf).find k).map column = if key r = k then some (column r)
      else (t.find k).map column := by
  rw [find_upsert]
  split
  · cases t.find k with
    | none => rfl
    | some s => exact congrArg some (hcolumn s)
  · rfl

theorem find_insertOrIgnore (t : Table key) (r : ρ) (k : κ) :
    (t.insertOrIgnore r).find k = if key r = k then some ((t.find k).getD r) else t.find k := by
  rw [insertOrIgnore]
  cases h : t.insert r with
  | some u =>
      rw [Option.getD_some, find_insert h]
      split
      · next hk =>
          subst hk
          rw [(insert_eq_some h).1, Option.getD_none]
      · rfl
  | none =>
      obtain ⟨s, hs⟩ := Option.ne_none_iff_exists'.mp (insert_eq_none.mp h)
      rw [Option.getD_none]
      split
      · next hk =>
          subst hk
          rw [hs, Option.getD_some]
      · rfl

theorem rows_insertOrIgnore (t : Table key) (r : ρ) :
    t.insertOrIgnore r = t ∨ (t.insertOrIgnore r).rows = t.rows ++ [r] := by
  rw [insertOrIgnore]
  cases h : t.insert r with
  | none => exact .inl rfl
  | some u => exact .inr (insert_eq_some h).2

theorem find_of_appended {t u : Table key} {new : List ρ} {r : ρ} (h : u.rows = t.rows ++ new)
    (hr : r ∈ new) : t.find (key r) = none := by
  have hnodup := u.nodup
  rw [h, List.map_append] at hnodup
  apply find_eq_none.mpr
  intro s hs hk
  exact List.disjoint_of_nodup_append hnodup (List.mem_map_of_mem hs) (hk ▸ List.mem_map_of_mem hr)

theorem find_append {t u : Table key} {new : List ρ} {k : κ} (h : u.rows = t.rows ++ new)
    (hnew : ∀ r ∈ new, key r ≠ k) : u.find k = t.find k := by
  have hnone : new.find? (fun r => key r = k) = none := by simpa using hnew
  rw [find, h, List.find?_append, hnone, Option.or_none]
  rfl

theorem find_delete (t : Table key) (p : ρ → Bool) (k : κ) :
    (t.delete p).find k = (t.find k).filter (fun r => !p r) := by
  cases h : t.find k with
  | none =>
      apply find_eq_none.mpr
      intro r hr
      exact find_eq_none.mp h r (List.mem_of_mem_filter hr)
  | some r =>
      obtain ⟨hr, hk⟩ := find_eq_some.mp h
      by_cases hp : p r
      · rw [Option.filter_some, if_neg (by simp [hp])]
        apply find_eq_none.mpr
        intro s hs hsk
        obtain ⟨hs, hps⟩ := List.mem_filter.mp hs
        rw [List.inj_on_of_nodup_map t.nodup hs hr (hsk.trans hk.symm)] at hps
        simp [hp] at hps
      · rw [Option.filter_some, if_pos (by simp [hp])]
        exact find_eq_some.mpr ⟨List.mem_filter.mpr ⟨hr, by simp [hp]⟩, hk⟩

theorem count_of_find {t : Table key} {k : κ} {r : ρ} {p : ρ → Bool} (h : t.find k = some r)
    (hp : p r = true) : t.count (fun s => key s = k ∧ p s) = 1 := by
  obtain ⟨hr, hk⟩ := find_eq_some.mp h
  apply Nat.le_antisymm
  · apply count_le_one
    intro a ha b hb hpa hpb
    simp only [decide_eq_true_eq] at hpa hpb
    exact List.inj_on_of_nodup_map t.nodup ha hb (hpa.1.trans hpb.1.symm)
  · exact List.countP_pos_iff.mpr ⟨r, hr, by simp [hk, hp]⟩

theorem count_eq_zero {t : Table key} {p : ρ → Bool} :
    t.count p = 0 ↔ ∀ k r, t.find k = some r → p r = false := by
  rw [count, List.countP_eq_zero]
  constructor
  · intro h k r hr
    simpa using h r (find_eq_some.mp hr).1
  · intro h r hr
    simp [h _ r (mem_rows.mp hr)]

end Table

end TriNet.Lib
