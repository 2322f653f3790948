import Mathlib.Data.List.Sort
import Mathlib.Data.List.Nodup

namespace TriNet.Lib.KeySort

variable {α β γ κ : Type} (r : κ → κ → Prop) [DecidableRel r]

def byKey (key : α → κ) (l : List α) : List α := l.insertionSort (fun a b => r (key a) (key b))

theorem byKey_perm (key : α → κ) (l : List α) : (byKey r key l).Perm l := List.perm_insertionSort ..

theorem map_byKey (f : α → γ) (key : γ → κ) (l : List α) :
    (byKey r (fun a => key (f a)) l).map f = byKey r key (l.map f) :=
  List.map_insertionSort _ _ f l (fun _ _ _ _ => Iff.rfl)

variable [Std.Total r] [IsTrans κ r]

theorem byKey_pairwise (key : α → κ) (l : List α) :
    (byKey r key l).Pairwise (fun a b => r (key a) (key b)) := by
  have htotal : Std.Total (fun a b => r (key a) (key b)) := ⟨fun a b => Std.Total.total (key a) (key b)⟩
  have htrans : IsTrans α (fun a b => r (key a) (key b)) :=
    ⟨fun _ _ _ hab hbc => IsTrans.trans _ _ _ hab hbc⟩
  exact List.pairwise_insertionSort ..

variable [Std.Antisymm r]

theorem byKey_eq_of_perm (key : α → κ) {l m : List α} (h : l.Perm m) (hm : (m.map key).Nodup) :
    byKey r key l = byKey r key m := by
  refine List.Perm.eq_of_pairwise ?_ (byKey_pairwise r key l) (byKey_pairwise r key m)
    ((byKey_perm r key l).trans (h.trans (byKey_perm r key m).symm))
  intro a b ha hb hab hba
  have ha : a ∈ m := h.subset ((byKey_perm r key l).subset ha)
  have hb : b ∈ m := (byKey_perm r key m).subset hb
  exact List.inj_on_of_nodup_map hm ha hb (Std.Antisymm.antisymm _ _ hab hba)

theorem map_byKey_eq_iff_perm (f : α → γ) (g : β → γ) (key : γ → κ) {l : List α} {m : List β}
    (hm : ((m.map g).map key).Nodup) :
    (byKey r (fun a => key (f a)) l).map f = (byKey r (fun b => key (g b)) m).map g ↔
      (l.map f).Perm (m.map g) := by
  rw [map_byKey, map_byKey]
  constructor
  · intro h
    exact (byKey_perm r key _).symm.trans (h ▸ byKey_perm r key _)
  · exact fun h => byKey_eq_of_perm r key h hm

end TriNet.Lib.KeySort
