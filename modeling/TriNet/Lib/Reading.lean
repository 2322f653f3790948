import TriNet.Lib.BigEndian

namespace TriNet.Lib.Reading

open BigEndian

variable {α β : Type}

abbrev Reader (α : Type) := StateT Bytes Option α

def take (n : Nat) : Reader Bytes := fun bs => if n ≤ bs.length then some (bs.take n, bs.drop n) else none

def lift (o : Option α) : Reader α := fun bs => o.map (·, bs)

def require (b : Bool) : Reader Unit := lift (if b then some () else none)

def uint (width : Nat) : Reader Nat := do return ofBe (← take width)

def Reads (r : Reader α) (x : α) (encoded : Bytes) : Prop := ∀ more, r (encoded ++ more) = some (x, more)

def Local (r : Reader α) : Prop :=
  ∀ bs x rest, r bs = some (x, rest) → ∃ used, bs = used ++ rest ∧ Reads r x used

theorem bind_eq (r : Reader α) (f : α → Reader β) (bs : Bytes) :
    (r >>= f) bs = (r bs).bind (fun p => f p.1 p.2) := rfl

theorem Reads.unique {r : Reader α} {x y : α} {encoded : Bytes} (hx : Reads r x encoded)
    (hy : Reads r y encoded) : x = y := by
  have h := (hx []).symm.trans (hy [])
  exact congrArg Prod.fst (Option.some.inj h)

theorem reads_pure (x : α) : Reads (pure x) x [] := fun _ => rfl

theorem Reads.bind {r : Reader α} {f : α → Reader β} {x : α} {y : β} {a b : Bytes}
    (hr : Reads r x a) (hf : Reads (f x) y b) : Reads (r >>= f) y (a ++ b) := by
  intro more
  rw [bind_eq, List.append_assoc, hr]
  exact hf more

theorem Reads.bind_nil {r : Reader α} {f : α → Reader β} {x : α} {y : β} {a : Bytes}
    (hr : Reads r x a) (hf : Reads (f x) y []) : Reads (r >>= f) y a := by
  rw [← List.append_nil a]
  exact hr.bind hf

theorem reads_take {n : Nat} {bs : Bytes} (h : bs.length = n) : Reads (take n) bs bs := by
  intro more
  have hle : n ≤ (bs ++ more).length := by
    rw [List.length_append]
    omega
  rw [take, if_pos hle, List.take_left' h, List.drop_left' h]

theorem reads_lift {o : Option α} {x : α} (h : o = some x) : Reads (lift o) x [] := by
  intro more
  rw [lift, h]
  rfl

theorem reads_require {b : Bool} (h : b = true) : Reads (require b) () [] := reads_lift (if_pos h)

theorem reads_uint {width n : Nat} (h : n < 256 ^ width) : Reads (uint width) n (beBytes width n) := by
  intro more
  rw [uint, bind_eq, reads_take (beBytes_length width n)]
  simp only [Option.bind_some, ofBe_beBytes_of_lt h]
  rfl

section Inversion

variable {bs rest : Bytes}

theorem bind_eq_some {r : Reader α} {f : α → Reader β} {y : β} :
    (r >>= f) bs = some (y, rest) ↔ ∃ x mid, r bs = some (x, mid) ∧ f x mid = some (y, rest) := by
  rw [bind_eq, Option.bind_eq_some_iff, Prod.exists]

theorem take_eq_some {n : Nat} {x : Bytes} (h : take n bs = some (x, rest)) :
    x.length = n ∧ bs = x ++ rest := by
  rw [take] at h
  split at h
  · next hle =>
      cases h
      exact ⟨List.length_take_of_le hle, (List.take_append_drop n bs).symm⟩
  · cases h

theorem lift_eq_some {o : Option α} {x : α} (h : lift o bs = some (x, rest)) : o = some x ∧ bs = rest := by
  obtain ⟨y, hy, heq⟩ := Option.map_eq_some_iff.mp h
  cases heq
  exact ⟨hy, rfl⟩

theorem uint_eq_some {width n : Nat} (h : uint width bs = some (n, rest)) :
    n < 256 ^ width ∧ bs = beBytes width n ++ rest := by
  obtain ⟨x, mid, hx, hn⟩ := bind_eq_some.mp h
  obtain ⟨hlen, hbs⟩ := take_eq_some hx
  cases hn
  rw [← hlen, beBytes_ofBe]
  exact ⟨ofBe_lt x, hbs⟩

end Inversion

theorem local_pure (x : α) : Local (pure x) := by
  intro bs y rest h
  cases h
  exact ⟨[], rfl, reads_pure x⟩

theorem Local.bind {r : Reader α} {f : α → Reader β} (hr : Local r) (hf : ∀ x, Local (f x)) :
    Local (r >>= f) := by
  intro bs y rest h
  obtain ⟨x, mid, hx, hy⟩ := bind_eq_some.mp h
  obtain ⟨a, rfl, ha⟩ := hr bs x mid hx
  obtain ⟨b, rfl, hb⟩ := hf x mid y rest hy
  exact ⟨a ++ b, (List.append_assoc ..).symm, ha.bind hb⟩

theorem local_take (n : Nat) : Local (take n) := by
  intro bs x rest h
  obtain ⟨hlen, hbs⟩ := take_eq_some h
  exact ⟨x, hbs, reads_take hlen⟩

theorem local_lift (o : Option α) : Local (lift o) := by
  intro bs x rest h
  obtain ⟨hx, rfl⟩ := lift_eq_some h
  exact ⟨[], rfl, reads_lift hx⟩

theorem local_require (b : Bool) : Local (require b) := local_lift _

theorem local_uint (width : Nat) : Local (uint width) := (local_take width).bind (fun _ => local_pure _)

end TriNet.Lib.Reading
