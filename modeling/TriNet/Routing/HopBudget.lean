import TriNet.Routing.DataPlane

namespace TriNet.Routing

open Lib Lib.Runs Lib.BigEndian Lib.Symbolic Mesh

variable {κ : Type} {R : Rounding} {H : Hkdf κ} {A : Aead κ}

def frameTtl (frame : Bytes) : Nat :=
  match Header.parse (frame.take headerLen) with
  | some hdr => hdr.ttl.toNat
  | none => 0

theorem frameTtl_of_header (hdr : Header) (sealed : Bytes) :
    frameTtl (hdr.toBytes ++ sealed) = hdr.ttl.toNat := by
  have hparse : Header.parse hdr.toBytes = some hdr := by
    simpa using Header.parse_toBytes hdr []
  rw [frameTtl, List.take_left' hdr.toBytes_length, hparse]

theorem toNat_sub_one {ttl : UInt8} (h : ttl ≠ 0) : (ttl - 1).toNat + 1 = ttl.toNat := by
  have hpos : 1 ≤ ttl.toNat := by
    apply Nat.one_le_iff_ne_zero.mpr
    intro hz
    exact h (UInt8.toNat_inj.mp hz)
  have hle : (1 : UInt8) ≤ ttl := UInt8.le_iff_toNat_le.mpr hpos
  rw [UInt8.toNat_sub_of_le _ _ hle]
  exact Nat.sub_add_cancel hpos

def Handled.cost (o : Handled κ) : Nat := (o.sent.toList.map (fun x => frameTtl x.2 + 1)).sum

namespace MeshRouter

variable {r : MeshRouter κ}

@[simp] theorem cost_drop (reason : DropReason) : (r.drop reason).cost = 0 := rfl

theorem cost_sealTo (nh : NodeId) (header : Header) (payload : Bytes) :
    (r.sealTo H A nh header payload).cost ≤ header.ttl.toNat + 1 := by
  unfold sealTo
  split
  · exact Nat.zero_le _
  · dsimp only
    split
    · simp [Handled.cost, frameTtl_of_header]
    · exact Nat.zero_le _

theorem cost_sendIp (dst : NodeId) (payload : Bytes) :
    (r.sendIp R H A dst payload).cost ≤ defaultTtl.toNat + 1 := by
  unfold sendIp
  split
  · exact Nat.zero_le _
  · exact cost_sealTo ..

theorem cost_sendDirect (peer : NodeId) (payload : Bytes) :
    (r.sendDirect H A peer payload).cost ≤ defaultTtl.toNat + 1 := by
  unfold sendDirect
  split
  · exact Nat.zero_le _
  · exact cost_sealTo ..

/-- Forwarding spends one unit of the header's budget on the transmission and
puts the rest in the new header. -/
theorem cost_forward (sender : NodeId) (hdr : Header) (payload : Bytes) :
    (r.forward R H A sender hdr payload).cost ≤ hdr.ttl.toNat := by
  unfold forward
  split_ifs with hspoof hdst hzero
  · exact Nat.zero_le _
  · exact Nat.zero_le _
  · exact Nat.zero_le _
  · split
    · exact Nat.zero_le _
    · exact (cost_sealTo ..).trans_eq (toNat_sub_one hzero)

theorem cost_handleFrame (sender : NodeId) (raw : Bytes) :
    (r.handleFrame R H A sender raw).cost ≤ frameTtl raw := by
  unfold handleFrame
  split
  · exact Nat.zero_le _
  · split
    · exact Nat.zero_le _
    · dsimp only
      split
      · exact Nat.zero_le _
      · split
        · exact Nat.zero_le _
        · next hdr hparse =>
            rw [frameTtl, hparse]
            exact cost_forward ..

end MeshRouter

namespace Plane

variable {s : Plane κ} {p q : Nat}

/-- The transmissions a packet has caused and those its frames in flight still
allow. -/
def load (s : Plane κ) (p : Nat) : Nat :=
  s.transmissionsOf p + ((s.flightOf p).map (fun t => frameTtl t.frame)).sum

structure Numbered (s : Plane κ) : Prop where
  sent : ∀ t ∈ s.sent, t.packet < s.originated
  inFlight : ∀ t ∈ s.inFlight, t.packet < s.originated
  handled : ∀ h ∈ s.handled, h.packet < s.originated

theorem mem_transmissions {n : NodeId} {o : Handled κ} {t : Transmission κ}
    (h : t ∈ transmissions n q o) : t.packet = q := by
  simp only [transmissions, List.mem_map] at h
  obtain ⟨x, _, rfl⟩ := h
  rfl

theorem load_act {n : NodeId} {o : Handled κ} (h : o.router.id = (s.routers n).id) :
    (s.act n q o h).load p = s.load p + if q = p then o.cost else 0 := by
  simp only [load, transmissionsOf, flightOf, act, transmissions, Handled.cost]
  cases o.sent with
  | none => simp
  | some x =>
      by_cases hq : q = p
      · simp [hq]
        omega
      · simp [hq]

theorem discard_split {i : Nat} {t : Transmission κ} (h : s.inFlight[i]? = some t) :
    ∃ a b, s.inFlight = a ++ t :: b ∧ (s.discard i).inFlight = a ++ b := by
  obtain ⟨hi, rfl⟩ := List.getElem?_eq_some_iff.mp h
  exact ⟨s.inFlight.take i, s.inFlight.drop (i + 1), by simp, List.eraseIdx_eq_take_drop_succ ..⟩

theorem load_discard {i : Nat} {t : Transmission κ} (h : s.inFlight[i]? = some t) :
    (s.discard i).load p + (if t.packet = p then frameTtl t.frame else 0) = s.load p := by
  obtain ⟨a, b, hs, hd⟩ := discard_split h
  have hsent : (s.discard i).transmissionsOf p = s.transmissionsOf p := rfl
  rw [load, load, hsent, flightOf, flightOf, hs, hd]
  by_cases hp : t.packet = p
  · simp [hp]
    omega
  · simp [hp]

theorem discard_of_none {i : Nat} (h : s.inFlight[i]? = none) : s.discard i = s := by
  rw [discard, List.eraseIdx_of_length_le (List.getElem?_eq_none_iff.mp h)]

theorem load_discard_le (i : Nat) : (s.discard i).load p ≤ s.load p := by
  cases h : s.inFlight[i]? with
  | none => rw [discard_of_none h]
  | some t => exact Nat.le_of_add_right_le (load_discard h).le

theorem load_handle (t : Transmission κ) :
    (s.handle R H A t).load p ≤ s.load p + if t.packet = p then frameTtl t.frame else 0 := by
  have hact : (s.handle R H A t).load p = (s.act t.receiver t.packet
    ((s.routers t.receiver).handleFrame R H A t.sender t.frame) (MeshRouter.handleFrame_id ..)).load
      p := rfl
  rw [hact, load_act]
  split
  · exact Nat.add_le_add_left (MeshRouter.cost_handleFrame ..) _
  · exact le_rfl

namespace Numbered

variable (h : Numbered s)

include h

theorem load_fresh (hp : s.originated ≤ p) : s.load p = 0 := by
  have hsent : s.transmissionsOf p = 0 := by
    rw [transmissionsOf, List.countP_eq_zero]
    intro t ht
    have := h.sent t ht
    simp only [decide_eq_true_eq]
    omega
  have hflight : s.flightOf p = [] := by
    rw [flightOf, List.filter_eq_nil_iff]
    intro t ht
    have := h.inFlight t ht
    simp only [decide_eq_true_eq]
    omega
  rw [load, hsent, hflight]
  rfl

theorem act {n : NodeId} {o : Handled κ} (ho : o.router.id = (s.routers n).id)
    (hq : q < s.originated) : Numbered (s.act n q o ho) := by
  constructor
  · intro t ht
    rcases List.mem_append.mp ht with ht | ht
    · exact h.sent t ht
    · exact (mem_transmissions ht).trans_lt hq
  · intro t ht
    rcases List.mem_append.mp ht with ht | ht
    · exact h.inFlight t ht
    · exact (mem_transmissions ht).trans_lt hq
  · exact h.handled

theorem discard (i : Nat) : Numbered (s.discard i) :=
  ⟨h.sent, fun t ht => h.inFlight t (List.eraseIdx_sublist s.inFlight i |>.mem ht), h.handled⟩

theorem grow : Numbered { s with originated := s.originated + 1 } :=
  ⟨fun t ht => Nat.lt_succ_of_lt (h.sent t ht), fun t ht => Nat.lt_succ_of_lt (h.inFlight t ht),
    fun x hx => Nat.lt_succ_of_lt (h.handled x hx)⟩

theorem originate {n : NodeId} {o : Handled κ} (ho : o.router.id = (s.routers n).id) :
    Numbered (s.originate n o ho) :=
  h.grow.act ho (Nat.lt_succ_self s.originated)

theorem handle {t : Transmission κ} (ht : t.packet < s.originated) : Numbered (s.handle R H A t) := by
  have hact := h.act (MeshRouter.handleFrame_id (R := R) (H := H) (A := A)
    (r := s.routers t.receiver) t.sender t.frame) ht
  refine ⟨hact.sent, hact.inFlight, ?_⟩
  intro x hx
  rcases List.mem_append.mp hx with hx | hx
  · exact h.handled x hx
  · rw [List.mem_singleton.mp hx]
    exact ht

theorem step (e : PlaneEvent κ) : Numbered (s.step R H A e) := by
  cases e with
  | table n call => exact ⟨h.sent, h.inFlight, h.handled⟩
  | sendIp n dst payload => exact h.originate _
  | sendDirect n peer payload => exact h.originate _
  | deliver i =>
      unfold Plane.step
      dsimp only
      split
      · next t ht => exact (h.discard i).handle (h.inFlight t (List.mem_of_getElem? ht))
      · exact h
  | lose i => exact h.discard i

end Numbered

/-- No packet has used more than its budget, in the air or in transmissions
already made. -/
structure WithinBudget (s : Plane κ) : Prop where
  numbered : Numbered s
  load_le : ∀ p, s.load p ≤ defaultTtl.toNat + 1

namespace WithinBudget

theorem start (routers : NodeId → MeshRouter κ) (h : ∀ n, (routers n).id = n) :
    WithinBudget (.start routers h) where
  numbered := ⟨by simp [Plane.start], by simp [Plane.start], by simp [Plane.start]⟩
  load_le p := Nat.zero_le _

theorem originate (h : WithinBudget s) {n : NodeId} {o : Handled κ} (ho : o.router.id = (s.routers n).id)
    (hcost : o.cost ≤ defaultTtl.toNat + 1) : WithinBudget (s.originate n o ho) := by
  refine ⟨h.numbered.originate ho, fun p => ?_⟩
  have hload : (s.originate n o ho).load p = (s.act n s.originated o ho).load p := rfl
  rw [hload, load_act]
  split
  · next hp =>
      rw [h.numbered.load_fresh hp.le, Nat.zero_add]
      exact hcost
  · exact h.load_le p

theorem step (h : WithinBudget s) (e : PlaneEvent κ) : WithinBudget (s.step R H A e) := by
  refine ⟨h.numbered.step e, ?_⟩
  cases e with
  | table n call => exact h.load_le
  | sendIp n dst payload => exact (h.originate _ (MeshRouter.cost_sendIp ..)).load_le
  | sendDirect n peer payload => exact (h.originate _ (MeshRouter.cost_sendDirect ..)).load_le
  | deliver i =>
      intro p
      unfold Plane.step
      dsimp only
      split
      · next t ht =>
          calc ((s.discard i).handle R H A t).load p
              ≤ (s.discard i).load p + (if t.packet = p then frameTtl t.frame else 0) := load_handle t
            _ = s.load p := load_discard ht
            _ ≤ defaultTtl.toNat + 1 := h.load_le p
      · exact h.load_le p
  | lose i => exact fun p => (load_discard_le i).trans (h.load_le p)

theorem run (h : WithinBudget s) (es : List (PlaneEvent κ)) : WithinBudget (run (Plane.step R H A) s es) :=
  run_invariant _ WithinBudget (fun _ e hs => hs.step e) s es h

theorem transmissionsOf_le (h : WithinBudget s) (p : Nat) : s.transmissionsOf p ≤ defaultTtl.toNat + 1 :=
  (Nat.le_add_right _ _).trans (h.load_le p)

end WithinBudget

end Plane

end TriNet.Routing
