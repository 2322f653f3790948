import TriNet.Mesh.SealHistory
import Mathlib.Data.List.Nodup

namespace TriNet.Mesh

open Lib.BigEndian Lib.Symbolic Lib.Runs ReplayWindow

variable {κ : Type}

theorem split_frame {frame : Bytes} (h : 12 ≤ frame.length) :
    ∃ a b rest t, a.length = 4 ∧ rest.length = 7 ∧ frame = a ++ (b :: rest) ++ t ∧
      Session.frameEpoch frame = ofBe a ∧ Session.frameCounter frame = ofBe (b :: rest) ∧
      frame.drop 12 = t := by
  have hc : ((frame.drop 4).take 8).length = 8 := by simp; omega
  obtain ⟨b, rest, hbr⟩ := List.exists_cons_of_length_eq_add_one hc
  refine ⟨frame.take 4, b, rest, frame.drop 12, by simp; omega, ?_, ?_, rfl, ?_, rfl⟩
  · simpa [hbr] using hc
  · rw [← hbr, List.append_assoc]
    conv_lhs => rw [← List.take_append_drop 4 frame, ← List.take_append_drop 8 (frame.drop 4)]
    rw [List.drop_drop]
  · rw [Session.frameCounter, hbr]

theorem frame_parts {a b t : Bytes} (ha : a.length = 4) (hb : b.length = 8) :
    Session.frameEpoch (a ++ b ++ t) = ofBe a ∧ Session.frameCounter (a ++ b ++ t) = ofBe b ∧
      (a ++ b ++ t).drop 12 = t ∧ 12 ≤ (a ++ b ++ t).length := by
  refine ⟨?_, ?_, ?_, by simp [ha, hb]; omega⟩
  · rw [Session.frameEpoch, List.append_assoc, List.take_left' ha]
  · rw [Session.frameCounter, List.append_assoc, List.drop_left' ha, List.take_left' hb]
  · rw [List.drop_left' (by simp [ha, hb])]

theorem WellSealed.frame_eq {H : Hkdf κ} {shared : Bytes} {e : Sealed κ} (h : WellSealed H shared e) :
    Session.frameEpoch e.frame = e.turn % 2 ^ 32 ∧ Session.frameCounter e.frame = e.counter ∧
      e.frame.drop 12 = e.ciphertext ∧ 12 ≤ e.frame.length := by
  have hc := h.counter
  simp only [rekeyEveryFrames] at hc
  obtain ⟨he, hk, hd, hl⟩ := frame_parts (t := e.ciphertext)
    (beBytes_length 4 (e.turn % 2 ^ 32)) (beBytes_length 8 e.counter)
  rw [← h.frame] at he hk hd hl
  exact ⟨he.trans (ofBe_beBytes_of_lt (Nat.mod_lt _ (by decide))),
    hk.trans (ofBe_beBytes_of_lt (by omega)), hd, hl⟩

/-- A frame that opens under the nonce of a sealed one agrees with it except
perhaps in its fifth byte, the top byte of the wire counter: that byte is in
neither the nonce nor the associated data. -/
theorem WellSealed.set_top_byte {H : Hkdf κ} {shared : Bytes} {e : Sealed κ}
    (h : WellSealed H shared e) {frame : Bytes} {dir : UInt8} (hlen : 12 ≤ frame.length)
    (hnonce : e.nonce = makeNonce dir (Session.frameEpoch frame) (Session.frameCounter frame))
    (hct : e.ciphertext = frame.drop 12) : frame.set 4 0 = e.frame := by
  obtain ⟨a, b, rest, t, ha, hrest, hframe, hepoch, hcounter, ht⟩ := split_frame hlen
  have hc := h.counter
  simp only [rekeyEveryFrames] at hc
  rw [h.nonce, makeNonce_eq, makeNonce_eq, hepoch, hcounter] at hnonce
  obtain ⟨he, hk⟩ := List.append_inj (List.cons.inj hnonce).2 (by simp)
  have ha' : beBytes 4 (ofBe a) = a := by rw [← ha, beBytes_ofBe]
  have hrest' : beBytes 7 (ofBe (b :: rest)) = rest := by
    have hmod : ofBe (b :: rest) % 256 ^ 7 = ofBe rest := by
      have hlt := ofBe_lt rest
      rw [hrest] at hlt
      rw [ofBe, hrest, Nat.add_comm, Nat.add_mul_mod_self_right, Nat.mod_eq_of_lt hlt]
    rw [← beBytes_mod, hmod, ← hrest, beBytes_ofBe]
  have htop : UInt8.ofNat (e.counter / 256 ^ 7) = 0 := by
    rw [Nat.div_eq_of_lt (by omega)]
    rfl
  have hbytes : beBytes 8 e.counter = 0 :: rest := by
    rw [beBytes, htop, hk, hrest']
  rw [h.frame, he, ha', hbytes, hct, ht, hframe]
  simp [ha]

namespace World

def current (w : World κ) (s : Side) : List (Sealed κ) :=
  w.accepted.filter (fun e => e.side = s.peer ∧ e.turn = w.turns s)

def acceptedCounters (w : World κ) (s : Side) : Finset Nat := ((w.current s).map Sealed.counter).toFinset

theorem mem_acceptedCounters {w : World κ} {s : Side} {c : Nat} :
    c ∈ w.acceptedCounters s ↔
      ∃ e ∈ w.accepted, e.side = s.peer ∧ e.turn = w.turns s ∧ e.counter = c := by
  simp [acceptedCounters, current, and_assoc]

end World

/-- The attacker leaves the top byte of wire counters alone: no opened frame is
a sealed one with only its fifth byte changed. -/
def CounterIntact (w : World κ) : Event → Prop
  | .openFrame _ _ frame => ∀ e ∈ w.made, frame.set 4 0 = e.frame → frame = e.frame
  | .sealFrame _ _ _ | .ratchet _ => True

instance CounterIntact.decidable (w : World κ) : ∀ e, Decidable (CounterIntact w e)
  | .openFrame _ _ frame =>
      inferInstanceAs (Decidable (∀ e ∈ w.made, frame.set 4 0 = e.frame → frame = e.frame))
  | .sealFrame _ _ _ => .isTrue trivial
  | .ratchet _ => .isTrue trivial

/-- The windows hold exactly what was accepted under the current keys. -/
structure Guarded (w : World κ) : Prop where
  made : ∀ a ∈ w.accepted, a ∈ w.made
  turn_le : ∀ a ∈ w.accepted, a.turn ≤ w.turns a.side.peer
  nodup : w.accepted.Nodup
  window : ∀ s, Represents (w.sessions s).rx (w.acceptedCounters s)

theorem guarded_start (H : Hkdf κ) (shared : Bytes) : Guarded (World.start H shared) where
  made _ ha := absurd ha List.not_mem_nil
  turn_le _ ha := absurd ha List.not_mem_nil
  nodup := List.nodup_nil
  window _ := new_represents

namespace Guarded

variable {H : Hkdf κ} {shared : Bytes} {w : World κ}

theorem acceptedCounters_above (h : Guarded w) (s : Side) {w' : World κ}
    (haccepted : w'.accepted = w.accepted) (hturn : w.turns s < w'.turns s) :
    w'.acceptedCounters s = ∅ := by
  apply Finset.eq_empty_of_forall_notMem
  intro c hc
  obtain ⟨a, ha, hside, ht, _⟩ := World.mem_acceptedCounters.mp hc
  rw [haccepted] at ha
  have hle := h.turn_le a ha
  rw [hside, Side.peer_peer] at hle
  omega

theorem acceptedCounters_insert {w' : World κ} {s : Side} {e : Sealed κ} (hside : e.side = s.peer)
    (hturn : e.turn = w.turns s) (haccepted : w'.accepted = w.accepted ++ [e])
    (hturns : w'.turns s = w.turns s) :
    w'.acceptedCounters s = insert e.counter (w.acceptedCounters s) := by
  ext c
  simp only [Finset.mem_insert, World.mem_acceptedCounters, haccepted, hturns, List.mem_append,
    List.mem_singleton]
  constructor
  · rintro ⟨a, ha | rfl, has, hat, rfl⟩
    · exact Or.inr ⟨a, ha, has, hat, rfl⟩
    · exact Or.inl rfl
  · rintro (rfl | ⟨a, ha, has, hat, rfl⟩)
    · exact ⟨e, Or.inr rfl, hside, hturn, rfl⟩
    · exact ⟨a, Or.inl ha, has, hat, rfl⟩

theorem of_same_accepted (h : Guarded w) {w' : World κ} (haccepted : w'.accepted = w.accepted)
    (hmade : ∀ e ∈ w.made, e ∈ w'.made)
    (hside : ∀ s, (w'.turns s = w.turns s ∧ (w'.sessions s).rx = (w.sessions s).rx) ∨
      (w.turns s < w'.turns s ∧ (w'.sessions s).rx = .new)) : Guarded w' where
  made a ha := hmade a (h.made a (haccepted ▸ ha))
  turn_le a ha := by
    have hle := h.turn_le a (haccepted ▸ ha)
    rcases hside a.side.peer with ⟨ht, _⟩ | ⟨ht, _⟩ <;> omega
  nodup := haccepted ▸ h.nodup
  window s := by
    rcases hside s with ⟨ht, hrx⟩ | ⟨ht, hrx⟩
    · have hsame : w'.acceptedCounters s = w.acceptedCounters s := by
        simp only [World.acceptedCounters, World.current, haccepted, ht]
      rw [hrx, hsame]
      exact h.window s
    · rw [hrx, h.acceptedCounters_above s haccepted ht]
      exact new_represents

theorem sealFrame (h : Guarded w) (hh : History H shared w) (encrypt : κ → Bytes → Bytes → Bytes → Bytes)
    (s : Side) (aad plaintext : Bytes) : Guarded (w.sealAt H encrypt s aad plaintext) := by
  rw [World.sealAt_eq H encrypt w s (hh.synced s).capped]
  refine h.of_same_accepted rfl (fun e he => List.mem_append_left _ he) (fun t => ?_)
  by_cases ht : t = s
  · subst ht
    simp only [Function.update_self, Session.rekeyed, World.nextTurn]
    split
    · exact Or.inr ⟨Nat.lt_succ_self _, rfl⟩
    · exact Or.inl ⟨rfl, rfl⟩
  · exact Or.inl (by simp only [Function.update_of_ne ht, and_self])

theorem ratchet (h : Guarded w) (s : Side) : Guarded (w.ratchetAt H s) := by
  refine h.of_same_accepted rfl (fun e he => he) (fun t => ?_)
  by_cases ht : t = s
  · subst ht
    exact Or.inr (by simp [World.ratchetAt, Session.ratchet])
  · exact Or.inl (by simp only [World.ratchetAt, Function.update_of_ne ht, and_self])

end Guarded

namespace History

variable [DecidableEq κ] {H : Hkdf κ} {shared : Bytes} {w : World κ}

/-- The only seal call a successful open can come from: the peer's, under the
receiver's current key, which made this very frame. -/
theorem source_of_ok (h : History H shared w) (hH : H.Injective) {s : Side} {aad frame pt : Bytes}
    (hintact : CounterIntact w (.openFrame s aad frame)) (hok : (w.opened s aad frame).2 = .ok pt) :
    ∃ e ∈ w.made, w.source s aad frame = some e ∧ e.side = s.peer ∧ e.turn = w.turns s ∧
      frame = e.frame ∧ e.plaintext = pt := by
  obtain ⟨hlen, hdec, _⟩ := openFrame_ok hok
  obtain ⟨c, hc, hmatch, hpt⟩ := decrypt_sound hdec
  obtain ⟨e, he, rfl⟩ := List.mem_map.mp hc
  obtain ⟨hkey, hnonce, _, hct⟩ := hmatch
  have hwe := h.wellSealed e he
  have hframe := hintact e he (hwe.set_top_byte hlen hnonce hct)
  have hturn : e.turn = w.turns s := keyAt_inj hH (hwe.key.symm.trans (hkey.trans (h.synced s).cipher))
  have hside : e.side = s.peer := by
    rw [hwe.nonce, Session.rxNonce, (h.synced s).txDir, Side.opposite_dir] at hnonce
    exact Side.dir_inj (makeNonce_inj hnonce).1
  refine ⟨e, he, ?_, hside, hturn, hframe, hpt⟩
  cases hf : w.source s aad frame with
  | none =>
      have hnone := List.find?_eq_none.mp hf e he
      simp [Encryption.Matches, *] at hnone
  | some d =>
      obtain ⟨hkey', hnonce', _, _⟩ : d.Matches (w.sessions s).cipher ((w.sessions s).rxNonce frame) aad
        (frame.drop 12) := by simpa using List.find?_some hf
      rw [h.eq_of_key_nonce hH (List.mem_of_find?_eq_some hf) he (hkey'.trans hkey.symm)
        (hnonce'.trans hnonce.symm)]

end History

namespace Guarded

variable [DecidableEq κ] {H : Hkdf κ} {shared : Bytes} {w : World κ}

theorem openAt_of_error (h : Guarded w) {s : Side} {aad frame : Bytes} {err : MeshError}
    (herr : (w.opened s aad frame).2 = .error err) : Guarded (w.openAt s aad frame) := by
  have hrx : (w.opened s aad frame).1.rx = (w.sessions s).rx := by
    rw [World.opened, Session.openFrame] at herr ⊢
    split
    · rfl
    · next hlen =>
        rw [if_neg hlen] at herr
        split
        · rfl
        · next pt hpt =>
            rw [hpt] at herr
            dsimp only at herr ⊢
            by_cases hfresh : Fresh (w.acceptedCounters s) (Session.frameCounter frame)
            · rw [((checkAndSet_spec (h.window s) _).1 hfresh).1] at herr
              cases herr
            · rw [(checkAndSet_spec (h.window s) _).2 hfresh]
  refine h.of_same_accepted ?_ (fun e he => he) (fun t => ?_)
  · simp only [World.openAt, herr, List.append_nil]
  · by_cases ht : t = s
    · subst ht
      exact Or.inl ⟨rfl, by simpa only [World.openAt, Function.update_self] using hrx⟩
    · exact Or.inl ⟨rfl, by simp only [World.openAt, Function.update_of_ne ht]⟩

theorem openAt_of_ok (h : Guarded w) (hh : History H shared w) (hH : H.Injective) {s : Side}
    {aad frame pt : Bytes} (hintact : CounterIntact w (.openFrame s aad frame))
    (hok : (w.opened s aad frame).2 = .ok pt) : Guarded (w.openAt s aad frame) := by
  obtain ⟨e, he, hsource, hside, hturn, hframe, _⟩ := hh.source_of_ok hH hintact hok
  obtain ⟨hlen, hdec, hcheck⟩ := openFrame_ok hok
  have hctr : Session.frameCounter frame = e.counter := by
    rw [hframe]
    exact (hh.wellSealed e he).frame_eq.2.1
  rw [hctr] at hcheck
  have hfresh := (accepts_iff_fresh (h.window s) e.counter).mp hcheck
  have hrep := ((checkAndSet_spec (h.window s) e.counter).1 hfresh).2
  have haccepted : (w.openAt s aad frame).accepted = w.accepted ++ [e] := by
    simp only [World.openAt, hok, hsource, Option.toList_some]
  have hsess : (w.openAt s aad frame).sessions s =
      { w.sessions s with rx := ((w.sessions s).rx.checkAndSet e.counter).1 } := by
    simp only [World.openAt, World.opened, Function.update_self, Session.openFrame, not_lt.mpr hlen,
      if_false, hdec, hctr]
  constructor
  · intro a ha
    rw [haccepted] at ha
    rcases List.mem_append.mp ha with ha | ha
    · exact h.made a ha
    · rw [List.mem_singleton.mp ha]
      exact he
  · intro a ha
    rw [haccepted] at ha
    rcases List.mem_append.mp ha with ha | ha
    · exact h.turn_le a ha
    · rw [List.mem_singleton.mp ha, hside, Side.peer_peer]
      exact hturn.le
  · rw [haccepted]
    apply List.Nodup.append h.nodup (List.nodup_singleton e)
    intro a ha hae
    rw [List.mem_singleton.mp hae] at ha
    exact hfresh.1 (World.mem_acceptedCounters.mpr ⟨e, ha, hside, hturn, rfl⟩)
  · intro t
    by_cases ht : t = s
    · subst ht
      rw [hsess, acceptedCounters_insert hside hturn haccepted rfl]
      exact hrep
    · have hpeer : e.side ≠ t.peer := by
        rw [hside]
        intro hp
        exact ht (by rw [← Side.peer_peer t, ← hp, Side.peer_peer])
      have hsame : (w.openAt s aad frame).acceptedCounters t = w.acceptedCounters t := by
        have hturns : (w.openAt s aad frame).turns = w.turns := rfl
        simp [World.acceptedCounters, World.current, haccepted, hturns, List.filter_append, hpeer]
      rw [hsame]
      simpa only [World.openAt, Function.update_of_ne ht] using h.window t

theorem step (h : Guarded w) (hh : History H shared w) (hH : H.Injective)
    (encrypt : κ → Bytes → Bytes → Bytes → Bytes) (e : Event) (hintact : CounterIntact w e) :
    Guarded (w.step H encrypt e) := by
  cases e with
  | sealFrame s aad plaintext => exact h.sealFrame hh encrypt s aad plaintext
  | ratchet s => exact h.ratchet s
  | openFrame s aad frame =>
      cases hres : (w.opened s aad frame).2 with
      | error err => exact h.openAt_of_error hres
      | ok pt => exact h.openAt_of_ok hh hH hintact hres

end Guarded

theorem run_history [DecidableEq κ] (H : Hkdf κ) (encrypt : κ → Bytes → Bytes → Bytes → Bytes)
    (shared : Bytes) (es : List Event) :
    History H shared (run (World.step H encrypt) (World.start H shared) es) :=
  run_invariant _ _ (fun _ e h => h.step encrypt e) _ es (history_start H shared)

theorem run_guarded [DecidableEq κ] {H : Hkdf κ} (hH : H.Injective)
    (encrypt : κ → Bytes → Bytes → Bytes → Bytes) (shared : Bytes) (es : List Event)
    (hes : Along (World.step H encrypt) CounterIntact (World.start H shared) es) :
    Guarded (run (World.step H encrypt) (World.start H shared) es) :=
  (run_along _ _ (fun w => History H shared w ∧ Guarded w)
    (fun _ e h hok => ⟨h.1.step encrypt e, h.2.step h.1 hH encrypt e hok⟩) _ es
    ⟨history_start H shared, guarded_start H shared⟩ hes).2

end TriNet.Mesh
