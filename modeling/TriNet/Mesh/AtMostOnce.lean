import TriNet.Mesh.ReplaySafety

namespace TriNet.Mesh

open Lib.BigEndian Lib.Symbolic Lib.Runs ReplayWindow

variable {κ : Type} [DecidableEq κ]

/-- As long as the attacker leaves the top byte of the wire counters of sealed
frames alone, no seal call is accepted twice, whatever else is opened, lost,
reordered, duplicated or ratcheted. -/
theorem accepted_at_most_once {H : Hkdf κ} (hH : H.Injective)
    (encrypt : κ → Bytes → Bytes → Bytes → Bytes) (shared : Bytes) (es : List Event)
    (hes : Along (World.step H encrypt) CounterIntact (World.start H shared) es) :
    (run (World.step H encrypt) (World.start H shared) es).accepted.Nodup :=
  (run_guarded hH encrypt shared es hes).nodup

def appendTag (_ : Term) (_ _ plaintext : Bytes) : Bytes := plaintext ++ List.replicate 16 0

def firstFrame : Bytes := beBytes 4 0 ++ beBytes 8 0 ++ ([7] ++ List.replicate 16 0)

def honestDelivery : List Event :=
  [.sealFrame .initiator [] [7], .openFrame .responder [] firstFrame, .openFrame .responder [] firstFrame]

theorem accepted_once_on_redelivery :
    Along (World.step free appendTag) CounterIntact (World.start free [1]) honestDelivery ∧
      (run (World.step free appendTag) (World.start free [1]) honestDelivery).accepted.Nodup :=
  ⟨by decide, accepted_at_most_once free_injective appendTag [1] honestDelivery (by decide)⟩

def topByteAttack : List Event :=
  [.sealFrame .initiator [] [7], .openFrame .responder [] firstFrame,
    .openFrame .responder [] (firstFrame.set 4 1)]

theorem top_byte_replays_frame :
    ¬ ∀ es, (run (World.step free appendTag) (World.start free [1]) es).accepted.Nodup := by
  intro h
  exact absurd (h topByteAttack) (by decide)

/-- The frames a side's peer has sealed under the side's current key. -/
def World.sealedFor (w : World κ) (s : Side) : Nat :=
  (w.made.filter (fun e => e.side = s.peer ∧ e.key = (w.sessions s).cipher)).length

omit [DecidableEq κ] in
theorem History.key_iff {H : Hkdf κ} {shared : Bytes} {w : World κ} (h : History H shared w)
    (hH : H.Injective) {e : Sealed κ} (he : e ∈ w.made) (s : Side) :
    e.key = (w.sessions s).cipher ↔ e.turn = w.turns s := by
  rw [(h.wellSealed e he).key, (h.synced s).cipher]
  exact ⟨keyAt_inj hH, fun ht => by rw [ht]⟩

theorem History.sealedFor_eq {H : Hkdf κ} {shared : Bytes} {w : World κ} (h : History H shared w)
    (hH : H.Injective) (s : Side) : w.sealedFor s = (w.madeBy s.peer (w.turns s)).length := by
  refine congrArg List.length (List.filter_congr ?_)
  intro e he
  simp only [h.key_iff hH he s]

theorem Guarded.highest_lt {H : Hkdf κ} {shared : Bytes} {w : World κ} (hg : Guarded w)
    (h : History H shared w) (hH : H.Injective) {s : Side}
    (hany : (w.sessions s).rx.seenAny = true) : (w.sessions s).rx.highest < w.sealedFor s := by
  obtain ⟨a, ha, hside, hturn, hctr⟩ := World.mem_acceptedCounters.mp ((hg.window s).highest hany)
  have hlt := h.counter_lt a (hg.made a ha)
  rwa [hside, hturn, ← h.sealedFor_eq hH, hctr] at hlt

theorem Guarded.genuine_opens {H : Hkdf κ} {shared : Bytes} {w : World κ} (hg : Guarded w)
    (h : History H shared w) (hH : H.Injective) {s : Side} {e : Sealed κ} (he : e ∈ w.made)
    (hside : e.side = s.peer) (hkey : e.key = (w.sessions s).cipher)
    (hfresh : Fresh (w.acceptedCounters s) e.counter) :
    (w.opened s e.aad e.frame).2 = .ok e.plaintext := by
  have hwe := h.wellSealed e he
  obtain ⟨hepoch, hctr, hdrop, hlen⟩ := hwe.frame_eq
  have hnonce : (w.sessions s).rxNonce e.frame = e.nonce := by
    rw [Session.rxNonce, hepoch, hctr, (h.synced s).txDir, Side.opposite_dir, ← hside, hwe.nonce]
  have hdec : decrypt w.encryptions (w.sessions s).cipher e.nonce e.aad e.ciphertext =
      some e.plaintext := by
    rw [← hkey]
    apply decrypt_complete (List.mem_map_of_mem he)
    intro c hc hk hn
    obtain ⟨d, hd, rfl⟩ := List.mem_map.mp hc
    rw [h.eq_of_key_nonce hH hd he hk hn]
  have hcheck := (accepts_iff_fresh (hg.window s) e.counter).mpr hfresh
  simp only [World.opened, Session.openFrame, not_lt.mpr hlen, if_false, hnonce, hdrop, hdec, hctr,
    hcheck, if_true]

/-- Under the same condition the window never records a counter its peer did
not use, and every genuine frame of the current key that is new and within 64
of the largest accepted counter opens to its plaintext. -/
theorem window_never_poisoned {H : Hkdf κ} (hH : H.Injective)
    (encrypt : κ → Bytes → Bytes → Bytes → Bytes) (shared : Bytes) (es : List Event)
    (hes : Along (World.step H encrypt) CounterIntact (World.start H shared) es) (w : World κ)
    (hw : w = run (World.step H encrypt) (World.start H shared) es) (s : Side) :
    ((w.sessions s).rx.seenAny = true → (w.sessions s).rx.highest < w.sealedFor s) ∧
      ∀ e ∈ w.made, e.side = s.peer → e.key = (w.sessions s).cipher → e ∉ w.accepted →
        (∀ a ∈ w.accepted, a.side = s.peer → a.key = (w.sessions s).cipher →
        a.counter < e.counter + 64) → (w.opened s e.aad e.frame).2 = .ok e.plaintext := by
  subst hw
  have h := run_history H encrypt shared es
  have hg := run_guarded hH encrypt shared es hes
  refine ⟨hg.highest_lt h hH, ?_⟩
  intro e he hside hkey hnew hnear
  refine hg.genuine_opens h hH he hside hkey ⟨?_, ?_⟩
  · intro hmem
    obtain ⟨a, ha, haside, haturn, hactr⟩ := World.mem_acceptedCounters.mp hmem
    have heturn := (h.key_iff hH he s).mp hkey
    have hae := h.unique a (hg.made a ha) e he (haside.trans hside.symm) (haturn.trans heturn.symm) hactr
    exact hnew (hae ▸ ha)
  · intro c hc
    obtain ⟨a, ha, haside, haturn, rfl⟩ := World.mem_acceptedCounters.mp hc
    exact hnear a ha haside ((h.key_iff hH (hg.made a ha) s).mpr haturn)

def secondFrame : Bytes := beBytes 4 0 ++ beBytes 8 1 ++ ([8] ++ List.replicate 16 0)

def reorderedDelivery : List Event :=
  [.sealFrame .initiator [] [7], .sealFrame .initiator [] [8], .openFrame .responder [] secondFrame,
    .openFrame .responder [5] firstFrame]

def reordered : World Term := run (World.step free appendTag) (World.start free [1]) reorderedDelivery

theorem window_not_poisoned_by_reordering :
    Along (World.step free appendTag) CounterIntact (World.start free [1]) reorderedDelivery ∧
      ((reordered.sessions .responder).rx.highest < reordered.sealedFor .responder) ∧
      (reordered.opened .responder [] firstFrame).2 = .ok [7] := by
  obtain ⟨hhighest, hgenuine⟩ := window_never_poisoned free_injective appendTag [1] reorderedDelivery
    (by decide) reordered rfl .responder
  refine ⟨by decide, hhighest (by decide), ?_⟩
  have he := hgenuine ((reordered.made).head (by decide)) (by decide) (by decide) (by decide)
    (by decide) (by decide)
  exact he

/-- Both frames sealed, the first delivered with its fifth byte raised. -/
def poisoned : World Term :=
  run (World.step free appendTag) (World.start free [1])
    [.sealFrame .initiator [] [7], .sealFrame .initiator [] [8],
      .openFrame .responder [] (firstFrame.set 4 1)]

theorem top_byte_poisons_window :
    ¬ ((poisoned.sessions .responder).rx.seenAny = true →
        (poisoned.sessions .responder).rx.highest < poisoned.sealedFor .responder) ∧
      (poisoned.opened .responder [] secondFrame).2 = .error .replay := by
  decide

/-- What opens was sealed by the peer, never by the receiver itself, under the
receiver's current key and for the same associated data, in a frame that differs at
most in its fifth byte. -/
theorem opened_was_sealed_by_peer {H : Hkdf κ} (hH : H.Injective)
    (encrypt : κ → Bytes → Bytes → Bytes → Bytes)
    (shared : Bytes) (es : List Event) (s : Side) (aad frame pt : Bytes) :
    let w := run (World.step H encrypt) (World.start H shared) es
    (w.opened s aad frame).2 = .ok pt →
      ∃ e ∈ w.made, e.side = s.peer ∧ e.turn = w.turns s ∧ e.aad = aad ∧ e.plaintext = pt ∧
        frame.set 4 0 = e.frame := by
  intro w hok
  have h : History H shared w := run_history H encrypt shared es
  obtain ⟨hlen, hdec, _⟩ := openFrame_ok hok
  obtain ⟨c, hc, ⟨hkey, hnonce, haad, hct⟩, hpt⟩ := decrypt_sound hdec
  obtain ⟨e, he, rfl⟩ := List.mem_map.mp hc
  have hwe := h.wellSealed e he
  have hturn : e.turn = w.turns s := keyAt_inj hH (hwe.key.symm.trans (hkey.trans (h.synced s).cipher))
  have hframe := hwe.set_top_byte hlen hnonce hct
  rw [hwe.nonce, Session.rxNonce, (h.synced s).txDir, Side.opposite_dir] at hnonce
  exact ⟨e, he, Side.dir_inj (makeNonce_inj hnonce).1, hturn, haad, hpt, hframe⟩

theorem opened_was_sealed_first_frame :
    let w := run (World.step free appendTag) (World.start free [1]) [.sealFrame .initiator [] [7]]
    (w.opened .responder [] firstFrame).2 = .ok [7] ∧ ∃ e ∈ w.made, e.side = .initiator ∧
      e.plaintext = [7] := by
  intro w
  have hok : (w.opened .responder [] firstFrame).2 = .ok [7] := by decide
  obtain ⟨e, he, hside, -, -, hpt, -⟩ :=
    opened_was_sealed_by_peer free_injective appendTag [1] _ _ _ _ _ hok
  exact ⟨hok, e, he, hside, hpt⟩

end TriNet.Mesh
