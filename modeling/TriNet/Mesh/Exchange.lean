import TriNet.Mesh.AtMostOnce

namespace TriNet.Mesh

open Lib.BigEndian Lib.Symbolic Lib.Runs ReplayWindow

variable {κ : Type} [DecidableEq κ]

structure Message where
  side : Side
  aad : Bytes
  plaintext : Bytes
  deriving DecidableEq

namespace World

/-- One frame sealed and delivered at once, unmodified, to the other side. -/
def exchange (H : Hkdf κ) (encrypt : κ → Bytes → Bytes → Bytes → Bytes) (w : World κ)
    (m : Message) : World κ × Except MeshError Bytes :=
  let sent := w.sealAt H encrypt m.side m.aad m.plaintext
  match ((w.sessions m.side).sealFrame H encrypt m.aad m.plaintext).2 with
  | .error err => (sent, .error err)
  | .ok frame => (sent.openAt m.side.peer m.aad frame, (sent.opened m.side.peer m.aad frame).2)

def AllDelivered (H : Hkdf κ) (encrypt : κ → Bytes → Bytes → Bytes → Bytes) : World κ → List Message → Prop
  | _, [] => True
  | w, m :: ms => (w.exchange H encrypt m).2 = .ok m.plaintext ∧ AllDelivered H encrypt (w.exchange
      H encrypt m).1 ms

end World

/-- Neither side has ratcheted and every frame sealed so far was accepted. -/
structure InStep (H : Hkdf κ) (shared : Bytes) (w : World κ) : Prop where
  history : History H shared w
  guarded : Guarded w
  turns : ∀ s, w.turns s = 0
  accepted : w.accepted = w.made

omit [DecidableEq κ] in
theorem inStep_start (H : Hkdf κ) (shared : Bytes) : InStep H shared (World.start H shared) :=
  ⟨history_start H shared, guarded_start H shared, fun _ => rfl, rfl⟩

variable {H : Hkdf κ} {shared : Bytes} {w : World κ}

theorem exchange_eq (encrypt : κ → Bytes → Bytes → Bytes → Bytes) (h : History H shared w) (m : Message) :
    w.exchange H encrypt m =
      ((w.sealAt H encrypt m.side m.aad m.plaintext).openAt m.side.peer m.aad
          (w.nextSealed H encrypt m.side m.aad m.plaintext).frame,
        ((w.sealAt H encrypt m.side m.aad m.plaintext).opened m.side.peer m.aad
          (w.nextSealed H encrypt m.side m.aad m.plaintext).frame).2) := by
  have hcap := (h.synced m.side).capped
  simp only [World.exchange, sealFrame_of_lt H encrypt (w.sessions m.side) (lt_rekeyHardCap hcap),
    World.nextSealed]

omit [DecidableEq κ] in
theorem WellSealed.intact {e : Sealed κ} (he : WellSealed H shared e) (v : World κ) (s : Side)
    (aad : Bytes) : CounterIntact v (.openFrame s aad e.frame) := by
  obtain ⟨hepoch, hcounter, hdrop, hlen⟩ := he.frame_eq
  have hnonce : e.nonce =
      makeNonce e.side.dir (Session.frameEpoch e.frame) (Session.frameCounter e.frame) := by
    rw [hepoch, hcounter, he.nonce]
  have hzero : e.frame.set 4 0 = e.frame := he.set_top_byte hlen hnonce hdrop.symm
  intro d _ hd
  rwa [hzero] at hd

omit [DecidableEq κ] in
theorem nextSealed_counter_below (encrypt : κ → Bytes → Bytes → Bytes → Bytes) {s : Side}
    (aad plaintext : Bytes) (hlt : (w.sessions s).txCounter < rekeyEveryFrames) :
    (w.nextSealed H encrypt s aad plaintext).counter = (w.sessions s).txCounter := by
  simp only [World.nextSealed, Session.rekeyed, not_le.mpr hlt, if_false]

section BelowThreshold

variable (h : InStep H shared w) (encrypt : κ → Bytes → Bytes → Bytes → Bytes) {s : Side}
  (aad plaintext : Bytes) (hlt : (w.sessions s).txCounter < rekeyEveryFrames)

include h hlt

omit [DecidableEq κ] in
theorem InStep.nextTurn_below : w.nextTurn s = 0 := by
  rw [World.nextTurn, if_neg (not_le.mpr hlt), h.turns]

omit [DecidableEq κ] in
theorem InStep.turns_sealAt (t : Side) : (w.sealAt H encrypt s aad plaintext).turns t = 0 := by
  rw [World.sealAt_eq H encrypt w s (h.history.synced s).capped]
  by_cases ht : t = s
  · subst ht
    simp only [Function.update_self, h.nextTurn_below hlt]
  · simp only [Function.update_of_ne ht, h.turns]

omit [DecidableEq κ] in
theorem InStep.txCounter_sealAt (t : Side) :
    ((w.sealAt H encrypt s aad plaintext).sessions t).txCounter =
      (w.sessions t).txCounter + if t = s then 1 else 0 := by
  rw [World.sealAt_eq H encrypt w s (h.history.synced s).capped]
  by_cases ht : t = s
  · subst ht
    simp [Session.rekeyed, not_le.mpr hlt]
  · simp [ht]

omit [DecidableEq κ] in
theorem InStep.fresh_sealAt :
    Fresh ((w.sealAt H encrypt s aad plaintext).acceptedCounters s.peer)
      (w.nextSealed H encrypt s aad plaintext).counter := by
  have hbelow : ∀ c ∈ (w.sealAt H encrypt s aad plaintext).acceptedCounters s.peer,
      c < (w.nextSealed H encrypt s aad plaintext).counter := by
    intro c hc
    obtain ⟨a, ha, haside, haturn, rfl⟩ := World.mem_acceptedCounters.mp hc
    have hmade : a ∈ w.made := by
      rw [World.sealAt_eq H encrypt w s (h.history.synced s).capped] at ha
      rwa [← h.accepted]
    have hcounter := h.history.counter_lt a hmade
    rw [Side.peer_peer] at haside
    rwa [haside, haturn, h.turns_sealAt encrypt aad plaintext hlt, ← h.turns s, h.history.counted,
      ← nextSealed_counter_below encrypt aad plaintext hlt] at hcounter
  exact ⟨fun hc => absurd (hbelow _ hc) (lt_irrefl _), fun c hc => (hbelow c hc).trans (by simp [width])⟩

end BelowThreshold

theorem InStep.exchange (h : InStep H shared w) (hH : H.Injective)
    (encrypt : κ → Bytes → Bytes → Bytes → Bytes) (m : Message)
    (hlt : (w.sessions m.side).txCounter < rekeyEveryFrames) :
    (w.exchange H encrypt m).2 = .ok m.plaintext ∧ InStep H shared (w.exchange H encrypt m).1 ∧
      ∀ s, ((w.exchange H encrypt m).1.sessions s).txCounter =
        (w.sessions s).txCounter + if s = m.side then 1 else 0 := by
  obtain ⟨s, aad, pt⟩ := m
  have hh := h.history.sealFrame encrypt s aad pt
  have hg := h.guarded.sealFrame h.history encrypt s aad pt
  have hwell := h.history.nextSealed_wellSealed encrypt s aad pt
  have hturns := h.turns_sealAt encrypt aad pt hlt
  have hturn : (w.nextSealed H encrypt s aad pt).turn = 0 := h.nextTurn_below hlt
  have hmade : (w.sealAt H encrypt s aad pt).made = w.made ++ [w.nextSealed H encrypt s aad pt] := by
    rw [World.sealAt_eq H encrypt w s (h.history.synced s).capped]
  have haccepted : (w.sealAt H encrypt s aad pt).accepted = w.made := by
    rw [World.sealAt_eq H encrypt w s (h.history.synced s).capped]
    exact h.accepted
  have hmem : w.nextSealed H encrypt s aad pt ∈ (w.sealAt H encrypt s aad pt).made := by simp [hmade]
  have hkey := (hh.key_iff hH hmem s.peer).mpr (by rw [hturn, hturns])
  have hok : ((w.sealAt H encrypt s aad pt).opened s.peer aad
      (w.nextSealed H encrypt s aad pt).frame).2 = .ok pt :=
    hg.genuine_opens hh hH hmem (Side.peer_peer s).symm hkey (h.fresh_sealAt encrypt aad pt hlt)
  have hintact := hwell.intact (w.sealAt H encrypt s aad pt) s.peer aad
  obtain ⟨d, hd, hsource, hdside, hdturn, hframe, _⟩ := hh.source_of_ok hH hintact hok
  have hde : d = w.nextSealed H encrypt s aad pt := hh.unique d hd _ hmem
    (by rw [hdside, Side.peer_peer]; rfl) (by rw [hdturn, hturn, hturns])
    (by rw [← hwell.frame_eq.2.1, hframe, (hh.wellSealed d hd).frame_eq.2.1])
  rw [exchange_eq encrypt h.history]
  dsimp only
  refine ⟨hok, ⟨hh.openFrame s.peer aad _, hg.openAt_of_ok hh hH hintact hok, hturns, ?_⟩, ?_⟩
  · simp only [World.openAt, hok, hsource, hde, Option.toList_some, haccepted, hmade]
  · intro t
    obtain ⟨rx, hrx⟩ := openFrame_session (decrypt (w.sealAt H encrypt s aad pt).encryptions)
      ((w.sealAt H encrypt s aad pt).sessions s.peer) aad (w.nextSealed H encrypt s aad pt).frame
    rw [← h.txCounter_sealAt encrypt aad pt hlt t]
    by_cases ht : t = s.peer
    · subst ht
      simp only [World.openAt, World.opened, Function.update_self, hrx]
    · simp only [World.openAt, Function.update_of_ne ht]

/-- At the threshold the sealer has moved to the next key and the receiver has
not, so the frame fails to authenticate. -/
theorem InStep.exchange_at_threshold (h : InStep H shared w) (hH : H.Injective)
    (encrypt : κ → Bytes → Bytes → Bytes → Bytes) (m : Message)
    (hge : rekeyEveryFrames ≤ (w.sessions m.side).txCounter) :
    (w.exchange H encrypt m).2 ≠ .ok m.plaintext := by
  obtain ⟨s, aad, pt⟩ := m
  have hseal := World.sealAt_eq H encrypt w s (h.history.synced s).capped aad pt
  have hh := h.history.sealFrame encrypt s aad pt
  have hwell := h.history.nextSealed_wellSealed encrypt s aad pt
  rw [exchange_eq encrypt h.history]
  dsimp only
  intro hok
  obtain ⟨d, hd, _, _, hdturn, hframe, _⟩ := hh.source_of_ok hH (hwell.intact _ s.peer aad) hok
  have hreceiver : d.turn = 0 := by
    rw [hdturn, hseal]
    simp only [Function.update_of_ne s.peer_ne, h.turns]
  have hsender : (w.nextSealed H encrypt s aad pt).turn = 1 := by
    simp only [World.nextSealed, World.nextTurn, hge, if_true, h.turns]
  have hepoch := congrArg Session.frameEpoch hframe
  rw [hwell.frame_eq.1, (hh.wellSealed d hd).frame_eq.1, hreceiver, hsender] at hepoch
  exact absurd hepoch (by decide)

def Message.sentBy (s : Side) (ms : List Message) : Nat := ms.countP (fun m => s = m.side)

theorem InStep.allDelivered_iff (h : InStep H shared w) (hH : H.Injective)
    (encrypt : κ → Bytes → Bytes → Bytes → Bytes) (ms : List Message) :
    w.AllDelivered H encrypt ms ↔
      ∀ s, (w.sessions s).txCounter + Message.sentBy s ms ≤ rekeyEveryFrames := by
  induction ms generalizing w with
  | nil => exact iff_of_true trivial (fun s => (h.history.synced s).capped)
  | cons m ms ih =>
      have hsent (s : Side) :
          Message.sentBy s (m :: ms) = Message.sentBy s ms + if s = m.side then 1 else 0 := by
        simp only [Message.sentBy, List.countP_cons, decide_eq_true_eq]
      by_cases hlt : (w.sessions m.side).txCounter < rekeyEveryFrames
      · obtain ⟨hok, hnext, hcounter⟩ := h.exchange hH encrypt m hlt
        simp only [World.AllDelivered, hok, true_and, ih hnext, hcounter, hsent]
        refine forall_congr' (fun s => ?_)
        rw [Nat.add_right_comm, Nat.add_assoc]
      · refine iff_of_false (fun hall => ?_) (fun hle => ?_)
        · exact h.exchange_at_threshold hH encrypt m (not_lt.mp hlt) hall.1
        · have := hle m.side
          rw [hsent, if_pos rfl] at this
          omega

/-- Two sides that only exchange frames in order understand each other exactly
as long as neither has sealed more than one key's worth of frames: the sealer
rekeys by itself, the receiver never does. -/
theorem lockstep_until_rekey {H : Hkdf κ} (hH : H.Injective)
    (encrypt : κ → Bytes → Bytes → Bytes → Bytes) (shared : Bytes) (ms : List Message) :
    (World.start H shared).AllDelivered H encrypt ms ↔ ∀ s, Message.sentBy s ms ≤ rekeyEveryFrames := by
  have hiff := (inStep_start H shared).allDelivered_iff hH encrypt ms
  have hzero (s : Side) : ((World.start H shared).sessions s).txCounter = 0 := rfl
  simpa only [hzero, Nat.zero_add] using hiff

def shortTalk : List Message := [⟨.initiator, [], [7]⟩, ⟨.responder, [1], []⟩, ⟨.initiator, [], [8]⟩]

theorem lockstep_short_talk :
    Message.sentBy .initiator shortTalk = 2 ∧
      (World.start free [1]).AllDelivered free appendTag shortTalk :=
  ⟨rfl, (lockstep_until_rekey free_injective appendTag [1] shortTalk).mpr (by intro s; cases s <;> decide)⟩

def pastThreshold : List Message := List.replicate (rekeyEveryFrames + 1) ⟨.initiator, [], []⟩

theorem rekey_breaks_lockstep : ¬ (World.start free [1]).AllDelivered free appendTag pastThreshold := by
  intro hall
  have hle := ((inStep_start free [1]).allDelivered_iff free_injective appendTag pastThreshold).mp
    hall .initiator
  rw [Message.sentBy, pastThreshold, List.countP_replicate, if_pos (by decide)] at hle
  omega

end TriNet.Mesh
