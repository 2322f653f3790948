import TriNet.Mesh.Channel

namespace TriNet.Mesh

open Lib.BigEndian Lib.Symbolic Lib.Runs

variable {κ : Type}

/-- A session after a number of ratchet steps from the shared secret. -/
structure Synced (H : Hkdf κ) (shared : Bytes) (s : Side) (sess : Session κ) (turn : Nat) : Prop where
  cipher : sess.cipher = keyAt H shared turn
  chainKey : sess.chainKey = chainAt H shared turn
  epoch : sess.epoch = turn % 2 ^ 32
  txDir : sess.txDir = s.dir
  capped : sess.txCounter ≤ rekeyEveryFrames

theorem synced_start (H : Hkdf κ) (shared : Bytes) (s : Side) :
    Synced H shared s (.fromShared H shared (s = .initiator)) 0 where
  cipher := rfl
  chainKey := rfl
  epoch := rfl
  txDir := by cases s <;> rfl
  capped := Nat.zero_le _

theorem Synced.ratchet {H : Hkdf κ} {shared : Bytes} {s : Side} {sess : Session κ} {turn : Nat}
    (h : Synced H shared s sess turn) : Synced H shared s (sess.ratchet H) (turn + 1) where
  cipher := by simp only [Session.ratchet, h.chainKey]; rfl
  chainKey := by simp only [Session.ratchet, h.chainKey]; rfl
  epoch := by simp only [Session.ratchet, h.epoch]; omega
  txDir := h.txDir
  capped := Nat.zero_le _

theorem Synced.congr {H : Hkdf κ} {shared : Bytes} {s : Side} {sess : Session κ} {turn : Nat}
    (h : Synced H shared s sess turn) (rx : ReplayWindow) : Synced H shared s { sess with rx } turn :=
  ⟨h.cipher, h.chainKey, h.epoch, h.txDir, h.capped⟩

/-- The key, nonce and wire bytes of a seal call are those of its side, turn
and counter. -/
structure WellSealed (H : Hkdf κ) (shared : Bytes) (e : Sealed κ) : Prop where
  key : e.key = keyAt H shared e.turn
  nonce : e.nonce = makeNonce e.side.dir (e.turn % 2 ^ 32) e.counter
  frame : e.frame = beBytes 4 (e.turn % 2 ^ 32) ++ beBytes 8 e.counter ++ e.ciphertext
  counter : e.counter < rekeyEveryFrames

namespace World

def nextSealed (H : Hkdf κ) (encrypt : κ → Bytes → Bytes → Bytes → Bytes) (w : World κ) (s : Side)
    (aad plaintext : Bytes) : Sealed κ :=
  let sess := (w.sessions s).rekeyed H
  let nonce := makeNonce sess.txDir sess.epoch sess.txCounter
  let ciphertext := encrypt sess.cipher nonce aad plaintext
  { key := sess.cipher, nonce, aad, plaintext, ciphertext, side := s, turn := w.nextTurn s,
    counter := sess.txCounter, frame := beBytes 4 sess.epoch ++ beBytes 8 sess.txCounter ++ ciphertext }

theorem sealAt_eq (H : Hkdf κ) (encrypt : κ → Bytes → Bytes → Bytes → Bytes) (w : World κ)
    (s : Side) (h : (w.sessions s).txCounter ≤ rekeyEveryFrames) (aad plaintext : Bytes) :
    w.sealAt H encrypt s aad plaintext =
      { w with
        sessions := Function.update w.sessions s
          { (w.sessions s).rekeyed H with txCounter := ((w.sessions s).rekeyed H).txCounter + 1 }
        turns := Function.update w.turns s (w.nextTurn s)
        made := w.made ++ [w.nextSealed H encrypt s aad plaintext] } := by
  have hdrop (x y z : Bytes) (hx : x.length = 4) (hy : y.length = 8) : (x ++ y ++ z).drop 12 = z := by
    rw [List.drop_append_of_le_length (by simp [hx, hy]), List.drop_of_length_le (by simp [hx, hy])]
    rfl
  simp only [sealAt, sealFrame_of_lt H encrypt (w.sessions s) (lt_rekeyHardCap h), nextSealed,
    Nat.add_sub_cancel, hdrop _ _ _ (beBytes_length 4 _) (beBytes_length 8 _)]

theorem madeBy_append (w : World κ) (e : Sealed κ) (sessions : Side → Session κ)
    (turns : Side → Nat) (s : Side) (turn : Nat) :
    ({ w with sessions, turns, made := w.made ++ [e] } : World κ).madeBy s turn =
      w.madeBy s turn ++ if e.side = s ∧ e.turn = turn then [e] else [] := by
  by_cases h : e.side = s ∧ e.turn = turn <;> simp [madeBy, List.filter_append, h]

end World

/-- What every run of seal, ratchet and open calls keeps, whatever is opened:
the sessions are where their ratchet steps put them, and the seal calls of one
side under one key carry the counters from zero without a repeat. -/
structure History (H : Hkdf κ) (shared : Bytes) (w : World κ) : Prop where
  synced : ∀ s, Synced H shared s (w.sessions s) (w.turns s)
  counted : ∀ s, (w.madeBy s (w.turns s)).length = (w.sessions s).txCounter
  wellSealed : ∀ e ∈ w.made, WellSealed H shared e
  turn_le : ∀ e ∈ w.made, e.turn ≤ w.turns e.side
  counter_lt : ∀ e ∈ w.made, e.counter < (w.madeBy e.side e.turn).length
  unique : ∀ d ∈ w.made, ∀ e ∈ w.made, d.side = e.side → d.turn = e.turn → d.counter = e.counter → d = e

theorem history_start (H : Hkdf κ) (shared : Bytes) : History H shared (World.start H shared) where
  synced s := synced_start H shared s
  counted _ := rfl
  wellSealed _ he := absurd he List.not_mem_nil
  turn_le _ he := absurd he List.not_mem_nil
  counter_lt _ he := absurd he List.not_mem_nil
  unique _ hd := absurd hd List.not_mem_nil

namespace History

variable {H : Hkdf κ} {shared : Bytes} {w : World κ}

theorem madeBy_above (h : History H shared w) {s : Side} {turn : Nat} (ht : w.turns s < turn) :
    w.madeBy s turn = [] := by
  apply List.filter_eq_nil_iff.mpr
  intro e he hp
  obtain ⟨rfl, rfl⟩ : e.side = s ∧ e.turn = turn := by simpa using hp
  exact absurd (h.turn_le e he) (by omega)

theorem synced_rekeyed (h : History H shared w) (s : Side) :
    Synced H shared s ((w.sessions s).rekeyed H) (w.nextTurn s) := by
  rw [Session.rekeyed, World.nextTurn]
  split
  · exact (h.synced s).ratchet
  · exact h.synced s

theorem counted_rekeyed (h : History H shared w) (s : Side) :
    (w.madeBy s (w.nextTurn s)).length = ((w.sessions s).rekeyed H).txCounter := by
  rw [Session.rekeyed, World.nextTurn]
  split
  · rw [h.madeBy_above (Nat.lt_succ_self _)]
    rfl
  · exact h.counted s

theorem le_nextTurn (w : World κ) (s : Side) : w.turns s ≤ w.nextTurn s := by
  rw [World.nextTurn]
  split <;> omega

theorem nextSealed_wellSealed (h : History H shared w) (encrypt : κ → Bytes → Bytes → Bytes → Bytes)
    (s : Side) (aad plaintext : Bytes) :
    WellSealed H shared (w.nextSealed H encrypt s aad plaintext) := by
  have hs := h.synced_rekeyed s
  constructor
  · exact hs.cipher
  · simp only [World.nextSealed, hs.txDir, hs.epoch]
  · simp only [World.nextSealed, hs.epoch]
  · exact rekeyed_txCounter_lt H (w.sessions s)

theorem counter_lt_rekeyed (h : History H shared w) {d : Sealed κ} {s : Side} (hd : d ∈ w.made)
    (hside : d.side = s) (hturn : d.turn = w.nextTurn s) :
    d.counter < ((w.sessions s).rekeyed H).txCounter := by
  subst hside
  have hlt := h.counter_lt d hd
  rwa [hturn, h.counted_rekeyed] at hlt

theorem sealFrame (h : History H shared w) (encrypt : κ → Bytes → Bytes → Bytes → Bytes) (s : Side)
    (aad plaintext : Bytes) : History H shared (w.sealAt H encrypt s aad plaintext) := by
  rw [World.sealAt_eq H encrypt w s (h.synced s).capped]
  constructor
  · intro t
    by_cases ht : t = s
    · subst ht
      have hs := h.synced_rekeyed t
      have hlt := rekeyed_txCounter_lt H (w.sessions t)
      simp only [Function.update_self]
      exact ⟨hs.cipher, hs.chainKey, hs.epoch, hs.txDir, hlt⟩
    · simpa only [Function.update_of_ne ht] using h.synced t
  · intro t
    rw [World.madeBy_append, List.length_append]
    by_cases ht : t = s
    · subst ht
      simp [World.nextSealed, h.counted_rekeyed]
    · simp [Function.update_of_ne ht, World.nextSealed, h.counted, Ne.symm ht]
  · intro e he
    rcases List.mem_append.mp he with he | he
    · exact h.wellSealed e he
    · rw [List.mem_singleton.mp he]
      exact h.nextSealed_wellSealed encrypt s aad plaintext
  · intro e he
    rcases List.mem_append.mp he with he | he
    · apply (h.turn_le e he).trans
      by_cases ht : e.side = s
      · rw [ht]
        simpa only [Function.update_self] using le_nextTurn w s
      · simp only [Function.update_of_ne ht, le_refl]
    · rw [List.mem_singleton.mp he]
      simp [World.nextSealed]
  · intro e he
    rw [World.madeBy_append, List.length_append]
    rcases List.mem_append.mp he with he | he
    · have := h.counter_lt e he
      omega
    · rw [List.mem_singleton.mp he]
      simp [World.nextSealed, h.counted_rekeyed]
  · intro d hd e he hside hturn hcounter
    rcases List.mem_append.mp hd with hd | hd <;> rcases List.mem_append.mp he with he | he
    · exact h.unique d hd e he hside hturn hcounter
    · rw [List.mem_singleton.mp he] at hside hturn hcounter
      exact absurd hcounter (h.counter_lt_rekeyed hd hside hturn).ne
    · rw [List.mem_singleton.mp hd] at hside hturn hcounter
      exact absurd hcounter.symm (h.counter_lt_rekeyed he hside.symm hturn.symm).ne
    · rw [List.mem_singleton.mp hd, List.mem_singleton.mp he]

theorem ratchet (h : History H shared w) (s : Side) : History H shared (w.ratchetAt H s) where
  synced t := by
    by_cases ht : t = s
    · subst ht
      simpa only [World.ratchetAt, Function.update_self] using (h.synced t).ratchet
    · simpa only [World.ratchetAt, Function.update_of_ne ht] using h.synced t
  counted t := by
    by_cases ht : t = s
    · subst ht
      simp only [World.ratchetAt, Function.update_self]
      exact congrArg List.length (h.madeBy_above (Nat.lt_succ_self _))
    · simp only [World.ratchetAt, Function.update_of_ne ht]
      exact h.counted t
  wellSealed := h.wellSealed
  turn_le e he := by
    apply (h.turn_le e he).trans
    by_cases ht : e.side = s
    · simp only [World.ratchetAt, ht, Function.update_self]
      omega
    · simp only [World.ratchetAt, Function.update_of_ne ht, le_refl]
  counter_lt := h.counter_lt
  unique := h.unique

theorem eq_of_nonce (h : History H shared w) {d e : Sealed κ} (hd : d ∈ w.made) (he : e ∈ w.made)
    (hturn : d.turn = e.turn) (hnonce : d.nonce = e.nonce) : d = e := by
  have hwd := h.wellSealed d hd
  have hwe := h.wellSealed e he
  rw [hwd.nonce, hwe.nonce] at hnonce
  obtain ⟨hdir, _, hctr⟩ := makeNonce_inj hnonce
  have hcd := hwd.counter
  have hce := hwe.counter
  simp only [rekeyEveryFrames] at hcd hce
  exact h.unique d hd e he (Side.dir_inj hdir) hturn (by omega)

/-- Distinct seal calls never share a key and a nonce. -/
theorem eq_of_key_nonce (h : History H shared w) (hH : H.Injective) {d e : Sealed κ}
    (hd : d ∈ w.made) (he : e ∈ w.made) (hkey : d.key = e.key) (hnonce : d.nonce = e.nonce) : d = e := by
  rw [(h.wellSealed d hd).key, (h.wellSealed e he).key] at hkey
  exact h.eq_of_nonce hd he (keyAt_inj hH hkey) hnonce

end History

theorem openFrame_session (decrypt : κ → Bytes → Bytes → Bytes → Option Bytes) (sess : Session κ)
    (aad frame : Bytes) : ∃ rx, (sess.openFrame decrypt aad frame).1 = { sess with rx } := by
  rw [Session.openFrame]
  split
  · exact ⟨sess.rx, rfl⟩
  · split
    · exact ⟨sess.rx, rfl⟩
    · exact ⟨_, rfl⟩

namespace History

variable [DecidableEq κ] {H : Hkdf κ} {shared : Bytes} {w : World κ}

theorem openFrame (h : History H shared w) (s : Side) (aad frame : Bytes) :
    History H shared (w.openAt s aad frame) := by
  obtain ⟨rx, hrx⟩ := openFrame_session (decrypt w.encryptions) (w.sessions s) aad frame
  have hsess (t : Side) : ∃ r, (w.openAt s aad frame).sessions t = { w.sessions t with rx := r } := by
    by_cases ht : t = s
    · subst ht
      exact ⟨rx, by simpa only [World.openAt, World.opened, Function.update_self] using hrx⟩
    · exact ⟨(w.sessions t).rx, by simp only [World.openAt, Function.update_of_ne ht]⟩
  constructor
  · intro t
    obtain ⟨r, hr⟩ := hsess t
    rw [hr]
    exact (h.synced t).congr r
  · intro t
    obtain ⟨r, hr⟩ := hsess t
    rw [hr]
    exact h.counted t
  · exact h.wellSealed
  · exact h.turn_le
  · exact h.counter_lt
  · exact h.unique

theorem step (h : History H shared w) (encrypt : κ → Bytes → Bytes → Bytes → Bytes) (e : Event) :
    History H shared (w.step H encrypt e) := by
  cases e with
  | sealFrame s aad plaintext => exact h.sealFrame encrypt s aad plaintext
  | ratchet s => exact h.ratchet s
  | openFrame s aad frame => exact h.openFrame s aad frame

end History

end TriNet.Mesh
