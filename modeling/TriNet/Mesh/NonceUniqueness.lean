import TriNet.Mesh.SealHistory
import Mathlib.Data.List.Nodup

namespace TriNet.Mesh

open Lib.BigEndian Lib.Symbolic Lib.Runs

variable {κ : Type}

namespace History

variable {H : Hkdf κ} {shared : Bytes} {w : World κ}

/-- Up to 2^32 ratchet steps the nonce alone tells a seal call: the direction
byte tells the side, the epoch the key and the counter the call. -/
theorem eq_of_nonce_of_turns_lt (h : History H shared w) (hturns : ∀ s, w.turns s < 2 ^ 32)
    {d e : Sealed κ} (hd : d ∈ w.made) (he : e ∈ w.made) (hnonce : d.nonce = e.nonce) : d = e := by
  have hepoch := hnonce
  rw [(h.wellSealed d hd).nonce, (h.wellSealed e he).nonce] at hepoch
  obtain ⟨_, hmod, _⟩ := makeNonce_inj hepoch
  have hdt := Nat.lt_of_le_of_lt (h.turn_le d hd) (hturns d.side)
  have het := Nat.lt_of_le_of_lt (h.turn_le e he) (hturns e.side)
  apply h.eq_of_nonce hd he _ hnonce
  omega

theorem not_mem_nextSealed (h : History H shared w) (encrypt : κ → Bytes → Bytes → Bytes → Bytes)
    (s : Side) (aad plaintext : Bytes) : w.nextSealed H encrypt s aad plaintext ∉ w.made := by
  intro hmem
  exact Nat.lt_irrefl _ (h.counter_lt_rekeyed hmem rfl rfl)

theorem made_nodup_step [DecidableEq κ] (h : History H shared w) (hmade : w.made.Nodup)
    (encrypt : κ → Bytes → Bytes → Bytes → Bytes) (e : Event) : (w.step H encrypt e).made.Nodup := by
  cases e with
  | sealFrame s aad plaintext =>
      rw [World.step, World.sealAt_eq H encrypt w s (h.synced s).capped]
      dsimp only
      rw [← List.concat_eq_append]
      exact (List.nodup_concat _ _).mpr ⟨h.not_mem_nextSealed encrypt s aad plaintext, hmade⟩
  | ratchet s => exact hmade
  | openFrame s aad frame => exact hmade

theorem made_nodup_run [DecidableEq κ] (H : Hkdf κ) (shared : Bytes)
    (encrypt : κ → Bytes → Bytes → Bytes → Bytes) (es : List Event) :
    History H shared (run (World.step H encrypt) (World.start H shared) es) ∧
      (run (World.step H encrypt) (World.start H shared) es).made.Nodup := by
  apply run_invariant (World.step H encrypt) (fun w => History H shared w ∧ w.made.Nodup)
  · rintro w e ⟨h, hmade⟩
    exact ⟨h.step encrypt e, h.made_nodup_step hmade encrypt e⟩
  · exact ⟨history_start H shared, List.nodup_nil⟩

theorem sealFrame_ne_rekeyRequired (h : History H shared w)
    (encrypt : κ → Bytes → Bytes → Bytes → Bytes) (s : Side)
    (aad plaintext : Bytes) :
    ((w.sessions s).sealFrame H encrypt aad plaintext).2 ≠ .error .rekeyRequired := by
  rw [sealFrame_of_lt H encrypt (w.sessions s) (lt_rekeyHardCap (h.synced s).capped)]
  rintro ⟨⟩

end History

/-- Both peers seal and ratchet in any order. Either no key comes back, or no
side takes 2^32 ratchet steps: then no two encrypt calls of the two sessions
share a key and a nonce. The hard cap is never met. -/
theorem encrypt_calls_distinct [DecidableEq κ] (H : Hkdf κ) (shared : Bytes)
    (encrypt : κ → Bytes → Bytes → Bytes → Bytes) (es : List Event)
    (h : H.Injective ∨ ∀ s, (run (World.step H encrypt) (World.start H shared) es).turns s < 2 ^ 32) :
    ((run (World.step H encrypt) (World.start H shared) es).made.map (fun e => (e.key, e.nonce))).Nodup ∧
      ∀ fs, fs <+: es → ∀ s,
        ((run (World.step H encrypt) (World.start H shared) fs).sessions s).txCounter ≤ rekeyEveryFrames ∧
        ∀ aad plaintext,
          (((run (World.step H encrypt) (World.start H shared) fs).sessions s).sealFrame H encrypt
          aad plaintext).2 ≠ .error .rekeyRequired := by
  constructor
  · obtain ⟨hhistory, hmade⟩ := History.made_nodup_run H shared encrypt es
    apply hmade.map_on
    intro d hd e he heq
    obtain ⟨hkey, hnonce⟩ := Prod.mk.inj heq
    rcases h with hH | hturns
    · exact hhistory.eq_of_key_nonce hH hd he hkey hnonce
    · exact hhistory.eq_of_nonce_of_turns_lt hturns hd he hnonce
  · intro fs _ s
    obtain ⟨hhistory, _⟩ := History.made_nodup_run H shared encrypt fs
    exact ⟨(hhistory.synced s).capped, hhistory.sealFrame_ne_rekeyRequired encrypt s⟩

theorem encrypt_calls_distinct_free :
    free.Injective ∧
      ((run (World.step free (fun _ _ _ p => p)) (World.start free [1])
        [.sealFrame .initiator [] [7], .sealFrame .responder [] [7], .ratchet .initiator,
          .sealFrame .initiator [] [7]]).made.map (fun e => (e.key, e.nonce))).Nodup :=
  ⟨free_injective, (encrypt_calls_distinct free [1] (fun _ _ _ p => p) _ (.inl free_injective)).1⟩

end TriNet.Mesh
