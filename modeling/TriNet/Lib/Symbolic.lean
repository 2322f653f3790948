import TriNet.Lib.BigEndian

namespace TriNet.Lib.Symbolic

open BigEndian

variable {κ : Type}

/-- The two operations of an extract-and-expand key derivation, over one type
of secrets, so that an output can be used as the next pseudorandom key. -/
structure Hkdf (κ : Type) where
  extract : (salt ikm : Bytes) → κ
  expand : (prk : κ) → (info : Bytes) → κ

/-- Different derivations never meet: a key determines how it was derived. -/
structure Hkdf.Injective (H : Hkdf κ) : Prop where
  expand_inj : ∀ {k l : κ} {i j : Bytes}, H.expand k i = H.expand l j → k = l ∧ i = j
  expand_ne_extract : ∀ {k : κ} {i salt ikm : Bytes}, H.expand k i ≠ H.extract salt ikm

def Hkdf.chain (H : Hkdf κ) (info : Bytes) (k : κ) : Nat → κ
  | 0 => k
  | n + 1 => H.expand (H.chain info k n) info

theorem Hkdf.Injective.chain_inj {H : Hkdf κ} (hH : H.Injective) {info salt ikm : Bytes} {m n : Nat}
    (h : H.chain info (H.extract salt ikm) m = H.chain info (H.extract salt ikm) n) : m = n := by
  induction m generalizing n with
  | zero =>
      cases n with
      | zero => rfl
      | succ n => exact absurd h.symm hH.expand_ne_extract
  | succ m ih =>
      cases n with
      | zero => exact absurd h hH.expand_ne_extract
      | succ n => exact congrArg (· + 1) (ih (hH.expand_inj h).1)

/-- Secrets as the terms that derive them: the free key derivation. -/
inductive Term
  | extract (salt ikm : Bytes)
  | expand (prk : Term) (info : Bytes)
  deriving DecidableEq

def free : Hkdf Term := ⟨.extract, .expand⟩

theorem free_injective : free.Injective where
  expand_inj h := by simpa [free] using h
  expand_ne_extract h := by simp [free] at h

structure Encryption (κ : Type) where
  key : κ
  nonce : Bytes
  aad : Bytes
  plaintext : Bytes
  ciphertext : Bytes
  deriving DecidableEq

def Encryption.Matches (e : Encryption κ) (key : κ) (nonce aad ciphertext : Bytes) : Prop :=
  e.key = key ∧ e.nonce = nonce ∧ e.aad = aad ∧ e.ciphertext = ciphertext

instance Encryption.decidableMatches [DecidableEq κ] (e : Encryption κ) (key : κ)
    (nonce aad ciphertext : Bytes) : Decidable (e.Matches key nonce aad ciphertext) :=
  inferInstanceAs (Decidable (_ ∧ _ ∧ _ ∧ _))

/-- Decryption by the ideal cipher: only what was encrypted under the same
key, nonce and associated data opens, and it opens to its plaintext. -/
def decrypt [DecidableEq κ] (made : List (Encryption κ)) (key : κ) (nonce aad ciphertext : Bytes) :
    Option Bytes :=
  (made.find? (fun e => decide (e.Matches key nonce aad ciphertext))).map Encryption.plaintext

theorem decrypt_sound [DecidableEq κ] {made : List (Encryption κ)} {key : κ}
    {nonce aad ciphertext plaintext : Bytes}
    (h : decrypt made key nonce aad ciphertext = some plaintext) :
    ∃ e ∈ made, e.Matches key nonce aad ciphertext ∧ e.plaintext = plaintext := by
  simp only [decrypt, Option.map_eq_some_iff] at h
  obtain ⟨e, he, hp⟩ := h
  exact ⟨e, List.mem_of_find?_eq_some he, by simpa using List.find?_some he, hp⟩

theorem decrypt_complete [DecidableEq κ] {made : List (Encryption κ)} {e : Encryption κ}
    (he : e ∈ made) (hunique : ∀ d ∈ made, d.key = e.key → d.nonce = e.nonce → d = e) :
    decrypt made e.key e.nonce e.aad e.ciphertext = some e.plaintext := by
  cases hf : made.find? (fun d => decide (d.Matches e.key e.nonce e.aad e.ciphertext)) with
  | none =>
      have h := List.find?_eq_none.mp hf e he
      simp [Encryption.Matches] at h
  | some d =>
      have hm : d.Matches e.key e.nonce e.aad e.ciphertext := by simpa using List.find?_some hf
      have hd := hunique d (List.mem_of_find?_eq_some hf) hm.1 hm.2.1
      simp [decrypt, hf, hd]

/-- A cipher used only for what it gives honest parties: what was encrypted
opens under the same key, nonce and associated data. -/
structure Aead (κ : Type) where
  encrypt : (key : κ) → (nonce aad plaintext : Bytes) → Bytes
  decrypt : (key : κ) → (nonce aad ciphertext : Bytes) → Option Bytes
  decrypt_encrypt : ∀ key nonce aad plaintext,
    decrypt key nonce aad (encrypt key nonce aad plaintext) = some plaintext

def Aead.clear (κ : Type) : Aead κ := ⟨fun _ _ _ pt => pt, fun _ _ _ ct => some ct, fun _ _ _ _ => rfl⟩

def Aead.tagged (κ : Type) (n : Nat) : Aead κ where
  encrypt _ _ _ pt := pt ++ List.replicate n 0
  decrypt _ _ _ ct := some (ct.take (ct.length - n))
  decrypt_encrypt _ _ _ pt := by simp

/-- Either party reaches the same secret from its own private key and the
other's public key. -/
structure KeyAgreement (σ : Type) where
  publicKey : σ → Bytes
  sharedSecret : (mine : σ) → (theirs : Bytes) → Option Bytes
  agreement : ∀ a b, sharedSecret a (publicKey b) = sharedSecret b (publicKey a)

end TriNet.Lib.Symbolic
