import TriNet.Lib.Runs
import TriNet.Phone.MeshCrypto
import Mathlib.Data.List.Nodup

namespace TriNet.Phone

open Lib.BigEndian Lib.Recent Lib.Runs Lib.Symbolic

inductive Side
  | a
  | b
  deriving DecidableEq

def Side.other : Side → Side
  | .a => .b
  | .b => .a

theorem Side.eq_other_of_ne {side side' : Side} (h : side' ≠ side) : side' = side.other := by
  cases side <;> cases side' <;> first | rfl | exact absurd rfl h

theorem Side.other_ne (side : Side) : side.other ≠ side := by cases side <;> decide

/-- A sealed datagram and the endpoint that made it, if it was made in this
session. -/
structure Record (κ : Type) where
  maker : Option Side
  enc : Encryption κ
  deriving DecidableEq

def Record.wire {κ : Type} (r : Record κ) : Bytes := r.enc.nonce ++ r.enc.ciphertext

/-- Two endpoints with one session key, every encryption made anywhere, and
what each endpoint accepted: the datagrams and their plaintexts. -/
structure Session (κ : Type) where
  ends : Side → Sealing κ
  made : List (Record κ)
  accepted : Side → List (Bytes × Bytes)

/-- The attacker sees every datagram and chooses which bytes are given to an
endpoint, and when. -/
inductive SessionEvent (κ : Type)
  | sealPlain (side : Side) (plain nonce ciphertext : Bytes)
  | elsewhere (enc : Encryption κ)
  | unsealWire (side : Side) (wire : Bytes)

namespace Session

variable {κ : Type}

def start (key : κ) : Session κ := ⟨fun _ => ⟨some key, []⟩, [], fun _ => []⟩

def FreshNonce (s : Session κ) (plain nonce ciphertext : Bytes) : Prop :=
  nonce.length = 12 ∧ ciphertext.length = plain.length + 16 ∧ ∀ r ∈ s.made, r.enc.nonce ≠ nonce

instance (s : Session κ) (plain nonce ciphertext : Bytes) :
    Decidable (s.FreshNonce plain nonce ciphertext) :=
  inferInstanceAs (Decidable (_ ∧ _ ∧ _))

def step [DecidableEq κ] (s : Session κ) : SessionEvent κ → Session κ
  | .sealPlain side plain nonce ciphertext =>
      match (s.ends side).sealPlain plain nonce ciphertext with
      | none => s
      | some enc => if s.FreshNonce plain nonce ciphertext then
          { s with made := s.made ++ [⟨some side, enc⟩] } else s
  | .elsewhere enc =>
      -- other sessions have other keys
      if ∀ side ∈ [Side.a, Side.b], (s.ends side).sessionKey ≠ some enc.key then
        { s with made := s.made ++ [⟨none, enc⟩] }
      else s
  | .unsealWire side wire =>
      match (s.ends side).unsealWire (s.made.map Record.enc) wire with
      | none => s
      | some (c, plain) =>
          { s with
            ends := Function.update s.ends side c
            accepted := Function.update s.accepted side (s.accepted side ++ [(wire, plain)]) }

/-- What an endpoint returned was sealed by the other one, and no datagram was
accepted twice. -/
def Safe (s : Session κ) : Prop :=
  ∀ side,
    (∀ got ∈ s.accepted side, ∃ r ∈ s.made, r.maker = some side.other ∧ r.wire = got.1 ∧
      r.enc.plaintext = got.2) ∧ ((s.accepted side).map Prod.fst).Nodup

/-- An endpoint is not given its own datagrams, and one it accepted before only
while it is among the last it accepted. -/
def Guarded (s : Session κ) : SessionEvent κ → Prop
  | .unsealWire side wire =>
      (∀ r ∈ s.made, r.maker = some side → r.wire ≠ wire) ∧
        (wire ∈ (s.accepted side).map Prod.fst →
          wire ∈ recent Sealing.replayWindow ((s.accepted side).map Prod.fst))
  | _ => True

structure Inv (key : κ) (s : Session κ) : Prop where
  sessionKey : ∀ side, (s.ends side).sessionKey = some key
  own : ∀ r ∈ s.made, ∀ side, r.maker = some side →
    r.enc.key = key ∧ r.enc.aad = [] ∧ r.enc.nonce.length = 12 ∧ 16 ≤ r.enc.ciphertext.length
  foreign : ∀ r ∈ s.made, r.maker = none → r.enc.key ≠ key
  unique : ∀ r ∈ s.made, ∀ r' ∈ s.made, r.enc.key = key → r'.enc.key = key →
    r.enc.nonce = r'.enc.nonce → r = r'
  accepted : ∀ side, ∀ got ∈ s.accepted side, ∃ r ∈ s.made, r.enc.key = key ∧ r.wire = got.1
  ring : ∀ side, (s.ends side).nonceRing =
    recent Sealing.replayWindow ((s.accepted side).map (fun got => got.1.take 12))

theorem inv_start (key : κ) : Inv key (start key) where
  sessionKey _ := rfl
  own _ hr := absurd hr List.not_mem_nil
  foreign _ hr := absurd hr List.not_mem_nil
  unique _ hr := absurd hr List.not_mem_nil
  accepted _ _ hgot := absurd hgot List.not_mem_nil
  ring _ := (recent_nil _).symm

variable {key : κ} {s : Session κ}

namespace Inv

theorem maker_of_key (h : Inv key s) {r : Record κ} (hr : r ∈ s.made) (hkey : r.enc.key = key) :
    ∃ side, r.maker = some side := by
  cases hmaker : r.maker with
  | none => exact absurd hkey (h.foreign r hr hmaker)
  | some side => exact ⟨side, rfl⟩

theorem shape (h : Inv key s) {r : Record κ} (hr : r ∈ s.made) (hkey : r.enc.key = key) :
    r.enc.aad = [] ∧ r.enc.nonce.length = 12 ∧ 16 ≤ r.enc.ciphertext.length := by
  obtain ⟨side, hmaker⟩ := h.maker_of_key hr hkey
  exact (h.own r hr side hmaker).2

theorem take_wire (h : Inv key s) {r : Record κ} (hr : r ∈ s.made) (hkey : r.enc.key = key) :
    r.wire.take 12 = r.enc.nonce := List.take_left' (h.shape hr hkey).2.1

theorem drop_wire (h : Inv key s) {r : Record κ} (hr : r ∈ s.made) (hkey : r.enc.key = key) :
    r.wire.drop 12 = r.enc.ciphertext := List.drop_left' (h.shape hr hkey).2.1

theorem record_of_nonce (h : Inv key s) {r r' : Record κ} (hr : r ∈ s.made) (hr' : r' ∈ s.made)
    (hkey : r.enc.key = key) (hkey' : r'.enc.key = key) (hwire : r.wire.take 12 = r'.wire.take 12) :
    r = r' := by
  rw [h.take_wire hr hkey, h.take_wire hr' hkey'] at hwire
  exact h.unique r hr r' hr' hkey hkey' hwire

theorem mem_ring (h : Inv key s) {side : Side} {nonce : Bytes} :
    nonce ∈ (s.ends side).nonceRing ↔
      ∃ wire ∈ recent Sealing.replayWindow ((s.accepted side).map Prod.fst), wire.take 12 = nonce := by
  have hmap : (s.accepted side).map (fun got => got.1.take 12) =
      ((s.accepted side).map Prod.fst).map (fun wire => wire.take 12) := by
    rw [List.map_map]
    rfl
  rw [h.ring side, hmap, recent_map, List.mem_map]

/-- A datagram opens exactly if it was sealed in the session and its nonce is
not remembered. -/
theorem unsealWire_eq_some [DecidableEq κ] (h : Inv key s) {side : Side}
    {wire plain : Bytes} {c : Sealing κ} :
    (s.ends side).unsealWire (s.made.map Record.enc) wire = some (c, plain) ↔
      (∃ r ∈ s.made, r.enc.key = key ∧ r.wire = wire ∧ r.enc.plaintext = plain) ∧
        wire.take 12 ∉ (s.ends side).nonceRing ∧
        c = ⟨some key, push Sealing.replayWindow (s.ends side).nonceRing (wire.take 12)⟩ := by
  have haccept : (s.ends side).acceptNonce (wire.take 12) =
      if wire.take 12 ∈ (s.ends side).nonceRing then none
      else some ⟨some key, push Sealing.replayWindow (s.ends side).nonceRing (wire.take 12)⟩ := by
    rw [Sealing.acceptNonce, h.sessionKey side]
  rw [Sealing.unsealWire, h.sessionKey side]
  dsimp only
  rw [haccept]
  constructor
  · intro hopen
    simp only [Option.ite_none_left_eq_some] at hopen
    obtain ⟨_, hopen⟩ := hopen
    split at hopen
    · cases hopen
    · next plain' hdec =>
        obtain ⟨enc, henc, ⟨hkey, hnonce, _, hct⟩, hplain⟩ := decrypt_sound hdec
        obtain ⟨r, hr, rfl⟩ := List.mem_map.mp henc
        simp only [Option.map_eq_some_iff, Option.ite_none_left_eq_some, Option.some.injEq,
          Prod.mk.injEq] at hopen
        obtain ⟨c', ⟨hfresh, rfl⟩, rfl, rfl⟩ := hopen
        refine ⟨⟨r, hr, hkey, ?_, hplain⟩, hfresh, rfl⟩
        rw [Record.wire, hnonce, hct, List.take_append_drop]
  · rintro ⟨⟨r, hr, hkey, rfl, rfl⟩, hfresh, rfl⟩
    obtain ⟨haad, hnonce, hct⟩ := h.shape hr hkey
    have hlen : ¬r.wire.length < 28 := by
      rw [Record.wire, List.length_append]
      omega
    have hdec : decrypt (s.made.map Record.enc) key (r.wire.take 12) [] (r.wire.drop 12) =
        some r.enc.plaintext := by
      rw [h.take_wire hr hkey, h.drop_wire hr hkey, ← haad, ← hkey]
      apply decrypt_complete (List.mem_map_of_mem hr)
      intro d hd hdkey hdnonce
      obtain ⟨r', hr', rfl⟩ := List.mem_map.mp hd
      rw [h.unique r' hr' r hr (hdkey.trans hkey) hkey hdnonce]
    rw [if_neg hlen, hdec, if_neg hfresh]
    rfl

theorem append (h : Inv key s) {r : Record κ}
    (hown : ∀ side, r.maker = some side →
      r.enc.key = key ∧ r.enc.aad = [] ∧ r.enc.nonce.length = 12 ∧ 16 ≤ r.enc.ciphertext.length)
    (hforeign : r.maker = none → r.enc.key ≠ key)
    (hnew : r.enc.key = key → ∀ r' ∈ s.made, r'.enc.nonce ≠ r.enc.nonce) :
    Inv key { s with made := s.made ++ [r] } where
  sessionKey := h.sessionKey
  own r' hr' := by
    rcases List.mem_append.mp hr' with hr' | hr'
    · exact h.own r' hr'
    · exact List.mem_singleton.mp hr' ▸ hown
  foreign r' hr' := by
    rcases List.mem_append.mp hr' with hr' | hr'
    · exact h.foreign r' hr'
    · exact List.mem_singleton.mp hr' ▸ hforeign
  unique r₁ hr₁ r₂ hr₂ hkey₁ hkey₂ hsame := by
    rcases List.mem_append.mp hr₁ with hold₁ | hlast₁ <;> rcases List.mem_append.mp hr₂ with hold₂ | hlast₂
    · exact h.unique r₁ hold₁ r₂ hold₂ hkey₁ hkey₂ hsame
    · obtain rfl := List.mem_singleton.mp hlast₂
      exact absurd hsame (hnew hkey₂ r₁ hold₁)
    · obtain rfl := List.mem_singleton.mp hlast₁
      exact absurd hsame.symm (hnew hkey₁ r₂ hold₂)
    · rw [List.mem_singleton.mp hlast₁, List.mem_singleton.mp hlast₂]
  accepted side got hgot := by
    obtain ⟨r', hr', hgot⟩ := h.accepted side got hgot
    exact ⟨r', List.mem_append_left _ hr', hgot⟩
  ring := h.ring

end Inv

theorem safe_append (hsafe : s.Safe) (r : Record κ) : Safe { s with made := s.made ++ [r] } := by
  intro side
  refine ⟨fun got hgot => ?_, (hsafe side).2⟩
  obtain ⟨r', hr', hgot⟩ := (hsafe side).1 got hgot
  exact ⟨r', List.mem_append_left _ hr', hgot⟩

theorem safe_accept_iff (hsafe : s.Safe) {ends : Side → Sealing κ} {side : Side} {wire plain : Bytes} :
    Safe { s with
        ends, accepted := Function.update s.accepted side (s.accepted side ++ [(wire, plain)]) } ↔
      (∃ r ∈ s.made, r.maker = some side.other ∧ r.wire = wire ∧ r.enc.plaintext = plain) ∧
        wire ∉ (s.accepted side).map Prod.fst := by
  refine (Function.forall_update_iff s.accepted (fun side l =>
    (∀ got ∈ l, ∃ r ∈ s.made, r.maker = some side.other ∧ r.wire = got.1 ∧
      r.enc.plaintext = got.2) ∧ (l.map Prod.fst).Nodup)).trans ?_
  rw [and_iff_left (fun side' _ => hsafe side'), List.forall_mem_append, List.forall_mem_singleton,
    List.map_append, List.map_singleton, ← List.concat_eq_append, List.nodup_concat]
  constructor
  · rintro ⟨⟨_, hmaker⟩, hnew, _⟩
    exact ⟨hmaker, hnew⟩
  · rintro ⟨hmaker, hnew⟩
    exact ⟨⟨(hsafe side).1, hmaker⟩, hnew, (hsafe side).2⟩

theorem Inv.maker_of_accepted (h : Inv key s) (hsafe : s.Safe) {side : Side} {wire : Bytes}
    (hwire : wire ∈ (s.accepted side).map Prod.fst) :
    ∃ r ∈ s.made, r.enc.key = key ∧ r.maker = some side.other ∧ r.wire = wire := by
  obtain ⟨got, hgot, rfl⟩ := List.mem_map.mp hwire
  obtain ⟨r, hr, hmaker, hw, _⟩ := (hsafe side).1 got hgot
  exact ⟨r, hr, (h.own r hr _ hmaker).1, hmaker, hw⟩

theorem Inv.recent_of_ring (h : Inv key s) {side : Side} {r : Record κ} (hr : r ∈ s.made)
    (hkey : r.enc.key = key) (hring : r.wire.take 12 ∈ (s.ends side).nonceRing) :
    r.wire ∈ recent Sealing.replayWindow ((s.accepted side).map Prod.fst) := by
  obtain ⟨wire, hwire, hnonce⟩ := h.mem_ring.mp hring
  obtain ⟨got, hgot, rfl⟩ := List.mem_map.mp (mem_of_mem_recent hwire)
  obtain ⟨r', hr', hkey', hw⟩ := h.accepted side got hgot
  rw [← hw] at hnonce hwire
  rwa [← h.record_of_nonce hr' hr hkey' hkey hnonce]

theorem Inv.accept (h : Inv key s) {side : Side} {r : Record κ} (hr : r ∈ s.made)
    (hkey : r.enc.key = key) (plain : Bytes) :
    Inv key { s with
      ends := Function.update s.ends side
        ⟨some key, push Sealing.replayWindow (s.ends side).nonceRing (r.wire.take 12)⟩
      accepted := Function.update s.accepted side (s.accepted side ++ [(r.wire, plain)]) } where
  sessionKey := (Function.forall_update_iff s.ends (fun _ c => c.sessionKey = some key)).mpr
    ⟨rfl, fun side' _ => h.sessionKey side'⟩
  own := h.own
  foreign := h.foreign
  unique := h.unique
  accepted := by
    refine (Function.forall_update_iff s.accepted
      (fun _ l => ∀ got ∈ l, ∃ r ∈ s.made, r.enc.key = key ∧ r.wire = got.1)).mpr
        ⟨?_, fun side' _ => h.accepted side'⟩
    rw [List.forall_mem_append, List.forall_mem_singleton]
    exact ⟨h.accepted side, r, hr, hkey, rfl⟩
  ring side' := by
    by_cases hs : side' = side
    · subst hs
      simp only [Function.update_self, List.map_append, List.map_singleton]
      rw [h.ring, push_recent]
    · simpa [hs] using h.ring side'

variable [DecidableEq κ]

theorem inv_step (h : Inv key s) (e : SessionEvent κ) : Inv key (s.step e) := by
  cases e with
  | sealPlain side plain nonce ciphertext =>
      simp only [step, Sealing.sealPlain, h.sessionKey side, Option.map_some]
      split
      · next hfresh =>
          obtain ⟨hnonce, hct, hnew⟩ := hfresh
          apply h.append
          · intro _ _
            exact ⟨rfl, rfl, hnonce, by rw [hct]; exact Nat.le_add_left ..⟩
          · intro hmaker
            cases hmaker
          · exact fun _ => hnew
      · exact h
  | elsewhere enc =>
      rw [step]
      split
      · next hother =>
          have hne : enc.key ≠ key := by
            intro he
            apply hother .a (List.mem_cons_self ..)
            rw [h.sessionKey, he]
          apply h.append
          · intro _ hmaker
            cases hmaker
          · exact fun _ => hne
          · exact fun hkey => absurd hkey hne
      · exact h
  | unsealWire side wire =>
      rw [step]
      split
      · exact h
      · next c plain hopen =>
          obtain ⟨⟨r, hr, hkey, rfl, _⟩, _, rfl⟩ := h.unsealWire_eq_some.mp hopen
          exact h.accept hr hkey plain

theorem guarded_of_refused (h : Inv key s) (hsafe : s.Safe) {side : Side} {wire : Bytes}
    (hclosed : (s.ends side).unsealWire (s.made.map Record.enc) wire = none) :
    s.Guarded (.unsealWire side wire) := by
  have hring {r : Record κ} (hr : r ∈ s.made) (hkey : r.enc.key = key) (hw : r.wire = wire) :
      wire ∈ recent Sealing.replayWindow ((s.accepted side).map Prod.fst) := by
    rw [← hw]
    apply h.recent_of_ring hr hkey
    by_contra hfresh
    have hopen := h.unsealWire_eq_some.mpr ⟨⟨r, hr, hkey, hw, rfl⟩, hw ▸ hfresh, rfl⟩
    rw [hclosed] at hopen
    cases hopen
  constructor
  · intro r hr hmaker hw
    have hkey := (h.own r hr side hmaker).1
    obtain ⟨r', hr', hkey', hmaker', hw'⟩ :=
      h.maker_of_accepted hsafe (mem_of_mem_recent (hring hr hkey hw))
    obtain rfl := h.record_of_nonce hr hr' hkey hkey' (by rw [hw, hw'])
    rw [hmaker] at hmaker'
    exact side.other_ne (Option.some.inj hmaker').symm
  · intro hwire
    obtain ⟨r, hr, hkey, _, hw⟩ := h.maker_of_accepted hsafe hwire
    exact hring hr hkey hw

theorem guarded_iff_of_opened (h : Inv key s) {side : Side} {wire plain : Bytes} {c : Sealing κ}
    (hopen : (s.ends side).unsealWire (s.made.map Record.enc) wire = some (c, plain)) :
    s.Guarded (.unsealWire side wire) ↔
      (∃ r ∈ s.made, r.maker = some side.other ∧ r.wire = wire ∧ r.enc.plaintext = plain) ∧
        wire ∉ (s.accepted side).map Prod.fst := by
  obtain ⟨⟨r, hr, hkey, hw, hplain⟩, hfresh, _⟩ := h.unsealWire_eq_some.mp hopen
  apply and_congr
  · constructor
    · intro hown
      obtain ⟨maker, hmaker⟩ := h.maker_of_key hr hkey
      have hne : maker ≠ side := by
        rintro rfl
        exact hown r hr hmaker hw
      exact ⟨r, hr, hmaker.trans (congrArg some (Side.eq_other_of_ne hne)), hw, hplain⟩
    · rintro ⟨r', hr', hmaker', hw', _⟩ r'' hr'' hmaker'' hw''
      obtain rfl := h.record_of_nonce hr' hr'' (h.own r' hr' _ hmaker').1 (h.own r'' hr'' _ hmaker'').1
        (by rw [hw', hw''])
      rw [hmaker'] at hmaker''
      exact side.other_ne (Option.some.inj hmaker'')
  · apply imp_iff_not
    intro hrecent
    exact hfresh (h.mem_ring.mpr ⟨wire, hrecent, rfl⟩)

theorem safe_step_iff (h : Inv key s) (hsafe : s.Safe) (e : SessionEvent κ) :
    (s.step e).Safe ↔ s.Guarded e := by
  cases e with
  | sealPlain side plain nonce ciphertext =>
      refine iff_of_true ?_ trivial
      simp only [step, Sealing.sealPlain, h.sessionKey side, Option.map_some]
      split
      · exact safe_append hsafe _
      · exact hsafe
  | elsewhere enc =>
      refine iff_of_true ?_ trivial
      rw [step]
      split
      · exact safe_append hsafe _
      · exact hsafe
  | unsealWire side wire =>
      cases hopen : (s.ends side).unsealWire (s.made.map Record.enc) wire with
      | none =>
          simp only [step, hopen]
          exact iff_of_true hsafe (guarded_of_refused h hsafe hopen)
      | some result =>
          obtain ⟨c, plain⟩ := result
          simp only [step, hopen]
          rw [safe_accept_iff hsafe, guarded_iff_of_opened h hopen]

/-- A session stays safe exactly as long as no endpoint is given a datagram of
its own, or one it accepted before 8192 others. -/
theorem session_safe_iff (key : κ) (es : List (SessionEvent κ)) :
    (∀ fs, fs <+: es → (run step (start key) fs).Safe) ↔ Along step Guarded (start key) es :=
  forall_prefix_iff_along step Guarded (Inv key) Safe (fun _ e h => inv_step h e)
    (fun _ e h hs => safe_step_iff h hs e)
    (start key) es (inv_start key) (fun _ => ⟨fun _ hgot => absurd hgot List.not_mem_nil, List.nodup_nil⟩)

/-- An endpoint takes its own datagram, reflected, for one of its peer's. -/
theorem reflected_datagram_accepted :
    ¬(run step (start 0) [.sealPlain .a [7] (List.replicate 12 1) (List.replicate 17 2),
      .unsealWire .a (List.replicate 12 1 ++ List.replicate 17 2)]).Safe := by
  intro hsafe
  have hgot : (List.replicate 12 1 ++ List.replicate 17 2, [7]) ∈
      (run step (start 0) [.sealPlain .a [7] (List.replicate 12 1) (List.replicate 17 2),
        .unsealWire .a (List.replicate 12 1 ++ List.replicate 17 2)]).accepted .a := by decide +kernel
  obtain ⟨r, hr, hmaker, _⟩ := (hsafe .a).1 _ hgot
  have hown : ∀ r ∈ (run step (start 0) [.sealPlain .a [7] (List.replicate 12 1) (List.replicate 17 2),
      .unsealWire .a (List.replicate 12 1 ++ List.replicate 17 2)]).made,
        r.maker ≠ some Side.b := by decide +kernel
  exact hown r hr hmaker

end Session

end TriNet.Phone
