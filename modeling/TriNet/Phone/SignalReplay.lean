import TriNet.Phone.Signaling
import Mathlib.Data.List.Nodup

namespace TriNet.Phone

open CallApi Lib Lib.BigEndian Lib.Reading Lib.Runs

variable {P : Platform} {me : DeviceIdentity}

section Payloads

theorem singleLine_of_uuid {nonce : String} (h : uuidIsValid nonce = true) : Lines.SingleLine nonce := by
  intro hmem
  exact absurd (mem_uuid h hmem) (by decide)

/-- In a signed payload the first line, the timestamp and the nonce can be
read, whatever the fields between them contain. -/
theorem signedLines_inj {head head' nonce nonce' : String} {mid mid' : List String} {ts ts' : Int}
    (hhead : Lines.SingleLine head) (hhead' : Lines.SingleLine head') (hmid : mid ≠ []) (hmid' : mid' ≠ [])
    (hnonce : Lines.SingleLine nonce) (hnonce' : Lines.SingleLine nonce')
    (h : Lines.join (head :: (mid ++ [toString ts] ++ [nonce])) =
      Lines.join (head' :: (mid' ++ [toString ts'] ++ [nonce']))) :
    head = head' ∧ ts = ts' ∧ nonce = nonce' ∧ Lines.join mid = Lines.join mid' := by
  obtain ⟨hh, htail⟩ := Lines.join_cons_inj hhead hhead' (by simp) (by simp) h
  obtain ⟨hn, hinit⟩ := Lines.join_concat_inj hnonce hnonce' (by simp) (by simp) htail
  obtain ⟨ht, hrest⟩ :=
    Lines.join_concat_inj (Lines.singleLine_toString ts) (Lines.singleLine_toString ts')
    hmid hmid' hinit
  exact ⟨hh, Lines.eq_of_toString_int_eq ht, hn, hrest⟩

/-- A payload of lines: the first line, fields between, timestamp and nonce. -/
def Lined (payload : Bytes) (head : String) (mid : List String) (ts : Int) (nonce : String) : Prop :=
  payload = utf8 (Lines.join (head :: (mid ++ [toString ts] ++ [nonce]))) ∧
    Lines.SingleLine head ∧ mid ≠ []

theorem Lined.inj {payload : Bytes} {head head' nonce nonce' : String} {mid mid' : List String}
    {ts ts' : Int} (h : Lined payload head mid ts nonce) (h' : Lined payload head' mid' ts' nonce')
    (hnonce : uuidIsValid nonce = true) (hnonce' : uuidIsValid nonce' = true) :
    head = head' ∧ ts = ts' ∧ nonce = nonce' ∧ Lines.join mid = Lines.join mid' :=
  signedLines_inj h.2.1 h'.2.1 h.2.2 h'.2.2 (singleLine_of_uuid hnonce) (singleLine_of_uuid hnonce')
    (utf8_inj (h.1.symm.trans h'.1))

theorem lined_invite {i : MeshCallInvite} {payload : Bytes} (h : i.payload P = some payload) :
    ∃ head mid, (head = "mesh-invite-v1" ∨ head = "mesh-invite-v2") ∧
      Lined payload head mid i.timestamp i.nonce := by
  unfold MeshCallInvite.payload at h
  split_ifs at h
  · obtain rfl := Option.some.inj h
    exact ⟨"mesh-invite-v1",
      [i.callID, P.normalize i.nickname, i.displayName, i.userID, i.deviceID,
        toString i.mediaPort.toNat], .inl rfl, rfl, by decide, List.cons_ne_nil _ _⟩
  · obtain rfl := Option.some.inj h
    exact ⟨"mesh-invite-v2",
      [i.callID, P.normalize i.nickname, i.displayName, i.userID, i.deviceID, toString i.mediaPort.toNat,
        if i.media.audio then "audio=1" else "audio=0", if i.media.video then "video=1" else "video=0"],
      .inr rfl, rfl, by decide, List.cons_ne_nil _ _⟩

theorem lined_control (c : MeshCallControl) :
    Lined c.signedControlPayload "mesh-control-v1"
      (c.kind.rawValue :: [c.callID, c.recipientDeviceID, c.senderUserID, c.senderDeviceID])
        c.timestamp c.nonce :=
  ⟨rfl, by decide, List.cons_ne_nil _ _⟩

theorem Lined.ne_text {payload header body : Bytes} {head nonce : String} {mid : List String}
    {ts : Int} (h : Lined payload head mid ts nonce) (hhead : (utf8 head).head? = some 109) :
    payload ≠ MeshTextEnvelope.signaturePayload header body := by
  intro heq
  have hsplit : Lines.join (head :: (mid ++ [toString ts] ++ [nonce])) =
      head ++ ("\n" ++ Lines.join (mid ++ [toString ts] ++ [nonce])) := by
    apply String.toList_inj.mp
    rw [Lines.toList_join_cons (by simp)]
    simp
  have hfirst : payload.head? = some 109 := by
    rw [h.1, hsplit, utf8_append, List.head?_append, hhead]
    rfl
  have hdomain : MeshTextEnvelope.signatureDomain.head? = some 116 := by decide
  rw [heq, MeshTextEnvelope.signaturePayload, List.append_assoc, List.head?_append, hdomain] at hfirst
  exact absurd (Option.some.inj hfirst) (by decide)

theorem invite_ne_text {i : MeshCallInvite} {payload header body : Bytes}
    (h : i.payload P = some payload) : payload ≠ MeshTextEnvelope.signaturePayload header body := by
  obtain ⟨head, mid, hhead, hlined⟩ := lined_invite h
  apply hlined.ne_text
  rcases hhead with rfl | rfl <;> decide

theorem control_ne_text (c : MeshCallControl) (header body : Bytes) :
    c.signedControlPayload ≠ MeshTextEnvelope.signaturePayload header body :=
      (lined_control c).ne_text (by decide)

theorem invite_ne_control {i : MeshCallInvite} {c : MeshCallControl} {payload : Bytes}
    (h : i.payload P = some payload)
    (hi : uuidIsValid i.nonce = true) (hc : uuidIsValid c.nonce = true) :
    payload ≠ c.signedControlPayload := by
  obtain ⟨head, mid, hhead, hlined⟩ := lined_invite h
  intro heq
  have hsame := (hlined.inj (heq ▸ lined_control c) hi hc).1
  rcases hhead with rfl | rfl <;> exact absurd hsame (by decide)

theorem parsePlaintext_reads {header plaintext : Bytes} {t : MeshText}
    (h : MeshTextEnvelope.parsePlaintext P header plaintext = some t) :
    t.header = header ∧ Reads (MeshTextEnvelope.readFields P) t.fields t.body := by
  have hlocal : Local (MeshTextEnvelope.readFields P) := by
    have hstring : Local MeshTextEnvelope.readString :=
      (local_uint 2).bind (fun n => (local_take n).bind (fun _ => local_lift _))
    have hint : Local MeshTextEnvelope.readInt64 := (local_uint 8).bind (fun _ => local_pure _)
    refine hstring.bind (fun _ =>
      (local_require _).bind (fun _ => hstring.bind (fun _ => hstring.bind (fun _ => ?_))))
    refine hstring.bind (fun _ => hstring.bind (fun _ => hstring.bind (fun _ => hint.bind (fun _ => ?_))))
    exact hstring.bind (fun _ => (local_require _).bind (fun _ => hstring.bind (fun _ =>
      (local_require _).bind (fun _ => local_pure _))))
  simp only [MeshTextEnvelope.parsePlaintext, Option.bind_eq_bind, Option.bind_eq_some_iff] at h
  obtain ⟨⟨fields, rest⟩, hfields, ⟨length, signature⟩, _, h⟩ := h
  split at h
  · cases h
    obtain ⟨used, rfl, hreads⟩ := hlocal _ _ _ hfields
    refine ⟨rfl, ?_⟩
    dsimp only
    rwa [List.length_append, Nat.add_sub_cancel, List.take_left]
  · cases h

end Payloads

namespace SignedMessage

/-- What the checks before the replay store have found out about a message. -/
def Checked (P : Platform) (m : SignedMessage) : Prop :=
  P.fingerprint (m.signed P).1 = some m.fingerprint ∧
    match m with
    | text t => t.header.length = MeshTextEnvelope.headerLength ∧ Reads (MeshTextEnvelope.readFields
        P) t.fields t.body
    | invite i => (i.payload P).isSome
    | control _ => True

/-- What the replay store tells messages apart by, and their timestamp. -/
def key (m : SignedMessage) : ReplayDomain × MeshReplayEntry := (m.store, m.entry)

theorem key_eq_of_lined {m m' : SignedMessage} (hstore : m.store = m'.store)
    (hdomain : m.domain = m'.domain)
    (hfp : m.fingerprint = m'.fingerprint) (hts : m.timestamp = m'.timestamp)
    (hnonce : m.nonce = m'.nonce) : m.key = m'.key := by
  rw [key, key, entry, entry, hstore, hdomain, hfp, hts, hnonce]

theorem key_eq_of_signed {m m' : SignedMessage} (h : m.Checked P) (h' : m'.Checked P)
    (hn : uuidIsValid m.nonce = true) (hn' : uuidIsValid m'.nonce = true)
    (hsigned : m.signed P = m'.signed P) : m.key = m'.key := by
  have hfp : m.fingerprint = m'.fingerprint := by
    have hsame := h.1.symm.trans ((congrArg (fun x => P.fingerprint x.1) hsigned).trans h'.1)
    exact Option.some.inj hsame
  have hpayload := congrArg Prod.snd hsigned
  cases m with
  | text t =>
      cases m' with
      | text t' =>
          have hbytes := Option.some.inj hpayload
          rw [MeshTextEnvelope.signaturePayload, MeshTextEnvelope.signaturePayload,
            List.append_assoc, List.append_assoc] at hbytes
          have hbody := (List.append_inj (List.append_cancel_left hbytes) (h.2.1.trans h'.2.1.symm)).2
          have hfields : t.fields = t'.fields := by
            have hreads := h.2.2
            rw [hbody] at hreads
            exact hreads.unique h'.2.2
          exact key_eq_of_lined rfl rfl hfp (congrArg TextFields.timestamp hfields)
            (congrArg TextFields.nonce hfields)
      | invite i => exact absurd rfl (invite_ne_text hpayload.symm)
      | control c => exact absurd (Option.some.inj hpayload.symm) (control_ne_text c _ _)
  | invite i =>
      cases m' with
      | text t => exact absurd rfl (invite_ne_text hpayload)
      | invite i' =>
          obtain ⟨payload, hp⟩ := Option.isSome_iff_exists.mp h.2
          obtain ⟨head, mid, _, hlined⟩ := lined_invite hp
          obtain ⟨head', mid', _, hlined'⟩ := lined_invite (hpayload.symm.trans hp)
          obtain ⟨_, hts, hnonce, _⟩ := hlined.inj hlined' hn hn'
          exact key_eq_of_lined rfl rfl hfp hts hnonce
      | control c => exact absurd rfl (invite_ne_control hpayload hn hn')
  | control c =>
      cases m' with
      | text t => exact absurd (Option.some.inj hpayload) (control_ne_text c _ _)
      | invite i => exact absurd rfl (invite_ne_control hpayload.symm hn' hn)
      | control c' =>
          have hlined := (Option.some.inj hpayload) ▸ lined_control c
          obtain ⟨_, hts, hnonce, hmid⟩ := Lined.inj hlined (lined_control c') hn hn'
          have hraw := (Lines.join_cons_inj (singleLine_rawValue _) (singleLine_rawValue _)
            (List.cons_ne_nil _ _) (List.cons_ne_nil _ _) hmid).1
          exact key_eq_of_lined rfl (congrArg ("control:" ++ ·) hraw) hfp hts hnonce

end SignedMessage

theorem openWire_reads {wire : Bytes} {now : Int} {t : MeshText}
    (h : MeshTextEnvelope.openWire P me wire now = some t) : (SignedMessage.text t).Checked P := by
  unfold MeshTextEnvelope.openWire at h
  split_ifs at h with hlen
  simp only [Option.bind_eq_bind, Option.bind_eq_some_iff] at h
  obtain ⟨plaintext, _, text, hparse, h⟩ := h
  split at h
  · next hacc =>
      obtain rfl := Option.some.inj h
      obtain ⟨hheader, hreads⟩ := parsePlaintext_reads hparse
      simp only [MeshTextEnvelope.isAcceptable, Bool.and_eq_true, decide_eq_true_eq] at hacc
      refine ⟨hacc.1.2, ?_, hreads⟩
      rw [hheader, List.length_take]
      simp only [Bool.or_eq_true, decide_eq_true_eq, not_or] at hlen
      omega
  · cases h

theorem SignedMessage.check_spec {data : Bytes} {now : Int} {kind : SignedKind} {m : SignedMessage}
    (h : SignedMessage.check P me data now kind = some m) : m.Checked P := by
  cases kind with
  | text =>
      simp only [check] at h
      split at h
      · obtain ⟨t, ht, rfl⟩ := Option.map_eq_some_iff.mp h
        exact openWire_reads ht
      · cases h
  | invite =>
      obtain ⟨i, hi, rfl⟩ := Option.map_eq_some_iff.mp h
      have hacc := (Option.filter_eq_some_iff.mp hi).2
      simp only [MeshCallInvite.isAcceptable, MeshCallInvite.signatureIsValid, Bool.and_eq_true,
        decide_eq_true_eq, Option.any_eq_true] at hacc
      obtain ⟨_, ⟨_, hfp⟩, payload, hpayload, _⟩ := hacc
      exact ⟨hfp, Option.isSome_iff_exists.mpr ⟨payload, hpayload⟩⟩
  | control =>
      obtain ⟨c, hc, rfl⟩ := Option.map_eq_some_iff.mp h
      have hacc := (Option.filter_eq_some_iff.mp hc).2
      simp only [MeshCallControl.isAcceptable, MeshCallControl.signatureIsValid, Bool.and_eq_true,
        decide_eq_true_eq] at hacc
      exact ⟨hacc.2.1.2, trivial⟩

theorem ReplayDomain.reading_mono (d : ReplayDomain) {clock later : Nat} (h : clock ≤ later) :
    d.reading clock ≤ d.reading later := by
  cases d with
  | text => exact Int.ofNat_le.mpr h
  | signal => exact Int.ofNat_le.mpr (Nat.div_le_div_right h)

theorem SignedMessage.expired_mono {m : SignedMessage} {clock later : Nat} (h : clock ≤ later)
    (hlater : m.expired later = false) : m.expired clock = false := by
  rw [Bool.eq_false_iff] at hlater ⊢
  exact fun hexp => hlater (MeshReplayEntry.expired_mono (m.store.reading_mono h) hexp)

def ReceiveStage.Sound (P : Platform) (clock : Nat) : ReceiveStage → Prop
  | .tries _ => True
  | .checked m => m.Checked P
  | .stamped m now => m.Checked P ∧ now ≤ m.store.reading clock

theorem SignedKind.sound_next (kind : SignedKind) (clock : Nat) :
    ∀ stage ∈ kind.next, stage.Sound P clock := by
  intro stage hstage
  cases kind with
  | text | invite =>
      cases hstage
      trivial
  | control => cases hstage

namespace Signaling

variable {ι : Type} [DecidableEq ι] {s : Signaling ι}

/-- Every message that reached its callback is remembered while its window is
open, in the store and in what it has saved. -/
structure Guarded (P : Platform) (s : Signaling ι) : Prop where
  genuine : ∀ m ∈ s.callbacks, m.Checked P ∧ uuidIsValid m.nonce = true
  pending : ∀ i data stage, s.receivers i = some (data, stage) → stage.Sound P s.clock
  remembered : ∀ m ∈ s.callbacks, m.expired s.clock = false →
    m.entry ∈ (s.stores m.store).entries ∧ m.entry ∈ (s.stores m.store).saved
  once : (s.callbacks.map SignedMessage.key).Nodup

/-- When the replay store is asked about a message, the message's window is
still open. -/
def inTime (s : Signaling ι) : SignalEvent ι → Bool
  | .advance i =>
      match s.receivers i with
      | some (_, .stamped m _) => !m.expired s.clock
      | _ => true
  | _ => true

omit [DecidableEq ι] in
theorem guarded_start (clock : Nat) (stores : ReplayDomain → MeshReplayStore) :
    Guarded P (start clock stores : Signaling ι) where
  genuine m hm := absurd hm List.not_mem_nil
  pending i data stage h := by cases h
  remembered m hm := absurd hm List.not_mem_nil
  once := List.nodup_nil

namespace Guarded

theorem put (h : Guarded P s) (i : ι) (data : Bytes) {stage : Option ReceiveStage}
    (hstage : ∀ st ∈ stage, st.Sound P s.clock) : Guarded P (s.put i data stage) := by
  refine ⟨h.genuine, ?_, h.remembered, h.once⟩
  intro j data' st hj
  simp only [Signaling.put, Function.update_apply] at hj
  split at hj
  · obtain ⟨st', hst', heq⟩ := Option.map_eq_some_iff.mp hj
    cases heq
    exact hstage _ hst'
  · exact h.pending j data' st hj

omit [DecidableEq ι] in
theorem withStore (h : Guarded P s) {d : ReplayDomain} {store : MeshReplayStore}
    (hkeep : ∀ m ∈ s.callbacks, m.store = d → m.expired s.clock = false →
      m.entry ∈ store.entries ∧ m.entry ∈ store.saved) :
    Guarded P (s.withStore d store) := by
  refine ⟨h.genuine, h.pending, ?_, h.once⟩
  intro m hm hexp
  simp only [Signaling.withStore, Function.update_apply]
  split
  · next hd => exact hkeep m hm hd hexp
  · exact h.remembered m hm hexp

omit [DecidableEq ι] in
theorem callback (h : Guarded P s) {m : SignedMessage} (hm : m.Checked P)
    (hnonce : uuidIsValid m.nonce = true)
    (hkept : m.entry ∈ (s.stores m.store).entries ∧ m.entry ∈ (s.stores m.store).saved)
    (hnew : m.key ∉ s.callbacks.map SignedMessage.key) : Guarded P (s.callback m) := by
  refine ⟨?_, h.pending, ?_, ?_⟩
  · intro m' hm'
    rcases List.mem_append.mp hm' with hm' | hm'
    · exact h.genuine m' hm'
    · rw [List.mem_singleton.mp hm']
      exact ⟨hm, hnonce⟩
  · intro m' hm' hexp'
    rcases List.mem_append.mp hm' with hm' | hm'
    · exact h.remembered m' hm' hexp'
    · rw [List.mem_singleton.mp hm']
      exact hkept
  · rw [Signaling.callback, List.map_append, List.map_singleton, ← List.concat_eq_append]
    exact List.Nodup.concat hnew h.once

omit [DecidableEq ι] in
theorem mem_purge (h : Guarded P s) {m : SignedMessage} (hm : m ∈ s.callbacks)
    (hexp : m.expired s.clock = false) {now : Int} (hnow : now ≤ m.store.reading s.clock) :
    m.entry ∈ ((s.stores m.store).purge m.store.maximumSkew now).entries := by
  refine MeshReplayStore.mem_purge.mpr ⟨(h.remembered m hm hexp).1, ?_⟩
  rw [SignedMessage.expired, Bool.eq_false_iff] at hexp
  rw [Bool.eq_false_iff]
  exact fun hearly => hexp (MeshReplayEntry.expired_mono hnow hearly)

theorem decide (h : Guarded P s) (i : ι) (data : Bytes) {m : SignedMessage} {now : Int}
    (hm : m.Checked P) (hnow : now ≤ m.store.reading s.clock) (hexp : m.expired s.clock = false) :
    Guarded P (s.decide i data m now) := by
  have hspec :=
    MeshReplayStore.accept_spec (s.stores m.store) m.domain m.fingerprint m.nonce m.timestamp now
    m.store.maximumSkew
  have hpurged : ∀ m' ∈ s.callbacks, m'.store = m.store → m'.expired s.clock = false →
      m'.entry ∈ ((s.stores m.store).purge m.store.maximumSkew now).entries := by
    intro m' hm' hstore hexp'
    rw [← hstore] at hnow ⊢
    exact h.mem_purge hm' hexp' hnow
  unfold Signaling.decide
  generalize (s.stores m.store).accept m.domain m.fingerprint m.nonce m.timestamp now
    m.store.maximumSkew = result at hspec
  cases hspec with
  | malformed =>
      refine (h.withStore ?_).put i data (m.kind.sound_next s.clock)
      intro m' hm' hstore hexp'
      rw [← hstore]
      exact h.remembered m' hm' hexp'
  | refused =>
      refine (h.withStore ?_).put i data (m.kind.sound_next s.clock)
      intro m' hm' hstore hexp'
      refine ⟨hpurged m' hm' hstore hexp', ?_⟩
      rw [← hstore]
      exact (h.remembered m' hm' hexp').2
  | accepted hnonce hnew =>
      have hkept : Guarded P (s.withStore m.store
          (((s.stores m.store).purge m.store.maximumSkew now).record m.entry)) := by
        apply h.withStore
        intro m' hm' hstore hexp'
        have hmem := List.mem_append_left [m.entry] (hpurged m' hm' hstore hexp')
        exact ⟨hmem, hmem⟩
      refine (hkept.put i data (by simp)).callback hm hnonce ?_ ?_
      · have hmem := List.mem_append_right ((s.stores m.store).purge m.store.maximumSkew now).entries
          (List.mem_singleton_self m.entry)
        simp only [Signaling.put, Signaling.withStore, Function.update_self]
        exact ⟨hmem, hmem⟩
      · -- an earlier callback of the same message would still be in the store
        intro hkey
        obtain ⟨m', hm', heq⟩ := List.mem_map.mp hkey
        obtain ⟨hstore, hentry⟩ := Prod.mk.inj heq
        have hexp' : m'.expired s.clock = false := by
          rw [SignedMessage.expired, hstore, hentry]
          exact hexp
        have hmem := hpurged m' hm' hstore hexp'
        rw [hentry] at hmem
        exact hnew _ hmem rfl

theorem advance (h : Guarded P s) {i : ι} {data : Bytes} {stage : ReceiveStage}
    (hi : s.receivers i = some (data, stage))
    (htime : s.inTime (.advance i) = true) : Guarded P (s.advance P me i data stage) := by
  have hsound := h.pending i data stage hi
  cases stage with
  | tries kind =>
      unfold Signaling.advance
      dsimp only
      split
      · next m hm =>
          apply h.put
          rintro st ⟨⟩
          exact SignedMessage.check_spec hm
      · exact h.put i data (kind.sound_next s.clock)
  | checked m =>
      apply h.put
      rintro st ⟨⟩
      exact ⟨hsound, le_rfl⟩
  | stamped m now =>
      simp only [inTime, hi, Bool.not_eq_true'] at htime
      exact h.decide i data hsound.1 hsound.2 htime

theorem step (h : Guarded P s) {e : SignalEvent ι} (htime : s.inTime e = true) :
    Guarded P (s.step P me e) := by
  cases e with
  | tick ms =>
      have hle : s.clock ≤ s.clock + ms := Nat.le_add_right ..
      refine ⟨h.genuine, ?_, ?_, h.once⟩
      · intro i data stage hi
        have hsound := h.pending i data stage hi
        cases stage with
        | tries => trivial
        | checked m => exact hsound
        | stamped m now => exact ⟨hsound.1, hsound.2.trans (m.store.reading_mono hle)⟩
      · intro m hm hexp
        exact h.remembered m hm (SignedMessage.expired_mono hle hexp)
  | arrive i data =>
      unfold Signaling.step
      dsimp only
      split
      · apply h.put
        rintro st ⟨⟩
        trivial
      · exact h
  | advance i =>
      unfold Signaling.step
      dsimp only
      split
      · exact h
      · next data stage hi => exact h.advance hi htime
  | restart =>
      refine ⟨h.genuine, ?_, ?_, h.once⟩
      · intro i data stage hi
        cases hi
      · intro m hm hexp
        exact ⟨(h.remembered m hm hexp).2, (h.remembered m hm hexp).2⟩

theorem run (h : Guarded P s) {es : List (SignalEvent ι)}
    (hes : Along (Signaling.step P me) (fun s e => s.inTime e = true) s es) :
    Guarded P (run (Signaling.step P me) s es) :=
  run_along _ (fun s e => s.inTime e = true) (Guarded P) (fun _ _ hs he => hs.step he) s es h hes

omit [DecidableEq ι] in
theorem count_signed_le_one (h : Guarded P s) (signed : String × Option Bytes) :
    s.callbacks.countP (fun m => m.signed P = signed) ≤ 1 := by
  have hinj : ∀ m ∈ s.callbacks, ∀ m' ∈ s.callbacks, m.signed P = m'.signed P → m.key = m'.key := by
    intro m hm m' hm' heq
    obtain ⟨hc, hn⟩ := h.genuine m hm
    obtain ⟨hc', hn'⟩ := h.genuine m' hm'
    exact SignedMessage.key_eq_of_signed hc hc' hn hn' heq
  have honce := h.once
  generalize s.callbacks = ms at hinj honce ⊢
  induction ms with
  | nil => exact Nat.zero_le _
  | cons m ms ih =>
      rw [List.map_cons, List.nodup_cons] at honce
      have htail := ih
        (fun a ha b hb => hinj a (List.mem_cons_of_mem m ha) b (List.mem_cons_of_mem m hb)) honce.2
      rw [List.countP_cons]
      by_cases hm : m.signed P = signed
      · have hnone : ms.countP (fun m => m.signed P = signed) = 0 := by
          rw [List.countP_eq_zero]
          intro m' hm' hsame
          apply honce.1
          rw [hinj m List.mem_cons_self m' (List.mem_cons_of_mem m hm')
            (hm.trans (of_decide_eq_true hsame).symm)]
          exact List.mem_map_of_mem hm'
        rw [hnone]
        split <;> omega
      · rw [if_neg (by simpa using hm)]
        exact htail

end Guarded

/-- A signed message reaches its callback at most once in every run in which
the replay store is never asked about a message after its window. -/
theorem callbacks_at_most_once (P : Platform) (me : DeviceIdentity) (clock : Nat)
    (stores : ReplayDomain → MeshReplayStore) (es : List (SignalEvent ι))
    (hes : Along (step P me) (fun s e => s.inTime e = true) (start clock stores) es)
    (signed : String × Option Bytes) :
    (run (step P me) (start clock stores) es).callbacks.countP (fun m => m.signed P = signed) ≤ 1 :=
  ((guarded_start clock stores).run hes).count_signed_le_one signed

end Signaling

section Example

def cancelled : MeshCallControl where
  version := 1
  kind := .cancelled
  callID := "call"
  recipientDeviceID := "me"
  senderUserID := "user"
  senderDeviceID := "peer"
  publicKey := "S0VZ"
  keyFingerprint := "4b4559000000000000000000"
  timestamp := 1000
  nonce := "123e4567-e89b-12d3-a456-426614174000"
  signature := "UFJPT0Y="

/-- Of everything the peer's key may verify, only this message was signed. -/
def signedBefore : Platform where
  toFoundation := { plainFoundation with
    isValidSignature := fun _ message _ => message == cancelled.signedControlPayload }
  decodeInvite _ := none
  decodeControl _ := some cancelled

def thisPhone : DeviceIdentity := ⟨"me", "own", "own", [], fun _ _ => none⟩

/-- The datagram is handled to its end in the last second of its window. -/
def handledOnce : List (SignalEvent Unit) := .arrive () [0] :: List.replicate 5 (.advance ())

/-- Its copy is judged fresh in the same second, and the next second has begun
when the replay store is asked. -/
def copyDelayed : List (SignalEvent Unit) :=
  handledOnce ++
    [.arrive () [0], .advance (), .advance (), .advance (), .tick 1000, .advance (), .advance ()]

def emptyStores : ReplayDomain → MeshReplayStore := fun _ => ⟨4096, [], []⟩

theorem callbacks_at_most_once_twoCopies :
    Along (Signaling.step signedBefore thisPhone) (fun s e => s.inTime e = true)
      (.start 1060000 emptyStores) (handledOnce ++ handledOnce) ∧
    (run (Signaling.step signedBefore thisPhone) (.start 1060000 emptyStores)
      (handledOnce ++ handledOnce)).callbacks.countP
        (fun m => m.signed signedBefore = (SignedMessage.control cancelled).signed signedBefore) ≤ 1 := by
  have hes : Along (Signaling.step signedBefore thisPhone) (fun s e => s.inTime e = true)
      (.start 1060000 emptyStores) (handledOnce ++ handledOnce) := by decide +kernel
  exact ⟨hes, Signaling.callbacks_at_most_once _ _ _ _ _ hes _⟩

theorem copy_reaches_callback :
    (run (Signaling.step signedBefore thisPhone) (.start 1060000 emptyStores) copyDelayed).callbacks.countP
      (fun m => m.signed signedBefore = (SignedMessage.control cancelled).signed signedBefore) = 2 := by
  have hcallbacks : (run (Signaling.step signedBefore thisPhone) (.start 1060000 emptyStores)
      copyDelayed).callbacks =
      [.control cancelled, .control cancelled] := by decide +kernel
  rw [hcallbacks]
  simp

end Example

end TriNet.Phone
