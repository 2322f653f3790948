import TriNet.Video.Delivery

namespace TriNet.Video

open Lib.BigEndian Lib.Runs

def Frame.WellSized (f : Frame) : Prop := f.isParity → f.payload.length = 70 ∧ f.lastLen ≤ 70

namespace Reassembly

variable {p : Nal} {st : Reassembly} {f : Frame}

theorem Sane.fresh {count : Nat} (h : 0 < count) (now : Nat) : (fresh count now).Sane where
  pos := h
  frags := rfl
  parity g par hpar := by cases hpar
  lastLen l hl := by cases hl

theorem Sane.store (h : st.Sane) (hcount : f.count = st.frags) (hsize : f.WellSized) (now : Nat) :
    (store { st with lastUpdate := now, expectedFrags := f.count } f).Sane := by
  rw [Reassembly.store]
  split
  · next hpar =>
      refine ⟨h.pos, hcount.symm, ?_, ?_⟩
      · intro g par hg
        by_cases hi : g = f.idx
        · subst hi
          simp only [Function.update_self, Option.some.injEq] at hg
          exact hg ▸ (hsize hpar).1
        · exact h.parity g par (by simpa [hi] using hg)
      · intro l hl
        exact Option.some.inj hl ▸ (hsize hpar).2
  · split
    · next hfits =>
        refine ⟨h.pos, hcount.symm, h.parity, ?_⟩
        intro l hl
        dsimp only at hl hfits
        split at hl
        · next hlast =>
            have hidx := beq_iff_eq.mp hlast
            have hlen := Option.some.inj hl
            omega
        · exact h.lastLen l hl
    · exact ⟨h.pos, hcount.symm, h.parity, h.lastLen⟩

theorem Sane.finish (h : st.Sane) (attached : Bool) :
    ∃ entry out, st.finish attached = some (entry, out) ∧ ∀ st', entry = some st' →
      st'.done = false → st'.Sane := by
  rw [Reassembly.finish]
  split
  · exact ⟨_, _, rfl, fun st' he _ => Option.some.inj he ▸ h⟩
  · split
    · exact ⟨_, _, rfl, fun st' he => by cases he⟩
    · next last hlast =>
        have hle := h.lastLen last hlast
        have hpos := h.pos
        have htotal : (st.expectedFrags - 1) * 70 + last ≤ st.frags * 70 := by
          rw [← h.frags]
          omega
        simp only [htotal, if_true]
        split
        · exact ⟨_, _, rfl, fun st' he hd => by cases he; cases hd⟩
        · exact ⟨_, _, rfl, fun st' he hd => by cases he; cases hd⟩

theorem exists_take (h : st.done = false → st.Sane ∧ f.count = st.frags) (hsize : f.WellSized)
    (now : Nat) (attached : Bool) :
    ∃ entry out, st.take f now attached = some (entry, out) ∧
      ∀ st', entry = some st' → st'.done = false → st'.Sane := by
  rw [Reassembly.take]
  split
  · next hdone =>
      refine ⟨_, _, rfl, fun st' he hd => ?_⟩
      cases he
      rw [hdone] at hd
      cases hd
  · next hdone =>
      obtain ⟨hsane, hcount⟩ := h (by simpa using hdone)
      obtain ⟨st', hst', hsane', _⟩ := (hsane.store hcount hsize now).exists_repairAll
        (fun g hg => List.mem_range.mp hg)
      rw [repairGroups, hst']
      exact hsane'.finish attached

/-- An entry that waits for more: nothing in it can be repaired. -/
structure Live (p : Nal) (st : Reassembly) : Prop where
  faithful : st.Faithful p
  isOpen : st.done = false
  settled : ∀ g < fecGroupCount p.frags, st.Settled g
  incomplete : st.allReceived = false

end Reassembly

/-- Each group misses one fragment at most, and has its parity if it does. -/
def Recoverable (p : Nal) (has : Part → Prop) : Prop :=
  ∀ g < fecGroupCount p.frags, ∀ i ∈ groupIndices p.frags g, ¬has (.data i) →
    has (.parity g) ∧ ∀ j ∈ groupIndices p.frags g, ¬has (.data j) → j = i

variable {p : Nal} {w : Nat}

theorem Recoverable.mono {has has' : Part → Prop} (h : Recoverable p has)
    (hle : ∀ q, has q → has' q) : Recoverable p has' := by
  intro g hg i hi hno
  obtain ⟨hpar, honly⟩ := h g hg i hi (fun hhas => hno (hle _ hhas))
  exact ⟨hle _ hpar, fun j hj hjno => honly j hj (fun hhas => hjno (hle _ hhas))⟩

theorem Nal.mem_group (p : Nal) {i : Nat} (hi : i < p.frags) :
    i % fecGroupCount p.frags < fecGroupCount p.frags ∧
      i ∈ groupIndices p.frags (i % fecGroupCount p.frags) := by
  have hpos : 0 < fecGroupCount p.frags := by
    have := p.frags_pos
    rw [fecGroupCount_eq]
    omega
  have hlt := Nat.mod_lt i hpos
  exact ⟨hlt, (mem_groupIndices hlt).mpr ⟨hi, rfl⟩⟩

theorem Reassembly.Live.not_recoverable {st : Reassembly} (h : st.Live p) : ¬Recoverable p st.Has := by
  intro hrec
  have hall : st.allReceived = true := by
    rw [Reassembly.allReceived, h.faithful.frags, List.all_eq_true]
    intro i hi
    by_contra hno
    obtain ⟨hg, hmem⟩ := p.mem_group (List.mem_range.mp hi)
    obtain ⟨hpar, honly⟩ := hrec _ hg i hmem hno
    rcases h.settled _ hg with hnone | hlen
    · exact hpar hnone
    · apply hlen
      have hmiss : st.missing (i % fecGroupCount p.frags) = [i] := by
        apply List.perm_singleton.mp
        rw [List.perm_ext_iff_of_nodup]
        · intro j
          rw [Reassembly.missing, h.faithful.expectedFrags, List.mem_filter, List.mem_singleton]
          constructor
          · rintro ⟨hj, hjno⟩
            exact honly j hj (by simpa [Reassembly.Has] using hjno)
          · rintro rfl
            exact ⟨hmem, by simpa using hno⟩
        · rw [Reassembly.missing, h.faithful.expectedFrags]
          exact (nodup_groupIndices hg).filter _
        · exact List.pairwise_singleton _ i
      rw [hmiss, List.length_singleton]
  have hinc := h.incomplete
  rw [hall] at hinc
  cases hinc

def Arrives (w : Nat) (es : List Pass) (q : Part) : Prop :=
  ∃ e ∈ es, ∃ t f, e.frame = some (t, f) ∧ f.seq = w ∧ f.part = q

theorem not_arrives_of_quiet {es : List Pass} (h : times w es = []) (q : Part) : ¬Arrives w es q := by
  rintro ⟨e, he, t, f, hf, hseq, _⟩
  rcases e.time_cases w with ⟨_, hother⟩ | ⟨t', _, _, _, htime⟩
  · exact hother t f hf hseq
  · have hmem : t' ∈ times w es := List.mem_filterMap.mpr ⟨e, he, htime⟩
    rw [h] at hmem
    cases hmem

theorem arrives_cons {e : Pass} {es : List Pass} {q : Part} :
    Arrives w (e :: es) q ↔ (∃ t f, e.frame = some (t, f) ∧ f.seq = w ∧ f.part = q) ∨ Arrives w es q := by
  simp only [Arrives, List.mem_cons, exists_eq_or_imp]

namespace Downlink

variable {s : Downlink} {e : Pass} {es : List Pass} {f : Frame} {st : Reassembly}

/-- The receiver is up, and its unfinished entries of other sequence numbers
are in order. -/
structure Calm (w : Nat) (s : Downlink) : Prop where
  up : s.crashed = false
  sane : ∀ seq st, seq ≠ w → s.entries seq = some st → st.done = false → st.Sane

/-- A packet of another sequence number agrees with its unfinished entry on
the fragment count, and a parity packet has the size of one. -/
def Fits (w : Nat) (s : Downlink) (e : Pass) : Prop :=
  ∀ t f, e.frame = some (t, f) → f.seq ≠ w → f.WellSized ∧
    ∀ st, (s.retain e.now).entries f.seq = some st → st.done = false → f.count = st.frags

theorem Calm.retain (h : Calm w s) (now : Nat) : Calm w (s.retain now) :=
  ⟨h.up, fun seq st hne hst => h.sane seq st hne (entries_retain_eq_some.mp hst).1⟩

theorem Calm.update {seq : Nat} {entry : Option Reassembly} (h : Calm w s) (delivered : List (Nat × Bytes))
    (hentry : seq ≠ w → ∀ st, entry = some st → st.done = false → st.Sane) :
    Calm w ⟨Function.update s.entries seq entry, s.crashed, delivered⟩ := by
  refine ⟨h.up, fun seq' st hne hst => ?_⟩
  by_cases hs : seq' = seq
  · subst hs
    exact hentry hne st (by simpa using hst)
  · exact h.sane seq' st hne ((Function.update_of_ne hs ..).symm.trans hst)

theorem Calm.step_other (h : Calm w s) (hother : ∀ t f, e.frame = some (t, f) → f.seq ≠ w)
    (hfits : Fits w s e) : Calm w (s.step e) := by
  rw [step_eq h.up]
  split
  · exact h.retain e.now
  · next t f hf =>
      have hne := hother t f hf
      obtain ⟨hsize, hcount⟩ := hfits t f hf hne
      have hentry : (((s.retain e.now).entries f.seq).getD (.fresh f.count t)).done = false →
          (((s.retain e.now).entries f.seq).getD (.fresh f.count t)).Sane ∧
            f.count = (((s.retain e.now).entries f.seq).getD (.fresh f.count t)).frags := by
        cases hst : (s.retain e.now).entries f.seq with
        | none => exact fun _ => ⟨.fresh (Pass.count_pos hf) t, rfl⟩
        | some st => exact fun hopen => ⟨(h.retain e.now).sane f.seq st hne hst hopen, hcount st hst hopen⟩
      obtain ⟨entry, out, htake, hsane⟩ := Reassembly.exists_take hentry hsize t e.attached
      rw [receive_of_take htake]
      exact (h.retain e.now).update _ (fun _ => hsane)

theorem entries_retain_of_timely (hst : s.entries w = some st) (hchron : Chronological (e :: es))
    (hspaced : Spaced (st.lastUpdate :: times w (e :: es))) (hmore : times w (e :: es) ≠ []) :
    (s.retain e.now).entries w = some st := by
  obtain ⟨t, ts, hts⟩ := List.exists_cons_of_ne_nil hmore
  have hnow : e.now ≤ t := hchron.now_le (hts ▸ List.mem_cons_self ..)
  have hsecond : 0 < second := by decide
  rw [Spaced, hts, List.isChain_cons_cons] at hspaced
  exact entries_retain_eq_some.mpr ⟨hst, by omega⟩

theorem spaced_tail {t t' : Nat} {ts : List Nat} (h : Spaced (t :: t' :: ts)) : Spaced (t' :: ts) :=
  (List.isChain_cons_cons.mp h).2

theorem deliveredOf_run_done (hst : s.entries w = some st) (hdone : st.done = true)
    (hchron : Chronological es)
    (hspaced : Spaced (st.lastUpdate :: times w es)) :
    (run step s es).deliveredOf w = s.deliveredOf w := by
  induction es generalizing s st with
  | nil => rfl
  | cons e es ih =>
      by_cases hquiet : times w (e :: es) = []
      · exact deliveredOf_run_quiet s hquiet
      have hkeep := entries_retain_of_timely hst hchron hspaced hquiet
      cases hcrash : s.crashed with
      | true => rw [run_of_crashed hcrash]
      | false =>
          rcases e.time_cases w with ⟨htime, hother⟩ | ⟨t, f, hf, hseq, htime⟩
          · obtain ⟨hdel, hent⟩ := step_other hcrash hother
            rw [times, List.filterMap_cons_none htime] at hspaced
            exact (ih (hent.trans hkeep) hdone hchron.tail hspaced).trans hdel
          · rw [times, List.filterMap_cons_some htime] at hspaced
            have htake : (((s.retain e.now).entries f.seq).getD (.fresh f.count t)).take f t e.attached =
                some (some { st with lastUpdate := t }, none) := by
              rw [hseq, hkeep, Option.getD_some, Reassembly.take_of_done hdone]
            have hstep : s.step e =
                ⟨Function.update (s.retain e.now).entries w (some { st with lastUpdate := t }),
                s.crashed, s.delivered⟩ := by
              rw [step_eq hcrash, hf]
              simp only [receive_of_take htake, hseq, Option.map_none, Option.toList_none, List.append_nil]
              rfl
            have hent : (s.step e).entries w = some { st with lastUpdate := t } := by
              rw [hstep]
              exact Function.update_self ..
            have hrest := ih hent hdone hchron.tail (spaced_tail hspaced)
            rw [run, List.foldl_cons]
            rw [run] at hrest
            rw [hrest, hstep]
            rfl

theorem step_own (hcalm : Calm w s) {t : Nat} (hf : e.frame = some (t, f)) (hattached : e.attached = true)
    (hcarries : p.Carries w f) (hst : ((s.retain e.now).entries w).getD (.fresh p.frags t) = st)
    (hfaith : st.Faithful p) (hopen : st.done = false) :
    Calm w (s.step e) ∧ ∃ st', (s.step e).entries w = some st' ∧ st'.lastUpdate = t ∧
      ((st'.done = true ∧ (s.step e).deliveredOf w = s.deliveredOf w ++ [p.bytes]) ∨
        (st'.Live p ∧ (s.step e).deliveredOf w = s.deliveredOf w ∧ st'.Has f.part ∧
          ∀ q, st.Has q → st'.Has q)) := by
  have hseq : f.seq = w := by cases hcarries <;> rfl
  have hcount : f.count = p.frags := by cases hcarries <;> rfl
  obtain ⟨st', hfaith', hopen', hlast, hset, hpart, hkeep, htake⟩ := hfaith.take_open hopen hcarries t
  have hentry : ((s.retain e.now).entries f.seq).getD (.fresh f.count t) = st := by rw [hseq, hcount, hst]
  have hstep (entry : Option Reassembly) (out : Option Bytes)
      (hfin : st'.finish true = some (entry, out)) :
      s.step e = ⟨Function.update (s.retain e.now).entries w entry, s.crashed,
        s.delivered ++ (out.map (fun payload => (w, payload))).toList⟩ := by
    rw [step_eq hcalm.up, hf, hattached]
    simp only
    rw [receive_of_take (hentry.symm ▸ (htake true).trans hfin), hseq]
    rfl
  cases hall : st'.allReceived with
  | true =>
      rw [hstep _ _ (hfaith'.finish_of_allReceived hall true)]
      refine ⟨(hcalm.retain e.now).update _ (fun hne => absurd rfl hne), _,
        Function.update_self .., hlast, ?_⟩
      exact Or.inl ⟨rfl, deliveredOf_append ..⟩
  | false =>
      have hfin : st'.finish true = some (some st', none) := by rw [Reassembly.finish, hall, if_pos rfl]
      rw [hstep _ _ hfin]
      refine ⟨(hcalm.retain e.now).update _ (fun hne => absurd rfl hne), _,
        Function.update_self .., hlast, ?_⟩
      exact Or.inr ⟨⟨hfaith', hopen', hset, hall⟩,
        (deliveredOf_append ..).trans (List.append_nil _), hpart, hkeep⟩

/-- The packets of one payload, from an entry that waits for some of them. -/
structure Feeds (p : Nal) (w : Nat) (s : Downlink) (es : List Pass) : Prop where
  attached : ∀ e ∈ es, e.attached = true
  carries : ∀ e ∈ es, ∀ t f, e.frame = some (t, f) → f.seq = w → p.Carries w f
  fits : Along step (Fits w) s es
  chronological : Chronological es

theorem Feeds.tail (h : Feeds p w s (e :: es)) : Feeds p w (s.step e) es where
  attached e' he' := h.attached e' (List.mem_cons_of_mem e he')
  carries e' he' := h.carries e' (List.mem_cons_of_mem e he')
  fits := h.fits.2
  chronological := h.chronological.tail

theorem recoverable_of_step {st' : Reassembly} {t : Nat} (hf : e.frame = some (t, f))
    (hrec : Recoverable p (fun q => st.Has q ∨ Arrives w (e :: es) q)) (hpart : st'.Has f.part)
    (hkeep : ∀ q, st.Has q → st'.Has q) : Recoverable p (fun q => st'.Has q ∨ Arrives w es q) := by
  apply hrec.mono
  rintro q (hq | hq)
  · exact Or.inl (hkeep q hq)
  · rcases arrives_cons.mp hq with ⟨t', f', hf', _, rfl⟩ | hq
    · rw [hf] at hf'
      cases hf'
      exact Or.inl hpart
    · exact Or.inr hq

theorem recoverable_of_skip (hother : ∀ t f, e.frame = some (t, f) → f.seq ≠ w)
    (hrec : Recoverable p (fun q => st.Has q ∨ Arrives w (e :: es) q)) :
    Recoverable p (fun q => st.Has q ∨ Arrives w es q) := by
  apply hrec.mono
  rintro q (hq | hq)
  · exact Or.inl hq
  · rcases arrives_cons.mp hq with ⟨t, f, hf, hseq, _⟩ | hq
    · exact absurd hseq (hother t f hf)
    · exact Or.inr hq

theorem Feeds.deliveredOf_own (h : Feeds p w s (e :: es)) (hcalm : Calm w s) {t : Nat}
    (hf : e.frame = some (t, f))
    (hseq : f.seq = w) (hst : ((s.retain e.now).entries w).getD (.fresh p.frags t) = st)
    (hfaith : st.Faithful p)
    (hopen : st.done = false) (hspaced : Spaced (t :: times w es))
    (hrec : Recoverable p (fun q => st.Has q ∨ Arrives w (e :: es) q))
    (hlive : ∀ st', Calm w (s.step e) → (s.step e).entries w = some st' → st'.Live p →
      Spaced (st'.lastUpdate :: times w es) → Recoverable p (fun q => st'.Has q ∨ Arrives w es q) →
        (run step (s.step e) es).deliveredOf w = (s.step e).deliveredOf w ++ [p.bytes]) :
    (run step s (e :: es)).deliveredOf w = s.deliveredOf w ++ [p.bytes] := by
  have he : e ∈ e :: es := List.mem_cons_self ..
  obtain ⟨hcalm', st', hst', hlast, hout⟩ :=
    step_own hcalm hf (h.attached e he) (h.carries e he t f hf hseq) hst hfaith hopen
  rw [← hlast] at hspaced
  rcases hout with ⟨hdone, hdel⟩ | ⟨hl, hdel, hpart, hkeep⟩
  · exact (deliveredOf_run_done hst' hdone h.chronological.tail hspaced).trans hdel
  · exact (hlive st' hcalm' hst' hl hspaced (recoverable_of_step hf hrec hpart hkeep)).trans (by rw [hdel])

theorem more_of_live (hlive : st.Live p)
    (hrec : Recoverable p (fun q => st.Has q ∨ Arrives w es q)) : times w es ≠ [] := by
  intro hquiet
  apply hlive.not_recoverable
  apply hrec.mono
  rintro q (hq | hq)
  · exact hq
  · exact absurd hq (not_arrives_of_quiet hquiet q)

theorem Feeds.deliveredOf_live (h : Feeds p w s es) (hcalm : Calm w s) (hst : s.entries w = some st)
    (hlive : st.Live p) (hspaced : Spaced (st.lastUpdate :: times w es))
    (hrec : Recoverable p (fun q => st.Has q ∨ Arrives w es q)) :
    (run step s es).deliveredOf w = s.deliveredOf w ++ [p.bytes] := by
  induction es generalizing s st with
  | nil => exact absurd rfl (more_of_live hlive hrec)
  | cons e es ih =>
      have hkeep := entries_retain_of_timely hst h.chronological hspaced (more_of_live hlive hrec)
      rcases e.time_cases w with ⟨htime, hother⟩ | ⟨t, f, hf, hseq, htime⟩
      · obtain ⟨hdel, hent⟩ := step_other hcalm.up hother
        rw [times, List.filterMap_cons_none htime] at hspaced
        have hrest := ih h.tail (hcalm.step_other hother h.fits.1) (hent.trans hkeep) hlive hspaced
          (recoverable_of_skip hother hrec)
        exact hrest.trans (by rw [hdel])
      · rw [times, List.filterMap_cons_some htime] at hspaced
        have hentry : ((s.retain e.now).entries w).getD (.fresh p.frags t) = st := by
          rw [hkeep, Option.getD_some]
        apply h.deliveredOf_own hcalm hf hseq hentry hlive.faithful hlive.isOpen (spaced_tail hspaced) hrec
        intro st' hcalm' hst' hlive' hspaced' hrec'
        exact ih h.tail hcalm' hst' hlive' hspaced' hrec'

/-- The payload is delivered once if its packets come in time and lose no more
than their parity can give back. -/
theorem Feeds.deliveredOf_run (h : Feeds p w s es) (hcalm : Calm w s) (hnone : s.entries w = none)
    (hspaced : Spaced (times w es)) (hrec : Recoverable p (Arrives w es)) :
    (run step s es).deliveredOf w = s.deliveredOf w ++ [p.bytes] := by
  induction es generalizing s with
  | nil =>
      obtain ⟨hg, hmem⟩ := p.mem_group p.frags_pos
      obtain ⟨hpar, _⟩ := hrec _ hg 0 hmem (not_arrives_of_quiet rfl _)
      exact absurd hpar (not_arrives_of_quiet rfl _)
  | cons e es ih =>
      have hkeep : (s.retain e.now).entries w = none := entries_retain_of_none hnone
      rcases e.time_cases w with ⟨htime, hother⟩ | ⟨t, f, hf, hseq, htime⟩
      · obtain ⟨hdel, hent⟩ := step_other hcalm.up hother
        rw [times, List.filterMap_cons_none htime] at hspaced
        have hlater : ∀ q, Arrives w (e :: es) q → Arrives w es q := by
          intro q hq
          rcases arrives_cons.mp hq with ⟨t, f, hf, hseq, -⟩ | hq
          · exact absurd hseq (hother t f hf)
          · exact hq
        have hrest :=
          ih h.tail (hcalm.step_other hother h.fits.1) (hent.trans hkeep) hspaced (hrec.mono hlater)
        exact hrest.trans (by rw [hdel])
      · rw [times, List.filterMap_cons_some htime] at hspaced
        have hentry : ((s.retain e.now).entries w).getD (.fresh p.frags t) = .fresh p.frags t := by
          rw [hkeep, Option.getD_none]
        apply h.deliveredOf_own hcalm hf hseq hentry (.fresh t) rfl hspaced
          (hrec.mono (fun q hq => Or.inr hq))
        intro st' hcalm' hst' hlive' hspaced' hrec'
        exact h.tail.deliveredOf_live hcalm' hst' hlive' hspaced' hrec'

end Downlink

end TriNet.Video
