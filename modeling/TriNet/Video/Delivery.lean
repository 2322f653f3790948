import TriNet.Video.Nal

namespace TriNet.Video

open Lib.BigEndian Lib.Runs

theorem count_pos_of_parse {pkt : Bytes} {f : Frame} (h : parse pkt = some f) : 0 < f.count := by
  simp only [parse, Option.ite_none_left_eq_some, Option.some.injEq] at h
  obtain ⟨_, _, hcount, rfl⟩ := h
  exact Nat.pos_of_ne_zero hcount

namespace Pass

theorem count_pos {e : Pass} {t : Nat} {f : Frame} (h : e.frame = some (t, f)) : 0 < f.count := by
  obtain ⟨a, _, ha⟩ := Option.bind_eq_some_iff.mp h
  obtain ⟨f', hf', he⟩ := Option.map_eq_some_iff.mp ha
  cases he
  exact count_pos_of_parse hf'

def time (w : Nat) (e : Pass) : Option Nat := (e.frame.filter (fun a => a.2.seq = w)).map Prod.fst

def clock (e : Pass) : List Nat := e.now :: (e.arrival.map Prod.fst).toList

theorem time_cases (w : Nat) (e : Pass) :
    (e.time w = none ∧ ∀ t f, e.frame = some (t, f) → f.seq ≠ w) ∨
      ∃ t f, e.frame = some (t, f) ∧ f.seq = w ∧ e.time w = some t := by
  cases hf : e.frame with
  | none => exact Or.inl ⟨by simp [time, hf], fun t f h => by cases h⟩
  | some a =>
      obtain ⟨t, f⟩ := a
      by_cases hw : f.seq = w
      · exact Or.inr ⟨t, f, rfl, hw, by simp [time, hf, hw]⟩
      · refine Or.inl ⟨by simp [time, hf, hw], ?_⟩
        rintro t' f' h
        cases h
        exact hw

theorem mem_clock_of_time {w t : Nat} {e : Pass} (h : e.time w = some t) : t ∈ e.clock := by
  obtain ⟨⟨t', f⟩, ha, rfl⟩ := Option.map_eq_some_iff.mp h
  obtain ⟨hframe, _⟩ := Option.filter_eq_some_iff.mp ha
  obtain ⟨⟨t'', pkt⟩, harr, hp⟩ := Option.bind_eq_some_iff.mp hframe
  obtain ⟨f', _, he⟩ := Option.map_eq_some_iff.mp hp
  cases he
  simp [clock, harr]

end Pass

def times (w : Nat) (es : List Pass) : List Nat := es.filterMap (Pass.time w)

def Chronological (es : List Pass) : Prop := (es.flatMap Pass.clock).Pairwise (· ≤ ·)

def Spaced (ts : List Nat) : Prop := ts.IsChain (fun t t' => t' < t + 2 * second)

instance (es : List Pass) : Decidable (Chronological es) := inferInstanceAs (Decidable (List.Pairwise _ _))

instance (ts : List Nat) : Decidable (Spaced ts) := inferInstanceAs (Decidable (List.IsChain _ _))

theorem Chronological.tail {e : Pass} {es : List Pass} (h : Chronological (e :: es)) :
    Chronological es := by
  rw [Chronological, List.flatMap_cons, List.pairwise_append] at h
  exact h.2.1

theorem Chronological.now_le {e : Pass} {es : List Pass} (h : Chronological (e :: es)) {w t : Nat}
    (ht : t ∈ times w (e :: es)) : e.now ≤ t := by
  obtain ⟨e', he', htime⟩ := List.mem_filterMap.mp ht
  rw [Chronological, List.flatMap_cons, List.pairwise_append] at h
  rcases List.mem_cons.mp he' with rfl | he'
  · have hclock := Pass.mem_clock_of_time htime
    rw [Pass.clock] at hclock h
    rcases List.mem_cons.mp hclock with rfl | hclock
    · exact Nat.le_refl _
    · exact (List.pairwise_cons.mp h.1).1 t hclock
  · exact h.2.2 e.now (List.mem_cons_self ..) t
      (List.mem_flatMap.mpr ⟨e', he', Pass.mem_clock_of_time htime⟩)

namespace Downlink

variable {p : Nal} {w : Nat} {s : Downlink} {e : Pass} {es : List Pass} {f : Frame} {st : Reassembly}

theorem step_eq (h : s.crashed = false) (e : Pass) :
    s.step e = match e.frame with
      | none => s.retain e.now
      | some (t, f) => (s.retain e.now).receive f t e.attached := by
  rw [step, h, Pass.frame]
  cases harr : e.arrival with
  | none => rfl
  | some a =>
      cases hp : parse a.2 with
      | none => simp [hp]
      | some f => simp [hp]

theorem step_of_crashed (h : s.crashed = true) (e : Pass) : s.step e = s := by
  rw [step, h, if_pos rfl]

theorem run_of_crashed (h : s.crashed = true) (es : List Pass) : run step s es = s := by
  induction es with
  | nil => rfl
  | cons e es ih => rwa [run, List.foldl_cons, step_of_crashed h]

@[simp] theorem deliveredOf_retain (now : Nat) : (s.retain now).deliveredOf w = s.deliveredOf w := rfl

theorem entries_retain_eq_some {now seq : Nat} :
    (s.retain now).entries seq = some st ↔ s.entries seq = some st ∧ now - st.lastUpdate < 2 * second := by
  simp [retain, Option.filter_eq_some_iff]

theorem entries_retain_of_none {now seq : Nat} (h : s.entries seq = none) :
    (s.retain now).entries seq = none := by
  simp [retain, h]

theorem deliveredOf_receive_of_ne (hf : f.seq ≠ w) (now : Nat) (attached : Bool) :
    (s.receive f now attached).deliveredOf w = s.deliveredOf w := by
  rw [receive]
  split
  · rfl
  · next entry out _ => cases out <;> simp [deliveredOf, hf]

theorem entries_receive_of_ne (hf : f.seq ≠ w) (now : Nat) (attached : Bool) :
    (s.receive f now attached).entries w = s.entries w := by
  rw [receive]
  split
  · rfl
  · exact Function.update_of_ne (fun he => hf he.symm) ..

theorem step_other (hcrash : s.crashed = false) (hother : ∀ t f, e.frame = some (t, f) → f.seq ≠ w) :
    (s.step e).deliveredOf w = s.deliveredOf w ∧ (s.step e).entries w = (s.retain e.now).entries w := by
  rw [step_eq hcrash]
  split
  · exact ⟨rfl, rfl⟩
  · next t f hf => exact ⟨deliveredOf_receive_of_ne (hother t f hf) ..,
        entries_receive_of_ne (hother t f hf) ..⟩

theorem deliveredOf_step_other (hother : ∀ t f, e.frame = some (t, f) → f.seq ≠ w) :
    (s.step e).deliveredOf w = s.deliveredOf w := by
  cases hcrash : s.crashed with
  | true => rw [step_of_crashed hcrash]
  | false => exact (step_other hcrash hother).1

theorem deliveredOf_run_quiet (s : Downlink) (h : times w es = []) :
    (run step s es).deliveredOf w = s.deliveredOf w := by
  induction es generalizing s with
  | nil => rfl
  | cons e es ih =>
      rcases e.time_cases w with ⟨htime, hother⟩ | ⟨t, f, _, _, htime⟩
      · rw [times, List.filterMap_cons_none htime] at h
        exact (ih (s.step e) h).trans (deliveredOf_step_other hother)
      · rw [times, List.filterMap_cons_some htime] at h
        cases h

theorem receive_of_take {entry : Option Reassembly} {out : Option Bytes} {now : Nat} {attached : Bool}
    (h : ((s.entries f.seq).getD (.fresh f.count now)).take f now attached = some (entry, out)) :
    s.receive f now attached =
      ⟨Function.update s.entries f.seq entry, s.crashed,
        s.delivered ++ (out.map (fun payload => (f.seq, payload))).toList⟩ := by
  rw [receive, h]

theorem deliveredOf_append (entries : Nat → Option Reassembly) (crashed : Bool) (out : Option Bytes) :
    deliveredOf ⟨entries, crashed, s.delivered ++
      (out.map (fun payload => (w, payload))).toList⟩ w = s.deliveredOf w ++ out.toList := by
  cases out <;> simp [deliveredOf]

section Rule

variable {P : Reassembly → Prop} {Q : Bytes → Prop}

/-- A frame keeps a property of the entry it meets, and gives the device only
payloads of a kind. -/
def Keeps (P : Reassembly → Prop) (Q : Bytes → Prop) (f : Frame) (now : Nat) (attached : Bool) : Prop :=
  ∀ st, P st ∨ st = .fresh f.count now →
    ∃ st' out, st.take f now attached = some (some st', out) ∧ P st' ∧ ∀ x ∈ out, Q x

theorem receive_rule (h : ∀ st, s.entries w = some st → P st) {now : Nat} {attached : Bool}
    (hf : f.seq = w) (hkeeps : Keeps P Q f now attached) :
    (∀ st, (s.receive f now attached).entries w = some st → P st) ∧
      ∃ out : Option Bytes, (s.receive f now attached).deliveredOf w = s.deliveredOf w ++ out.toList ∧
        ∀ x ∈ out, Q x := by
  subst hf
  have hentry : P ((s.entries f.seq).getD (.fresh f.count now)) ∨
      (s.entries f.seq).getD (.fresh f.count now) = .fresh f.count now := by
    cases hst : s.entries f.seq with
    | none => exact Or.inr rfl
    | some st => exact Or.inl (h st hst)
  obtain ⟨st, out, htake, hst, hout⟩ := hkeeps _ hentry
  rw [receive_of_take htake]
  refine ⟨?_, out, deliveredOf_append .., hout⟩
  intro st' hst'
  simp only [Function.update_self, Option.some.injEq] at hst'
  exact hst' ▸ hst

theorem step_rule (h : ∀ st, s.entries w = some st → P st)
    (hkeeps : ∀ t f, e.frame = some (t, f) → f.seq = w → Keeps P Q f t e.attached) :
    (∀ st, (s.step e).entries w = some st → P st) ∧
      ∃ out : Option Bytes, (s.step e).deliveredOf w = s.deliveredOf w ++ out.toList ∧ ∀ x ∈ out, Q x := by
  cases hcrash : s.crashed with
  | true =>
      rw [step_of_crashed hcrash]
      exact ⟨h, none, (List.append_nil _).symm, fun x hx => by cases hx⟩
  | false =>
      have hretain : ∀ st, (s.retain e.now).entries w = some st → P st :=
        fun st hst => h st (entries_retain_eq_some.mp hst).1
      rcases e.time_cases w with ⟨_, hother⟩ | ⟨t, f, hf, hseq, _⟩
      · obtain ⟨hdel, hent⟩ := step_other hcrash hother
        refine ⟨?_, none, hdel.trans (List.append_nil _).symm, fun x hx => by cases hx⟩
        intro st hst
        exact hretain st (hent ▸ hst)
      · rw [step_eq hcrash, hf]
        exact receive_rule hretain hseq (hkeeps t f hf hseq)

/-- The rule for the entry of one sequence number: what its frames keep holds
after any run, and only payloads of that kind are delivered under it. -/
theorem run_rule (h : ∀ st, s.entries w = some st → P st)
    (hkeeps : ∀ e ∈ es, ∀ t f, e.frame = some (t, f) → f.seq = w → Keeps P Q f t e.attached) :
    ∃ out, (run step s es).deliveredOf w = s.deliveredOf w ++ out ∧ ∀ x ∈ out, Q x := by
  induction es generalizing s with
  | nil => exact ⟨[], (List.append_nil _).symm, fun x hx => absurd hx List.not_mem_nil⟩
  | cons e es ih =>
      obtain ⟨hstep, out, hout, hQ⟩ := step_rule h (hkeeps e (List.mem_cons_self ..))
      obtain ⟨rest, hrest, hQ'⟩ := ih hstep (fun e' he' => hkeeps e' (List.mem_cons_of_mem e he'))
      refine ⟨out.toList ++ rest, ?_, ?_⟩
      · rw [run, List.foldl_cons]
        rw [run] at hrest
        rw [hrest, hout, List.append_assoc]
      · intro x hx
        rcases List.mem_append.mp hx with hx | hx
        · exact hQ x (Option.mem_toList.mp hx)
        · exact hQ' x hx

end Rule

/-- The entry of a sequence number holds one payload, or there is none. -/
def Holds (p : Nal) (w : Nat) (s : Downlink) : Prop := ∀ st, s.entries w = some st → st.Faithful p

theorem keeps_faithful (hf : p.Carries w f) (now : Nat) (attached : Bool) :
    Keeps (Reassembly.Faithful p) (· = p.bytes) f now attached := by
  intro st hst
  have hfaith : st.Faithful p := by
    rcases hst with hst | rfl
    · exact hst
    · have hcount : f.count = p.frags := by cases hf <;> rfl
      rw [hcount]
      exact .fresh now
  cases hdone : st.done with
  | true =>
      refine ⟨_, none, Reassembly.take_of_done hdone, hfaith.stamp now _, ?_⟩
      intro x hx
      cases hx
  | false =>
      obtain ⟨st', hst', _, _, _, _, _, htake⟩ := hfaith.take_open hdone hf now
      rw [htake]
      cases hall : st'.allReceived with
      | false =>
          refine ⟨st', none, by rw [Reassembly.finish, hall, if_pos rfl], hst', ?_⟩
          intro x hx
          cases hx
      | true =>
          refine ⟨_, _, hst'.finish_of_allReceived hall attached, hst'.stamp _ true, ?_⟩
          intro x hx
          cases attached with
          | false => cases hx
          | true => exact (Option.some.inj hx).symm

theorem Holds.run (h : Holds p w s)
    (hes : ∀ e ∈ es, ∀ t f, e.frame = some (t, f) → f.seq = w → p.Carries w f) :
    ∃ out, (run Downlink.step s es).deliveredOf w = s.deliveredOf w ++ out ∧ ∀ x ∈ out, x = p.bytes :=
  run_rule h (fun e he t f hf hseq => keeps_faithful (hes e he t f hf hseq) t e.attached)

end Downlink

end TriNet.Video
