import Mathlib.Data.List.Basic

namespace TriNet.Lib.Runs

variable {σ ε : Type}

/-- A run is the left fold of a deterministic step over its events. Whatever
is nondeterministic in a system (schedules, clocks, adversaries) is an event. -/
def run (step : σ → ε → σ) (s : σ) (es : List ε) : σ := es.foldl step s

def Along (step : σ → ε → σ) (ok : σ → ε → Prop) : σ → List ε → Prop
  | _, [] => True
  | s, e :: es => ok s e ∧ Along step ok (step s e) es

instance Along.decidable (step : σ → ε → σ) (ok : σ → ε → Prop) [∀ s e, Decidable (ok s e)] :
    ∀ s es, Decidable (Along step ok s es)
  | _, [] => .isTrue trivial
  | s, e :: es =>
      have := Along.decidable step ok (step s e) es
      inferInstanceAs (Decidable (ok s e ∧ Along step ok (step s e) es))

def trace (step : σ → ε → σ) : σ → List ε → List (σ × ε)
  | _, [] => []
  | s, e :: es => (s, e) :: trace step (step s e) es

theorem along_of_forall (step : σ → ε → σ) {ok : σ → ε → Prop} (s : σ) {es : List ε}
    (h : ∀ e ∈ es, ∀ s, ok s e) : Along step ok s es := by
  induction es generalizing s with
  | nil => trivial
  | cons e es ih =>
      exact ⟨h e (List.mem_cons_self ..) s,
        ih (step s e) (fun e' he' => h e' (List.mem_cons_of_mem e he'))⟩

theorem run_append (step : σ → ε → σ) (s : σ) (es fs : List ε) :
    run step s (es ++ fs) = run step (run step s es) fs := List.foldl_append

theorem run_concat (step : σ → ε → σ) (s : σ) (es : List ε) (e : ε) :
    run step s (es ++ [e]) = step (run step s es) e := List.foldl_concat ..

theorem trace_concat (step : σ → ε → σ) (s : σ) (es : List ε) (e : ε) :
    trace step s (es ++ [e]) = trace step s es ++ [(run step s es, e)] := by
  induction es generalizing s with
  | nil => rfl
  | cons f es ih => exact congrArg (List.cons (s, f)) (ih (step s f))

theorem along_concat {step : σ → ε → σ} {ok : σ → ε → Prop} {s : σ} {es : List ε} {e : ε} :
    Along step ok s (es ++ [e]) ↔ Along step ok s es ∧ ok (run step s es) e := by
  induction es generalizing s with
  | nil => exact ⟨fun h => ⟨trivial, h.1⟩, fun h => ⟨h.2, trivial⟩⟩
  | cons f es ih =>
      constructor
      · rintro ⟨hf, hes⟩
        obtain ⟨hes, he⟩ := ih.mp hes
        exact ⟨⟨hf, hes⟩, he⟩
      · rintro ⟨⟨hf, hes⟩, he⟩
        exact ⟨hf, ih.mpr ⟨hes, he⟩⟩

/-- The induction rule for runs whose steps all meet a condition on the state
before them. -/
theorem run_along (step : σ → ε → σ) (ok : σ → ε → Prop) (Inv : σ → Prop)
    (hstep : ∀ s e, Inv s → ok s e → Inv (step s e)) (s : σ) (es : List ε)
    (hs : Inv s) (hes : Along step ok s es) : Inv (run step s es) := by
  induction es generalizing s with
  | nil => exact hs
  | cons e es ih => exact ih (step s e) (hstep s e hs hes.1) hes.2

theorem run_invariant (step : σ → ε → σ) (Inv : σ → Prop)
    (hstep : ∀ s e, Inv s → Inv (step s e)) (s : σ) (es : List ε) (hs : Inv s) :
    Inv (run step s es) := by
  induction es generalizing s with
  | nil => exact hs
  | cons e es ih => exact ih (step s e) (hstep s e hs)

/-- The rule for an exact condition: if it decides at every step whether a
property survives, it decides for a run whether the property holds throughout. -/
theorem forall_prefix_iff_along (step : σ → ε → σ) (ok : σ → ε → Prop) (Inv P : σ → Prop)
    (hInv : ∀ s e, Inv s → Inv (step s e)) (hstep : ∀ s e, Inv s → P s → (P (step s e) ↔ ok s e))
    (s : σ) (es : List ε) (hs : Inv s) (hP : P s) :
    (∀ fs, fs <+: es → P (run step s fs)) ↔ Along step ok s es := by
  induction es generalizing s with
  | nil =>
      refine iff_of_true ?_ trivial
      intro fs hfs
      rw [List.prefix_nil.mp hfs]
      exact hP
  | cons e es ih =>
      constructor
      · intro h
        have he : P (step s e) := h [e] ⟨es, rfl⟩
        refine ⟨(hstep s e hs hP).mp he, (ih (step s e) (hInv s e hs) he).mp ?_⟩
        intro fs hfs
        exact h (e :: fs) (List.cons_prefix_cons.mpr ⟨rfl, hfs⟩)
      · rintro ⟨hok, hes⟩ fs hfs
        cases fs with
        | nil => exact hP
        | cons f fs =>
            obtain ⟨rfl, htail⟩ := List.cons_prefix_cons.mp hfs
            have he := (hstep s f hs hP).mpr hok
            exact (ih (step s f) (hInv s f hs) he).mpr hes fs htail

theorem along_of_along (step : σ → ε → σ) (ok ok' : σ → ε → Prop) (Inv : σ → Prop)
    (hstep : ∀ s e, Inv s → ok s e → Inv (step s e)) (hok : ∀ s e, Inv s → ok s e → ok' s e)
    (s : σ) (es : List ε)
    (hs : Inv s) (hes : Along step ok s es) : Along step ok' s es := by
  induction es generalizing s with
  | nil => trivial
  | cons e es ih => exact ⟨hok s e hs hes.1, ih (step s e) (hstep s e hs hes.1) hes.2⟩

theorem trace_along (step : σ → ε → σ) (ok : σ → ε → Prop) (Inv : σ → Prop) (P : σ → ε → Prop)
    (hstep : ∀ s e, Inv s → ok s e → Inv (step s e)) (hP : ∀ s e, Inv s → ok s e → P s e)
    (s : σ) (es : List ε)
    (hs : Inv s) (hes : Along step ok s es) : ∀ x ∈ trace step s es, P x.1 x.2 := by
  induction es generalizing s with
  | nil => exact fun x hx => absurd hx nofun
  | cons e es ih =>
      intro x hx
      rcases List.mem_cons.mp hx with rfl | hx
      · exact hP s e hs hes.1
      · exact ih (step s e) (hstep s e hs hes.1) hes.2 x hx

/-- Refinement: if a step does what an abstract one does wherever the abstract
states before and after it are good, then so does a run whose abstract states are
all good. -/
theorem run_refines {α : Type} (step : σ → ε → σ) (astep : α → ε → α) (abs : σ → α) (good : α → Prop)
    (hstep : ∀ s e, good (abs s) → good (astep (abs s) e) → abs (step s e) = astep (abs s) e)
    (s : σ) (es : List ε)
    (hgood : ∀ past, past <+: es → good (run astep (abs s) past)) :
    abs (run step s es) = run astep (abs s) es := by
  induction es generalizing s with
  | nil => rfl
  | cons e es ih =>
      have he := hstep s e (hgood [] (List.nil_prefix ..))
        (hgood [e] (List.cons_prefix_cons.mpr ⟨rfl, List.nil_prefix ..⟩))
      have htail := ih (step s e) ?_
      · rw [he] at htail
        exact htail
      · intro past hpast
        rw [he]
        exact hgood (e :: past) (List.cons_prefix_cons.mpr ⟨rfl, hpast⟩)

/-- Two lists that differ at exactly one place, in a way `d` allows. -/
inductive Altered (d : ε → ε → Prop) : List ε → List ε → Prop
  | here {a b : ε} (h : d a b) (es : List ε) : Altered d (a :: es) (b :: es)
  | later (e : ε) {es fs : List ε} (h : Altered d es fs) : Altered d (e :: es) (e :: fs)

theorem altered_cons_iff {d : ε → ε → Prop} {a b : ε} {es fs : List ε} :
    Altered d (a :: es) (b :: fs) ↔ d a b ∧ es = fs ∨ a = b ∧ Altered d es fs := by
  constructor
  · intro h
    cases h with
    | here h _ => exact .inl ⟨h, rfl⟩
    | later _ h => exact .inr ⟨rfl, h⟩
  · rintro (⟨h, rfl⟩ | ⟨rfl, h⟩)
    · exact .here h es
    · exact .later a h

theorem not_altered_nil {d : ε → ε → Prop} (es : List ε) : ¬Altered d [] es := by
  intro h
  cases h

theorem run_injective (step : σ → ε → σ) (hinj : ∀ e, Function.Injective (step · e)) (es : List ε) :
    Function.Injective (run step · es) := by
  induction es with
  | nil => exact fun _ _ h => h
  | cons e es ih => exact fun _ _ h => hinj e (ih h)

theorem run_ne_of_altered (step : σ → ε → σ) {d : ε → ε → Prop} (hinj : ∀ e, Function.Injective (step · e))
    (hd : ∀ s a b, d a b → step s a ≠ step s b) {es fs : List ε} (h : Altered d es fs) (s : σ) :
    run step s es ≠ run step s fs := by
  induction h generalizing s with
  | here h es => exact fun heq => hd s _ _ h (run_injective step hinj es heq)
  | later e _ ih => exact ih (step s e)

end TriNet.Lib.Runs
