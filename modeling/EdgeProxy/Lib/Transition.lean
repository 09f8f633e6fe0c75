import Mathlib.Data.List.Basic

/-! # Runs of labelled transition functions

A system is a partial function from states and labels to states. `Runs` are its finite executions, `Along` states a
condition at every step of an execution, and `Always` a property of all its states. The rules carry an invariant from
single steps to whole runs.
-/
namespace EdgeProxy.Lib

variable {σ ε : Type} {step : σ → ε → Option σ}

inductive Runs (step : σ → ε → Option σ) : σ → List ε → σ → Prop
  | refl (s : σ) : Runs step s [] s
  | step {s t u : σ} {e : ε} {es : List ε} : step s e = some t → Runs step t es u → Runs step s (e :: es) u

variable {s t : σ} {es : List ε} {P I : σ → Prop} {C D : σ → ε → Prop}

lemma Runs.append {u : σ} {fs : List ε} (h : Runs step s es t) (h' : Runs step t fs u) : Runs step s (es ++ fs) u := by
  induction h with
  | refl => exact h'
  | step he _ ih => exact .step he (ih h')
def run (step : σ → ε → Option σ) : σ → List ε → Option σ
  | s, [] => some s
  | s, e :: es => (step s e).bind fun t => run step t es
lemma runs_of_run (h : run step s es = some t) : Runs step s es t := by
  induction es generalizing s with
  | nil =>
    cases h
    exact .refl _
  | cons e es ih =>
    obtain ⟨u,hu,ht⟩ := Option.bind_eq_some_iff.1 h
    exact .step hu (ih ht)
lemma run_of_runs (h : Runs step s es t) : run step s es = some t := by
  induction h with
  | refl => rfl
  | step he _ ih =>
    rw [run,he]
    exact ih

instance Runs.decidable [DecidablePred P] : Decidable (∃ t, Runs step s es t ∧ P t) :=
  decidable_of_iff (∃ t ∈ run step s es, P t) (exists_congr fun _ => and_congr_left' ⟨runs_of_run,run_of_runs⟩)
instance decidableExistsSome {o : Option σ} [DecidablePred P] : Decidable (∃ t, o = some t ∧ P t) :=
  inferInstanceAs (Decidable (∃ t ∈ o, P t))

/-- The condition `C` holds of the state and the label at every step that the labels take. -/
def Along (step : σ → ε → Option σ) (C : σ → ε → Prop) : σ → List ε → Prop
  | _, [] => True
  | s, e :: es => C s e ∧ ∀ t, step s e = some t → Along step C t es

instance Along.decidable {C : σ → ε → Prop} [∀ s e, Decidable (C s e)] :
    ∀ (s : σ) (es : List ε), Decidable (Along step C s es)
  | _, [] => isTrue trivial
  | s, e :: es =>
    match h : step s e with
    | none => decidable_of_iff (C s e) ⟨fun hc => ⟨hc,fun _ ht => nomatch h.symm.trans ht⟩,fun hc => hc.1⟩
    | some t =>
      have := Along.decidable (C := C) t es
      decidable_of_iff (C s e ∧ Along step C t es)
        ⟨fun hc => ⟨hc.1,fun _ ht' => Option.some.inj (h.symm.trans ht') ▸ hc.2⟩,fun hc => ⟨hc.1,hc.2 t h⟩⟩

/-- The property `P` holds in every state that the labels lead through, the last one included. -/
def Always (step : σ → ε → Option σ) (P : σ → Prop) : σ → List ε → Prop
  | s, [] => P s
  | s, e :: es => P s ∧ ∀ t, step s e = some t → Always step P t es

lemma Always.head (h : Always step P s es) : P s := by
  cases es with
  | nil => exact h
  | cons => exact h.1
lemma Always.last (h : Always step P s es) (hr : Runs step s es t) : P t := by
  induction hr with
  | refl => exact h
  | step he _ ih => exact ih (h.2 _ he)
lemma always_of_along (hstep : ∀ {s e t}, I s → C s e → step s e = some t → I t)
    (hp : ∀ {s}, I s → P s) (hs : I s) (hc : Along step C s es) : Always step P s es := by
  induction es generalizing s with
  | nil => exact hp hs
  | cons e es ih =>
    obtain ⟨he,hes⟩ := hc
    exact ⟨hp hs,fun t ht => ih (hstep hs he ht) (hes t ht)⟩
lemma Along.mono (h : ∀ s e, C s e → D s e) (hc : Along step C s es) : Along step D s es := by
  induction es generalizing s with
  | nil => trivial
  | cons e es ih =>
    obtain ⟨he,hes⟩ := hc
    exact ⟨h s e he,fun t ht => ih (hes t ht)⟩
lemma Along.and (hc : Along step C s es) (hd : Along step D s es) : Along step (fun s e => C s e ∧ D s e) s es := by
  induction es generalizing s with
  | nil => trivial
  | cons e es ih =>
    obtain ⟨hce,hces⟩ := hc
    obtain ⟨hde,hdes⟩ := hd
    exact ⟨⟨hce,hde⟩,fun t ht => ih (hces t ht) (hdes t ht)⟩
lemma Along.of_invariant (hstep : ∀ {s e t}, I s → C s e → step s e = some t → I t) (hd : ∀ {s e}, I s → C s e → D s e)
    (hs : I s) (hc : Along step C s es) : Along step D s es := by
  induction es generalizing s with
  | nil => trivial
  | cons e es ih =>
    obtain ⟨he,hes⟩ := hc
    exact ⟨hd hs he,fun t ht => ih (hstep hs he ht) (hes t ht)⟩
lemma along_true : Along step (fun _ _ => True) s es := by
  induction es generalizing s with
  | nil => trivial
  | cons e es ih => exact ⟨trivial,fun t _ => ih⟩
lemma along_of_mem {C : ε → Prop} (h : ∀ e ∈ es, C e) : Along step (fun _ e => C e) s es := by
  induction es generalizing s with
  | nil => trivial
  | cons e es ih =>
    obtain ⟨he,hes⟩ := List.forall_mem_cons.1 h
    exact ⟨he,fun t _ => ih hes⟩
lemma Runs.invariant (hstep : ∀ {s e t}, I s → C s e → step s e = some t → I t)
    (hr : Runs step s es t) (hc : Along step C s es) (hs : I s) : I t := by
  induction hr with
  | refl => exact hs
  | step he _ ih =>
    obtain ⟨hce,hces⟩ := hc
    exact ih (hces _ he) (hstep hs hce he)

lemma Runs.invariant_history {I : List ε → σ → Prop} {r : σ}
    (hstep : ∀ {es s e t}, Runs step r es s → I es s → C s e → step s e = some t → I (es ++ [e]) t)
    (hr : Runs step r es t) (hc : Along step C r es) (h : I [] r) : I es t := by
  suffices ∀ {s fs es}, Runs step s fs t → Runs step r es s → Along step C s fs → I es s → I (es ++ fs) t from
    this hr (.refl r) hc h
  clear hr hc
  intro s fs es hs
  induction hs generalizing es with
  | refl =>
    intro _ _ hi
    rwa [List.append_nil]
  | @step s t u e fs he _ ih =>
    intro hr hc hi
    rw [List.append_cons]
    exact ih (hr.append (.step he (.refl t))) (hc.2 t he) (hstep hr hi hc.1 he)

lemma Runs.simulates {τ : Type} {step' : τ → ε → Option τ} {R : σ → τ → Prop} {s' : σ} {t : τ}
    (hr : Runs step s es s') (hsim : ∀ s t e s', R s t → step s e = some s' → ∃ t', step' t e = some t' ∧ R s' t')
    (h : R s t) : ∃ t', Runs step' t es t' ∧ R s' t' := by
  induction hr generalizing t with
  | refl => exact ⟨t,.refl _,h⟩
  | step he _ ih =>
    obtain ⟨t₁,ht₁,h₁⟩ := hsim _ _ _ _ h he
    obtain ⟨t',ht',h'⟩ := ih h₁
    exact ⟨t',.step ht₁ ht',h'⟩
lemma Runs.reflects {Q : σ → Prop} (hback : ∀ {s e t}, step s e = some t → Q t → Q s)
    (hr : Runs step s es t) (ht : Q t) : Q s := by
  induction hr with
  | refl => exact ht
  | step he _ ih => exact hback he (ih ht)

lemma Runs.iff_along {Q : σ → Prop} (hback : ∀ {s e t}, step s e = some t → Q t → Q s)
    (hstep : ∀ {s e t}, I s → Q t → step s e = some t → I t ∧ (P t ↔ P s ∧ C s e))
    (hr : Runs step s es t) (hs : I s) (hq : Q t) : P t ↔ P s ∧ Along step C s es := by
  induction hr with
  | refl => exact ⟨fun h => ⟨h,trivial⟩,fun h => h.1⟩
  | @step s t u e es he hes ih =>
    obtain ⟨ht,hp⟩ := hstep hs (hes.reflects hback hq) he
    have htail : Along step C t es ↔ ∀ t', step s e = some t' → Along step C t' es := by
      constructor
      · intro h t' ht'
        cases he.symm.trans ht'
        exact h
      · intro h
        exact h t he
    rw [ih ht hq,hp,and_assoc,htail]
    exact .rfl

lemma Runs.always_iff (hstep : ∀ {s e t}, I s → P s → step s e = some t → I t ∧ (P t ↔ C s e))
    (hr : Runs step s es t) (hs : I s) (hp : P s) : Always step P s es ↔ Along step C s es := by
  induction hr with
  | refl => exact ⟨fun _ => trivial,fun _ => hp⟩
  | @step s t u e es he _ ih =>
    obtain ⟨ht,hiff⟩ := hstep hs hp he
    constructor
    · intro always
      have hpt : P t := (always.2 t he).head
      refine ⟨hiff.1 hpt,fun t' ht' => ?_⟩
      cases he.symm.trans ht'
      exact (ih ht hpt).1 (always.2 t he)
    · intro along
      have hpt : P t := hiff.2 along.1
      refine ⟨hp,fun t' ht' => ?_⟩
      cases he.symm.trans ht'
      exact (ih ht hpt).2 (along.2 t he)

end EdgeProxy.Lib
