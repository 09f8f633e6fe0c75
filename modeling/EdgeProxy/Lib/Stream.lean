import Mathlib.Data.List.Basic

/-! # Fallible stream programs

`Ok m s a t` is one successful run of a `StateT` program that may stop with an error. `Emits` states the exact output
of a writer over a bounded sink, `Consumes` the exact input of a reader with auxiliary state. A `ProgramRelation` is a
relation between the programs of two monads that sequencing keeps.
-/
namespace EdgeProxy.Lib
open Option

variable {σ ε α β γ τ : Type}

def Ok (m : StateT σ (Except ε) α) (s : σ) (a : α) (t : σ) : Prop :=
  m.run s = .ok (a,t)
@[simp] lemma ok_pure {s t : σ} {a b : α} : Ok (pure a : StateT σ (Except ε) α) s b t ↔ b = a ∧ t = s := by
  constructor
  · intro h
    cases h
    exact ⟨rfl,rfl⟩
  · rintro ⟨rfl,rfl⟩
    rfl
@[simp] lemma ok_throw {s t : σ} {e : ε} {a : α} : ¬Ok (throw e : StateT σ (Except ε) α) s a t := by
  intro h
  cases h
@[simp] lemma ok_bind {m : StateT σ (Except ε) α} {f : α → StateT σ (Except ε) β} {s u : σ} {b : β} :
    Ok (m >>= f) s b u ↔ ∃ a t, Ok m s a t ∧ Ok (f a) t b u := by
  simp only [Ok,StateT.run_bind]
  cases m.run s with
  | error => simp [bind,Except.bind]
  | ok p =>
    constructor
    · intro hr
      exact ⟨p.1,p.2,rfl,hr⟩
    · rintro ⟨a,t,hp,hr⟩
      cases hp
      exact hr
lemma ok_get {s t u : σ} : Ok (get : StateT σ (Except ε) σ) s u t ↔ u = s ∧ t = s := by
  constructor
  · intro h
    cases h
    exact ⟨rfl,rfl⟩
  · rintro ⟨rfl,rfl⟩
    rfl
lemma ok_modify {f : σ → σ} {s t : σ} {a : PUnit} : Ok (modify f : StateT σ (Except ε) PUnit) s a t ↔ t = f s := by
  constructor
  · intro h
    cases h
    rfl
  · rintro rfl
    rfl
lemma ok_set {s t u : σ} {a : PUnit} : Ok (set u : StateT σ (Except ε) PUnit) s a t ↔ t = u := by
  constructor
  · intro h
    cases h
    rfl
  · rintro rfl
    rfl
lemma Ok.det {m : StateT σ (Except ε) α} {s t u : σ} {a b : α} (h : Ok m s a t) (g : Ok m s b u) : a = b ∧ t = u := by
  have hp : (Except.ok (a,t)) = .ok (b,u) := h.symm.trans g
  cases hp
  exact ⟨rfl,rfl⟩
def checkRun (x : StateT σ (Except ε) α) (s : σ) (p : α → σ → Bool) : Bool :=
  match x.run s with
  | .ok r => p r.1 r.2
  | .error _ => false
lemma ok_of_checkRun {x : StateT σ (Except ε) α} {s : σ} {p : α → σ → Bool} (h : checkRun x s p) :
    ∃ a t, Ok x s a t ∧ p a t := by
  unfold checkRun at h
  cases hrun : x.run s with
  | error =>
    rw [hrun] at h
    cases h
  | ok r =>
    rw [hrun] at h
    exact ⟨r.1,r.2,hrun,h⟩

/-- With `some g`, the program started in `s` ends in a result and a state that are related to `g`; with `none`, it has
no successful run. -/
def Outcome (x : StateT σ (Except ε) α) (s : σ) (d : Option γ) (R : γ → α → σ → Prop) : Prop :=
  match d with
  | some g => ∃ a t, Ok x s a t ∧ R g a t
  | none => ∀ a t, ¬Ok x s a t

variable {x : StateT σ (Except ε) α} {f : α → StateT σ (Except ε) β} {s t : σ} {d : Option γ}
  {R : γ → α → σ → Prop}

lemma Ok.outcome {a : α} {g : γ} (h : Ok x s a t) (hr : R g a t) : Outcome x s (some g) R :=
  ⟨a,t,h,hr⟩
lemma outcome_throw (e : ε) : Outcome (throw e : StateT σ (Except ε) α) s none R :=
  fun _ _ => ok_throw

lemma Outcome.imp {R' : γ → α → σ → Prop} (h : Outcome x s d R) (hr : ∀ g a t, R g a t → R' g a t) :
    Outcome x s d R' := by
  cases d with
  | none => exact h
  | some g =>
    obtain ⟨a,t,hok,hg⟩ := h
    exact ⟨a,t,hok,hr g a t hg⟩

lemma Outcome.bind {e : γ → Option τ} {R' : τ → β → σ → Prop} (h : Outcome x s d R)
    (h' : ∀ g a t, g ∈ d → R g a t → Outcome (f a) t (e g) R') : Outcome (x >>= f) s (d.bind e) R' := by
  cases d with
  | none =>
    intro b u hok
    obtain ⟨a,t,hx,-⟩ := ok_bind.1 hok
    exact h a t hx
  | some g =>
    obtain ⟨a,t,hx,hg⟩ := h
    have hrest := h' g a t rfl hg
    rw [bind_some]
    cases he : e g with
    | none =>
      rw [he] at hrest
      intro b u hok
      obtain ⟨a',t',hx',hf⟩ := ok_bind.1 hok
      obtain ⟨rfl,rfl⟩ := hx'.det hx
      exact hrest b u hf
    | some =>
      rw [he] at hrest
      obtain ⟨b,u,hf,hv⟩ := hrest
      exact ⟨b,u,ok_bind.2 ⟨a,t,hx,hf⟩,hv⟩

lemma Ok.then {a : α} {e : Option τ} {R' : τ → β → σ → Prop} (h : Ok x s a t) (h' : Outcome (f a) t e R') :
    Outcome (x >>= f) s e R' := by
  refine .bind (d := some ()) (e := fun _ => e) (h.outcome (R := fun _ b u => b = a ∧ u = t) ⟨rfl,rfl⟩) ?_
  rintro _ _ _ - ⟨rfl,rfl⟩
  exact h'

/-- A relation between programs of two monads with errors that holds between sequences of related programs. -/
structure ProgramRelation (ε : Type) (m m' : Type → Type) [Monad m] [MonadExceptOf ε m] [Monad m']
    [MonadExceptOf ε m'] where
  holds : {α : Type} → m α → m' α → Prop
  pure : ∀ {α : Type} (a : α), holds (pure a : m α) (pure a)
  throw : ∀ {α : Type} (e : ε), holds (throw e : m α) (throw e)
  bind : ∀ {α β : Type} {x : m α} {y : m' α} {f : α → m β} {g : α → m' β}, holds x y →
    (∀ a, holds (f a) (g a)) → holds (x >>= f) (y >>= g)

structure Sink (β : Type) where
  out : List β
  limit : ℕ

def Sink.Wrote (s : Sink β) (b : List β) (t : Sink β) : Prop :=
  t.out = s.out ++ b ∧ t.limit = s.limit ∧ t.out.length ≤ t.limit
lemma Sink.wrote_append {s u : Sink β} {b c : List β} : s.Wrote (b ++ c) u ↔ ∃ t, s.Wrote b t ∧ t.Wrote c u := by
  constructor
  · rintro ⟨hout,hlim,hfit⟩
    refine ⟨⟨s.out ++ b,s.limit⟩,⟨rfl,rfl,?_⟩,⟨by simpa using hout,hlim,hfit⟩⟩
    simp only [hout,List.length_append] at hfit ⊢
    omega
  · rintro ⟨t,⟨hb,hl,_⟩,hc,hl',hfit⟩
    exact ⟨by rw [hc,hb,List.append_assoc],hl'.trans hl,hfit⟩
def put (e : ε) (b : List β) : StateT (Sink β) (Except ε) Unit := do
  let s ← get
  if s.out.length + b.length ≤ s.limit then
    set { s with out := s.out ++ b }
  else
    throw e

/-- The successful runs of `m` are those that write exactly the elements `w`; `none` means that
no run succeeds. -/
def Emits (m : StateT (Sink β) (Except ε) Unit) (w : Option (List β)) : Prop :=
  ∀ s t, s.out.length ≤ s.limit → (Ok m s () t ↔ ∃ b, w = some b ∧ s.Wrote b t)

lemma Emits.of_eq {m : StateT (Sink β) (Except ε) Unit} {w w' : Option (List β)} (h : Emits m w)
    (e : w = w') : Emits m w' :=
  e ▸ h
lemma emits_pure : Emits (pure () : StateT (Sink β) (Except ε) Unit) (some []) := by
  intro s t hs
  rcases s with ⟨out,limit⟩
  rcases t with ⟨out',limit'⟩
  simp only [ok_pure,true_and,some.injEq,exists_eq_left',Sink.Wrote,List.append_nil,Sink.mk.injEq]
  constructor
  · rintro ⟨rfl,rfl⟩
    exact ⟨rfl,rfl,hs⟩
  · rintro ⟨rfl,rfl,_⟩
    exact ⟨rfl,rfl⟩
lemma emits_throw (e : ε) : Emits (throw e : StateT (Sink β) (Except ε) Unit) none := by
  intro s t _
  simp

lemma emits_put (e : ε) (b : List β) : Emits (put e b) (some b) := by
  intro s t _
  simp only [some.injEq,exists_eq_left']
  by_cases h : s.out.length + b.length ≤ s.limit
  · have hrun : (put e b).run s = .ok ((),{ s with out := s.out ++ b }) := by simp [put,h]; rfl
    simp only [Ok,hrun,Except.ok.injEq,Prod.mk.injEq,true_and,Sink.Wrote]
    constructor
    · rintro rfl
      exact ⟨rfl,rfl,by simpa using h⟩
    · cases t
      simp_all
  · have hrun : (put e b).run s = .error e := by simp [put,h]; rfl
    simp only [Ok,hrun,reduceCtorEq,false_iff]
    rintro ⟨ho,hl,hf⟩
    rw [ho,hl,List.length_append] at hf
    exact h hf

lemma Emits.seq {m m' : StateT (Sink β) (Except ε) Unit} {w w' : Option (List β)} (h : Emits m w) (h' : Emits m' w') :
    Emits (m >>= fun _ => m') (w.bind fun b => w'.map (b ++ ·)) := by
  intro s u hs
  simp only [ok_bind,bind_eq_some_iff,map_eq_some_iff]
  constructor
  · rintro ⟨_,t,hm,hm'⟩
    obtain ⟨b,rfl,hw⟩ := (h s t hs).1 hm
    obtain ⟨c,rfl,hw'⟩ := (h' t u hw.2.2).1 hm'
    exact ⟨b ++ c,⟨b,rfl,c,rfl,rfl⟩,Sink.wrote_append.2 ⟨t,hw,hw'⟩⟩
  · rintro ⟨_,⟨b,rfl,c,rfl,rfl⟩,hw⟩
    obtain ⟨t,hb,hc⟩ := Sink.wrote_append.1 hw
    exact ⟨(),t,(h s t hs).2 ⟨b,rfl,hb⟩,(h' t u hb.2.2).2 ⟨c,rfl,hc⟩⟩

structure Source (β τ : Type) where
  input : List β
  user : τ

/-- On every input that starts with `b` the reader, in its state `s`, takes exactly `b`, returns `a`
and moves to the state `s'`. -/
def Consumes (m : StateT (Source β τ) (Except ε) α) (b : List β) (s : τ) (a : α) (s' : τ) : Prop :=
  ∀ rest, Ok m ⟨b ++ rest,s⟩ a ⟨rest,s'⟩

lemma consumes_pure (a : α) (s : τ) : Consumes (pure a : StateT (Source β τ) (Except ε) α) [] s a s := by
  intro rest
  simp

variable {m : StateT (Source β τ) (Except ε) α} {a : α} {r : γ}

lemma Consumes.bind {f : α → StateT (Source β τ) (Except ε) γ} {b c : List β} {s t u : τ} (h : Consumes m b s a t)
    (h' : Consumes (f a) c t r u) : Consumes (m >>= f) (b ++ c) s r u := by
  intro rest
  rw [ok_bind]
  refine ⟨a,⟨c ++ rest,t⟩,?_,h' rest⟩
  simpa using h (c ++ rest)
lemma Consumes.bind_nil {f : α → StateT (Source β τ) (Except ε) γ} {c : List β} {s t u : τ} (h : Consumes m [] s a t)
    (h' : Consumes (f a) c t r u) : Consumes (m >>= f) c s r u := by
  exact h.bind h'
lemma Consumes.ok_bind {f : α → StateT (Source β τ) (Except ε) γ} {b rest : List β} {s s' : τ} {t : Source β τ}
    (h : Consumes m b s a s') : Ok (m >>= f) ⟨b ++ rest,s⟩ r t ↔ Ok (f a) ⟨rest,s'⟩ r t := by
  rw [Lib.ok_bind]
  constructor
  · rintro ⟨_,_,hm,hf⟩
    obtain ⟨rfl,rfl⟩ := hm.det (h rest)
    exact hf
  · exact fun hf => ⟨a,_,h rest,hf⟩

end EdgeProxy.Lib
