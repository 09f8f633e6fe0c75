import Mathlib.Logic.Function.Basic

/-! # Dependence on a previous state

A view reads a value, where there is one, out of a state in some environment. `DependsUnless` is the exact condition
for the value not to depend on the state; the rules assemble it from those of the parts of a view.
-/
namespace EdgeProxy.Lib

variable {ρ σ σ' τ τ' : Type}

structure DependsUnless (e : ρ) (view : ρ → σ → Option τ) (settled : Prop) : Prop where
  same : settled → ∀ r s₁ s₂, view r s₁ = view r s₂
  defined : ∃ s v, view e s = some v
  differ : ¬settled → ∃ s₁ s₂ v₁ v₂, view e s₁ = some v₁ ∧ view e s₂ = some v₂ ∧ v₁ ≠ v₂

namespace DependsUnless

variable {e : ρ} {view : ρ → σ → Option τ} {settled : Prop}

open Option

lemma iff (h : DependsUnless e view settled) : (∀ r s₁ s₂, view r s₁ = view r s₂) ↔ settled := by
  refine ⟨fun hsame => ?_,h.same⟩
  by_contra hsettled
  obtain ⟨s₁,s₂,v₁,v₂,h₁,h₂,hne⟩ := h.differ hsettled
  apply hne
  have heq := hsame e s₁ s₂
  rw [h₁,h₂] at heq
  exact some.inj heq
lemma of_eq {view' : ρ → σ → Option τ} (h : DependsUnless e view settled) (heq : ∀ r s, view' r s = view r s) :
    DependsUnless e view' settled := by
  have hview : view' = view := by
    funext r s
    exact heq r s
  rw [hview]
  exact h
lemma congr {settled' : Prop} (h : DependsUnless e view settled) (hiff : settled' ↔ settled) :
    DependsUnless e view settled' := by
  rw [propext hiff]
  exact h
lemma const [Inhabited σ] (value : ρ → Option τ) {v : τ} (hv : value e = some v) :
    DependsUnless e (fun r (_ : σ) => value r) True where
  same _ _ _ _ := rfl
  defined := ⟨default,v,hv⟩
  differ h := absurd trivial h
lemma of_ne (s₁ s₂ : σ) {v₁ v₂ : τ} (h₁ : view e s₁ = some v₁) (h₂ : view e s₂ = some v₂) (hne : v₁ ≠ v₂) :
    DependsUnless e view False where
  same h := h.elim
  defined := ⟨s₁,v₁,h₁⟩
  differ _ := ⟨s₁,s₂,v₁,v₂,h₁,h₂,hne⟩
lemma map (h : DependsUnless e view settled) (f : τ → τ') (hf : Function.Injective f) :
    DependsUnless e (fun r s => (view r s).map f) settled where
  same hsettled r s₁ s₂ := by rw [h.same hsettled r s₁ s₂]
  defined := by
    obtain ⟨s,v,hv⟩ := h.defined
    exact ⟨s,f v,by rw [hv,map_some]⟩
  differ hsettled := by
    obtain ⟨s₁,s₂,v₁,v₂,h₁,h₂,hne⟩ := h.differ hsettled
    exact ⟨s₁,s₂,f v₁,f v₂,by rw [h₁,map_some],by rw [h₂,map_some],hf.ne hne⟩
lemma part (h : DependsUnless e view settled) {g : σ' → σ} (hg : Function.Surjective g) :
    DependsUnless e (fun r s => view r (g s)) settled where
  same hsettled r s₁ s₂ := h.same hsettled r (g s₁) (g s₂)
  defined := by
    obtain ⟨s,v,hv⟩ := h.defined
    obtain ⟨s',rfl⟩ := hg s
    exact ⟨s',v,hv⟩
  differ hsettled := by
    obtain ⟨s₁,s₂,v₁,v₂,h₁,h₂,hne⟩ := h.differ hsettled
    obtain ⟨s₁',rfl⟩ := hg s₁
    obtain ⟨s₂',rfl⟩ := hg s₂
    exact ⟨s₁',s₂',v₁,v₂,h₁,h₂,hne⟩

lemma pair {view' : ρ → σ' → Option τ'} {settled' : Prop} (h : DependsUnless e view settled)
    (h' : DependsUnless e view' settled') :
    DependsUnless e (fun r (s : σ × σ') => (view r s.1).bind fun v => (view' r s.2).bind fun v' => some (v,v'))
      (settled ∧ settled') where
  same hsettled r s₁ s₂ := by rw [h.same hsettled.1 r s₁.1 s₂.1,h'.same hsettled.2 r s₁.2 s₂.2]
  defined := by
    obtain ⟨s,v,hv⟩ := h.defined
    obtain ⟨s',v',hv'⟩ := h'.defined
    exact ⟨(s,s'),(v,v'),by simp only [hv,hv',bind_some]⟩
  differ hsettled := by
    by_cases hfst : settled
    · obtain ⟨s,v,hv⟩ := h.defined
      obtain ⟨s₁,s₂,v₁,v₂,h₁,h₂,hne⟩ := h'.differ fun hsnd => hsettled ⟨hfst,hsnd⟩
      refine ⟨(s,s₁),(s,s₂),(v,v₁),(v,v₂),?_,?_,fun heq => hne (congrArg Prod.snd heq)⟩
      · simp [hv,h₁]
      · simp [hv,h₂]
    · obtain ⟨s,v,hv⟩ := h'.defined
      obtain ⟨s₁,s₂,v₁,v₂,h₁,h₂,hne⟩ := h.differ hfst
      refine ⟨(s₁,s),(s₂,s),(v₁,v),(v₂,v),?_,?_,fun heq => hne (congrArg Prod.fst heq)⟩
      · simp [hv,h₁]
      · simp [hv,h₂]

end DependsUnless

end EdgeProxy.Lib
