import Mathlib.Data.Nat.Notation
import Mathlib.Logic.Function.Basic

/-! # Counted owners and what they own

An owner is live while its count is positive, and refers to at most one thing. If owner and owned are always counted
together, a thing is in use exactly while a live owner refers to it.
-/
namespace EdgeProxy.Lib
open Function

variable {α β : Type} {owner : α → ℕ} {owned : β → ℕ} {payload : α → Option β} {a : α} {b b' : β}

/-- The counts of live owners and of what they own agree, every thing in use has a live owner, and only one. -/
structure Shares (owner : α → ℕ) (owned : β → ℕ) (payload : α → Option β) : Prop where
  owned_eq : ∀ {a b}, 1 ≤ owner a → payload a = some b → owned b = owner a
  owner_of : ∀ {b}, 1 ≤ owned b → ∃ a, 1 ≤ owner a ∧ payload a = some b
  unique : ∀ {a a' b}, 1 ≤ owner a → 1 ≤ owner a' → payload a = some b → payload a' = some b → a = a'

namespace Shares

lemma owned_iff (h : Shares owner owned payload) : 1 ≤ owned b ↔ ∃ a, 1 ≤ owner a ∧ payload a = some b := by
  refine ⟨h.owner_of,fun ⟨a,live,refers⟩ => ?_⟩
  rw [h.owned_eq live refers]
  exact live

/-- One owner changes: it owns alone what it refers to then, and what it gives up is not in use any more. -/
lemma change {owner' : α → ℕ} {owned' : β → ℕ} {payload' : α → Option β} [DecidableEq β]
    (h : Shares owner owned payload) (others : ∀ x ≠ a, owner' x = owner x ∧ payload' x = payload x)
    (takes : ∀ {y}, 1 ≤ owner' a → payload' a = some y →
      owned' y = owner' a ∧ ∀ x ≠ a, 1 ≤ owner x → payload x ≠ some y)
    (leaves : ∀ {y}, ¬(1 ≤ owner' a ∧ payload' a = some y) →
      owned' y = if 1 ≤ owner a ∧ payload a = some y then 0 else owned y) :
    Shares owner' owned' payload' := by
  refine ⟨fun {x y} live refers => ?_,fun {y} used => ?_,fun {x x' y} live live' refers refers' => ?_⟩
  · by_cases hx : x = a
    · subst hx
      exact (takes live refers).1
    · rw [(others x hx).1] at live ⊢
      rw [(others x hx).2] at refers
      rw [leaves fun mine => (takes mine.1 mine.2).2 x hx live refers,
        if_neg fun mine => hx (h.unique live mine.1 refers mine.2)]
      exact h.owned_eq live refers
  · by_cases mine : 1 ≤ owner' a ∧ payload' a = some y
    · exact ⟨a,mine⟩
    · rw [leaves mine] at used
      split at used
      · cases used
      · next given =>
        obtain ⟨x,live,refers⟩ := h.owner_of used
        have hx : x ≠ a := by
          rintro rfl
          exact given ⟨live,refers⟩
        rw [← (others x hx).1] at live
        rw [← (others x hx).2] at refers
        exact ⟨x,live,refers⟩
  · by_cases hx : x = a <;> by_cases hx' : x' = a <;> grind [h.unique]

variable [DecidableEq α] [DecidableEq β]

lemma count_bare (h : Shares owner owned payload) (bare : payload a = none) (n : ℕ) :
    Shares (update owner a n) owned payload :=
  h.change (fun x hx => ⟨update_of_ne hx ..,rfl⟩) (fun _ refers => by simp [bare] at refers) fun _ => by simp [bare]
lemma refer_dead (h : Shares owner owned payload) (dead : owner a = 0) (thing : Option β) :
    Shares owner owned (update payload a thing) :=
  h.change (fun x hx => ⟨rfl,update_of_ne hx ..⟩) (fun live => by omega) fun _ => by simp [dead]

lemma count_both (h : Shares owner owned payload) (live : 1 ≤ owner a) (refers : payload a = some b) (n : ℕ) :
    Shares (update owner a n) (update owned b n) payload := by
  refine h.change (fun x hx => ⟨update_of_ne hx ..,rfl⟩) (fun {y} _ refers' => ?_) fun {y} given => ?_
  · cases refers.symm.trans refers'
    exact ⟨by simp,fun x hx hlive hrefers => hx (h.unique hlive live hrefers refers)⟩
  · grind [update_apply]

lemma attach (h : Shares owner owned payload) (live : 1 ≤ owner a) (bare : payload a = none) (unused : owned b = 0) :
    Shares owner (update owned b (owner a)) (update payload a (some b)) := by
  refine h.change (fun x hx => ⟨rfl,update_of_ne hx ..⟩) (fun {y} _ refers => ?_) fun {y} given => ?_
  · rw [update_self] at refers
    cases refers
    refine ⟨update_self ..,fun x _ hlive hrefers => ?_⟩
    have := h.owned_eq hlive hrefers
    omega
  · grind [update_apply]

lemma detach (h : Shares owner owned payload) (live : 1 ≤ owner a) (refers : payload a = some b) :
    Shares owner (update owned b 0) (update payload a none) := by
  refine h.change (fun x hx => ⟨rfl,update_of_ne hx ..⟩) (fun _ refers => ?_) fun {y} _ => ?_
  · rw [update_self] at refers
    cases refers
  · grind [update_apply]

lemma replace (h : Shares owner owned payload) (live : 1 ≤ owner a) (refers : payload a = some b)
    (unused : b' = b ∨ owned b' = 0) :
    Shares owner (update (update owned b 0) b' (owned b)) (update payload a (some b')) := by
  have hunused : update owned b 0 b' = 0 := by
    rw [update_apply]
    split
    · rfl
    · next hne => exact unused.resolve_left hne
  have hattach := (h.detach live refers).attach live (update_self _ _ _) hunused
  rw [update_idem,← h.owned_eq live refers] at hattach
  exact hattach

end Shares

end EdgeProxy.Lib
