import EdgeProxy.Lib.Transition
import EdgeProxy.Queue.IoQueue

/-! # A queue as three lists

What a queue is for: three lists of buffers, and the buffers that are in none of them.
-/
namespace EdgeProxy.Queue
open Buffer Lib List

structure Tristate where
  list : QueueState → List Address
  loose : List Address
  callbacks : Callbacks

namespace Tristate

variable (s : Tristate)

def live : List Address :=
  s.list .ready ++ s.list .inprogress ++ s.list .done ++ s.loose
def remove (b : Address) : Tristate :=
  { s with list := fun state => (s.list state).erase b, loose := s.loose.erase b }
def setList (state : QueueState) (bs : List Address) : Tristate :=
  { s with list := Function.update s.list state bs }
def push (state : QueueState) (b : Address) : Tristate :=
  s.setList state (s.list state ++ [b])
def pop (state : QueueState) (b : Address) (rest : List Address) : Tristate :=
  { s.setList state rest with loose := s.loose ++ [b] }
def rollback : Tristate :=
  (s.setList .ready (s.list .inprogress ++ s.list .ready)).setList .inprogress []

def step : QueueCall × QueueResult → Option Tristate
  | (.create _ _ _,.buffer none) => some s
  | (.create _ _ _,.buffer (some b)) =>
    if b ∈ s.live then none
    else some { s with loose := s.loose ++ [b], callbacks.cb := Function.update s.callbacks.cb b none }
  | (.attach b cb,.unit) =>
    if b ∈ s.live then some { s with callbacks.cb := Function.update s.callbacks.cb b (some cb) } else none
  | (.set state b,.unit) => some (if b ∈ s.live then (s.remove b).push state b else s)
  | (.has state,.present present) => if present = !(s.list state).isEmpty then some s else none
  | (.pop state,.buffer out) =>
    match s.list state, out with
    | [], none => some s
    | b :: rest, some b' =>
      if b' = b then some (s.pop state b rest) else none
    | _, _ => none
  | (.rollback,.unit) => some s.rollback
  | (.abort,.unit) =>
    let queued := s.list .done ++ s.list .inprogress ++ s.list .ready
    some { s with callbacks := queued.foldl Callbacks.abort s.callbacks }
  | (.release b,.unit) =>
    some (if b ∈ s.live then { s.remove b with callbacks := s.callbacks.abort b } else s)
  | _ => none

def outstanding (bs : List Address) : QueueCall × QueueResult → List Address
  | (.create _ _ _,.buffer (some b)) => bs ++ [b]
  | (.release b,_) => bs.erase b
  | _ => bs

variable {s t : Tristate} {b : Address} {state : QueueState}

lemma mem_live : b ∈ s.live ↔ (∃ state, b ∈ s.list state) ∨ b ∈ s.loose := by
  simp only [live,mem_append]
  constructor
  · rintro (((h | h) | h) | h)
    iterate 3 exact .inl ⟨_,h⟩
    exact .inr h
  · rintro (⟨state,h⟩ | h)
    · cases state with
      | ready => exact .inl (.inl (.inl h))
      | inprogress => exact .inl (.inl (.inr h))
      | done => exact .inl (.inr h)
    · exact .inr h
lemma count_setList (s : Tristate) (state : QueueState) (bs : List Address) (x : Address) :
    (s.setList state bs).live.count x + (s.list state).count x = s.live.count x + bs.count x := by
  cases state <;> simp only [live,setList,count_append,Function.update_apply,reduceCtorEq,↓reduceIte] <;> omega
lemma remove_live (nodup : s.live.Nodup) (b : Address) : (s.remove b).live.Perm (s.live.erase b) := by
  rw [perm_iff_count]
  intro x
  have hcount := nodup_iff_count_le_one.1 nodup x
  simp only [live,remove,count_append,count_erase] at hcount ⊢
  split <;> omega
lemma push_live (s : Tristate) (state : QueueState) (b : Address) : (s.push state b).live.Perm (s.live ++ [b]) := by
  rw [perm_iff_count]
  intro x
  have hcount := count_setList s state (s.list state ++ [b]) x
  rw [count_append] at hcount ⊢
  rw [push]
  omega
lemma pop_live {rest} (hlist : s.list state = b :: rest) : (s.pop state b rest).live.Perm s.live := by
  rw [perm_iff_count]
  intro x
  have hcount := count_setList s state rest x
  have hcons : ([b] ++ rest).count x = [b].count x + rest.count x := count_append
  have hloose : (s.pop state b rest).live.count x = (s.setList state rest).live.count x + [b].count x := by
    simp [live,pop,setList,count_append,Nat.add_assoc]
  rw [hlist,← singleton_append] at hcount
  omega
lemma rollback_live (s : Tristate) : s.rollback.live.Perm s.live := by
  rw [perm_iff_count]
  intro x
  have hready := count_setList s .ready (s.list .inprogress ++ s.list .ready) x
  have hinprogress := count_setList (s.setList .ready (s.list .inprogress ++ s.list .ready)) .inprogress [] x
  have hsame : (s.setList .ready (s.list .inprogress ++ s.list .ready)).list .inprogress = s.list .inprogress := rfl
  rw [count_append] at hready
  rw [hsame,count_nil] at hinprogress
  rw [rollback]
  omega
lemma outstanding_perm {bs bs'} (hperm : bs.Perm bs') (label : QueueCall × QueueResult) :
    (outstanding bs label).Perm (outstanding bs' label) := by
  unfold outstanding
  split
  · exact hperm.append_right _
  · exact hperm.erase _
  · exact hperm

lemma step_live {label} (nodup : s.live.Nodup) (h : s.step label = some t) :
    t.live.Nodup ∧ t.live.Perm (outstanding s.live label) := by
  have same {t : Tristate} (hperm : t.live.Perm s.live) : t.live.Nodup ∧ t.live.Perm s.live :=
    ⟨hperm.nodup_iff.2 nodup,hperm⟩
  unfold step at h
  split at h
  case h_1 | h_8 =>
    cases h
    exact same .rfl
  case h_2 b =>
    obtain ⟨new,⟨⟩⟩ := Option.ite_none_left_eq_some.1 h
    have hlive : Tristate.live { s with
        loose := s.loose ++ [b]
        callbacks.cb := Function.update s.callbacks.cb b none } = s.live ++ [b] :=
      (append_assoc _ _ _).symm
    rw [hlive]
    refine ⟨nodup.append (nodup_singleton b) fun x hx hx' => new ?_,.rfl⟩
    exact mem_singleton.1 hx' ▸ hx
  case h_3 | h_5 =>
    obtain ⟨_,⟨⟩⟩ := Option.ite_none_right_eq_some.1 h
    exact same .rfl
  case h_4 state b =>
    cases h
    split
    · next hmem =>
      exact same ((push_live _ _ _).trans (((remove_live nodup b).append_right [b]).trans
        (perm_append_comm.trans (perm_cons_erase hmem).symm)))
    · exact same .rfl
  case h_6 =>
    split at h
    · cases h
      exact same .rfl
    · next hlist =>
      obtain ⟨_,⟨⟩⟩ := Option.ite_none_right_eq_some.1 h
      exact same (pop_live hlist)
    · cases h
  case h_7 =>
    cases h
    exact same (rollback_live s)
  case h_9 b =>
    cases h
    split
    · have hperm := remove_live nodup b
      exact ⟨hperm.nodup_iff.2 (nodup.erase b),hperm⟩
    · next hmem => exact ⟨nodup,.of_eq (erase_of_not_mem hmem).symm⟩
  case h_10 => cases h

lemma runs_live {labels} (runs : Runs step s labels t) (nodup : s.live.Nodup) {bs} (hperm : s.live.Perm bs) :
    t.live.Nodup ∧ t.live.Perm (labels.foldl outstanding bs) := by
  induction runs generalizing bs with
  | refl => exact ⟨nodup,hperm⟩
  | @step s t u label labels hstep _ ih =>
    obtain ⟨hnodup,hlive⟩ := step_live nodup hstep
    exact ih hnodup (hlive.trans (outstanding_perm hperm label))

end Tristate

end EdgeProxy.Queue
