import Mathlib.Data.List.Basic

/-! # First-in first-out channels with a consumer that may give back

A consumer takes the first element of a queue, and either finishes it or gives it back to the front. In a channel that
is `Conserved` nothing is lost, nothing is duplicated and nothing overtakes.
-/
namespace EdgeProxy.Lib

variable {α : Type}

structure Channel (α : Type) where
  entered : List α
  finished : List α
  hand : Option α
  queue : List α

namespace Channel

def Conserved (c : Channel α) : Prop :=
  c.entered = c.finished ++ c.hand.toList ++ c.queue

inductive Step (c d : Channel α) : Prop
  | skip (same : d = c)
  | put (a : α) (entered : d.entered = c.entered ++ [a]) (finished : d.finished = c.finished)
      (hand : d.hand = c.hand) (queue : d.queue = c.queue ++ [a])
  | take (a : α) (entered : d.entered = c.entered) (finished : d.finished = c.finished)
      (free : c.hand = none) (hand : d.hand = some a) (queue : c.queue = a :: d.queue)
  | giveBack (a : α) (entered : d.entered = c.entered) (finished : d.finished = c.finished)
      (held : c.hand = some a) (hand : d.hand = none) (queue : d.queue = a :: c.queue)
  | finish (a : α) (entered : d.entered = c.entered) (finished : d.finished = c.finished ++ [a])
      (held : c.hand = some a) (hand : d.hand = none) (queue : d.queue = c.queue)

lemma Step.conserved_iff {c d : Channel α} (h : Step c d) : d.Conserved ↔ c.Conserved := by
  unfold Conserved
  cases h with
  | skip same => rw [same]
  | put a entered finished hand queue =>
    rw [entered,finished,hand,queue,← List.append_assoc]
    exact List.append_left_inj [a]
  | take _ entered finished held hand queue | giveBack _ entered finished held hand queue
  | finish _ entered finished held hand queue =>
    rw [entered,finished,hand,queue,held]
    simp
def missing (c : Channel α) : Int :=
  c.entered.length - (c.finished.length + c.hand.toList.length + c.queue.length)
lemma Conserved.missing {c : Channel α} (hc : c.Conserved) : c.missing = 0 := by
  have hlen := congrArg List.length hc
  unfold Channel.missing
  simp only [List.length_append] at hlen
  omega

lemma Step.missing {c d : Channel α} (h : Step c d) : d.missing = c.missing := by
  unfold Channel.missing
  cases h with
  | skip same => rw [same]
  | put a entered finished hand queue =>
    rw [entered,finished,hand,queue]
    simp
    omega
  | take a entered finished held hand queue | giveBack a entered finished held hand queue =>
    rw [entered,finished,hand,queue,held]
    simp
    omega
  | finish a entered finished held hand queue =>
    rw [entered,finished,hand,queue,held]
    simp

end Channel

end EdgeProxy.Lib
