import Mathlib.Algebra.Group.Nat.Defs
import Mathlib.Algebra.Group.Int.Defs
import EdgeProxy.Server.Polls

/-! # Poll timeouts

The deadline of a poll request is computed in unsigned words and compared as a signed one. The loop over the read queue
takes a request to be due while its deadline is not passed.
-/
namespace EdgeProxy.Server
open Base Lib List

structure Queued (now : Ticks) where
  request : Message
  time : Ticks
  earlier : time ≤ now

namespace Queued

variable {now : Ticks}

def poll (entry : Queued now) : Message :=
  entry.request.queuedAt entry.time
def deadline (entry : Queued now) : Int :=
  entry.time.toInt + entry.request.content.pollMessage.timeout.toNat

lemma toInt_timeout_bmod (entry : Queued now) :
    entry.poll.content.pollMessage.timeout.toInt64.toInt = entry.deadline.bmod (2 ^ 64) := by
  unfold poll Message.queuedAt deadline
  generalize entry.request.content.pollMessage.timeout = timeout
  have htimeout : timeout.toInt64.toInt = (timeout.toNat : Int).bmod (2 ^ 64) :=
    BitVec.toInt_eq_toNat_bmod timeout.toBitVec
  rw [UInt64.toInt64_add,Int64.toInt_add,htimeout,Int.add_bmod_bmod,Int64.toInt64_toUInt64]
lemma toInt_timeout (entry : Queued now) : entry.poll.content.pollMessage.timeout.toInt64.toInt =
      if entry.deadline < 2 ^ 63 then entry.deadline else entry.deadline - 2 ^ 64 := by
  have hlow := entry.time.le_toInt
  have hhigh := entry.time.toInt_lt
  have htimeout := entry.request.content.pollMessage.timeout.toNat_lt
  rw [toInt_timeout_bmod]
  unfold deadline
  split
  · exact Int.bmod_eq_of_le (by omega) (by omega)
  · rw [← Int.sub_bmod_right]
    exact Int.bmod_eq_of_le (by omega) (by omega)
lemma pollDue_iff (entry : Queued now) :
    pollDue false now entry.poll ↔ now.toInt ≤ entry.deadline ∧ entry.deadline < 2 ^ 63 := by
  have hearlier := Int64.le_iff_toInt_le.1 entry.earlier
  have htimeout := entry.request.content.pollMessage.timeout.toNat_lt
  simp only [pollDue,Bool.false_or,decide_eq_true_eq,Int64.le_iff_toInt_le,toInt_timeout]
  have hdeadline : entry.deadline - 2 ^ 64 < entry.time.toInt := by
    unfold deadline
    omega
  split
  · next hrange => exact ⟨fun h => ⟨h,hrange⟩,fun h => h.1⟩
  · constructor <;> omega

end Queued

structure ReadQueue (now : Ticks) where
  entries : List (Queued now)
  distinct : (entries.map fun entry => entry.request.object).Nodup

def ReadQueue.polls {now : Ticks} (queue : ReadQueue now) : List Message :=
  queue.entries.map Queued.poll

structure Clocked where
  cell : Cell
  now : Ticks

def Clocked.step (s : Clocked) (label : Label) : Option Clocked :=
  if s.now ≤ label.2.now then (s.cell.step label).map fun c => ⟨c,label.2.now⟩ else none

structure Clocked.Timed (s : Clocked) : Prop where
  kept : PollsKept s.cell
  timed : ∀ poll ∈ s.cell.history.polls, ∃ entry : Queued s.now, entry.poll = poll

variable {c : Cell} {calls : Calls}

lemma Clocked.step_timed {s t : Clocked} {label} (hs : s.Timed) (hkeeps : s.cell.keepsPolls label)
    (h : s.step label = some t) : t.Timed := by
  obtain ⟨hnow,h⟩ := Option.ite_none_right_eq_some.1 h
  obtain ⟨c,hstep,rfl⟩ := Option.map_eq_some_iff.1 h
  have earlier : ∀ poll ∈ s.cell.history.polls, ∃ entry : Queued label.2.now, entry.poll = poll := by
    intro poll hmem
    obtain ⟨entry,rfl⟩ := hs.timed poll hmem
    exact ⟨⟨entry.request,entry.time,Int64.le_trans entry.earlier hnow⟩,rfl⟩
  refine ⟨step_pollsKept hs.kept hkeeps hstep,?_⟩
  obtain ⟨_,takes⟩ := takes_of_step hstep
  intro poll hmem
  rcases takes.frame.polls with hsame | ⟨request,hnew⟩
  · exact earlier poll (hsame ▸ hmem)
  · rcases mem_append.1 (hnew ▸ hmem) with hold | hlast
    · exact earlier poll hold
    · exact ⟨⟨request,label.2.now,Int64.le_refl _⟩,(mem_singleton.1 hlast).symm⟩

lemma exists_queued {now polls} (h : ∀ poll ∈ polls, ∃ entry : Queued now, entry.poll = poll) :
    ∃ entries : List (Queued now), entries.map Queued.poll = polls := by
  induction polls with
  | nil => exact ⟨[],rfl⟩
  | cons next rest ih =>
    obtain ⟨entry,rfl⟩ := h next mem_cons_self
    obtain ⟨entries,rfl⟩ := ih fun poll hmem => h poll (mem_cons_of_mem _ hmem)
    exact ⟨entry :: entries,rfl⟩

/-- The requests of the read queue were queued at times that have passed, as long as none is given back. -/
theorem readQueue_of_runs {c₀ : Cell} {now labels s} (born : Born c₀) (runs : Runs Clocked.step ⟨c₀,now⟩ labels s)
    (keeps : Along Clocked.step (fun s label => s.cell.keepsPolls label) ⟨c₀,now⟩ labels) :
    ∃ queue : ReadQueue s.now, queue.polls = s.cell.socket.readQueue := by
  have start : Clocked.Timed ⟨c₀,now⟩ := by
    refine ⟨born.initial.pollsKept,fun poll hmem => ?_⟩
    have hmem' : poll ∈ c₀.history.polls := hmem
    exact absurd (born.initial.polls ▸ hmem') not_mem_nil
  have timed : s.Timed := runs.invariant Clocked.step_timed keeps start
  obtain ⟨entries,hentries⟩ := exists_queued fun poll hmem =>
    timed.timed poll (timed.kept.pollsAnswered.queued poll hmem)
  have distinct : (entries.map fun entry => entry.request.object).Nodup := by
    have hobjects : (entries.map fun entry => entry.request.object) = s.cell.socket.readQueue.map Message.object := by
      rw [← hentries,map_map]
      rfl
    have hnodup := timed.kept.once.queue_nodup
    rw [hobjects]
    exact hnodup.sublist ((sublist_append_right _ _).map _)
  exact ⟨⟨entries,distinct⟩,hentries⟩

theorem polledTwice_readQueue :
    ∃ s, run Clocked.step ⟨linkedStream,0⟩ (polledTwice.take 13) = some s ∧ s.cell.socket.readQueue.length = 1 ∧
      ∃ queue : ReadQueue s.now, queue.polls = s.cell.socket.readQueue := by
  have runs : Runs Clocked.step ⟨linkedStream,0⟩ (polledTwice.take 13) _ := runs_of_run rfl
  exact ⟨_,rfl,rfl,readQueue_of_runs born_linkedStream runs (by decide)⟩

variable {stream : Option Connection} {calls : Calls} {queue : ReadQueue calls.now} {entry : Queued calls.now}

lemma mem_kept_iff (hmem : entry ∈ queue.entries) :
    entry.poll ∈ (manageReadQueue stream false calls queue.polls).1 ↔ ¬pollDue false calls.now entry.poll := by
  have hqueued : entry.poll ∈ queue.polls := mem_map_of_mem hmem
  rw [manageReadQueue_eq]
  simp [hqueued]

lemma mem_answers_iff (hmem : entry ∈ queue.entries) :
    (entry.request.object,pollError false entry.poll) ∈ (manageReadQueue stream false calls queue.polls).2 ↔
      pollDue false calls.now entry.poll ∧ ioConnectionSend stream calls (pollError false entry.poll) = erOk := by
  rw [manageReadQueue_eq,mem_map]
  constructor
  · rintro ⟨poll,hpoll,heq⟩
    obtain ⟨hqueued,hdue⟩ := mem_filter.1 hpoll
    obtain ⟨other,hother,rfl⟩ := mem_map.1 hqueued
    have hobject : other.request.object = entry.request.object := congrArg Prod.fst heq
    have hsame := inj_on_of_nodup_map queue.distinct hother hmem hobject
    rw [hsame] at hdue
    simpa using hdue
  · rintro ⟨hdue,hsend⟩
    refine ⟨entry.poll,mem_filter.2 ⟨mem_map_of_mem hmem,?_⟩,rfl⟩
    simp [hdue,hsend]

/-- Exactly the requests whose deadline is reached are answered with a timeout, as far as answers can be sent, and the
others stay queued. -/
def TimeoutsMet (stream : Option Connection) (calls : Calls) (queue : ReadQueue calls.now) : Prop :=
  ∀ entry ∈ queue.entries,
    (entry.poll ∈ (manageReadQueue stream false calls queue.polls).1 ↔ calls.now.toInt < entry.deadline) ∧
    (ioConnectionSend stream calls (pollError false entry.poll) = erOk →
      ((entry.request.object,pollError false entry.poll) ∈ (manageReadQueue stream false calls queue.polls).2 ↔
        entry.deadline ≤ calls.now.toInt))

/-- Timeouts are met exactly when every queued request is due at this very moment, or never. -/
theorem timeoutsMet_iff :
    TimeoutsMet stream calls queue ↔
      ∀ entry ∈ queue.entries, entry.deadline = calls.now.toInt ∨ 2 ^ 63 ≤ entry.deadline := by
  have hnow := calls.now.toInt_lt
  constructor
  · intro met entry hmem
    have hkept := (met entry hmem).1
    rw [mem_kept_iff hmem,entry.pollDue_iff] at hkept
    omega
  · intro hdeadline entry hmem
    have hcase := hdeadline entry hmem
    constructor
    · rw [mem_kept_iff hmem,entry.pollDue_iff]
      omega
    · intro hsend
      rw [mem_answers_iff hmem,entry.pollDue_iff]
      constructor
      · omega
      · intro hreached
        exact ⟨by omega,hsend⟩

def queuedRequest (now : Ticks) (h : 0 ≤ now) : ReadQueue now where
  entries := [⟨pollRequest 5 100,0,h⟩]
  distinct := nodup_singleton _

/-- Half way to its deadline the request is answered, and long after it the request is still queued. -/
theorem queuedRequest_not_met :
    (manageReadQueue (some .listener) false (.succeed 50) (queuedRequest 50 (by decide)).polls).2.length = 1 ∧
    ¬TimeoutsMet (some .listener) (.succeed 50) (queuedRequest 50 (by decide)) ∧
    (manageReadQueue (some .listener) false (.succeed 1000) (queuedRequest 1000 (by decide)).polls).1.length = 1 ∧
    ¬TimeoutsMet (some .listener) (.succeed 1000) (queuedRequest 1000 (by decide)) := by
  refine ⟨by decide,?_,by decide,?_⟩
  · intro met
    have hkept := (met _ mem_cons_self).1.symm.trans (mem_kept_iff mem_cons_self)
    exact absurd hkept (by decide)
  · intro met
    have hkept := (met _ mem_cons_self).1.symm.trans (mem_kept_iff mem_cons_self)
    exact absurd hkept (by decide)

end EdgeProxy.Server
