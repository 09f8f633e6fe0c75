import Mathlib.Algebra.Group.Int.Defs
import EdgeProxy.Sched.Order

/-! # Delayed tasks are not started early

The time to a deadline is narrowed to 32 bits before it is compared with zero. A task is not started early if the time
from the last reading of the clock to its deadline fits into that width; a longer delay makes it due at once.
-/
namespace EdgeProxy.Sched
open Base Buffer Lib List Sched.System Scheduler

variable {F C : Type}

lemma due_of_idle {queued now : ℤ} {delay} (hnear : queued + delay - now < 2 ^ 31)
    (hidle : ((queued + delay).bmod (2 ^ 64) - now).bmod (2 ^ 32) ≤ 0) : queued + delay ≤ now := by
  simp only [Int.bmod_def] at hidle
  omega
lemma idle_of_far {queued : ℤ} {delay : UInt32} (hfar : 2 ^ 31 ≤ delay.toNat) :
    ((queued + delay.toNat).bmod (2 ^ 64) - queued).bmod (2 ^ 32) ≤ 0 := by
  have hdelay := delay.toNat_lt
  simp only [Int.bmod_def]
  omega
def System.lag (s : System F C) : ℤ :=
  match s.worker with
  | .polled now => s.clock - now
  | _ => 0

def Label.delay : Label F C → ℕ
  | .queue _ _ delay _ => delay.toNat
  | _ => 0
def System.Read (s : System F C) : Prop :=
  ∀ now, s.worker = .polled now → now ≤ s.clock

/-- A task that was queued is not started before its delay is over. -/
structure System.Due (u : Task F C) (s : System F C) : Prop where
  clock : u.queued ≤ s.clock
  near : ∀ now, s.worker = .polled now → u.queued + u.delay.toNat - now < 2 ^ 31
  started : ∀ time, (u,time) ∈ s.started → u.queued + u.delay.toNat ≤ time

lemma System.Moves.reads {s : System F C} {worker} (h : s.Moves worker) {now}
    (hnow : worker = .polled now) : s.worker = .polled now ∨ now = s.clock := by
  cases h with
  | stays => exact .inl hnow
  | polls =>
    cases hnow
    exact .inr rfl
  | _ => cases hnow

variable {s t : System F C} {u : Task F C}

lemma System.Moves.near {worker : Worker F C} (h : s.Moves worker) (hdelay : u.delay.toNat < 2 ^ 31) (hs : s.Due u) :
    ∀ now, worker = .polled now → u.queued + u.delay.toNat - now < 2 ^ 31 := by
  intro now hnow
  rcases h.reads hnow with hworker | rfl
  · exact hs.near now hworker
  · have hclock := hs.clock
    omega
lemma starts_due {now later v} (hs : s.Due u)
    (hdue : v = u → u.queued + u.delay.toNat ≤ s.clock) : (s.starts now later v).Due u where
  clock := hs.clock
  near := nofun
  started := by
    intro time hmem
    rcases mem_append.1 hmem with hmem | hmem
    · exact hs.started time hmem
    · cases mem_singleton.1 hmem
      exact hdue rfl

variable [DecidableEq F] [DecidableEq C] {label : Label F C}

lemma System.Does.read (h : s.Does label t) (hs : s.Read) : t.Read := by
  cases h with
  | idles _ _ _ hmoves hclock =>
    intro now hnow
    rcases hmoves.reads hnow with hworker | rfl
    · exact (hs now hworker).trans hclock
    · exact hclock
  | queues => exact hs
  | removes _ _ _ hmoves =>
    intro now hnow
    rcases hmoves.reads hnow with hworker | rfl
    · exact hs now hworker
    · exact le_rfl
  | _ => nofun

lemma System.Does.due (h : s.Does label t) (hordered : s.Ordered) (hread : s.Read)
    (hdeadline : u.deadline = (u.queued + u.delay.toNat).bmod (2 ^ 64)) (hdelay : u.delay.toNat < 2 ^ 31)
    (hs : s.Due u) : t.Due u := by
  cases h with
  | idles _ _ _ hmoves hclock => exact ⟨hs.clock.trans hclock,hmoves.near hdelay hs,hs.started⟩
  | queues => exact ⟨hs.clock,hs.near,hs.started⟩
  | @startsLater now v later hworker hlater hidle =>
    apply starts_due hs
    rintro rfl
    rw [hdeadline] at hidle
    exact (due_of_idle (hs.near now hworker) hidle).trans (hread now hworker)
  | @startsNow reading v now hworker hnow =>
    apply starts_due hs
    rintro rfl
    have hzero : v.delay = 0 := hordered.undelayed v (hnow ▸ mem_cons_self)
    simpa [hzero] using hs.clock
  | finishes => exact ⟨hs.clock,nofun,hs.started⟩
  | removes _ _ _ hmoves => exact ⟨hs.clock,hmoves.near hdelay hs,hs.started⟩

/-- No task that the step queues is ever started before its delay is over, whatever follows. -/
def System.StartsDue (s : System F C) (label : Label F C) : Prop :=
  ∀ t labels v, s.step label = some t → Runs System.step t labels v →
    ∀ u ∈ t.queued, u ∉ s.queued → ∀ time, (u,time) ∈ v.started → u.queued + u.delay.toNat ≤ time

omit [DecidableEq F] [DecidableEq C] in
lemma lag_eq {now} (h : s.worker = .polled now) : s.lag = s.clock - now := by
  rw [lag,h]

omit [DecidableEq F] [DecidableEq C] in
lemma System.Read.lag_nonneg (hs : s.Read) : 0 ≤ s.lag := by
  cases hworker : s.worker with
  | polled now =>
    rw [lag_eq hworker]
    have hnow := hs now hworker
    omega
  | _ => simp [lag,hworker]

lemma due_of_queue {u} (hordered : s.Ordered) (hread : s.Read) (hnear : s.lag + label.delay < 2 ^ 31)
    (h : s.Does label t) (hu : u ∈ t.queued) (hnew : u ∉ s.queued) :
    u.deadline = (u.queued + u.delay.toNat).bmod (2 ^ 64) ∧ u.delay.toNat < 2 ^ 31 ∧ t.Due u := by
  cases h with
  | @queues memory taskPool a task context delay _ _ =>
    rcases mem_append.1 hu with hu | hu
    · exact absurd hu hnew
    · have hlag := hread.lag_nonneg
      have hstarted (time : ℤ) : (u,time) ∉ s.started := fun hmem => hnew (hordered.started_mem hmem)
      cases mem_singleton.1 hu
      change s.lag + delay.toNat < 2 ^ 31 at hnear
      refine ⟨rfl,?_,le_rfl,fun now hnow => ?_,fun time hmem => absurd hmem (hstarted time)⟩
      · change delay.toNat < 2 ^ 31
        omega
      · rw [lag_eq (s := s) hnow] at hnear
        change s.clock + delay.toNat - now < 2 ^ 31
        omega
  | _ => exact absurd hu hnew

structure System.Sound (s : System F C) : Prop where
  valid : s.Valid
  ordered : s.Ordered
  read : s.Read

lemma step_sound (hs : s.Sound) (h : s.step label = some t) : t.Sound := by
  have hdoes := does_of_step hs.valid h
  exact ⟨hdoes.valid hs.valid,hdoes.ordered hs.ordered,hdoes.read hs.read⟩
lemma startsDue_of_near (hs : s.Sound) (hnear : s.lag + label.delay < 2 ^ 31) : s.StartsDue label := by
  intro t labels v hstep hruns u hu hnew
  have hdoes := does_of_step hs.valid hstep
  obtain ⟨hdeadline,hdelay,hdue⟩ := due_of_queue hs.ordered hs.read hnear hdoes hu hnew
  have hkeeps {s t : System F C} {label : Label F C} (hs : s.Sound ∧ s.Due u) (_ : True)
      (h : s.step label = some t) : t.Sound ∧ t.Due u := by
    have hdoes := does_of_step hs.1.valid h
    exact ⟨step_sound hs.1 h,hdoes.due hs.1.ordered hs.1.read hdeadline hdelay hs.2⟩
  exact (hruns.invariant hkeeps along_true ⟨step_sound hs hstep,hdue⟩).2.started

variable {itemSize : ℕ} {memory : List (Option ℕ)} {lock signal : Except PrxError Unit} {thread : Bool}
  {sched : Scheduler F C}

omit [DecidableEq F] [DecidableEq C] in
lemma create_alloc (fresh : freshFor [] memory) (created : create itemSize memory lock signal thread = .ok sched) : ∃
    taskPool a, sched.taskPool.allocBuffer [] = (taskPool,some a) := by
  obtain ⟨pool,hpool,rfl⟩ := create_eq created
  obtain ⟨hvalid,_⟩ := poolCreate_eq fresh hpool
  have hroom : pool.freeCount ≠ 0 := by
    obtain ⟨hroom,hgrown⟩ := Option.ite_none_left_eq_some.1 hpool
    rwa [← Option.some.inj hgrown]
  rw [hvalid.freeCount,ne_eq,length_eq_zero_iff] at hroom
  obtain ⟨out,rest,hfree⟩ := exists_cons_of_ne_nil hroom
  rw [Pool.allocBuffer,hfree]
  exact ⟨_,out,rfl⟩

lemma work_of_looping (h : s.worker = .looping) : s.step .work = some { s with worker := .polled s.clock } := by
  rw [step]
  simp [Worker.gone,Bool.false_eq_true,↓reduceIte,work,h]
lemma work_of_idle {now u later} (h : s.worker = .polled now) (hlater : s.sched.later = u :: later)
    (hidle : (u.deadline - now).bmod (2 ^ 32) ≤ 0) : s.step .work = some (s.starts s.sched.now later u) := by
  have hnext : s.sched.getNext now = ({ s.sched with later },some u,0) := by
    simp only [getNext,hlater,if_pos hidle]
  rw [step]
  simp [Worker.gone,Bool.false_eq_true,↓reduceIte,work,h,hnext,starts]

/-- A task with too long a delay is started at once, if there is no other one that is delayed. -/
theorem not_startsDue_of_far {task} {context : Option C} {delay memory} {taskPool a} (hordered : s.Ordered)
    (hworker : s.worker = .looping) (hlater : s.sched.later = []) (fresh : freshFor s.sched.taskPool.buffers memory)
    (halloc : s.sched.taskPool.allocBuffer memory = (taskPool,some a)) (hfar : 2 ^ 31 ≤ delay.toNat) : ¬s.StartsDue
    (.queue (some task) context delay memory) := by
  intro hdue
  have hqueues := queue_eq task context delay halloc
  generalize hu : Task.new a task context s.clock delay s.queued.length = u at hqueues
  have hnew : u ∉ s.queued := by
    intro hmem
    have hticket := hordered.ticket_lt hmem
    rw [← hu] at hticket
    exact lt_irrefl _ hticket
  have hqueue : s.step (.queue (some task) context delay memory) = some (s.queues taskPool u) := by
    simp [step,hworker,Worker.gone,Bool.false_eq_true,↓reduceIte,fresh,hqueues]
  have hdelay : u.delay ≠ 0 := by
    rw [← hu]
    rintro rfl
    exact absurd hfar (by decide)
  have hnext : (s.queues taskPool u).sched.later = [u] := by
    simp [queues,hdelay,↓reduceIte,hlater,orderedInsert_nil]
  have hidle : (u.deadline - s.clock).bmod (2 ^ 32) ≤ 0 := by
    rw [← hu]
    exact idle_of_far hfar
  have hpoll := work_of_looping (s := s.queues taskPool u) hworker
  have hstart := work_of_idle (s := { s.queues taskPool u with worker := .polled s.clock }) rfl hnext hidle
  have htime := hdue _ _ _ hqueue (.step hpoll (.step hstart (.refl _))) u
    (mem_append_right _ mem_cons_self) hnew s.clock (mem_append_right _ mem_cons_self)
  rw [← hu] at htime
  change s.clock + delay.toNat ≤ s.clock at htime
  omega

lemma initial_not_startsDue {task context delay} (fresh : freshFor [] memory)
    (created : create itemSize memory lock signal thread = .ok sched) (clock : ℤ)
    (hfar : 2 ^ 31 ≤ delay.toNat) : ¬(initial sched clock).StartsDue (.queue (some task) context delay []) := by
  obtain ⟨taskPool,a,halloc⟩ := create_alloc fresh created
  have hordered := initial_ordered created clock
  obtain ⟨pool,_,rfl⟩ := create_eq created
  exact not_startsDue_of_far hordered rfl rfl (by simp [freshFor]) halloc hfar

/-- A task is not started early if its delay and the age of the clock reading are less than half of the range of 32
bits. -/
theorem startsDue_of_lag (itemSize : ℕ) (memory : List (Option ℕ)) (lock signal : Except PrxError Unit) (thread : Bool)
    {sched : Scheduler F C} (fresh : freshFor [] memory)
    (created : Scheduler.create itemSize memory lock signal thread = .ok sched) (clock : ℤ) :
    (∀ labels, Along System.step (fun s label => s.lag + label.delay < 2 ^ 31 → s.StartsDue label)
      (.initial sched clock) labels) ∧
    ∀ (task : F) (context : Option C) (delay : UInt32),
      (System.initial sched clock).StartsDue (.queue (some task) context delay []) ↔ delay.toNat < 2 ^ 31 := by
  have hsound : (initial sched clock).Sound :=
    ⟨initial_valid fresh created clock,initial_ordered created clock,nofun⟩
  refine ⟨fun labels => ?_,fun task context delay => ⟨fun hdue => ?_,fun hdelay => ?_⟩⟩
  · apply Along.of_invariant _ _ hsound along_true
    · exact fun hs _ h => step_sound hs h
    · exact fun hs _ hnear => startsDue_of_near hs hnear
  · by_contra hfar
    exact initial_not_startsDue fresh created clock (Nat.le_of_not_lt hfar) hdue
  · apply startsDue_of_near hsound
    change 0 + (delay.toNat : ℤ) < 2 ^ 31
    omega

/-- The longest delay that is safe in a new scheduler; while the worker holds a reading of the clock, its age counts. -/
theorem longDelays_startDue : ∃ sched : Scheduler ℕ ℕ,
    Scheduler.create 64 [some 0] (.ok ()) (.ok ()) true = .ok sched ∧
    let labels := [.work,.advance 5,.queue (some 1) none 2147483642 [],.work]
    ((run System.step (.initial sched 0) labels).isSome ∧
      Along System.step (fun s label => s.lag + label.delay < 2 ^ 31) (.initial sched 0) labels) ∧
    Along System.step (fun s label => s.lag + label.delay < 2 ^ 31 → s.StartsDue label) (.initial sched 0) labels ∧
    (System.initial sched 0).StartsDue (.queue (some 1) none 2147483647 []) := by
  obtain ⟨sched,created,hrun⟩ := exists_created (create (C := ℕ) 64 [some 0] (.ok ()) (.ok ()) true)
    (fun sched => let labels := [.work,.advance 5,.queue (some 1) none 2147483642 [],.work]
      (run step (.initial sched 0) labels).isSome ∧
      Along step (fun s label => s.lag + label.delay < 2 ^ 31) (.initial sched 0) labels) (by decide +kernel)
  obtain ⟨hlabels,hdelay⟩ := startsDue_of_lag 64 [some 0] _ _ true (by decide) created 0
  exact ⟨sched,created,hrun,hlabels _,(hdelay 1 none 2147483647).2 (by decide)⟩

/-- A delay of half of the range makes the task due at once. -/
theorem halfRange_not_startsDue : ∃ sched : Scheduler ℕ ℕ,
    Scheduler.create 64 [some 0] (.ok ()) (.ok ()) true = .ok sched ∧
    ¬(System.initial sched 0).StartsDue (.queue (some 1) none 2147483648 []) := by
  obtain ⟨sched,created,_⟩ := exists_created (create (F := ℕ) (C := ℕ) 64 [some 0] (.ok ()) (.ok ()) true)
    (fun _ => True) (by decide +kernel)
  exact ⟨sched,created,initial_not_startsDue (by decide) created 0 (by decide)⟩

end EdgeProxy.Sched
