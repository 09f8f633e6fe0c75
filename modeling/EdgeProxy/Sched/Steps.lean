import EdgeProxy.Sched.Scheduler

/-! # The steps of the scheduler

A step queues a task, starts one, returns one to the pool, or removes those that a call names. The entries of the tasks
that are queued or running are exactly those that the pool has handed out.
-/
namespace EdgeProxy.Sched
open Buffer List Sched.Task Scheduler Option

variable {F C : Type}

def Task.hasId (id : TaskId) (t : Task F C) : Bool :=
  TaskId.entry t.entry = id
lemma hasId_iff {id} {t : Task F C} : t.hasId id ↔ TaskId.entry t.entry = id :=
  decide_eq_true_iff

lemma removeById_eq (id : TaskId) {queue : List (Task F C)} (hnodup : (queue.map entry).Nodup) :
    (removeById id queue).1.toList = queue.filter (hasId id) ∧
      (removeById id queue).2 = queue.filter (!·.hasId id) := by
  induction queue with
  | nil => exact ⟨rfl,rfl⟩
  | cons next queue ih =>
    obtain ⟨hnext,hqueue⟩ := nodup_cons.1 hnodup
    obtain ⟨hfound,hstay⟩ := ih hqueue
    unfold removeById
    by_cases hid : .entry next.entry = id
    · have hothers : ∀ t ∈ queue, ¬t.hasId id := by
        intro t ht htid
        have hentry : t.entry = next.entry := TaskId.entry.inj ((hasId_iff.1 htid).trans hid.symm)
        exact hnext (hentry ▸ mem_map_of_mem ht)
      rw [if_pos hid,filter_cons_of_pos (hasId_iff.2 hid),filter_eq_nil_iff.2 hothers,
        filter_cons_of_neg (by simpa using hasId_iff.2 hid)]
      refine ⟨rfl,(filter_eq_self.2 ?_).symm⟩
      simpa using hothers
    · have hnot : next.hasId id = false := by simpa using mt hasId_iff.1 hid
      rw [if_neg hid,filter_cons_of_neg (by simp [hnot]),filter_cons_of_pos (by simp [hnot])]
      exact ⟨hfound,congrArg _ hstay⟩

lemma removeByTaskType_eq [DecidableEq F] [DecidableEq C] (task : Option F) (context : Option C)
    (queue result : List (Task F C)) : removeByTaskType task context queue result =
      (queue.filter (!·.hasType task context),result ++ queue.filter (·.hasType task context)) := by
  induction queue generalizing result with
  | nil => simp [removeByTaskType]
  | cons next queue ih =>
    unfold removeByTaskType
    cases hnext : next.hasType task context with
    | true | false => simp [ih,hnext]

def Worker.task : Worker F C → Option (Task F C)
  | .running next => some next
  | _ => none
def System.tasks (s : System F C) : List (Task F C) :=
  s.sched.now ++ s.sched.later ++ s.worker.task.toList
def releaseAll (pool : Pool) (tasks : List (Task F C)) : Pool :=
  tasks.foldl (fun pool next => pool.freeBuffer next.entry) pool

def Removal.takes [DecidableEq F] [DecidableEq C] (r : Removal F C) (t : Task F C) : Bool :=
  match r with
  | .kill id => t.hasId id
  | .clear task context => t.hasType task context
def System.removes [DecidableEq F] [DecidableEq C] (s : System F C) (r : Removal F C) : System F C :=
  let gone := (s.sched.now ++ s.sched.later).filter r.takes
  { s with
    sched := { s.sched with
      taskPool := releaseAll s.sched.taskPool gone
      now := s.sched.now.filter (!r.takes ·)
      later := s.sched.later.filter (!r.takes ·) }
    removed := s.removed ++ gone.map (·,r) }
def System.idles (s : System F C) (worker : Worker F C) (clock : ℤ) (shouldRun : Bool) (refs : ℕ) : System F C :=
  { s with sched := { s.sched with shouldRun, refs }, worker, clock }
def System.queues (s : System F C) (taskPool : Pool) (t : Task F C) : System F C :=
  { s with
    sched := { s.sched with
      taskPool
      now := if t.delay = 0 then s.sched.now ++ [t] else s.sched.now
      later :=
        if t.delay = 0 then s.sched.later
        else s.sched.later.orderedInsert (fun entry next => next.deadline > entry.deadline) t }
    queued := s.queued ++ [t] }
def System.starts (s : System F C) (now later : List (Task F C)) (t : Task F C) : System F C :=
  { s with
    sched := { s.sched with now, later }
    worker := .running t
    started := s.started ++ [(t,s.clock)] }
def System.finishes (s : System F C) (t : Task F C) : System F C :=
  { s with
    sched := { s.sched with taskPool := s.sched.taskPool.freeBuffer t.entry }
    worker := .looping }

inductive System.Moves (s : System F C) : Worker F C → Prop
  | stays : Moves s s.worker
  | polls : s.worker = .looping → Moves s (.polled s.clock)
  | waits {now idle : ℤ} : s.worker = .polled now → s.sched.now = [] → (idle = -1 → s.sched.later = []) →
      Moves s (.checking idle)
  | loops {idle : ℤ} : s.worker = .checking idle → Moves s .looping
  | exits : s.worker = .checking (-1) → s.sched.shouldRun = false → Moves s .exited
  | joins : s.worker = .exited → Moves s .joined

lemma finished_iff {worker : Worker F C} : worker.finished ↔ worker = .exited := by
  cases worker <;> simp [Worker.finished]
lemma System.Moves.task {s : System F C} {worker} (h : s.Moves worker) : worker.task = s.worker.task := by
  cases h with
  | stays => rfl
  | polls hworker | waits hworker | loops hworker | exits hworker | joins hworker => rw [hworker]; rfl
def Label.removal : Label F C → Option (Removal F C)
  | .kill id => some (.kill id)
  | .clear task context => some (.clear task context)
  | .release (some context) => some (.clear none (some context))
  | .atExit => some (.clear none none)
  | _ => none

inductive System.Does [DecidableEq F] [DecidableEq C] (s : System F C) : Label F C → System F C → Prop
  | idles {label : Label F C} {worker : Worker F C} {clock : ℤ} (shouldRun : Bool) (refs : ℕ) : label.removal = none →
      s.Moves worker → s.clock ≤ clock → Does s label (s.idles worker clock shouldRun refs)
  | queues {memory : List (Option ℕ)} {taskPool : Pool} {a : Address} (task : F) (context : Option C)
      (delay : UInt32) : freshFor s.sched.taskPool.buffers memory →
      s.sched.taskPool.allocBuffer memory = (taskPool,some a) →
      Does s (.queue (some task) context delay memory)
        (s.queues taskPool (Task.new a task context s.clock delay s.queued.length))
  | startsLater {now : ℤ} {t : Task F C} {later : List (Task F C)} : s.worker = .polled now →
      s.sched.later = t :: later → (t.deadline - now).bmod (2 ^ 32) ≤ 0 → Does s .work (s.starts s.sched.now later t)
  | startsNow {reading : ℤ} {t : Task F C} {now : List (Task F C)} : s.worker = .polled reading →
      s.sched.now = t :: now → Does s .work (s.starts now s.sched.later t)
  | finishes {t : Task F C} : s.worker = .running t → Does s .work (s.finishes t)
  | removes {label : Label F C} {r : Removal F C} {worker : Worker F C} (shouldRun : Bool) (refs : ℕ) :
      label.removal = some r → s.Moves worker → Does s label ((s.removes r).idles worker s.clock shouldRun refs)

section

variable {s t : System F C}

structure System.Valid (s : System F C) : Prop where
  lease : Lease.Valid ⟨s.sched.taskPool,s.tasks.map Task.entry⟩
  nodup : (s.tasks.map Task.entry).Nodup

open Sched.System

lemma System.Valid.lists_nodup (hs : s.Valid) : ((s.sched.now ++ s.sched.later).map entry).Nodup := by
  have hnodup := hs.nodup
  rw [tasks,map_append] at hnodup
  exact (nodup_append.1 hnodup).1

variable {pool : Pool} {held : List Address} {u : Task F C}

lemma lease_perm {held'} (hperm : held.Perm held') (h : Lease.Valid ⟨pool,held⟩) : Lease.Valid ⟨pool,held'⟩ :=
  ⟨h.pool,fun a => (h.refs a).trans (hperm.count_eq a)⟩
lemma lease_release {a} (h : Lease.Valid ⟨pool,a :: held⟩) : Lease.Valid ⟨pool.freeBuffer a,held⟩ := by
  have hstep : Lease.step ⟨pool,a :: held⟩ (.release a) = some ⟨pool.freeBuffer a,held⟩ := by
    simp [Lease.step]
  exact (does_of_step h hstep).valid h
lemma lease_releaseAll {tasks : List (Task F C)}
    (h : Lease.Valid ⟨pool,tasks.map entry ++ held⟩) : Lease.Valid ⟨releaseAll pool tasks,held⟩ := by
  induction tasks generalizing pool with
  | nil => exact h
  | cons t tasks ih => exact ih (lease_release h)
lemma idles_valid {worker clock shouldRun refs}
    (hworker : worker.task = s.worker.task) (hs : s.Valid) : (s.idles worker clock shouldRun refs).Valid := by
  have htasks : (s.idles worker clock shouldRun refs).tasks = s.tasks := by
    simp [tasks,idles,hworker]
  exact ⟨htasks ▸ hs.lease,htasks ▸ hs.nodup⟩
lemma queues_lists (taskPool : Pool) (u : Task F C) :
    ((s.queues taskPool u).sched.now ++ (s.queues taskPool u).sched.later).Perm
      (u :: (s.sched.now ++ s.sched.later)) := by
  unfold queues
  by_cases hdelay : u.delay = 0
  · simp only [hdelay,↓reduceIte]
    rw [append_assoc]
    exact perm_middle
  · simp only [hdelay]
    have hinsert := s.sched.later.perm_orderedInsert (fun entry next => next.deadline > entry.deadline) u
    exact (hinsert.append_left s.sched.now).trans perm_middle
lemma allocated_not_linked {memory taskPool entry} (hs : s.Valid)
    (halloc : s.sched.taskPool.allocBuffer memory = (taskPool,some entry)) : entry ∉ s.tasks.map Task.entry := by
  have hout : Lease.handedOut ⟨s.sched.taskPool,s.tasks.map Task.entry⟩ (.alloc memory) = some entry := by
    simp [Lease.handedOut,halloc]
  exact handedOut_not_held hs.lease hout

lemma queues_valid {memory taskPool} (hs : s.Valid) (fresh : freshFor s.sched.taskPool.buffers memory)
    (halloc : s.sched.taskPool.allocBuffer memory = (taskPool,some u.entry)) : (s.queues taskPool u).Valid := by
  have hstep : Lease.step ⟨s.sched.taskPool,s.tasks.map entry⟩ (.alloc memory) =
      some ⟨taskPool,s.tasks.map entry ++ [u.entry]⟩ := by
    simp [Lease.step,fresh,halloc]
  have hout : u.entry ∉ s.tasks.map entry := allocated_not_linked hs halloc
  have hperm : ((s.queues taskPool u).tasks.map entry).Perm (u.entry :: s.tasks.map entry) :=
    ((queues_lists taskPool u).append_right _).map entry
  constructor
  · have hlease := (does_of_step hs.lease hstep).valid hs.lease
    exact lease_perm ((perm_append_singleton _ _).trans hperm.symm) hlease
  · rw [hperm.nodup_iff]
    exact nodup_cons.2 ⟨hout,hs.nodup⟩

lemma starts_valid {now later} (hworker : s.worker.task = none)
    (hlists : (s.sched.now ++ s.sched.later).Perm (u :: (now ++ later))) (hs : s.Valid) :
    (s.starts now later u).Valid := by
  have hperm : s.tasks.Perm (s.starts now later u).tasks := by
    simp only [tasks,hworker,toList_none,append_nil]
    exact hlists.trans (perm_append_singleton _ _).symm
  have hentry := hperm.map entry
  exact ⟨lease_perm hentry hs.lease,hentry.nodup_iff.1 hs.nodup⟩
lemma finishes_valid (hworker : s.worker = .running u) (hs : s.Valid) : (s.finishes u).Valid := by
  have hperm : (s.tasks.map entry).Perm (u.entry :: (s.finishes u).tasks.map entry) := by
    simp only [tasks,finishes,hworker,Worker.task,toList_none,append_nil]
    exact (perm_append_singleton u _).map entry
  have hnodup := hperm.nodup_iff.1 hs.nodup
  exact ⟨lease_release (lease_perm hperm hs.lease),(nodup_cons.1 hnodup).2⟩

variable [DecidableEq F] [DecidableEq C]

lemma removes_lists (s : System F C) (r : Removal F C) :
    (s.sched.now ++ s.sched.later).Perm ((s.sched.now ++ s.sched.later).filter r.takes ++
      ((s.removes r).sched.now ++ (s.removes r).sched.later)) := by
  simp only [removes,← filter_append]
  exact (filter_append_perm _ _).symm
lemma removes_valid (r : Removal F C) (hs : s.Valid) : (s.removes r).Valid := by
  have htasks : s.tasks.Perm ((s.sched.now ++ s.sched.later).filter r.takes ++ (s.removes r).tasks) := by
    have hlists := (removes_lists s r).append_right s.worker.task.toList
    rwa [append_assoc (.filter _ _)] at hlists
  have hperm := htasks.map entry
  rw [map_append] at hperm
  have hnodup := hperm.nodup_iff.1 hs.nodup
  exact ⟨lease_releaseAll (lease_perm hperm hs.lease),(nodup_append.1 hnodup).2.1⟩

lemma System.Does.valid {label : Label F C} (h : s.Does label t) (hs : s.Valid) : t.Valid := by
  cases h with
  | idles _ _ _ hworker => exact idles_valid hworker.task hs
  | queues task context delay fresh halloc => exact queues_valid hs fresh halloc
  | startsLater hworker hlater =>
    apply starts_valid (by rw [hworker]; rfl) _ hs
    rw [hlater]
    exact perm_middle
  | startsNow hworker hnow =>
    apply starts_valid (by rw [hworker]; rfl) _ hs
    rw [hnow]
    exact .refl _
  | finishes hworker => exact finishes_valid hworker hs
  | removes _ _ _ hworker => exact idles_valid hworker.task (removes_valid _ hs)

end

variable {s t : System F C}

lemma unlinkId_eq (hs : s.Valid) (id : TaskId) :
    (s.sched.unlinkId id).1.toList = (s.sched.now ++ s.sched.later).filter (hasId id) ∧
      (s.sched.unlinkId id).2 = { s.sched with
        now := s.sched.now.filter (!·.hasId id)
        later := s.sched.later.filter (!·.hasId id) } := by
  have hnodup := hs.lists_nodup
  rw [map_append] at hnodup
  obtain ⟨hnow,hlater,hdisjoint⟩ := nodup_append.1 hnodup
  obtain ⟨hfound,hstay⟩ := removeById_eq id hnow
  obtain ⟨hfound',hstay'⟩ := removeById_eq id hlater
  unfold unlinkId
  rw [filter_append]
  rcases hremove : removeById id s.sched.now with ⟨_ | next,now⟩
  · rw [hremove] at hfound hstay
    dsimp only at hstay ⊢
    rw [← hfound,hfound',hstay,hstay']
    exact ⟨rfl,rfl⟩
  · -- The id was found among the immediate tasks, so none of the delayed ones has it.
    rw [hremove] at hfound hstay
    dsimp only at hstay
    have hnext : next ∈ s.sched.now.filter (hasId id) := hfound ▸ mem_singleton_self next
    obtain ⟨hmem,hid⟩ := mem_filter.1 hnext
    have hothers : ∀ u ∈ s.sched.later, ¬u.hasId id := by
      intro u hu hid'
      have hentry : next.entry = u.entry := TaskId.entry.inj ((hasId_iff.1 hid).trans (hasId_iff.1 hid').symm)
      exact hdisjoint _ (mem_map_of_mem hmem) _ (mem_map_of_mem hu) hentry
    have hall : s.sched.later.filter (!·.hasId id) = s.sched.later :=
      filter_eq_self.2 (by simpa using hothers)
    rw [← hfound,filter_eq_nil_iff.2 hothers,hall,hstay]
    exact ⟨rfl,rfl⟩

lemma getNext_cases (s : Scheduler F C) (now : ℤ) :
    (∃ t later, s.later = t :: later ∧ (t.deadline - now).bmod (2 ^ 32) ≤ 0 ∧
      s.getNext now = ({ s with later },some t,0)) ∨
    (∃ t rest, s.now = t :: rest ∧ s.getNext now = ({ s with now := rest },some t,0)) ∨
    ∃ idle, s.now = [] ∧ s.getNext now = (s,none,idle) ∧ (idle = -1 → s.later = []) := by
  have htake (idle : ℤ) : (∃ t rest, s.now = t :: rest ∧ s.takeNow idle = ({ s with now := rest },some t,0)) ∨
      s.now = [] ∧ s.takeNow idle = (s,none,idle) := by
    unfold takeNow
    cases s.now with
    | nil => exact .inr ⟨rfl,rfl⟩
    | cons t rest => exact .inl ⟨t,rest,rfl,rfl⟩
  by_cases hempty : s.later = []
  · right
    have hget : s.getNext now = s.takeNow (-1) := by rw [getNext,hempty]
    rw [hget]
    rcases htake (-1) with h | ⟨hnow,h⟩
    · exact .inl h
    · exact .inr ⟨-1,hnow,h,fun _ => hempty⟩
  · obtain ⟨t,later,hlater⟩ := exists_cons_of_ne_nil hempty
    by_cases hdue : (t.deadline - now).bmod (2 ^ 32) ≤ 0
    · left
      refine ⟨t,later,hlater,hdue,?_⟩
      simp only [getNext,hlater,if_pos hdue]
    · right
      have hget : s.getNext now = s.takeNow ((t.deadline - now).bmod (2 ^ 32)) := by
        simp only [getNext,hlater,if_neg hdue]
      rw [hget]
      rcases htake ((t.deadline - now).bmod (2 ^ 32)) with h | ⟨hnow,h⟩
      · exact .inl h
      · refine .inr ⟨_,hnow,h,fun hidle => ?_⟩
        omega

variable [DecidableEq F] [DecidableEq C]

lemma clear_eq (s : System F C) (task : Option F) (context : Option C) :
    s.clear task context = s.removes (.clear task context) := by
  unfold System.clear clear
  simp only [unlinkType,removeByTaskType_eq,nil_append,← filter_append]
  rfl

lemma kill_eq (hs : s.Valid) (id : TaskId) : { s with
      sched := (s.sched.kill id).1
      removed := s.removed ++ (s.sched.unlinkId id).1.toList.map (·,.kill id) } = s.removes (.kill id) := by
  obtain ⟨hfound,hstay⟩ := unlinkId_eq hs id
  unfold kill
  change _ = { s with
    sched := { s.sched with
      taskPool := releaseAll s.sched.taskPool ((s.sched.now ++ s.sched.later).filter (hasId id))
      now := s.sched.now.filter fun t => !t.hasId id
      later := s.sched.later.filter fun t => !t.hasId id }
    removed := s.removed ++ ((s.sched.now ++ s.sched.later).filter (hasId id)).map (·,Removal.kill id) }
  rw [← hfound]
  rcases hunlink : s.sched.unlinkId id with ⟨_ | next,sched⟩
  · rw [hunlink] at hstay
    cases hstay
    rfl
  · rw [hunlink] at hstay
    cases hstay
    rfl

lemma does_of_work (h : s.work = some t) : s.Does .work t := by
  unfold System.work at h
  cases hworker : s.worker with
  | looping =>
    rw [hworker] at h
    cases h
    exact .idles _ _ rfl (.polls hworker) le_rfl
  | polled now =>
    rw [hworker] at h
    rcases getNext_cases s.sched now with ⟨u,later,hlater,hdue,hnext⟩ | ⟨u,rest,hnow,hnext⟩ | ⟨idle,hnow,hnext,hidle⟩
    · simp only [hnext] at h
      cases h
      exact .startsLater hworker hlater hdue
    · simp only [hnext] at h
      cases h
      exact .startsNow hworker hnow
    · simp only [hnext] at h
      cases h
      exact .idles _ _ rfl (.waits hworker hnow hidle) le_rfl
  | running =>
    rw [hworker] at h
    cases h
    exact .finishes hworker
  | checking idle =>
    simp only [hworker] at h
    by_cases hstop : s.sched.shouldRun = false ∧ idle = -1
    · rw [if_pos hstop] at h
      cases h
      exact .idles _ _ rfl (.exits (hstop.2 ▸ hworker) hstop.1) le_rfl
    · rw [if_neg hstop] at h
      cases h
      exact .idles _ _ rfl (.loops hworker) le_rfl
  | exited | joined =>
    rw [hworker] at h
    cases h

omit [DecidableEq F] [DecidableEq C] in
lemma queue_eq {memory taskPool a} (task : F) (context : Option C)
    (delay : UInt32) (halloc : s.sched.taskPool.allocBuffer memory = (taskPool,some a)) :
    s.queue (some task) context delay memory =
      s.queues taskPool (new a task context s.clock delay s.queued.length) := by
  unfold System.queue queue System.queues
  simp only [halloc,new]
  by_cases hdelay : delay = 0 <;> simp only [hdelay,↓reduceIte]

lemma does_of_queue {memory} (task : Option F) (context : Option C) (delay : UInt32)
    (fresh : freshFor s.sched.taskPool.buffers memory) :
    s.Does (.queue task context delay memory) (s.queue task context delay memory) := by
  have stays : s.Does (.queue task context delay memory) s := .idles _ _ rfl .stays le_rfl
  cases task with
  | none => exact stays
  | some task =>
    rcases halloc : s.sched.taskPool.allocBuffer memory with ⟨taskPool,_ | a⟩
    · have hqueue : s.queue (some task) context delay memory = s := by
        simp [System.queue,queue,halloc]
      rwa [hqueue]
    · rw [queue_eq task context delay halloc]
      exact .queues task context delay fresh halloc

lemma release_eq (s : Scheduler F C) (context : Option C) : ∃ shouldRun refs,
    s.release context = { (if context.isSome then s.clear none context else s) with shouldRun, refs } := by
  unfold release
  generalize (if context.isSome then s.clear none context else s) = t
  by_cases hlast : t.refs - 1 = 0
  · simp only [hlast]
    exact ⟨_,_,rfl⟩
  · simp only [hlast]
    exact ⟨_,_,rfl⟩

lemma does_of_step {label : Label F C} (hs : s.Valid) (h : s.step label = some t) : s.Does label t := by
  obtain ⟨_,h⟩ := ite_none_left_eq_some.1 h
  cases label with
  | advance =>
    cases h
    exact .idles _ _ rfl .stays (by omega)
  | retain =>
    cases h
    exact .idles _ _ rfl .stays le_rfl
  | queue task context delay =>
    obtain ⟨fresh,⟨⟩⟩ := ite_none_right_eq_some.1 h
    exact does_of_queue task context delay fresh
  | kill id =>
    have ht := some.inj h
    rw [← ht,kill_eq hs id]
    exact .removes _ _ rfl .stays
  | clear =>
    have ht := some.inj h
    rw [← ht,clear_eq]
    exact .removes _ _ rfl .stays
  | release context =>
    obtain ⟨_,h⟩ := ite_none_left_eq_some.1 h
    have ht := some.inj h
    obtain ⟨shouldRun,refs,hrelease⟩ := release_eq s.sched context
    rw [← ht,hrelease]
    cases context with
    | none => exact .idles shouldRun refs rfl .stays le_rfl
    | some context =>
      have hdoes : s.Does (.release (some context))
          ((s.removes (.clear none (some context))).idles s.worker s.clock shouldRun refs) :=
        .removes _ _ rfl .stays
      rw [← clear_eq] at hdoes
      exact hdoes
  | work => exact does_of_work h
  | atExit =>
    obtain ⟨hexit,h⟩ := ite_none_right_eq_some.1 h
    have ht := some.inj h
    rw [← ht,clear_eq]
    exact .removes _ _ rfl (.joins (finished_iff.1 hexit))

end EdgeProxy.Sched
