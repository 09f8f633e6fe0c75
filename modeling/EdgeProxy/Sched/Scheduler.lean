import Mathlib.Data.List.Sort
import EdgeProxy.Buffer.Lease

/-! # The task scheduler

The scheduler of `prx_sched.c`. A worker thread takes tasks without a delay from one list, and the others from a second
one that is ordered by deadline. Any thread may queue and remove tasks between two steps of the worker.
-/
namespace EdgeProxy.Sched
open Base Buffer

section

inductive TaskId where
  | entry (a : Address)
  | code (value : Int32)
deriving DecidableEq

/-- `prx_task_entry_t` at its address. The source keeps neither the `delay` nor the `ticket`, the number of the task.
-/
structure Task (F C : Type) where
  entry : Address
  task : F
  context : Option C
  queued : ℤ
  deadline : ℤ
  delay : UInt32
  ticket : ℕ
deriving DecidableEq

variable {F C : Type}

def Task.new (a : Address) (task : F) (context : Option C) (clock : ℤ) (delay : UInt32) (ticket : ℕ) : Task F C where
  entry := a
  task
  context
  queued := clock
  deadline := (clock + delay.toNat).bmod (2 ^ 64)
  delay
  ticket

/-- `prx_scheduler_remove_by_id`: the first task with the id, if there is one, and the tasks that stay. -/
def removeById (id : TaskId) : List (Task F C) → Option (Task F C) × List (Task F C)
  | [] => (none,[])
  | next :: queue =>
    if .entry next.entry = id then (some next,queue)
    else
      let (found,queue) := removeById id queue
      (found,next :: queue)

variable [DecidableEq F] [DecidableEq C]

def Task.hasType (task : Option F) (context : Option C) (next : Task F C) : Bool :=
  (context = none ∨ next.context = context) ∧ (task = none ∨ some next.task = task)

/-- `prx_scheduler_remove_by_task_type`: the tasks that stay, and `result` with the others at its end. -/
def removeByTaskType (task : Option F) (context : Option C) :
    List (Task F C) → List (Task F C) → List (Task F C) × List (Task F C)
  | [], result => ([],result)
  | next :: queue, result =>
    if next.hasType task context then removeByTaskType task context queue (result ++ [next])
    else
      let (queue,result) := removeByTaskType task context queue result
      (next :: queue,result)

structure Scheduler (F C : Type) where
  taskPool : Pool
  now : List (Task F C)
  later : List (Task F C)
  shouldRun : Bool
  refs : ℕ

namespace Scheduler

/-- `prx_scheduler_create` without a parent; `memory` are the results of `mem_alloc` for the pool, the others those of
the calls that create the lock, the signal and the thread. -/
def create (itemSize : ℕ) (memory : List (Option ℕ)) (lock signal : Except PrxError Unit) (thread : Bool) :
    Except PrxError (Scheduler F C) := do
  let some taskPool := poolCreate .fixed (some ⟨128,0,0,0,false⟩) itemSize memory | throw .outOfMemory
  lock
  signal
  if thread then pure { taskPool, now := [], later := [], shouldRun := true, refs := 1 } else throw .fatal

/-- `prx_scheduler_queue`. A task with a delay is put before the first one that has a later deadline. -/
def queue (s : Scheduler F C) (task : Option F) (context : Option C) (delay : UInt32) (clock : ℤ)
    (ticket : ℕ) (memory : List (Option ℕ)) : Scheduler F C × TaskId :=
  match task with
  | none => (s,.code erFault)
  | some task =>
    match s.taskPool.allocBuffer memory with
    | (_,none) => (s,.code (-1))
    | (taskPool,some a) =>
      let entry := Task.new a task context clock delay ticket
      if delay = 0 then ({ s with taskPool, now := s.now ++ [entry] },.entry a)
      else
        ({ s with
          taskPool
          later := s.later.orderedInsert (fun entry next => next.deadline > entry.deadline) entry },.entry a)

/-- The part of `prx_scheduler_kill` under the lock: the list of immediate tasks is searched first. -/
def unlinkId (s : Scheduler F C) (id : TaskId) : Option (Task F C) × Scheduler F C :=
  match removeById id s.now with
  | (some next,now) => (some next,{ s with now })
  | (none,now) =>
    let (next,later) := removeById id s.later
    (next,{ s with now, later })

def kill (s : Scheduler F C) (id : TaskId) : Scheduler F C × Except PrxError Unit :=
  match s.unlinkId id with
  | (some next,s) => ({ s with taskPool := s.taskPool.freeBuffer next.entry },.ok ())
  | (none,s) => (s,.error .notFound)
def unlinkType (s : Scheduler F C) (task : Option F) (context : Option C) :
    List (Task F C) × Scheduler F C :=
  let (now,freeList) := removeByTaskType task context s.now []
  let (later,freeList) := removeByTaskType task context s.later freeList
  (freeList,{ s with now, later })
def clear (s : Scheduler F C) (task : Option F) (context : Option C) : Scheduler F C :=
  let (freeList,s) := s.unlinkType task context
  { s with taskPool := freeList.foldl (fun pool next => pool.freeBuffer next.entry) s.taskPool }

/-- `prx_scheduler_release`; the tasks of the context are cleared, if there is one. -/
def release (s : Scheduler F C) (context : Option C) : Scheduler F C :=
  let s := if context.isSome then s.clear none context else s
  let s := { s with refs := s.refs - 1 }
  if s.refs = 0 then { s with shouldRun := false } else s

end Scheduler

end

variable {F C : Type}

def Scheduler.takeNow (s : Scheduler F C) (idle : ℤ) : Scheduler F C × Option (Task F C) × ℤ :=
  match s.now with
  | [] => (s,none,idle)
  | candidate :: rest => ({ s with now := rest },some candidate,0)

/-- `prx_scheduler_get_next`: the task to run, and the time to idle. The time to the deadline is narrowed to a signed
number of 32 bits. -/
def Scheduler.getNext (s : Scheduler F C) (now : ℤ) : Scheduler F C × Option (Task F C) × ℤ :=
  match s.later with
  | [] => s.takeNow (-1)
  | candidate :: rest =>
    let idle := (candidate.deadline - now).bmod (2 ^ 32)
    if idle ≤ 0 then ({ s with later := rest },some candidate,0) else s.takeNow idle

inductive Worker (F C : Type) where
  | looping
  | polled (now : ℤ)
  | running (next : Task F C)
  | checking (idle : ℤ)
  | exited
  | joined

def Worker.finished : Worker F C → Bool
  | .exited => true
  | _ => false
def Worker.gone : Worker F C → Bool
  | .joined => true
  | _ => false

inductive Removal (F C : Type) where
  | kill (id : TaskId)
  | clear (task : Option F) (context : Option C)

/-- A scheduler with its worker, the clock and the history of the tasks. -/
structure System (F C : Type) where
  sched : Scheduler F C
  worker : Worker F C
  clock : ℤ
  queued : List (Task F C)
  started : List (Task F C × ℤ)
  removed : List (Task F C × Removal F C)

inductive Label (F C : Type) where
  | advance (ticks : ℕ)
  | retain
  | queue (task : Option F) (context : Option C) (delay : UInt32) (memory : List (Option ℕ))
  | kill (id : TaskId)
  | clear (task : Option F) (context : Option C)
  | release (context : Option C)
  | work
  | atExit

def System.initial (sched : Scheduler F C) (clock : ℤ) : System F C :=
  ⟨sched,.looping,clock,[],[],[]⟩
def System.queue (s : System F C) (task : Option F) (context : Option C) (delay : UInt32) (memory : List (Option ℕ)) :
    System F C :=
  match task, s.sched.queue task context delay s.clock s.queued.length memory with
  | some task, (sched,.entry a) =>
    { s with sched, queued := s.queued ++ [Task.new a task context s.clock delay s.queued.length] }
  | _, (sched,_) => { s with sched }

variable [DecidableEq F] [DecidableEq C]

def System.clear (s : System F C) (task : Option F) (context : Option C) : System F C :=
  { s with
    sched := s.sched.clear task context
    removed := s.removed ++ (s.sched.unlinkType task context).1.map (·,.clear task context) }

/-- A step of the worker. The clock is read before the lock is taken, and `should_run` after it. -/
def System.work (s : System F C) : Option (System F C) :=
  match s.worker with
  | .looping => some { s with worker := .polled s.clock }
  | .polled now =>
    match s.sched.getNext now with
    | (sched,some next,_) => some { s with sched, worker := .running next, started := s.started ++ [(next,s.clock)] }
    | (sched,none,idle) => some { s with sched, worker := .checking idle }
  | .running next =>
    some { s with
      sched := { s.sched with taskPool := s.sched.taskPool.freeBuffer next.entry }
      worker := .looping }
  | .checking idle =>
    if s.sched.shouldRun = false ∧ idle = -1 then some { s with worker := .exited }
    else some { s with worker := .looping }
  | .exited => none
  | .joined => none

/-- A call of any thread, a step of the worker, or time that passes. The memory that the pool gets is none that is in
use, and `prx_scheduler_at_exit` waits for the worker. -/
def System.step (s : System F C) (label : Label F C) : Option (System F C) :=
  if s.worker.gone then none
  else
    match label with
    | .advance ticks => some { s with clock := s.clock + ticks }
    | .retain => some { s with sched := { s.sched with refs := s.sched.refs + 1 } }
    | .queue task context delay memory =>
      if freshFor s.sched.taskPool.buffers memory then some (s.queue task context delay memory) else none
    | .kill id =>
      some { s with
        sched := (s.sched.kill id).1
        removed := s.removed ++ (s.sched.unlinkId id).1.toList.map (·,.kill id) }
    | .clear task context => some (s.clear task context)
    | .release context =>
      if s.sched.refs = 0 then none
      else
        let t := if context.isSome then s.clear none context else s
        some { t with sched := s.sched.release context }
    | .work => s.work
    | .atExit => if s.worker.finished then some { s.clear none none with worker := .joined } else none

end EdgeProxy.Sched
