import EdgeProxy.Buffer.Pool
import EdgeProxy.Lib.Ring

/-! # Queues of buffers for I/O

The queues of `io_queue.c`, whose buffers are ready, in progress or done. A buffer that is in no list is linked to
itself.
-/
namespace EdgeProxy.Queue
open Buffer Lib

inductive QueueState where
  | ready
  | inprogress
  | done
deriving DecidableEq

inductive Entry where
  | list (state : QueueState)
  | buffer (a : Address)
deriving DecidableEq

structure Callbacks where
  cb : Address → Option ℕ
  aborted : List ℕ

def Callbacks.abort (c : Callbacks) (a : Address) : Callbacks :=
  { cb := Function.update c.cb a none, aborted := c.aborted ++ (c.cb a).toList }

/-- `io_queue_t` with the headers of its buffers in memory; `queue` tells whether the field of that name is set. -/
structure IoQueue where
  factory : Pool
  links : Links Entry
  queue : Address → Bool
  callbacks : Callbacks

variable (D : DList Entry)

def ioQueueCreate (links : Links Entry) (memory : List (Option ℕ)) : Option IoQueue :=
  let links := D.initializeListHead links (.list .inprogress)
  let links := D.initializeListHead links (.list .ready)
  let links := D.initializeListHead links (.list .done)
  (poolCreate .dynamic none 0 memory).map fun factory =>
    { factory, links, queue := fun _ => false, callbacks := ⟨fun _ => none,[]⟩ }

variable (q : IoQueue)

namespace IoQueue

/-- `io_queue_create_buffer`; the size is that of the header and the payload. -/
def ioQueueCreateBuffer (size : ℕ) (memory : List (Option ℕ)) (moved : Option ℕ) : IoQueue × Option Address :=
  match q.factory.prxBufferNew size memory moved with
  | (factory,none) => ({ q with factory },none)
  | (factory,some b) =>
    ({ q with
      factory
      links := D.initializeListHead q.links (.buffer b)
      queue := Function.update q.queue b true
      callbacks.cb := Function.update q.callbacks.cb b none },some b)

def statePush (state : QueueState) (b : Address) : IoQueue :=
  let links := D.removeEntryList q.links (.buffer b)
  { q with links := D.insertTailList links (.list state) (.buffer b) }
def bufferSet (state : QueueState) (b : Address) : IoQueue :=
  if q.queue b then q.statePush D state b else q
def ioQueueBufferSetReady (b : Address) : IoQueue :=
  q.bufferSet D .ready b
def ioQueueBufferSetInprogress (b : Address) : IoQueue :=
  q.bufferSet D .inprogress b
def ioQueueBufferSetDone (b : Address) : IoQueue :=
  q.bufferSet D .done b
def statePeek (state : QueueState) : Bool :=
  !D.isListEmpty q.links (.list state)

def statePop (state : QueueState) : IoQueue × Option Address :=
  if D.isListEmpty q.links (.list state) then (q,none)
  else
    match D.removeHeadList q.links (.list state) with
    | (links,.buffer b) => ({ q with links := D.initializeListHead links (.buffer b) },some b)
    | (links,.list _) => ({ q with links },none)
def releaseBufferNoLock (b : Address) : IoQueue :=
  let links := D.removeEntryList q.links (.buffer b)
  { q with
    links := D.initializeListHead links (.buffer b)
    callbacks := q.callbacks.abort b
    factory := q.factory.freeBuffer b }
def ioQueueBufferRelease (b : Address) : IoQueue :=
  if q.queue b then
    { q with
      queue := Function.update q.queue b false
      callbacks := q.callbacks.abort b }.releaseBufferNoLock D b
  else q
def ioQueueRollback : IoQueue :=
  let links := D.appendTailList q.links (q.links.flink (.list .ready)) (.list .inprogress)
  let links := D.removeEntryList links (.list .inprogress)
  { q with links := D.initializeListHead links (.list .inprogress) }

end IoQueue

def abortFrom (links : Links Entry) : ℕ → Entry → Callbacks → Callbacks
  | fuel + 1, .buffer b, c => abortFrom links fuel (links.flink (.buffer b)) (c.abort b)
  | _, _, c => c

/-- `io_queue_state_abort_no_lock`; a list has at most all buffers of the factory. -/
def IoQueue.stateAbort (state : QueueState) : IoQueue :=
  { q with callbacks := abortFrom q.links q.factory.count (q.links.flink (.list state)) q.callbacks }

def IoQueue.ioQueueAbort : IoQueue :=
  ((q.stateAbort .done).stateAbort .inprogress).stateAbort .ready

inductive QueueCall where
  | create (size : ℕ) (memory : List (Option ℕ)) (moved : Option ℕ)
  | attach (b : Address) (cb : ℕ)
  | set (state : QueueState) (b : Address)
  | has (state : QueueState)
  | pop (state : QueueState)
  | rollback
  | abort
  | release (b : Address)

inductive QueueResult where
  | unit
  | present (present : Bool)
  | buffer (b : Option Address)
deriving DecidableEq

def IoQueue.call (q : IoQueue) : QueueCall → IoQueue × QueueResult
  | .create size memory moved =>
    let (q,b) := q.ioQueueCreateBuffer D size memory moved
    (q,.buffer b)
  | .attach b cb => ({ q with callbacks.cb := Function.update q.callbacks.cb b (some cb) },.unit)
  | .set .ready b => (q.ioQueueBufferSetReady D b,.unit)
  | .set .inprogress b => (q.ioQueueBufferSetInprogress D b,.unit)
  | .set .done b => (q.ioQueueBufferSetDone D b,.unit)
  | .has state => (q,.present (q.statePeek D state))
  | .pop state =>
    let (q,b) := q.statePop D state
    (q,.buffer b)
  | .rollback => (q.ioQueueRollback D,.unit)
  | .abort => (q.ioQueueAbort,.unit)
  | .release b => (q.ioQueueBufferRelease D b,.unit)

end EdgeProxy.Queue
