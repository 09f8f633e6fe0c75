import EdgeProxy.Base.Error

/-! # Sockets and websockets as I/O handles

The handles of `xio_sk.c` and `xio_ws.c`, which have the same functions but for how they open, close and free what is
below them. Functions are calls of the owner, tasks of the scheduler, or events of the platform on its own thread. The
outbound queue is taken as three lists of buffers.
-/
namespace EdgeProxy.Xio
open Base

inductive Layer where
  | socket
  | wsclient
deriving DecidableEq

inductive Task where
  | deliverOpenResult
  | deliverInboundResults
  | deliverOutboundResults
  | deliverCloseResult
  | free
deriving DecidableEq

/-- What a callback of a send is called with: `IO_SEND_OK`, `IO_SEND_ERROR` and `IO_SEND_CANCELLED` by the handle, and
`er_aborted` by the queue. -/
inductive SendResult where
  | ok
  | error
  | cancelled
  | aborted
deriving DecidableEq

/-- A buffer of the outbound queue. The callback is that of the send with the number. -/
structure Outgoing where
  data : List UInt8
  readOffset : ℕ
  cb : Option ℕ
  code : Option PrxError
deriving DecidableEq

structure Incoming where
  data : List UInt8
  code : Option PrxError
deriving DecidableEq

inductive Report where
  | openComplete (ok : Bool)
  | bytesReceived (data : List UInt8)
  | ioError
  | closeComplete
deriving DecidableEq

/-- The calls of the platform. A websocket client is connected, disconnected and closed where a socket is opened,
closed and freed. -/
inductive PalCall where
  | open
  | canSend
  | canRecv
  | close
  | free
deriving DecidableEq

/-- `xio_socket_t` and `xio_wsclient_t`. The platform holds the buffer that it is `sending`, and may have one it is
`receiving` in. The fields from `calls` on are a history that the source does not keep. -/
structure Handle where
  layer : Layer
  pal : Bool
  scheduler : Bool
  onBytesReceived : Bool
  onIoOpenComplete : Bool
  onIoError : Bool
  onIoCloseComplete : Bool
  inbound : List Incoming
  ready : List Outgoing
  inprogress : List Outgoing
  done : List Outgoing
  lastError : Option PrxError
  closed : Bool
  destroy : Bool
  tasks : List Task
  sending : Option Outgoing
  receiving : Bool
  calls : List PalCall
  live : Bool
  reported : Bool
  owned : Bool
  sends : ℕ
  accepted : List ℕ
  completions : List (ℕ × SendResult)
  reports : List Report
  frees : ℕ
  late : ℕ
deriving DecidableEq

def Outgoing.abort (buffer : Outgoing) : List (ℕ × SendResult) :=
  buffer.cb.toList.map (·,.aborted)

/-- The callback of a buffer is called, and the buffer is released with the callback still in it. -/
def Outgoing.completeAndRelease (buffer : Outgoing) (result : SendResult) : List (ℕ × SendResult) :=
  buffer.cb.toList.map (·,result) ++ buffer.abort

namespace Handle

def abortOutbound (x : Handle) : Handle :=
  let forget := fun buffer : Outgoing => { buffer with cb := none }
  { x with
    completions := x.completions ++ (x.done ++ x.inprogress ++ x.ready).flatMap Outgoing.abort
    done := x.done.map forget
    inprogress := x.inprogress.map forget
    ready := x.ready.map forget }

def doNext (x : Handle) (task : Task) : Handle :=
  if x.scheduler then { x with tasks := x.tasks ++ [task] } else x
def call (x : Handle) (call : PalCall) : Handle :=
  { x with calls := x.calls ++ [call] }
def report (x : Handle) (report : Report) : Handle :=
  { x with reports := x.reports ++ [report] }

/-- The queues are freed, which releases their buffers, then the scheduler, which clears the tasks, and the handle. -/
def release (x : Handle) : Handle :=
  { x with
    completions := x.completions ++ (x.done ++ x.inprogress ++ x.ready).flatMap Outgoing.abort
    inbound := []
    ready := []
    inprogress := []
    done := []
    tasks := []
    frees := x.frees + 1 }

def socketFree (x : Handle) : Handle :=
  let x := { x with destroy := true, onIoCloseComplete := false, onIoError := false }
  if !x.closed then x
  else if x.pal then (x.call .free).release
  else x.release
def wsclientFree (x : Handle) : Handle :=
  let x := { x with destroy := true, onIoCloseComplete := false, onIoError := false }
  if !x.closed then x
  else if x.pal then { x.call .free with live := true }
  else x.release
def free (x : Handle) : Handle :=
  match x.layer with
  | .socket => x.socketFree
  | .wsclient => x.wsclientFree
def deliverOpenResult (x : Handle) : Handle :=
  if x.onIoOpenComplete then
    let x := x.report (.openComplete (x.lastError = none))
    match x.layer with
    | .socket => (x.call .canRecv).call .canSend
    | .wsclient => x
  else if x.onIoError ∧ x.lastError ≠ none then x.report .ioError
  else x

end Handle

def Incoming.reports (onIoError onBytesReceived : Bool) (buffer : Incoming) : List Report :=
  if buffer.code ≠ none ∧ onIoError then [.ioError]
  else if 0 < buffer.data.length ∧ onBytesReceived then [.bytesReceived buffer.data]
  else []

/-- `xio_socket_deliver_inbound_results`, which does nothing once closed, and `xio_wsclient_deliver_inbound_results`. -/
def Handle.deliverInboundResults (x : Handle) : Handle :=
  if x.layer = .socket ∧ x.closed then x
  else
    { x with
      reports := x.reports ++ x.inbound.flatMap (Incoming.reports x.onIoError x.onBytesReceived)
      inbound := [] }

def Handle.deliverOutboundResults (x : Handle) : Handle :=
  { x with
    completions := x.completions ++ x.done.flatMap fun buffer =>
      buffer.completeAndRelease (if buffer.code ≠ none then .error else .ok)
    done := [] }
def Handle.cancelOutbound (x : Handle) : Handle :=
  { x with
    completions := x.completions ++ (x.inprogress ++ x.ready).flatMap (·.completeAndRelease .cancelled)
    inprogress := []
    ready := [] }

def Handle.reportError (x : Handle) : Handle :=
  if x.onIoError ∧ x.lastError ≠ none then { x.report .ioError with onIoError := false } else x
def Handle.reportClose (x : Handle) : Handle :=
  if x.onIoCloseComplete then { x.report .closeComplete with onIoCloseComplete := false } else x

def Handle.deliverCloseResult (x : Handle) : Handle :=
  let x := x.deliverInboundResults.deliverOutboundResults.cancelOutbound
  let x := { x.reportError.reportClose with closed := true }
  if x.destroy then x.doNext .free else x
def Handle.runTask (x : Handle) : Task → Handle
  | .deliverOpenResult => x.deliverOpenResult
  | .deliverInboundResults => x.deliverInboundResults
  | .deliverOutboundResults => x.deliverOutboundResults
  | .deliverCloseResult => x.deliverCloseResult
  | .free => x.free

/-- What the platform calls back with, of which the last one `ended` a websocket client. A buffer is asked for to
receive in, for which there may be no memory, or to send, and is given back with the number of bytes and the result. -/
inductive Event where
  | opened (error : Option PrxError)
  | beginRecv (memory : Bool)
  | endRecv (data : List UInt8) (result : Option PrxError)
  | beginSend
  | endSend (length : ℕ) (result : Option PrxError)
  | closed (error : Option PrxError)
  | ended
deriving DecidableEq

def Handle.onEndReceive (data : List UInt8) (result : Option PrxError) (x : Handle) : Handle :=
  let x := { x with receiving := false }
  if result = some .retry then x
  else
    let buffer : Incoming := ⟨data,result⟩
    { x with inbound := x.inbound ++ [buffer] }.doNext .deliverInboundResults
def Handle.onBeginSend (x : Handle) : Handle :=
  match x.inprogress, x.ready with
  | buffer :: inprogress, _ => { x with inprogress, sending := some buffer }
  | [], buffer :: ready => { x with ready, sending := some buffer }
  | [], [] => x

/-- `xio_socket_on_end_send` and `xio_wsclient_on_end_send`. A short send is taken for a whole one. -/
def Handle.onEndSend (length : ℕ) (result : Option PrxError) (buffer : Outgoing) (x : Handle) : Handle :=
  let x := { x with sending := none }
  if result = some .retry then { x with inprogress := x.inprogress ++ [buffer] }
  else if buffer.cb.isSome ∧ !x.closed then
    { x with done := x.done ++ [{ buffer with code := result, readOffset := length }] }.doNext .deliverOutboundResults
  else { x with completions := x.completions ++ buffer.abort }

/-- `xio_socket_event_handler` and `xio_wsclient_event_handler`. The platform asks for a buffer when it has none, and
gives back those that it has before its end. A websocket client ends only when it is closed. -/
def Handle.handleEvent (x : Handle) : Event → Option Handle
  | .opened error => some ({ x with lastError := error }.doNext .deliverOpenResult)
  | .beginRecv memory => if x.receiving then none else some { x with receiving := memory }
  | .endRecv data result => if x.receiving then some (x.onEndReceive data result) else none
  | .beginSend => if x.sending.isSome then none else some x.onBeginSend
  | .endSend length result => x.sending.map fun buffer => x.onEndSend length result buffer
  | .closed error =>
    match x.layer with
    | .socket =>
      if x.receiving ∨ x.sending.isSome then none
      else some ({ x with lastError := error, live := false, reported := true }.doNext .deliverCloseResult)
    | .wsclient => some ({ x with lastError := error }.doNext .deliverCloseResult)
  | .ended =>
    match x.layer with
    | .socket => none
    | .wsclient =>
      if x.receiving ∨ x.sending.isSome ∨ .free ∉ x.calls then none
      else some ({ x with pal := false, live := false, reported := true }.doNext .free)

/-- `xio_socket_send` and `xio_wsclient_send`, with a callback or without, where there may be no memory for a buffer. -/
def Handle.send (data : List UInt8) (cb memory : Bool) (x : Handle) : Handle × Option PrxError :=
  if data.isEmpty then (x,some .fault)
  else if !memory then (x,some .outOfMemory)
  else
    let buffer : Outgoing := ⟨data,0,if cb then some x.sends else none,none⟩
    (({ x with
      ready := x.ready ++ [buffer]
      sends := x.sends + 1
      accepted := x.accepted ++ if cb then [x.sends] else [] }.call .canSend).call .canRecv,none)

structure Handlers where
  onIoOpenComplete : Bool
  onBytesReceived : Bool
  onIoError : Bool
deriving DecidableEq

/-- `xio_socket_open` and `xio_wsclient_open`, with the results of creating a scheduler and of opening. Without an
error the platform calls back from then on. -/
def Handle.open (handlers : Handlers) (scheduler result : Option PrxError) (x : Handle) : Handle × Option PrxError :=
  if !x.scheduler ∧ scheduler ≠ none then (x,scheduler)
  else
    let x := { x with
      scheduler := true
      onIoCloseComplete := false
      onBytesReceived := handlers.onBytesReceived
      onIoOpenComplete := handlers.onIoOpenComplete
      onIoError := handlers.onIoError
      lastError := none
      reported := x.reported && result ≠ none
      live := x.live || result = none }
    match x.layer with
    | .socket => (x.call .open,result)
    | .wsclient => ((x.call .canRecv).call .open,result)

def Handle.close (onIoCloseComplete : Bool) (x : Handle) : Handle :=
  let x := { x with onBytesReceived := false, onIoOpenComplete := false, onIoError := false, lastError := none }
  if x.layer = .socket ∧ !x.pal then
    if onIoCloseComplete then x.report .closeComplete else x
  else { x with onIoCloseComplete, live := true }.call .close
def Handle.destroyHandle (x : Handle) : Handle :=
  let x := { x with owned := false }
  if !x.scheduler then x.free
  else (({ x with tasks := [] }.abortOutbound).doNext .free).doNext .deliverCloseResult

lemma destroyHandle_eq {x : Handle} (hscheduler : x.scheduler) : x.destroyHandle =
    ({ x with owned := false, tasks := [] }.abortOutbound.doNext .free).doNext .deliverCloseResult :=
  if_neg (by simp [hscheduler])
def Handle.setoption (scheduler : Option PrxError) (x : Handle) : Handle :=
  if scheduler = none then { x with scheduler := true } else x

def Handle.allocated (layer : Layer) : Handle where
  layer
  pal := false
  scheduler := false
  onBytesReceived := false
  onIoOpenComplete := false
  onIoError := false
  onIoCloseComplete := false
  inbound := []
  ready := []
  inprogress := []
  done := []
  lastError := none
  closed := false
  destroy := false
  tasks := []
  sending := none
  receiving := false
  calls := []
  live := false
  reported := false
  owned := true
  sends := 0
  accepted := []
  completions := []
  reports := []
  frees := 0
  late := 0

/-- `xio_socket_create` and `xio_wsclient_create` from the allocation on, with the results of creating the queues and
what is below. A failed one is freed or destroyed right away. -/
def Handle.create (layer : Layer) (queue otherQueue pal : Option PrxError) : Handle :=
  match queue.or (otherQueue.or pal), layer with
  | none, layer => { Handle.allocated layer with pal := true }
  | some _, .socket => { Handle.allocated .socket with owned := false }.socketFree
  | some _, .wsclient => (Handle.allocated .wsclient).destroyHandle

inductive Label where
  | setoption (scheduler : Option PrxError)
  | open (handlers : Handlers) (scheduler result : Option PrxError)
  | send (data : List UInt8) (cb memory : Bool)
  | close (onIoCloseComplete : Bool)
  | destroy
  | run (index : ℕ)
  | drop (index : ℕ)
  | event (event : Event)
deriving DecidableEq

/-- The handle after a label. The owner does not call it after it destroyed it. Once it is freed, the platform can
still call back, with a handle that is no more. -/
def Handle.step (x : Handle) (label : Label) : Option Handle :=
  if x.frees ≠ 0 then
    match label with
    | .event _ => if x.live then some { x with late := x.late + 1 } else none
    | _ => none
  else
    match label with
    | .setoption scheduler => if x.owned then some (x.setoption scheduler) else none
    | .open handlers scheduler result => if x.owned then some (x.open handlers scheduler result).1 else none
    | .send data cb memory => if x.owned then some (x.send data cb memory).1 else none
    | .close onIoCloseComplete => if x.owned then some (x.close onIoCloseComplete) else none
    | .destroy => if x.owned then some x.destroyHandle else none
    | .run index => x.tasks[index]?.map fun task => { x with tasks := x.tasks.eraseIdx index }.runTask task
    | .drop index => x.tasks[index]?.map fun _ => { x with tasks := x.tasks.eraseIdx index }
    | .event event => if x.live then x.handleEvent event else none

end EdgeProxy.Xio
