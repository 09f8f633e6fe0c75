import EdgeProxy.Base.Error

/-! # Sockets of the platform layer

The life of a `pal_socket_t` of `pal_sk_posix.c`, built without `ASYNC_CONNECT`. A callback of the event port is cut
where it calls the client: an `Enter` function is the checks before the begin callback, a `Finish` function the work
between the begin and the end callback.
-/
namespace EdgeProxy.Pal
open Base

inductive SocketState where
  | closed
  | opening
  | open
  | closing
deriving DecidableEq

/-- The event handle of a socket: zero, registered with the event port, with a request for its deletion under way, or
freed. -/
inductive EventHandle where
  | none
  | registered
  | deleting
  | freed
deriving DecidableEq

/-- The choice of `read_cb` and `write_cb` in `pal_socket_create`. -/
inductive SocketKind where
  | stream
  | datagram
  | listener
deriving DecidableEq

structure Socket where
  kind : SocketKind
  state : SocketState
  handle : EventHandle
deriving DecidableEq

/-- What a system call returned, and the error that `errno` stands for. -/
structure OsResult where
  ret : Int64
  error : Int32
deriving DecidableEq

/-- The common end of the send and receive handlers: the 64-bit count is stored in the 32-bit result. `converted` is
the result of converting the source address of a datagram. -/
def transferResult (bufLen : UInt64) (os : OsResult) (converted : Int32) : Int32 × UInt64 :=
  let result := os.ret.toInt32
  if result < 0 then
    (os.error,if os.error = erOk then bufLen else 0)
  else if converted ≠ erOk then
    (converted,0)
  else
    (erOk,result.toInt64.toUInt64)

def palSocketOnSendEnter (sock : Socket) : Option Socket :=
  if sock.handle = .registered ∧ sock.state = .open ∧ sock.kind ≠ .listener then some sock else none

/-- The result and size of the end callback of a send. The system call is made if the target address could be converted
(`prepared`). -/
def palSocketOnSendFinish (prepared : Int32) (bufLen : UInt64) (os : OsResult) : Int32 × UInt64 :=
  if prepared ≠ erOk then (prepared,0) else transferResult bufLen os erOk

/-- `pal_socket_on_recv` and `pal_socket_on_recvfrom` up to the begin callback: a hang-up moves a
stream socket to closing. -/
def palSocketOnRecvEnter (sock : Socket) (result : Int32) : Option Socket :=
  if sock.handle = .registered ∧ sock.state = .open ∧ sock.kind ≠ .listener then
    some (if sock.kind = .stream ∧ result = erClosed then { sock with state := .closing } else sock)
  else none

/-- The result and size of the end callback of a receive. An event other than readiness is passed on
without a system call. -/
def palSocketOnRecvFinish (result : Int32) (bufLen : UInt64) (os : OsResult) (converted : Int32) :
    Int32 × UInt64 :=
  if result ≠ erOk then (result,0) else transferResult bufLen os converted

/-- `pal_socket_complete_close`; the flag tells whether the client gets the closed event. -/
def palSocketCompleteClose (sock : Socket) : Socket × Bool :=
  if sock.state = .closing then ({ sock with state := .closed },true) else (sock,false)

/-- `pal_socket_close` where the control message of `pal_event_close` could be `sent` or not. A
second deletion of a handle is undefined: the first one frees it. -/
def palSocketClose (sock : Socket) (sent : Bool) : Option (Socket × Bool) :=
  let sock := { sock with state := .closing }
  match sock.handle with
  | .none => some (palSocketCompleteClose sock)
  | .registered => some (if sent then { sock with handle := .deleting } else sock,false)
  | .deleting => none
  | .freed => none

def palSocketDestroyed (sock : Socket) : Socket × Bool :=
  palSocketCompleteClose { sock with handle := .freed }

/-- The event port may still call the handlers of the socket: for a transfer, or at the end of a close. -/
def Socket.active (sock : Socket) : Bool :=
  (sock.handle = .registered ∧ sock.state = .open) ∨ (sock.handle = .deleting ∧ sock.state = .closing)

/-- The flags of an event that `epoll_wait` returns. `EPOLLRDHUP`, which is selected for the close
event, is not among those that the thread of the port tests. -/
structure EpollEvents where
  rdHup : Bool
  hup : Bool
  err : Bool
  input : Bool
  output : Bool
deriving DecidableEq

/-- Where the thread of the event port is with a socket: waiting, in one callback of the read handler, or in its loops
over read and write callbacks. -/
inductive Dispatch where
  | waiting
  | once (result : Int32)
  | reading (output : Bool)
  | writing
deriving DecidableEq

/-- The dispatch of an event in `pal_epoll_worker_thread`. For an error the socket is asked for its
pending error; there is no callback when that fails. -/
def palEpollDispatch (events : EpollEvents) (soError : Option Int32) : Dispatch :=
  if events.hup then .once erClosed
  else if events.err then
    match soError with
    | some error => .once error
    | none => .waiting
  else if events.input then .reading events.output
  else if events.output then .writing
  else .waiting

def Dispatch.done : Dispatch → Dispatch
  | .reading true => .writing
  | _ => .waiting
def Dispatch.returned (dispatch : Dispatch) (result : Int32) : Dispatch :=
  match dispatch with
  | .reading _ => if result = erOk then dispatch else dispatch.done
  | .writing => if result = erOk then dispatch else dispatch.done
  | _ => dispatch.done

end EdgeProxy.Pal
