import EdgeProxy.Codec.Types
import EdgeProxy.Pal.Socket

/-! # Server sockets

The records of `prx_server.c`. A server socket is modelled with its queued scheduler tasks, the positions of the two
threads inside a delivery and a transfer, and its entry in the table. The history of a socket is not part of the
program. Between two steps of `prx_server_socket_deliver_results` the thread of the event port may run.
-/
namespace EdgeProxy.Server
open Base Codec

abbrev Ticks := Int64

/-- The connections a socket can talk to: the listener of the server, a stream of its own that is
polled, or a websocket stream. -/
inductive Connection where
  | listener
  | polledStream
  | webSocket
deriving DecidableEq

/-- A protocol message in memory. `object` identifies the message object; two messages with the same
content are different objects. -/
structure Message extends IoMessage Bytes where
  object : ℕ
  correlationId : Int32
  context : Option Connection

def Message.ioMessageAsResponse (message : Message) : Message :=
  { message with
    sourceId := message.targetId
    targetId := message.sourceId
    content := .zero
    isResponse := true }
def ioMessageCreate (object : ℕ) (type : MessageType) (source target : IoRef) : Message :=
  { IoMessage.zero with
    type := type.code
    sourceId := source
    targetId := target
    object
    correlationId := 0
    context := none }
def Message.request (type : MessageType) : Message :=
  ioMessageCreate 0 type default default

inductive SocketState where
  | created
  | opened
  | collect
  | closing
  | closed
deriving DecidableEq

def SocketState.stage (state : SocketState) : ℕ :=
  state.ctorIdx
def prxSoPropsTimeout : Int32 := 33

def minGcTimeout : UInt64 := 30000
def defaultGcTimeout : UInt64 := 120000
def recvPoolMin : UInt64 := 4
def recvPoolMax : UInt64 := 0x20000
def maxBufSize : UInt64 := 0x10000

/-- `prx_server_socket_t`. Of the client interface only the properties change; of them only the
timeout is read again. The message pool is present or not. -/
structure ServerSocket where
  sock : Option Pal.Socket
  timeout : UInt64
  serverId : IoRef
  linkMessage : Option Message
  state : SocketState
  lastError : Int32
  lastActivity : Ticks
  timeOpened : Ticks
  id : IoRef
  owner : IoRef
  streamId : IoRef
  serverStream : Bool
  stream : Option Connection
  polled : Bool
  readQueue : List Message
  writeQueue : List Message
  bytesSent : UInt64
  sendQueue : List Message
  bytesRecvd : UInt64
  recvQueue : List Message
  messagePool : Bool
  bufferSize : UInt64
  poolSize : UInt64

inductive Task where
  | openComplete
  | closeComplete
  | deliverResults
  | timeoutPollrequest
  | free
deriving DecidableEq

/-- Where the scheduler thread is inside `prx_server_socket_deliver_results`: at the head of a loop, in
`io_connection_send`, or before the push-back of a message that could not be sent. -/
inductive Delivery where
  | receive
  | sending (message : Message) (poll : Option Message)
  | sendFailed (message : Message) (poll : Option Message)
  | write
  | writing (message : Message)
  | writeFailed (message : Message)

inductive Caller where
  | task
  | worker (now : Ticks)
  | pollrequest (timeout : UInt64)

/-- Where the thread of the event port is with this socket: between the begin and the end callback
of a receive or a send, or not in a transfer. -/
inductive PortThread where
  | idle
  | receiving (message : Message) (result : Int32)
  | sending (message : Message)

def PortThread.isIdle : PortThread → Bool
  | .idle => true
  | _ => false

/-- What a socket did. All lists are oldest first. -/
structure History where
  /-- Number of message objects the socket got so far. -/
  objects : ℕ
  /-- The values written to `state`. -/
  states : List SocketState
  /-- How often `message_pool` and `stream` were assigned. -/
  pools : ℕ
  streams : ℕ
  /-- Messages put at the end of the receive queue, and those of them sent on the stream. -/
  arrived : List Message
  delivered : List Message
  /-- Data messages put at the end of the send queue, and those completed with their result. -/
  accepted : List Message
  completed : List (Message × Int32)
  /-- Bytes the operating system accepted for sending. -/
  osBytes : Bytes
  /-- Poll requests put into the read queue, and the answers sent to them. -/
  polls : List Message
  answers : List (ℕ × Message)
  /-- Open events delivered by the platform socket, and link responses produced. -/
  openedEvents : ℕ
  linkResponses : List Message
  /-- Responses that the request handlers sent. -/
  responses : List Message
  freed : ℕ
  /-- The program did something undefined. -/
  undefined : Bool

structure Calls where
  now : Ticks
  exit : Bool
  send : Message → Int32
  clone : Int32
  create : Int32
  allocate : Int32
  factory : Int32
  connectionString : Int32
  entry : Int32
  transport : Int32
  wsClient : Bool
  canRecv : Int32
  setsockopt : Int32
  joinGroup : Int32
  leaveGroup : Int32
  getsockopt : Int32 × UInt64
  getsockname : Int32 × SocketAddress
  getpeername : Int32 × SocketAddress
  eventCloseSent : Bool

def Calls.succeed (now : Ticks) : Calls where
  now
  exit := false
  send _ := erOk
  clone := erOk
  create := erOk
  allocate := erOk
  factory := erOk
  connectionString := erOk
  entry := erOk
  transport := erOk
  wsClient := true
  canRecv := erOk
  setsockopt := erOk
  joinGroup := erOk
  leaveGroup := erOk
  getsockopt := (erOk,maxBufSize)
  getsockname := (erOk,default)
  getpeername := (erOk,default)
  eventCloseSent := true

/-- A server socket and what surrounds it. `linkRefs` counts the references that keep the link message checked out; the
transport holds one until the handler has returned (`transportHolds`). -/
structure Cell where
  socket : ServerSocket
  inTable : Bool
  tasks : List Task
  delivery : Option (Delivery × Caller)
  portThread : PortThread
  linkRefs : ℕ
  transportHolds : Bool
  history : History

namespace Cell

def setState (c : Cell) (state : SocketState) : Cell :=
  { c with
    socket.state := state
    history.states := c.history.states ++ [state] }

/-- `__do_next` with a task of the socket. The worker of the server is queued again by each of its
runs, so that queueing it has no effect on what can happen. -/
def doNext (c : Cell) (task : Task) : Cell :=
  { c with tasks := c.tasks ++ [task] }

def doLater (c : Cell) (task : Task) : Cell :=
  { c with tasks := c.tasks.filter (· ≠ task) ++ [task] }
def onClosed (c : Cell) : Cell :=
  { c with socket.lastError := erOk }.doNext .closeComplete

def onOpened (c : Cell) (error : Int32) : Cell :=
  { c with
    socket.lastError := error
    history.openedEvents := c.history.openedEvents + 1 }.doNext .openComplete
def markUndefined (c : Cell) : Cell :=
  { c with history.undefined := true }

end Cell

def ioConnectionSend (connection : Option Connection) (calls : Calls) (message : Message) : Int32 :=
  if connection.isSome then calls.send message else erFault
def pollDue (close : Bool) (now : Ticks) (next : Message) : Bool :=
  close || decide (now ≤ next.content.pollMessage.timeout.toInt64)
def pollError (close : Bool) (next : Message) : Message :=
  { next.ioMessageAsResponse with errorCode := if close then erClosed else erTimeout }

def manageReadQueue (stream : Option Connection) (close : Bool) (calls : Calls) :
    List Message → List Message × List (ℕ × Message)
  | [] => ([],[])
  | next :: rest =>
    let (kept,answers) := manageReadQueue stream close calls rest
    if pollDue close calls.now next then
      let response := pollError close next
      (kept,if ioConnectionSend stream calls response = erOk then (next.object,response) :: answers else answers)
    else
      (next :: kept,answers)
def Cell.prxServerSocketManageReadQueue (c : Cell) (close : Bool) (calls : Calls) : Cell :=
  let (kept,answers) := manageReadQueue c.socket.stream close calls c.socket.readQueue
  { c with
    socket.readQueue := kept
    history.answers := c.history.answers ++ answers }
def ServerSocket.address (s : ServerSocket) (message : Message) : Message :=
  { message with
    proxyId := s.serverId
    targetId := s.streamId
    sourceId := s.id }
def Cell.prxServerSocketDeliverResults (c : Cell) (caller : Caller) : Cell :=
  { c with delivery := some (.receive,caller) }
def Cell.deliveryReturn (c : Cell) (caller : Caller) : Cell :=
  let c := { c with delivery := none }
  match caller with
  | .task => c
  | .worker now => { c with socket.lastActivity := now }
  | .pollrequest _ => if c.socket.readQueue = [] then c else c.doLater .timeoutPollrequest

def Cell.deliverReceive (c : Cell) (caller : Caller) : Cell :=
  if c.socket.polled then
    match c.socket.readQueue, c.socket.recvQueue with
    | poll :: polls, message :: rest =>
      let poll := poll.ioMessageAsResponse
      let message := c.socket.address { message with correlationId := poll.correlationId }
      { c with
        socket.readQueue := polls
        socket.recvQueue := rest
        delivery := some (.sending message (some poll),caller) }
    | _, _ => { c with delivery := some (.write,caller) }
  else
    match c.socket.recvQueue with
    | message :: rest =>
      { c with
        socket.recvQueue := rest
        delivery := some (.sending (c.socket.address message) none,caller) }
    | [] => { c with delivery := some (.write,caller) }

def Cell.deliverSending (c : Cell) (caller : Caller) (message : Message) (poll : Option Message) (calls : Calls) :
    Cell :=
  if ioConnectionSend c.socket.stream calls message = erOk then
    { c with
      delivery := some (.receive,caller)
      history.delivered := c.history.delivered ++ [message]
      history.answers := c.history.answers ++ poll.toList.map fun p => (p.object,message) }
  else
    { c with delivery := some (.sendFailed message poll,caller) }

def Cell.deliverStep (c : Cell) (calls : Calls) : Option Cell :=
  match c.delivery with
  | none => none
  | some (.receive,caller) => some (c.deliverReceive caller)
  | some (.sending message poll,caller) => some (c.deliverSending caller message poll calls)
  | some (.sendFailed message poll,caller) =>
    some { c with
      socket.recvQueue := message :: c.socket.recvQueue
      socket.readQueue := poll.toList ++ c.socket.readQueue
      delivery := some (.write,caller) }
  | some (.write,caller) =>
    match c.socket.writeQueue with
    | message :: rest =>
      some { c with
        socket.writeQueue := rest
        delivery := some (.writing message,caller) }
    | [] => some (c.deliveryReturn caller)
  | some (.writing message,caller) =>
    some (if ioConnectionSend c.socket.stream calls message = erOk then
      { c with delivery := some (.write,caller) }
    else
      { c with delivery := some (.writeFailed message,caller) })
  | some (.writeFailed message,caller) =>
    some ({ c with socket.writeQueue := message :: c.socket.writeQueue }.deliveryReturn caller)

end EdgeProxy.Server
