import EdgeProxy.Server.Requests
import EdgeProxy.Lib.Transition

/-! # A server socket as a system

The parts of `prx_server_worker` and `prx_server_handle_linkrequest` for one socket, and the events that can happen to
it, in any order. The scheduler thread does one thing at a time; the thread of the event port runs beside it.
-/
namespace EdgeProxy.Server
open Base Codec

def prxServerSocketCreate (serverId id owner : IoRef) : Cell where
  socket := {
    sock := none
    timeout := 0
    serverId
    linkMessage := none
    state := .created
    lastError := erOk
    lastActivity := 0
    timeOpened := 0
    id
    owner
    streamId := default
    serverStream := false
    stream := none
    polled := false
    readQueue := []
    writeQueue := []
    bytesSent := 0
    sendQueue := []
    bytesRecvd := 0
    recvQueue := []
    messagePool := false
    bufferSize := 0
    poolSize := 0 }
  inTable := true
  tasks := []
  delivery := none
  portThread := .idle
  linkRefs := 0
  transportHolds := false
  history := {
    objects := 0
    states := [.created]
    pools := 0
    streams := 0
    arrived := []
    delivered := []
    accepted := []
    completed := []
    osBytes := []
    polls := []
    answers := []
    openedEvents := 0
    linkResponses := []
    responses := []
    freed := 0
    undefined := false }

/-- `prx_server_socket_free`: everything the socket owns is released, and its tasks are cleared. The
platform socket is released in the state it has, which shows what its event port may still do. -/
def Cell.prxServerSocketFree (c : Cell) : Cell :=
  { c with
    socket.stream := none
    socket.writeQueue := []
    socket.sendQueue := []
    socket.readQueue := []
    socket.recvQueue := []
    socket.linkMessage := none
    socket.messagePool := false
    tasks := []
    history.freed := c.history.freed + 1 }

def ServerSocket.timedout (s : ServerSocket) (now : Ticks) : Bool :=
  ¬(s.lastActivity = 0 ∨ (now - s.lastActivity).toUInt64 < s.timeout)

/-- `pal_socket_close`; without an event handle the closed event comes before it returns. -/
def Cell.palSocketClose (c : Cell) (calls : Calls) : Cell :=
  match c.socket.sock with
  | none => c
  | some sock =>
    match Pal.palSocketClose sock calls.eventCloseSent with
    | none => c.markUndefined
    | some (sock,closed) =>
      let c := { c with socket.sock := some sock }
      if closed then c.onClosed else c

/-- `io_connection_close`: the transport calls the handler of the connection with the closed event
before it returns. Only `prx_server_socket_stream_handler` acts on it. -/
def Cell.ioConnectionClose (c : Cell) : Cell :=
  if c.socket.stream = some .webSocket then c.doLater .free else c

def Cell.workerClosed (c : Cell) : Cell :=
  let c :=
    if c.socket.stream.isSome ∧ ¬c.socket.serverStream then c.ioConnectionClose
    else { c with socket.stream := none }.doLater .free
  { c with inTable := false }
def Cell.workerCollect (c : Cell) (timedout : Bool) (calls : Calls) : Cell :=
  if c.socket.sock = none then c.setState .closed
  else if (c.socket.sendQueue ≠ [] ∨ c.socket.recvQueue ≠ []) ∧ ¬timedout ∧ ¬calls.exit then c
  else
    let c := { c with
      socket.timeout := 5 * 60 * 1000
      socket.lastActivity := calls.now }
    ((c.setState .closing).prxServerSocketManageReadQueue true calls).palSocketClose calls
def Cell.workerCreated (c : Cell) (timedout : Bool) (calls : Calls) : Cell :=
  if ¬timedout ∧ ¬calls.exit then c
  else
    let c := c.setState .collect
    { c with
      socket.sendQueue := []
      socket.recvQueue := [] }.workerCollect timedout calls
def Cell.closeMessage (c : Cell) : Message :=
  ioMessageCreate c.history.objects .close c.socket.id c.socket.streamId
def Cell.workerOpened (c : Cell) (timedout : Bool) (calls : Calls) : Cell :=
  if ¬timedout ∧ ¬calls.exit then c
  else
    let c := c.setState .created
    if timedout ∧ ¬calls.exit ∧ c.socket.messagePool ∧ calls.create = erOk then
      { c with
        socket.recvQueue := c.socket.recvQueue ++ [c.closeMessage]
        history.objects := c.history.objects + 1
        history.arrived := c.history.arrived ++ [c.closeMessage] }.prxServerSocketDeliverResults (.worker calls.now)
    else c.workerCreated timedout calls
def Cell.prxServerWorker (c : Cell) (calls : Calls) : Cell :=
  let timedout := c.socket.timedout calls.now
  match c.socket.state with
  | .closing => if timedout then (c.setState .closed).workerClosed else c
  | .closed => c.workerClosed
  | .opened => c.workerOpened timedout calls
  | .created => c.workerCreated timedout calls
  | .collect => c.workerCollect timedout calls

/-- How the platform can end the open for a link request: before there is a socket, in the resolution of a name, or with
a completed open of an address, of a name, or of an internal socket pair. -/
inductive PalOpen where
  | failed (error : PrxError)
  | resolveFailed (kind : Pal.SocketKind) (error : PrxError)
  | byAddress (kind : Pal.SocketKind) (result : Int32)
  | byName (kind : Pal.SocketKind) (result : Int32) (registered : Bool)
  | pair (kind : Pal.SocketKind) (result : Int32)

def palOpenState (result : Int32) : Pal.SocketState :=
  if result = erOk then .open else .closed

/-- The socket object the server gets. A socket opened by name is registered with the event port, also after a failure;
one opened by address is not. -/
def PalOpen.sock : PalOpen → Option Pal.Socket
  | .failed _ => none
  | .resolveFailed kind _ => some ⟨kind,.opening,.none⟩
  | .byAddress kind result => some ⟨kind,palOpenState result,.none⟩
  | .byName kind result registered =>
    some ⟨kind,palOpenState result,if result = erOk ∨ registered then .registered else .none⟩
  | .pair kind result => if result = erOk then some ⟨kind,.open,.registered⟩ else none

def PalOpen.opened : PalOpen → Option Int32
  | .failed _ => none
  | .resolveFailed _ _ => none
  | .byAddress _ result => some result
  | .byName _ result _ => some result
  | .pair _ result => some result
def PalOpen.result : PalOpen → Int32
  | .failed error => error.code
  | .resolveFailed _ error => error.code
  | .byAddress _ result => result
  | .byName _ _ _ => erOk
  | .pair _ result => result
def linkTimeout (timeout : UInt64) : UInt64 :=
  if timeout = 0 then defaultGcTimeout
  else if timeout < minGcTimeout then minGcTimeout
  else timeout

/-- `prx_server_handle_linkrequest` for the socket it created. The message is stored without a
reference of its own; the only one is that of the transport. -/
def Cell.prxServerHandleLinkrequest (c : Cell) (message : Message) (palOpen : PalOpen) (calls : Calls) : Cell :=
  let c := { c with
    socket.timeout := linkTimeout message.content.linkRequest.props.timeout
    socket.sock := palOpen.sock }
  let c := match palOpen.opened with
    | some error => c.onOpened error
    | none => c
  if palOpen.result = erOk then
    { c with
      socket.linkMessage := some { message with context := some .listener }
      socket.lastActivity := calls.now
      linkRefs := 1
      transportHolds := true }
  else
    let response := { message.ioMessageAsResponse with errorCode := palOpen.result }
    { c with history.linkResponses := c.history.linkResponses ++ [response] }.prxServerSocketFree

inductive Event where
  /-- A message arrives, from the websocket stream or through the control handler. -/
  | received (fromStream : Bool) (message : Message)
  | worker
  | task (task : Task)
  | deliver
  /-- The transport releases the link message after its handler returned. -/
  | transportRelease
  | beginReceive (result : Int32)
  | endReceive (os : Pal.OsResult) (converted : Int32) (data : Bytes) (addr : Option SocketAddress)
  | beginSend
  | endSend (prepared : Int32) (os : Pal.OsResult)
  | destroyed

abbrev Label := Event × Calls

/-- The socket is allocated and the program has not left its defined behaviour. -/
def Cell.live (c : Cell) : Bool :=
  c.history.freed = 0 ∧ ¬c.history.undefined

def Cell.schedulerIdle (c : Cell) : Bool :=
  c.delivery.isNone ∧ ¬c.transportHolds
def Cell.runTask (c : Cell) (task : Task) (calls : Calls) : Cell :=
  match task with
  | .openComplete => c.prxServerSocketOpenComplete calls
  | .closeComplete => c.prxServerSocketCloseComplete
  | .deliverResults => c.prxServerSocketDeliverResults .task
  | .timeoutPollrequest => c.prxServerSocketManageReadQueue false calls
  | .free => c.prxServerSocketFree

/-- The handler of a received message. Messages for a socket are dispatched through the table; only
the websocket stream of a socket calls its stream handler. -/
def Cell.received (c : Cell) (fromStream : Bool) (message : Message) (calls : Calls) : Option Cell :=
  if ¬c.inTable then none
  else if fromStream then
    if c.socket.stream = some .webSocket then some (c.prxServerSocketStreamHandler message calls) else none
  else some (c.prxServerSocketControlHandler message calls)

def Cell.destroyed (c : Cell) : Option Cell :=
  match c.socket.sock, c.portThread with
  | some sock, .idle =>
    if sock.handle = .deleting then
      let (sock,closed) := Pal.palSocketDestroyed sock
      let c := { c with socket.sock := some sock }
      some (if closed then c.onClosed else c)
    else none
  | _, _ => none
def Cell.schedule (c : Cell) (event : Event) (calls : Calls) : Option Cell :=
  match event with
  | .received fromStream message => c.received fromStream message calls
  | .worker => if c.inTable then some (c.prxServerWorker calls) else none
  | .task task => if task ∈ c.tasks then some ({ c with tasks := c.tasks.erase task }.runTask task calls) else none
  | _ => none

def Cell.step (c : Cell) (label : Label) : Option Cell :=
  if ¬c.live then none
  else
    match label.1 with
    | .deliver => c.deliverStep label.2
    | .transportRelease =>
      if c.transportHolds then some { c with transportHolds := false, linkRefs := c.linkRefs - 1 } else none
    | .beginReceive result => c.beginReceive result label.2
    | .endReceive os converted data addr => c.endReceive os converted data addr label.2
    | .beginSend => c.beginSend
    | .endSend prepared os => c.endSend prepared os label.2
    | .destroyed => c.destroyed
    | event => if c.schedulerIdle then c.schedule event label.2 else none

def linked (serverId id owner : IoRef) (message : Message) (palOpen : PalOpen) (calls : Calls) : Cell :=
  (prxServerSocketCreate serverId id owner).prxServerHandleLinkrequest message palOpen calls
def accepted (serverId id owner : IoRef) (timeout : UInt64) (link : Option Message) : Cell :=
  { prxServerSocketCreate serverId id owner with
    socket.timeout := timeout
    socket.linkMessage := link
    linkRefs := link.toList.length }

/-- The sockets a run can start from: a socket that a link request left behind, or one that an accept
attempt created. -/
inductive Born : Cell → Prop
  | link (serverId id owner : IoRef) (message : Message) (palOpen : PalOpen) (calls : Calls) :
      Born (linked serverId id owner message palOpen calls)
  | accept (serverId id owner : IoRef) (timeout : UInt64) (link : Option Message) :
      Born (accepted serverId id owner timeout link)

def linkedStream : Cell :=
  linked default default default (.request .link) (.byName .stream erOk true) (.succeed 1)
lemma born_linkedStream : Born linkedStream :=
  .link _ _ _ _ _ _
def linkDone : List Label :=
  [(.transportRelease,.succeed 1),(.task .openComplete,.succeed 1)]
def openPolled : Message :=
  { Message.request .open with content.openRequest.polled := true, content.openRequest.maxRecv := 1024 }

end EdgeProxy.Server
