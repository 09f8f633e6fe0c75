import EdgeProxy.Server.Callbacks

/-! # Request handlers

The handlers of `prx_server.c` for messages that arrive for a socket, on the scheduler thread.
-/
namespace EdgeProxy.Server
open Base Codec

def Cell.respond (c : Cell) (responder : Option Connection) (message : Message) : Cell :=
  { c with history.responses := c.history.responses ++ responder.toList.map fun _ => message }

/-- `pal_socket_can_recv` and `pal_socket_can_send`: without an event handle they fail. -/
def ServerSocket.palSocketCanRecv (s : ServerSocket) (calls : Calls) : Int32 :=
  match s.sock with
  | none => erFault
  | some sock => if sock.handle = .none then erFault else calls.canRecv

def OpenRequest.hasConnectionString (request : OpenRequest Bytes) : Bool :=
  match request.connectionString with
  | some (b :: _) => b ≠ 0
  | _ => false

/-- The name service entry of the stream: an error, or whether there is one. -/
def openEntry (request : OpenRequest Bytes) (calls : Calls) : Except Int32 Bool :=
  if OpenRequest.hasConnectionString request then
    if request.type = 0 then
      if calls.connectionString ≠ erOk then .error calls.connectionString
      else if calls.entry ≠ erOk then .error calls.entry
      else .ok true
    else .error erNotSupported
  else if ¬request.polled then .error erInvalidFormat
  else .ok false

def openConnection (request : OpenRequest Bytes) (calls : Calls) : Except Int32 Connection :=
  match openEntry request calls with
  | .error e => .error e
  | .ok false => .ok .listener
  | .ok true =>
    if request.polled then
      if calls.transport ≠ erOk then .error calls.transport else .ok .polledStream
    else if calls.wsClient then
      if calls.transport ≠ erOk then .error calls.transport else .ok .webSocket
    else .error erNotSupported
def Cell.setStream (c : Cell) (connection : Connection) : Cell :=
  { c with
    socket.stream := some connection
    socket.serverStream := c.socket.serverStream || decide (connection = .listener)
    history.streams := c.history.streams + 1 }

def Cell.openBody (c : Cell) (message : Message) (calls : Calls) : Cell × Int32 :=
  let request := message.content.openRequest
  let c := { c with
    socket.streamId := request.streamId
    socket.polled := request.polled
    socket.bufferSize := request.maxRecv.toUInt64 }
  if calls.factory ≠ erOk then (c,calls.factory)
  else
    let c := { c with
      socket.messagePool := true
      history.pools := c.history.pools + 1 }
    match openConnection request calls with
    | .error e => (c,e)
    | .ok connection =>
      let c := c.setStream connection
      let result := c.socket.palSocketCanRecv calls
      if result ≠ erOk then (c,result)
      else
        let c := { c with socket.timeOpened := calls.now, socket.lastActivity := calls.now }
        (c.setState .opened,erOk)

def Cell.prxServerSocketHandleOpenrequest (c : Cell) (responder : Option Connection) (message : Message)
    (calls : Calls) : Cell :=
  let (c,result) :=
    match c.socket.state with
    | .opened => (c,erBadState)
    | .created => c.openBody message calls
    | _ => (c,erClosed)
  let c := if result ≠ erOk then c.setState .collect else c
  c.respond responder { message.ioMessageAsResponse with errorCode := result, targetId := c.socket.owner }
def Cell.respondClosed (c : Cell) (responder : Option Connection) (message : Message) : Cell :=
  if c.socket.polled then
    c.respond responder { message.ioMessageAsResponse with errorCode := erClosed }
  else c
def Cell.prxServerSocketHandleDatamessage (c : Cell) (responder : Option Connection) (message : Message)
    (calls : Calls) : Cell :=
  if c.socket.state ≠ .opened then c.respondClosed responder message
  else if calls.clone ≠ erOk then c
  else
    let message := { message with object := c.history.objects }
    { c with
      socket.sendQueue := c.socket.sendQueue ++ [message]
      history.objects := c.history.objects + 1
      history.accepted := c.history.accepted ++ [message] }
def Message.queuedAt (message : Message) (now : Ticks) : Message :=
  { message with content.pollMessage.timeout := now.toUInt64 + message.content.pollMessage.timeout }

/-- `prx_server_socket_handle_pollrequest` up to the call of `prx_server_socket_deliver_results`. -/
def Cell.prxServerSocketHandlePollrequest (c : Cell) (responder : Option Connection) (message : Message)
    (calls : Calls) : Cell :=
  if c.socket.state ≠ .opened then c.respondClosed responder message
  else if calls.clone ≠ erOk then c
  else
    let timeout := message.content.pollMessage.timeout
    let message := { message with object := c.history.objects }.queuedAt calls.now
    { c with
      socket.timeout := (timeout.toUInt32 * 3).toUInt64
      socket.lastActivity := calls.now
      socket.readQueue := c.socket.readQueue ++ [message]
      history.objects := c.history.objects + 1
      history.polls := c.history.polls ++ [message] }.prxServerSocketDeliverResults (.pollrequest timeout)

def Cell.prxServerSocketHandleCloserequest (c : Cell) (responder : Option Connection) (message : Message)
    (calls : Calls) : Cell :=
  let live := c.socket.state = .created ∨ c.socket.state = .opened
  let response := { message.ioMessageAsResponse with
    errorCode := erOk
    content.closeResponse := {
      timeOpen := (calls.now - c.socket.timeOpened).toUInt64
      bytesReceived := c.socket.bytesRecvd
      bytesSent := c.socket.bytesSent
      errorCode := if live then erOk else erClosed } }
  let c := if live then c.setState .collect else c
  c.respond responder response
def setoptResult (option : Property Bytes) (calls : Calls) : Int32 :=
  if option.type = prxSoIpMulticastJoin then calls.joinGroup
  else if option.type = prxSoIpMulticastLeave then calls.leaveGroup
  else if option.type = prxSoPropsTimeout then erOk
  else if option.type < .ofNat prxSoMax then calls.setsockopt
  else erNotSupported
def Cell.prxServerSocketHandleSetoptrequest (c : Cell) (responder : Option Connection) (message : Message)
    (calls : Calls) : Cell :=
  let option := message.content.setoptRequest.soVal
  if c.socket.state ≠ .created ∧ c.socket.state ≠ .opened then
    c.respond responder { message.ioMessageAsResponse with errorCode := erClosed }
  else
    let c := { c with
      socket.lastActivity := calls.now
      socket.timeout := if option.type = prxSoPropsTimeout then option.value else c.socket.timeout }
    c.respond responder { message.ioMessageAsResponse with errorCode := setoptResult option calls }
def getoptValue (s : ServerSocket) (soOpt : Int32) (calls : Calls) : Except Int32 UInt64 :=
  if soOpt = prxSoIpMulticastJoin ∨ soOpt = prxSoIpMulticastLeave then .error erNotSupported
  else if soOpt = prxSoPropsTimeout then .ok s.timeout
  else if soOpt.toUInt32.toNat < prxSoMax then
    if calls.getsockopt.1 ≠ erOk then .error calls.getsockopt.1 else .ok calls.getsockopt.2
  else .error erNotSupported

def Cell.prxServerSocketHandleGetoptrequest (c : Cell) (responder : Option Connection) (message : Message)
    (calls : Calls) : Cell :=
  if responder = none then c
  else
    let soOpt := message.content.getoptRequest.soOpt
    let response := message.ioMessageAsResponse
    if c.socket.state ≠ .created ∧ c.socket.state ≠ .opened then
      c.respond responder { response with errorCode := erClosed }
    else
      let c := { c with socket.lastActivity := calls.now }
      match getoptValue c.socket soOpt calls with
      | .error e => c.respond responder { response with errorCode := e }
      | .ok value =>
        c.respond responder { response with
          errorCode := erOk
          content.getoptResponse.soVal := { Property.zero with type := soOpt, value } }

def Cell.prxServerSocketStreamHandler (c : Cell) (message : Message) (calls : Calls) : Cell :=
  match messageType message.type with
  | some .close => c.prxServerSocketHandleCloserequest none message calls
  | some .poll => c.prxServerSocketHandlePollrequest none message calls
  | some .data => c.prxServerSocketHandleDatamessage none message calls
  | _ => c
def Cell.prxServerSocketControlHandler (c : Cell) (message : Message) (calls : Calls) : Cell :=
  let listener := some Connection.listener
  match messageType message.type with
  | some .close => c.prxServerSocketHandleCloserequest listener message calls
  | some .open => c.prxServerSocketHandleOpenrequest listener message calls
  | some .getopt => c.prxServerSocketHandleGetoptrequest listener message calls
  | some .setopt => c.prxServerSocketHandleSetoptrequest listener message calls
  | some .poll => c.prxServerSocketHandlePollrequest listener message calls
  | some .data => c.prxServerSocketHandleDatamessage listener message calls
  | _ => c

end EdgeProxy.Server
