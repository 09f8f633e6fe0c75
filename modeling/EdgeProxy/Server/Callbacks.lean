import EdgeProxy.Server.Socket

/-! # Callbacks of the platform socket

The handlers of `prx_server.c` for the events of the platform socket. The begin and end callbacks of a transfer run on
the thread of the event port, the completions on the scheduler thread.
-/
namespace EdgeProxy.Server
open Base Codec

def ServerSocket.openBufferSize (s : ServerSocket) (calls : Calls) : UInt64 :=
  if s.bufferSize = 0 then
    if calls.getsockopt.1 = erOk then calls.getsockopt.2 else maxBufSize
  else s.bufferSize
def poolSizeFor (bufferSize : UInt64) : UInt64 :=
  if recvPoolMax / bufferSize < recvPoolMin then recvPoolMin else recvPoolMax / bufferSize
def ServerSocket.linkResponse (s : ServerSocket) (calls : Calls) (message : Message) : Message × Int32 :=
  let response : LinkResponse := Content.zero.linkResponse (π := Bytes)
  if calls.getsockname.1 ≠ erOk then
    ({ message with content.linkResponse := response },calls.getsockname.1)
  else
    let response := { response with localAddress := calls.getsockname.2 }
    if calls.getpeername.1 ≠ erOk then
      ({ message with content.linkResponse := response },calls.getpeername.1)
    else
      let response := { response with peerAddress := calls.getpeername.2, linkId := s.id }
      ({ message with content.linkResponse := response },erOk)
def Cell.openCompleteRespond (c : Cell) (responder : Option Connection) (message : Message) (result : Int32) : Cell :=
  let message := if result ≠ erOk then { message with errorCode := result } else message
  let c := if result ≠ erOk then c.setState .collect else c
  { c with history.linkResponses := c.history.linkResponses ++ responder.toList.map fun _ => message }

/-- `prx_server_socket_open_complete`. A missing link message is dereferenced, and a receive buffer
size of zero is divided by. -/
def Cell.prxServerSocketOpenComplete (c : Cell) (calls : Calls) : Cell :=
  match c.socket.linkMessage with
  | none => c.markUndefined
  | some message =>
    let result := c.socket.lastError
    let c := { c with socket.linkMessage := none, socket.lastError := erOk }
    let response := { message with context := none }.ioMessageAsResponse
    if result ≠ erOk then c.openCompleteRespond message.context response result
    else
      let bufferSize : UInt64 := c.socket.openBufferSize calls
      if bufferSize = 0 then c.markUndefined
      else
        let c := { c with
          socket.bufferSize := bufferSize
          socket.poolSize := poolSizeFor bufferSize }
        let (response,result) := c.socket.linkResponse calls response
        c.openCompleteRespond message.context response result

def Cell.openFails (c : Cell) (calls : Calls) : Bool :=
  c.socket.linkMessage.isSome ∧ (c.socket.lastError ≠ erOk ∨
    c.socket.openBufferSize calls ≠ 0 ∧ (calls.getsockname.1 ≠ erOk ∨ calls.getpeername.1 ≠ erOk))
def Cell.prxServerSocketCloseComplete (c : Cell) : Cell :=
  c.setState .closed

/-- `prx_server_socket_on_begin_receive`: the message whose buffer is handed to the platform. The
pointer is null when no message could be made, and also for a buffer size of zero. -/
def Cell.prxServerSocketOnBeginReceive (c : Cell) (calls : Calls) : Cell × Option Message :=
  if ¬c.socket.messagePool ∨ calls.create ≠ erOk then (c,none)
  else
    let message := ioMessageCreate c.history.objects .data c.socket.id c.socket.streamId
    let c := { c with history.objects := c.history.objects + 1 }
    if c.socket.bufferSize = 0 ∨ calls.allocate ≠ erOk then (c,none)
    else (c,some message)

def receivedMessage (message : Message) (data : Bytes) (addr : Option SocketAddress) (result : Int32) : Message :=
  let content := { message.content.dataMessage with buffer := some data }
  let content :=
    if result ≠ erOk then content
    else match addr with
      | some addr => { content with sourceAddress := addr }
      | none => { content with sourceAddress.family := prxAddressFamilyUnspec }
  { message with content.dataMessage := content, errorCode := result }

/-- `prx_server_socket_on_end_receive` with the bytes `data` in the buffer. -/
def Cell.prxServerSocketOnEndReceive (c : Cell) (message : Message) (data : Bytes) (addr : Option SocketAddress)
    (result : Int32) (calls : Calls) : Cell :=
  if result = erAborted ∨ result = erRetry then c
  else
    let message := receivedMessage message data addr result
    { c with
      socket.lastActivity := calls.now
      socket.bytesRecvd := c.socket.bytesRecvd + UInt64.ofNat data.length
      socket.recvQueue := c.socket.recvQueue ++ [message]
      history.arrived := c.history.arrived ++ [message] }.doNext .deliverResults

def Cell.beginReceive (c : Cell) (result : Int32) (calls : Calls) : Option Cell :=
  match c.socket.sock, c.portThread with
  | some sock, .idle =>
    match Pal.palSocketOnRecvEnter sock result with
    | some sock =>
      match { c with socket.sock := some sock }.prxServerSocketOnBeginReceive calls with
      | (c,some message) => some { c with portThread := .receiving message result }
      | (c,none) => some c
    | none => none
  | _, _ => none
def Cell.endReceive (c : Cell) (os : Pal.OsResult) (converted : Int32) (data : Bytes)
    (addr : Option SocketAddress) (calls : Calls) : Option Cell :=
  match c.portThread with
  | .receiving message result =>
    let (result,size) := Pal.palSocketOnRecvFinish result c.socket.bufferSize os converted
    if data.length = size.toNat then
      some ({ c with portThread := .idle }.prxServerSocketOnEndReceive message data addr result calls)
    else none
  | _ => none
def Message.payload (message : Message) : Bytes :=
  message.content.dataMessage.buffer.getD []
def Cell.prxServerSocketOnBeginSend (c : Cell) : Cell × Option Message :=
  match c.socket.sendQueue with
  | [] => (c,none)
  | message :: rest => ({ c with socket.sendQueue := rest },some message)
def Cell.endSendRespond (c : Cell) (message : Message) (result : Int32) : Cell :=
  let message := { message.ioMessageAsResponse with type := MessageType.poll.code, errorCode := result }
  { c with socket.writeQueue := c.socket.writeQueue ++ [message] }.doNext .deliverResults

/-- `prx_server_socket_on_end_send`; the number of bytes sent is not used. -/
def Cell.prxServerSocketOnEndSend (c : Cell) (message : Message) (result : Int32) (calls : Calls) : Cell :=
  if result = erRetry then
    { c with socket.sendQueue := message :: c.socket.sendQueue }
  else
    let c := { c with history.completed := c.history.completed ++ [(message,result)] }
    if result ≠ erOk ∧ result ≠ erAborted then c.endSendRespond message result
    else
      let c := if result = erOk then { c with socket.lastActivity := calls.now } else c
      if ¬c.socket.polled then c else c.endSendRespond message result

/-- A writability event on the descriptor, up to the system call. The platform takes a null buffer
for the end of the data and makes no end callback. -/
def Cell.beginSend (c : Cell) : Option Cell :=
  match c.socket.sock, c.portThread with
  | some sock, .idle =>
    match Pal.palSocketOnSendEnter sock with
    | some _ =>
      match c.prxServerSocketOnBeginSend with
      | (c,some message) =>
        if message.content.dataMessage.buffer.isSome then some { c with portThread := .sending message }
        else some c
      | (c,none) => some c
    | none => none
  | _, _ => none

def acceptedBytes (prepared : Int32) (os : Pal.OsResult) (payload : Bytes) : Bytes :=
  if prepared ≠ erOk then [] else payload.take os.ret.toInt.toNat
def Cell.endSend (c : Cell) (prepared : Int32) (os : Pal.OsResult) (calls : Calls) : Option Cell :=
  match c.portThread with
  | .sending message =>
    let payload := message.payload
    if os.ret.toInt ≤ payload.length then
      let (result,_) := Pal.palSocketOnSendFinish prepared (.ofNat payload.length) os
      some ({ c with
        portThread := .idle
        history.osBytes := c.history.osBytes ++ acceptedBytes prepared os payload
        }.prxServerSocketOnEndSend message result calls)
    else none
  | _ => none

end EdgeProxy.Server
