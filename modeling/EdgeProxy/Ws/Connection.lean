import Mathlib.Algebra.GroupWithZero.Nat
import Mathlib.Algebra.Group.Int.Defs
import EdgeProxy.Base.Error

/-! # The websocket connection

The connection of `io_ws.c`. Its functions are tasks of the scheduler, calls of its owner, and events of the websocket
client on its own thread. A message is written and read in callbacks of the owner, during which the client can go on.
-/
namespace EdgeProxy.Ws
open Base

inductive Status where
  | connected
  | disconnected
  | closing
  | closed
deriving DecidableEq

inductive Task where
  | disconnect
  | free
  | reset
  | deliverStream
  | deliverSendResults
  | onDisconnected
  | onConnected
  | monitor
  | reconnect
deriving DecidableEq

structure Entry where
  task : Task
  delay : UInt32
deriving DecidableEq

inductive BufferType where
  | unknown
  | binaryMsg
  | binaryFragment
  | utf8Msg
  | utf8Fragment
deriving DecidableEq

def BufferType.isMsg : BufferType → Bool
  | .binaryMsg | .utf8Msg => true
  | _ => false
def BufferType.isBinary : BufferType → Bool
  | .binaryMsg | .binaryFragment => true
  | _ => false

variable {K : Type}

/-- `io_queue_buffer_t` at the address `key`, with its content. No code stands for `er_ok`. The `fragments` are the
buffers before it with the rest of its message, which the source does not keep. -/
structure Buffer (K : Type) where
  key : ℕ
  length : ℕ
  data : List UInt8
  readOffset : ℕ
  flags : BufferType
  cb : Option K
  code : Option PrxError
  fragments : List ℕ
deriving DecidableEq

def defaultFrameSize : ℕ := 0x1000
def newBuffer (key : ℕ) : Buffer K where
  key
  length := defaultFrameSize
  data := []
  readOffset := 0
  flags := .unknown
  cb := none
  code := none
  fragments := []
def Buffer.message (buffer : Buffer K) : List ℕ :=
  buffer.fragments ++ [buffer.key]

structure Stream (K : Type) where
  ready : List (Buffer K)
  inprogress : List (Buffer K)
  done : List (Buffer K)
  current : Option (Buffer K)
  readable : UInt64
deriving DecidableEq

def Stream.empty : Stream K :=
  ⟨[],[],[],none,0⟩

inductive PalCall where
  | create
  | addHeader (key value : String)
  | connect
  | canSend
  | canRecv
  | disconnect
  | close
deriving DecidableEq

structure Completion (K : Type) where
  cb : K
  buffers : List ℕ
  result : Option PrxError
deriving DecidableEq

/-- `io_ws_connection`. The client holds the buffers that it is `sending` and `receiving`, and the thread of the
scheduler can be in the callback that is `writing` a message, or in the one a message is `delivering` to. A token
provider has a policy or none. The fields from `buffers` on are a history that the source does not keep; `wire` has what
the client reports as sent, which it does before it writes. -/
structure Connection (K : Type) where
  userName : Option String
  password : Option String
  tokenProvider : Option (Option String)
  userHeaderKey : Option String
  pwdHeaderKey : Option String
  expiry : ℤ
  keepAliveInterval : UInt32
  wsclient : Bool
  tasks : List Entry
  outbound : Stream K
  inbound : Stream K
  lastActivity : ℤ
  lastSuccess : ℤ
  reconnectCb : Bool
  backOffInSeconds : ℕ
  status : Status
  sending : Option (Buffer K)
  receiving : Option (Buffer K)
  writing : Bool
  delivering : Bool
  buffers : ℕ
  fragments : List ℕ
  pal : List PalCall
  epoch : ℕ
  wire : List (ℕ × ℕ)
  completions : List (Completion K)
  incoming : List (List UInt8)
  unfinished : List UInt8
  deliveries : List (List UInt8)
  closed : Bool
  frees : ℕ
deriving DecidableEq

structure Results where
  reconnectCb : Bool := true
  create : Option PrxError := none
  newToken : Except PrxError (String × ℤ) := .ok ("",0)
  addUserHeader : Option PrxError := none
  addPwdHeader : Option PrxError := none
  connect : Option PrxError := none

def Connection.doNext (c : Connection K) (task : Task) : Connection K :=
  { c with tasks := c.tasks ++ [⟨task,0⟩] }
def Connection.doLater (c : Connection K) (task : Task) (delay : UInt32) : Connection K :=
  { c with tasks := c.tasks.filter (·.task ≠ task) ++ [⟨task,delay⟩] }
def Connection.clearTasks (c : Connection K) : Connection K :=
  { c with tasks := [] }
def Connection.call (c : Connection K) (call : PalCall) : Connection K :=
  { c with pal := c.pal ++ [call] }
def Buffer.abort (buffer : Buffer K) : List (Completion K) :=
  (buffer.cb.map fun cb => ⟨cb,buffer.message,some .aborted⟩).toList

structure Reading (K : Type) where
  bytes : List UInt8
  current : Option (Buffer K)
  inprogress : List (Buffer K)
  result : Option PrxError
deriving DecidableEq

/-- The loop of `io_ws_connection_stream_reader` with a current buffer and the buffers in progress after it. A buffer
that was read to its end is released. -/
def readLoop : ℕ → Buffer K → List (Buffer K) → Reading K
  | count, buffer, rest =>
    let wasRead := min (buffer.length - buffer.readOffset) count
    let bytes := (buffer.data.drop buffer.readOffset).take wasRead
    let buffer := { buffer with readOffset := buffer.readOffset + wasRead }
    let current := if buffer.length = buffer.readOffset then none else some buffer
    if count - wasRead = 0 then ⟨bytes,current,rest,none⟩
    else
      match rest with
      | [] => ⟨bytes,none,[],some .reading⟩
      | next :: rest =>
        let reading := readLoop (count - wasRead) next rest
        { reading with bytes := bytes ++ reading.bytes }

def Stream.read (count : ℕ) (s : Stream K) : Reading K :=
  if count = 0 then ⟨[],s.current,s.inprogress,none⟩
  else
    match s.current, s.inprogress with
    | some buffer, rest => readLoop count buffer rest
    | none, [] => ⟨[],none,[],some .reading⟩
    | none, buffer :: rest => readLoop count buffer rest
def Connection.streamReset (c : Connection K) : Connection K :=
  { c with inbound.ready := [], outbound.current := none }
def Connection.flushFull (c : Connection K) : Connection K :=
  match c.outbound.current with
  | some buffer =>
    if buffer.length - buffer.data.length = 0 then
      { c with
        outbound.ready := c.outbound.ready ++ [{ buffer with flags := .binaryFragment }]
        outbound.current := none
        fragments := c.fragments ++ [buffer.key] }
    else c
  | none => c
def Connection.fill (buffer : Buffer K) (data : List UInt8) (c : Connection K) : Connection K :=
  { c with outbound.current := some { buffer with
      data := buffer.data ++ data.take (buffer.length - buffer.data.length) } }

/-- The loop of `io_ws_connection_stream_writer`, in which every round writes something. The list says whether there is
memory for each of the buffers that are created. -/
def Connection.writeLoop : ℕ → List Bool → List UInt8 → Connection K → Connection K × Option PrxError
  | 0, _, _, c => (c,none)
  | fuel + 1, memory, data, c =>
    if data.isEmpty then (c,none)
    else
      let c := c.flushFull
      match c.outbound.current with
      | some buffer => writeLoop fuel memory (data.drop (buffer.length - buffer.data.length)) (c.fill buffer data)
      | none =>
        if memory.headD true then
          let buffer : Buffer K := newBuffer c.buffers
          let c := { c with buffers := c.buffers + 1 }
          writeLoop fuel memory.tail (data.drop (buffer.length - buffer.data.length)) (c.fill buffer data)
        else (c,some .outOfMemory)

def Connection.streamWriter (memory : List Bool) (data : List UInt8) (c : Connection K) :
    Connection K × Option PrxError :=
  c.writeLoop data.length memory data
def elapsed (x : ℤ) : UInt32 :=
  .ofNat (x % 2 ^ 32).toNat
def Stream.rollback (s : Stream K) : Stream K :=
  { s with ready := s.inprogress ++ s.ready, inprogress := [] }
def Connection.disconnect (c : Connection K) : Connection K :=
  let c := { c with outbound := c.outbound.rollback }
  if c.status = .connected then c.call .disconnect else c

/-- `io_ws_connection_free`. Releasing the scheduler clears the tasks, and freeing a queue releases its buffers. -/
def Connection.free (c : Connection K) : Connection K :=
  let c := { c with status := .closing }
  if c.wsclient then c.call .close
  else
    let c := { c with status := .closed }.clearTasks
    { c with
      completions := c.completions ++
        (c.outbound.done ++ c.outbound.inprogress ++ c.outbound.ready).flatMap Buffer.abort
      inbound := .empty
      outbound := .empty
      frees := c.frees + 1 }

def Connection.clearFailures (now : ℤ) (c : Connection K) : Connection K :=
  { c with lastSuccess := now, lastActivity := now, backOffInSeconds := 0 }
def nextBackOff (backOffInSeconds : ℕ) : ℕ :=
  min ((if backOffInSeconds = 0 then 1 else backOffInSeconds) * 2) (1 * 60 * 60)

def Connection.reset (results : Results) (c : Connection K) : Connection K :=
  let c := c.clearTasks
  if c.reconnectCb ∧ !results.reconnectCb then c
  else
    let c := c.doLater .reconnect (.ofNat (c.backOffInSeconds * 1000))
    { c with backOffInSeconds := nextBackOff c.backOffInSeconds, status := .disconnected }
def takeMessage : List (Buffer K) → Option (List (Buffer K) × List (Buffer K))
  | [] => none
  | buffer :: ready =>
    if buffer.flags = .binaryMsg then some ([buffer],ready)
    else (takeMessage ready).map fun (message,ready) => (buffer :: message,ready)

/-- `io_ws_connection_deliver_stream` up to the callback of the receiver. If no message ends, a buffer is read through
a null pointer. -/
def Connection.deliverStream (c : Connection K) : Except Stop (Connection K) :=
  match takeMessage c.inbound.ready with
  | none => .error .undefined
  | some (message,ready) =>
    .ok { c with
      inbound.ready := ready
      inbound.inprogress := c.inbound.inprogress ++ message
      inbound.readable := .ofNat (message.map Buffer.length).sum
      delivering := true
      deliveries := c.deliveries ++ [[]] }

def Connection.received (now : ℤ) (result : Option PrxError) (c : Connection K) : Connection K :=
  let c := { c with inbound.current := none, inbound.readable := 0, delivering := false }
  match result with
  | none => c.clearFailures now
  | some _ => c.doNext .disconnect
def extendLast (deliveries : List (List UInt8)) (bytes : List UInt8) : List (List UInt8) :=
  deliveries.dropLast ++ [deliveries.getLastD [] ++ bytes]
def Connection.read (count : ℕ) (c : Connection K) : Connection K × Reading K :=
  let reading := c.inbound.read count
  ({ c with
    inbound.current := reading.current
    inbound.inprogress := reading.inprogress
    inbound.readable := c.inbound.readable - .ofNat reading.bytes.length
    deliveries := extendLast c.deliveries reading.bytes },reading)
def Buffer.completion (buffer : Buffer K) : List (Completion K) :=
  (buffer.cb.map fun cb => ⟨cb,buffer.message,buffer.code⟩).toList
def Connection.deliverSendResults (c : Connection K) : Connection K :=
  { c with
    completions := c.completions ++ c.outbound.done.flatMap Buffer.completion
    outbound.done := [] }
def Connection.onDisconnected (c : Connection K) : Connection K :=
  if c.status = .closing then c.doNext .free
  else if c.status = .connected then { c with status := .disconnected }.doNext .reset
  else c

def Connection.onConnected (now : ℤ) (c : Connection K) : Connection K :=
  ({ c with status := .connected, lastActivity := now }.call .canSend).call .canRecv
def Connection.expired (now : ℤ) (c : Connection K) : Prop :=
  c.expiry ≠ 0 ∧ c.expiry < now
instance {now : ℤ} {c : Connection K} : Decidable (c.expired now) :=
  inferInstanceAs (Decidable (_ ∧ _))

namespace Connection

def checkLater (now : ℤ) (timeToWait : UInt32) (c : Connection K) : Connection K :=
  let timeToWait :=
    if c.expiry ≠ 0 ∧ timeToWait > elapsed (c.expiry - now) then elapsed (c.expiry - now) else timeToWait
  c.doLater .monitor timeToWait
def monitor (now : ℤ) (c : Connection K) : Connection K :=
  if c.expired now then c.doNext .disconnect
  else
    let timeDiff := elapsed (now - c.lastActivity)
    if timeDiff ≥ c.keepAliveInterval then
      if timeDiff ≥ 2 * c.keepAliveInterval then c.doNext .disconnect
      else c.checkLater now c.keepAliveInterval
    else c.checkLater now (c.keepAliveInterval - timeDiff)
def addHeader (key value : Option String) (result : Option PrxError) (c : Connection K) :
    Connection K × Option PrxError :=
  match value, key with
  | none, _ => (c,none)
  | some _, none => (c,some .arg)
  | some value, some key => (c.call (.addHeader key value),result)

/-- The headers with the credentials, which the address takes precedence for over the token provider. -/
def addHeaders (token : Option String) (results : Results) (c : Connection K) :
    Connection K × Option PrxError :=
  match c.addHeader c.userHeaderKey (c.userName <|> c.tokenProvider.join) results.addUserHeader with
  | (c,some e) => (c,some e)
  | (c,none) => c.addHeader c.pwdHeaderKey (c.password <|> token) results.addPwdHeader

def openClient (now : ℤ) (results : Results) (c : Connection K) : Connection K × Option PrxError :=
  if c.wsclient then (c,none)
  else
    match results.create with
    | some e => (c.call .create,some e)
    | none =>
      let c := { c.call .create with wsclient := true }
      let token := if c.tokenProvider.isSome then results.newToken.map some else .ok none
      match token with
      | .error e => (c,some e)
      | .ok token =>
        let c := { c with expiry := (token.map fun token : String × ℤ => now + token.2).getD c.expiry }
        c.addHeaders (token.map Prod.fst) results

def reconnect (now : ℤ) (results : Results) (c : Connection K) : Connection K :=
  match c.openClient now results with
  | (c,some _) => c.doNext .reset
  | (c,none) =>
    match results.connect with
    | some _ => (c.call .connect).doNext .reset
    | none => { (c.call .connect).call .canRecv with lastActivity := now }.doNext .monitor
def runTask (now : ℤ) (results : Results) (c : Connection K) : Task → Except Stop (Connection K)
  | .disconnect => .ok c.disconnect
  | .free => .ok c.free
  | .reset => .ok (c.reset results)
  | .deliverStream => c.deliverStream
  | .deliverSendResults => .ok c.deliverSendResults
  | .onDisconnected => .ok c.onDisconnected
  | .onConnected => .ok (c.onConnected now)
  | .monitor => .ok (c.monitor now)
  | .reconnect => .ok (c.reconnect now results)

end Connection

/-- What the websocket client calls back with. A buffer is asked for to receive in, for which there may be no memory,
or to send, and is given back with the result. -/
inductive Event where
  | connected (error : Option PrxError)
  | disconnected
  | closed
  | beginRecv (memory : Bool)
  | endRecv (data : List UInt8) (type : BufferType) (result : Option PrxError)
  | beginSend
  | endSend (result : Option PrxError)
deriving DecidableEq

namespace Connection

def onBeginReceive (memory : Bool) (c : Connection K) : Connection K :=
  if memory then { c with receiving := some (newBuffer c.buffers), buffers := c.buffers + 1 } else c
def receives (data : List UInt8) (type : BufferType) (c : Connection K) : Connection K :=
  if type.isMsg then { c with incoming := c.incoming ++ [c.unfinished ++ data], unfinished := [] }
  else { c with unfinished := c.unfinished ++ data }

def onEndReceive (data : List UInt8) (type : BufferType) (result : Option PrxError) (buffer : Buffer K)
    (c : Connection K) : Connection K :=
  let c := { c with receiving := none }
  match result with
  | some .aborted => c
  | some _ => c.doNext .disconnect
  | none =>
    let c := c.receives data type
    let buffer := { buffer with flags := type, length := data.length, data }
    let c := { c with inbound.ready := c.inbound.ready ++ [buffer] }
    if type = .binaryMsg then c.doNext .deliverStream else c
def onBeginSend (c : Connection K) : Connection K :=
  match c.outbound.ready with
  | [] => c
  | buffer :: ready => { c with sending := some buffer, outbound.ready := ready }

def onEndSend (result : Option PrxError) (buffer : Buffer K) (c : Connection K) : Connection K :=
  let buffer := { buffer with code := result }
  let c := { c with sending := none, outbound.inprogress := c.outbound.inprogress ++ [buffer] }
  match result with
  | none =>
    let c := { c with wire := c.wire ++ [(c.epoch,buffer.key)] }
    if buffer.flags = .binaryMsg then
      { c with
        outbound.done := c.outbound.done ++ c.outbound.inprogress
        outbound.inprogress := [] }.doNext .deliverSendResults
    else c
  | some .aborted => c
  | some _ => c.doNext .disconnect

/-- `io_ws_connection_event_handler`. The client asks for a buffer when it has none, and gives back the one it has
before it is closed. -/
def handleEvent (c : Connection K) : Event → Option (Connection K)
  | .connected none => some ({ c with epoch := c.epoch + 1, unfinished := [] }.doNext .onConnected)
  | .connected (some _) => some ({ c with status := .connected }.doNext .onDisconnected)
  | .disconnected => some (c.doNext .onDisconnected)
  | .closed =>
    if c.sending.isSome ∨ c.receiving.isSome then none else some ({ c with wsclient := false }.doNext .free)
  | .beginRecv memory => if c.receiving.isSome then none else some (c.onBeginReceive memory)
  | .endRecv data type result => c.receiving.map fun buffer => c.onEndReceive data type result buffer
  | .beginSend => if c.sending.isSome then none else some c.onBeginSend
  | .endSend result => c.sending.map fun buffer => c.onEndSend result buffer

def initial (userName password : Option String) (tokenProvider : Option (Option String))
    (userHeaderKey pwdHeaderKey : Option String) : Connection K where
  userName
  password
  tokenProvider
  userHeaderKey
  pwdHeaderKey
  expiry := 0
  keepAliveInterval := 60 * 1000
  wsclient := false
  tasks := []
  outbound := .empty
  inbound := .empty
  lastActivity := 0
  lastSuccess := 0
  reconnectCb := false
  backOffInSeconds := 0
  status := .disconnected
  sending := none
  receiving := none
  writing := false
  delivering := false
  buffers := 0
  fragments := []
  pal := []
  epoch := 0
  wire := []
  completions := []
  incoming := []
  unfinished := []
  deliveries := []
  closed := false
  frees := 0

end Connection

structure CreateResults where
  memory : Bool := true
  clone : Option PrxError := none
  headerMemory : Bool := true
  scheduler : Option PrxError := none
  inboundQueue : Option PrxError := none
  outboundQueue : Option PrxError := none
deriving DecidableEq

def Connection.create (userName password : Option String) (tokenProvider : Option (Option String))
    (userHeaderKey pwdHeaderKey : Option String) (results : CreateResults) : Except PrxError (Connection K) :=
  if !results.memory then .error .outOfMemory
  else
    match results.clone with
    | some e => .error e
    | none =>
      if !results.headerMemory then .error .outOfMemory
      else
        match results.scheduler <|> results.inboundQueue <|> results.outboundQueue with
        | some e => .error e
        | none => .ok (.initial userName password tokenProvider userHeaderKey pwdHeaderKey)
def Connection.connect (reconnectCb : Bool) (c : Connection K) : Connection K :=
  { c with reconnectCb }.doNext .reconnect

/-- `io_ws_connection_send` from the return of the sender on, with its result and with that of restarting to send. -/
def Connection.send (result : Option PrxError) (cb : Option K) (canSend : Option PrxError) (c : Connection K) :
    Connection K × Option PrxError :=
  match result, c.outbound.current with
  | none, some buffer =>
    let buffer := { buffer with flags := .binaryMsg, cb, fragments := c.fragments }
    let c := { c with
      outbound.current := none
      outbound.ready := c.outbound.ready ++ [buffer]
      fragments := [] }
    if !c.wsclient then (c,none)
    else
      match canSend with
      | none => ((c.call .canSend).call .canRecv,none)
      | some e => (c.call .canSend,some e)
  | result, _ =>
    ({ c with
      completions := c.completions ++ (cb.map fun cb => ⟨cb,c.fragments,result⟩).toList
      fragments := [] },result)

def forgetCallbacks (buffers : List (Buffer K)) : List (Buffer K) :=
  buffers.map fun buffer => { buffer with cb := none }

/-- `io_queue_abort`, which calls back with all buffers that are in the queue. -/
def Connection.abortOutbound (c : Connection K) : Connection K :=
  { c with
    completions := c.completions ++
      (c.outbound.done ++ c.outbound.inprogress ++ c.outbound.ready).flatMap Buffer.abort
    outbound.done := forgetCallbacks c.outbound.done
    outbound.inprogress := forgetCallbacks c.outbound.inprogress
    outbound.ready := forgetCallbacks c.outbound.ready }

def Connection.close (c : Connection K) : Connection K :=
  { c with reconnectCb := false, closed := true }.abortOutbound.free

structure System (K : Type) where
  connection : Connection K
  clock : ℤ
deriving DecidableEq

inductive Label (K : Type) where
  | advance (ticks : ℕ)
  | connect (reconnectCb : Bool)
  | close
  | write (memory : List Bool) (data : List UInt8)
  | reset
  | send (result : Option PrxError) (cb : Option K) (canSend : Option PrxError)
  | run (index : ℕ) (results : Results)
  | drop (index : ℕ)
  | read (count : ℕ)
  | received (result : Option PrxError)
  | event (event : Event)

def Connection.takeTask (index : ℕ) (c : Connection K) : Option (Task × Connection K) :=
  c.tasks[index]?.map fun entry => (entry.task,{ c with tasks := c.tasks.eraseIdx index })

/-- The connection after a label, as long as it is not freed. Once it is closed its owner does not call it any more; in
the callback of a sender it does nothing else on this thread, and tasks are run outside of callbacks. -/
def Connection.step (now : ℤ) (c : Connection K) (label : Label K) : Option (Connection K) :=
  if c.frees ≠ 0 then none
  else
    match label with
    | .advance _ => some c
    | .connect reconnectCb => if c.closed ∨ c.writing then none else some (c.connect reconnectCb)
    | .close => if c.closed ∨ c.writing then none else some c.close
    | .write memory data =>
      if c.closed then none else some { (c.streamWriter memory data).1 with writing := true }
    | .reset => if c.closed then none else some { c.streamReset with writing := true }
    | .send result cb canSend => if c.closed then none else some { (c.send result cb canSend).1 with writing := false }
    | .run index results =>
      if c.writing ∨ c.delivering then none
      else (c.takeTask index).bind fun (task,c) => (c.runTask now results task).toOption
    | .drop index => (c.takeTask index).map Prod.snd
    | .read count => if c.delivering ∧ !c.writing then some (c.read count).1 else none
    | .received result => if c.delivering ∧ !c.writing then some (c.received now result) else none
    | .event event => if c.wsclient then c.handleEvent event else none

def System.step (s : System K) (label : Label K) : Option (System K) :=
  let clock := match label with
    | .advance ticks => s.clock + ticks
    | _ => s.clock
  (s.connection.step s.clock label).map fun connection => { connection, clock }

end EdgeProxy.Ws
