import EdgeProxy.Ws.Connection

/-! # The websocket client over libwebsockets

The client of `pal_ws_lws.c` with the callbacks of the library, the pass of the worker thread over it and the calls of
the upper layer. The histories are not part of the source.
-/
namespace EdgeProxy.Lws
open Base
open Ws (BufferType)

inductive WriteKind where
  | text
  | binary
  | continuation
deriving DecidableEq

structure WriteFlags where
  kind : WriteKind
  noFin : Bool
deriving DecidableEq

def bufferTypeFromLwsFlags (flags : WriteFlags) (forcePartial : Bool) : BufferType :=
  match flags.kind, flags.noFin || forcePartial with
  | .binary, false => .binaryMsg
  | .binary, true => .binaryFragment
  | .text, false => .utf8Msg
  | .text, true => .utf8Fragment
  | .continuation, _ => .unknown
def bufferTypeToLwsFlags (lastMode : WriteFlags) (type : BufferType) : WriteFlags :=
  if lastMode.noFin then
    match type with
    | .unknown | .binaryMsg | .utf8Msg => ⟨.continuation,false⟩
    | .binaryFragment | .utf8Fragment => ⟨.continuation,true⟩
  else
    match type with
    | .unknown | .binaryMsg => ⟨.binary,false⟩
    | .utf8Msg => ⟨.text,false⟩
    | .binaryFragment => ⟨.binary,true⟩
    | .utf8Fragment => ⟨.text,true⟩

inductive Report where
  | connected
  | disconnected (error : Option PrxError)
  | closed
deriving DecidableEq

inductive CloseStatus where
  | noStatus
  | normal
  | goingAway
deriving DecidableEq

structure Supply where
  key : ℕ
  data : List UInt8
  type : BufferType
deriving DecidableEq

/-- A call of `lws_write`: the connection, the flags, the offset in the send buffer, and the connection on which it was
filled. -/
structure Written where
  connection : ℕ
  flags : WriteFlags
  offset : ℕ
  origin : Option ℕ
  bytes : List UInt8
deriving DecidableEq

/-- A part of a frame that the library delivers; `more` is set unless it is the last part of the last frame of its
message. -/
structure Delivery where
  data : List UInt8
  binary : Bool
  more : Bool
deriving DecidableEq

/-- What the upper layer gives to receive in: a buffer, or none, in which case there may be no memory to keep what was
received. -/
inductive Answer where
  | buffer (size : ℕ)
  | refused (memory : Bool)
deriving DecidableEq

/-- `pal_wsclient_t`. No error stands for `er_ok`, and an empty receive buffer for none. The library instance is
`established` while it can deliver; `connections` counts the instances. -/
structure Client where
  connecting : Bool
  connected : Bool
  disconnecting : Bool
  closing : Bool
  sendBuffer : List UInt8
  sendBufferSize : ℕ
  sendBufferOffset : ℕ
  sendFlags : WriteFlags
  canSend : Bool
  recvBuffer : List UInt8
  recvFlags : WriteFlags
  canRecv : Bool
  worker : Bool
  wsi : Bool
  disconnectReason : CloseStatus
  lastError : Option PrxError
  established : Bool
  connections : ℕ
  origin : Option ℕ
  supplied : List ℕ
  ended : List (ℕ × Option PrxError)
  written : List Written
  received : List Delivery
  handed : List (List UInt8 × BufferType)
  reports : List Report
  freed : Bool
deriving DecidableEq

/-- `pal_wsworker_lws_copy_in`, with what the upper layer supplies and whether there is memory for it. -/
def Client.copyIn (supply : Option Supply) (memory : Bool) (c : Client) : Client :=
  match supply with
  | none => { c with sendBufferSize := 0, sendBufferOffset := 0, canSend := false, origin := none }
  | some supply =>
    let c := { c with sendBufferSize := supply.data.length, supplied := c.supplied ++ [supply.key] }
    if memory then
      { c with
        sendBuffer := supply.data
        sendBufferOffset := 0
        sendFlags := bufferTypeToLwsFlags c.sendFlags supply.type
        origin := some c.connections
        ended := c.ended ++ [(supply.key,none)] }
    else
      { c with
        sendBufferOffset := supply.data.length
        canSend := false
        origin := none
        ended := c.ended ++ [(supply.key,some .outOfMemory)] }

def Client.write (result : Option ℕ) (c : Client) : Client × Bool :=
  let bytes := (c.sendBuffer.drop c.sendBufferOffset).take (c.sendBufferSize - c.sendBufferOffset)
  let c := { c with
    written := c.written ++ [⟨c.connections,c.sendFlags,c.sendBufferOffset,c.origin,bytes⟩] }
  match result with
  | none => (c,false)
  | some count => ({ c with sendBufferOffset := c.sendBufferOffset + count },true)
def Client.closeReason (c : Client) : Client × Bool :=
  ({ c with disconnectReason := .noStatus },false)

/-- `pal_wsworker_lws_on_send`. Sending can be turned on again by another thread right after the upper layer had
nothing to send. The library goes on with the connection unless the result is false. -/
def Client.onSend (supply : Option Supply) (memory resumed : Bool) (result : Option ℕ) (c : Client) : Client × Bool :=
  if c.disconnecting then c.closeReason
  else if c.sendBufferOffset ≥ c.sendBufferSize then
    let c := c.copyIn supply memory
    let c := { c with canSend := c.canSend || resumed }
    if !c.canSend then (c,true) else c.write result
  else c.write result

structure Copied where
  handed : List (List UInt8 × BufferType)
  kept : Option (List UInt8)
  answers : List Answer
deriving DecidableEq

def copyOut (flags : WriteFlags) : List Answer → List UInt8 → Option Copied
  | answers, [] => some ⟨[],none,answers⟩
  | [], _ :: _ => none
  | .refused memory :: answers, data => some ⟨[],some (if memory then data else []),answers⟩
  | .buffer size :: answers, data =>
    let type := bufferTypeFromLwsFlags flags (size < data.length)
    (copyOut flags answers (data.drop size)).map fun copied =>
      { copied with handed := (data.take size,type) :: copied.handed }
def Client.copyOut (flags : WriteFlags) (answers : List Answer) (data : List UInt8) (c : Client) :
    Option (Client × List Answer) :=
  (Lws.copyOut flags answers data).map fun copied =>
    let c := { c with handed := c.handed ++ copied.handed }
    match copied.kept with
    | none => (c,copied.answers)
    | some [] => ({ c with canRecv := false, recvBuffer := [], recvFlags := ⟨.text,false⟩ },copied.answers)
    | some (b :: data) => ({ c with canRecv := false, recvBuffer := b :: data, recvFlags := flags },copied.answers)
def Delivery.flags (delivery : Delivery) : WriteFlags :=
  ⟨if delivery.binary then .binary else .text,delivery.more⟩

namespace Client

def takeKept (c : Client) : Client :=
  { c with recvBuffer := [], recvFlags := ⟨.text,false⟩ }

/-- `pal_wsworker_lws_on_receive`, which uses all the answers. -/
def onReceive (delivery : Delivery) (answers : List Answer) (c : Client) : Option (Client × Bool) :=
  if c.disconnecting then if answers = [] then some c.closeReason else none
  else
    let leftOver :=
      if c.recvBuffer = [] then some (c,answers) else c.takeKept.copyOut c.recvFlags answers c.recvBuffer
    leftOver.bind fun (c,answers) =>
      if c.recvBuffer ≠ [] then if answers = [] then some (c,true) else none
      else (c.copyOut delivery.flags answers delivery.data).bind fun (c,answers) =>
        if answers = [] then some (c,true) else none

def onConnect (c : Client) : Client × Bool :=
  if c.disconnecting then c.closeReason
  else ({ c with connected := true, reports := c.reports ++ [.connected] },true)
def onDisconnect (c : Client) : Client :=
  { c with lastError := some .closed, wsi := false, established := false }
def onDestroy (c : Client) : Client :=
  { c with wsi := false, established := false }
def free (c : Client) : Client :=
  { c with reports := c.reports ++ [.closed], freed := true }

/-- The library instance is given up when it cannot be made to write. -/
def requestClose (writable : Bool) (c : Client) : Client :=
  if c.wsi ∧ !writable then { c with lastError := some .closed, wsi := false, established := false } else c

def settle (writable : Bool) (c : Client) : Client :=
  if c.closing then
    let c := c.requestClose writable
    if !c.wsi then { c with closing := false }.free else c
  else if c.disconnecting ∨ c.lastError ≠ none then
    let c := c.requestClose writable
    if !c.wsi then
      { c with
        disconnecting := false
        reports := c.reports ++ [.disconnected c.lastError]
        lastError := none }
    else c
  else c

/-- The pass of `pal_wsworker_thread` over a client, with whether the library can make an instance and call back when
it is writable. The flag to kill a worker is never set. -/
def service (connects writable : Bool) (c : Client) : Client :=
  if !c.wsi ∧ c.lastError = none ∧ c.connecting ∧ connects then
    { c with connecting := false, wsi := true, established := false, connections := c.connections + 1 }
  else if !c.wsi ∧ c.lastError = none ∧ c.connecting then
    { c with connecting := false, disconnecting := true, lastError := some .connecting }.settle writable
  else c.settle writable

def create : Client where
  connecting := false
  connected := false
  disconnecting := false
  closing := false
  sendBuffer := []
  sendBufferSize := 0
  sendBufferOffset := 0
  sendFlags := ⟨.text,false⟩
  canSend := false
  recvBuffer := []
  recvFlags := ⟨.text,false⟩
  canRecv := false
  worker := false
  wsi := false
  disconnectReason := .noStatus
  lastError := none
  established := false
  connections := 0
  origin := none
  supplied := []
  ended := []
  written := []
  received := []
  handed := []
  reports := []
  freed := false

end Client

inductive Attach where
  | attached
  | fails (error : PrxError)
  | noThread
deriving DecidableEq

def Client.connect (attach : Attach) (c : Client) : Client × Option PrxError :=
  if c.wsi then (c,some .badState)
  else if c.worker then ({ c with lastError := none, connecting := true },none)
  else
    match attach with
    | .attached => ({ c with connecting := true, worker := true },none)
    | .fails error => (c,some error)
    | .noThread => ({ c with connecting := true },some .fault)

def Client.disconnect (c : Client) : Client :=
  if !c.worker then c else { c with disconnectReason := .normal, disconnecting := true }
def Client.close (c : Client) : Client :=
  if !c.worker then c.free
  else { c with disconnectReason := .goingAway, disconnecting := true, closing := true }

inductive Label where
  | connect (attach : Attach)
  | canSend (enable : Bool)
  | canRecv (enable : Bool)
  | disconnect
  | close
  | service (connects writable : Bool)
  | established
  | closed
  | destroyed
  | writable (supply : Option Supply) (memory resumed : Bool) (result : Option ℕ)
  | receive (delivery : Delivery) (answers : List Answer)
deriving DecidableEq

/-- A callback that is not successful makes the library close the connection, without further data. -/
def Client.orClose (r : Client × Bool) : Client :=
  if r.2 then r.1 else { r.1 with established := false }

/-- The client after a label, as long as it is not freed. -/
def Client.step (c : Client) (label : Label) : Option Client :=
  if c.freed then none
  else
    match label with
    | .connect attach => some (c.connect attach).1
    | .canSend enable => some { c with canSend := enable }
    | .canRecv enable => some { c with canRecv := enable }
    | .disconnect => some c.disconnect
    | .close => some c.close
    | .service connects writable => if c.worker then some (c.service connects writable) else none
    | .established =>
      if c.wsi ∧ !c.established then some (Client.orClose { c with established := true }.onConnect) else none
    | .closed => if c.wsi then some c.onDisconnect else none
    | .destroyed => if c.wsi then some c.onDestroy else none
    | .writable supply memory resumed result =>
      if c.established then some (Client.orClose (c.onSend supply memory resumed result)) else none
    | .receive delivery answers =>
      if c.established then
        ({ c with received := c.received ++ [delivery] }.onReceive delivery answers).map Client.orClose
      else none

section
open Ws Ws.Connection

variable {K : Type} {connection : Connection K}

/-- The callbacks of the connection above for the buffers that are handed on to it. -/
def receiveEvents (handed : List (List UInt8 × BufferType)) : List Event :=
  handed.flatMap fun buffer => [.beginRecv true,.endRecv buffer.1 buffer.2 none]

/-- The connection queues what the client hands on, in this order. -/
theorem receiveEvents_queue (handed : List (List UInt8 × BufferType)) (h : connection.receiving = none) :
    ∃ c, (receiveEvents handed).foldlM handleEvent connection = some c ∧ c.receiving = none ∧
      c.inbound.ready.map (fun b => (b.data,b.flags)) =
        connection.inbound.ready.map (fun b => (b.data,b.flags)) ++ handed := by
  induction handed generalizing connection with
  | nil => exact ⟨connection,rfl,h,by simp⟩
  | cons buffer handed ih =>
    let c := (connection.onBeginReceive true).onEndReceive buffer.1 buffer.2 none (newBuffer connection.buffers)
    have hready : c.receiving = none ∧ c.inbound.ready.map (fun b => (b.data,b.flags)) =
        connection.inbound.ready.map (fun b => (b.data,b.flags)) ++ [buffer] := by
      simp only [c,onEndReceive,receives,onBeginReceive,doNext]
      constructor <;> grind
    obtain ⟨d,hrun,hidle,hqueue⟩ := ih hready.1
    refine ⟨d,?_,hidle,by rw [hqueue,hready.2,List.append_assoc]; rfl⟩
    simp [receiveEvents,handleEvent,h] at hrun ⊢
    exact hrun

/-- What the connection above has to send. -/
def supplyOf (connection : Connection K) : Option Supply :=
  connection.outbound.ready.head?.map fun buffer => ⟨buffer.key,buffer.data,buffer.flags⟩

/-- The connection takes a buffer as sent exactly if the client reports it so. -/
theorem copyIn_wire (c : Client) (memory : Bool) {supply} (h : connection.sending = none)
    (hsupply : supplyOf connection = some supply) :
    ∃ result d, (c.copyIn (some supply) memory).ended = c.ended ++ [(supply.key,result)] ∧
      [.beginSend,.endSend result].foldlM handleEvent connection = some d ∧ d.sending = none ∧
      d.wire = connection.wire ++ if result = none then [(connection.epoch,supply.key)] else [] := by
  obtain ⟨buffer,hready,rfl⟩ := Option.map_eq_some_iff.1 hsupply
  obtain ⟨ready,hready⟩ := List.head?_eq_some_iff.1 hready
  have hevents : ∀ result, [.beginSend,.endSend result].foldlM handleEvent connection =
      some ({ connection with sending := some buffer, outbound.ready := ready }.onEndSend result buffer) := by
    simp [handleEvent,onBeginSend,h,hready]
  refine ⟨if memory then none else some .outOfMemory,_,?_,hevents _,?_⟩
  · cases memory <;> rfl
  · cases memory with
    | false => simp [onEndSend,doNext]
    | true => by_cases hmsg : buffer.flags = .binaryMsg <;> simp [onEndSend,doNext,hmsg]

end

end EdgeProxy.Lws
