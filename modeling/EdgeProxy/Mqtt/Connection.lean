import Mathlib.Algebra.Group.Int.Defs
import EdgeProxy.Base.Error

/-! # The MQTT connection

The connection of `io_mqtt.c`. Its functions are tasks of the scheduler, events of the MQTT client and calls of its
owner, on one thread. Calls into other components end as the step that makes them says.
-/
namespace EdgeProxy.Mqtt
open Base

inductive Status where
  | reset
  | connecting
  | connected
  | disconnecting
  | closing
deriving DecidableEq

inductive Task where
  | reconnect
  | monitor
  | hardReset
  | softReset
  | beginDisconnect
  | unsubscribeAll
  | subscribeAll
  | publishMessage
  | free
  | freeSubscription (key : ℕ)
deriving DecidableEq

def Task.ofSubscription : Task → Bool
  | .freeSubscription _ => true
  | _ => false

structure Entry where
  task : Task
  delay : UInt32
deriving DecidableEq

structure MqttMessage where
  packetId : UInt16
  topicName : List Char
  appMsg : List UInt8
deriving DecidableEq

variable {K R : Type}

/-- `io_mqtt_message_t`. The `ticket` numbers the publish calls, and `serial` is how many packet ids had been taken
then; the source keeps neither. -/
structure Message (K : Type) where
  msgHandle : MqttMessage
  pktId : UInt16
  published : Bool
  attempted : ℤ
  cb : Option K
  ticket : ℕ
  serial : ℕ
deriving DecidableEq

def Message.reset (message : Message K) : Message K :=
  { message with attempted := 0, published := false }

structure Subscription (R : Type) where
  key : ℕ
  uri : List Char
  subscribed : Bool
  pktid : UInt16
  receiver : Option R
deriving DecidableEq

def Subscription.isSubscribed (s : Subscription R) : Bool :=
  s.pktid = 0 && s.subscribed
def Subscription.isUnsubscribed (s : Subscription R) : Bool :=
  s.pktid = 0 && !s.subscribed

structure Address where
  scheme : Option (List Char)
  hostName : String
  port : UInt16
  path : String
  userName : Option String
  password : Option String
  tokenProvider : Option (Option String)
deriving DecidableEq

inductive SocketConfig where
  | ws (hostName : String) (port : UInt16) (protocol resourceName : String)
  | tls (hostName : String) (port : UInt16)
deriving DecidableEq

structure ClientOptions where
  clientId : String
  keepAliveInterval : UInt16
  username : Option String
  password : Option String
deriving DecidableEq

inductive Packet where
  | connect (options : ClientOptions)
  | publish (ticket : ℕ) (message : MqttMessage)
  | subscribe (packetId : UInt16) (topics : List (List Char))
  | unsubscribe (packetId : UInt16) (topics : List (List Char))
  | disconnect
deriving DecidableEq

structure PublishCall (K : Type) where
  ticket : ℕ
  cb : Option K
  result : Except PrxError Unit

structure Completion (K : Type) where
  ticket : ℕ
  cb : K
  result : Except PrxError Unit

/-- `io_mqtt_connection`. The fields from `draws` on are a history that the source does not keep. -/
structure Connection (K R : Type) where
  address : Address
  isWebsocket : Bool
  expiry : ℤ
  tasks : List Entry
  socketIo : Option SocketConfig
  clientId : String
  client : Bool
  pktCounter : UInt16
  keepAliveInterval : UInt32
  sendQueue : List (Message K)
  subscriptions : List (Subscription R)
  status : Status
  lastSuccess : ℤ
  lastActivity : ℤ
  reconnectCb : Bool
  backOffInSeconds : UInt32
  draws : ℕ
  calls : List (PublishCall K)
  subscribes : ℕ
  invoked : List (Completion K)
  received : List (R × List Char × List UInt8)
  sent : List Packet
  closed : Bool
  frees : ℕ

structure Results where
  memory : Bool := true
  client : Bool := true
  reconnectCb : Bool := true
  clientInit : Bool := true
  wsClient : Bool := true
  socketCreated : Bool := true
  schedulerSet : Bool := true
  newToken : Except PrxError (String × ℤ) := .ok ("",0)
  connected : Bool := true

def charAt (s : List Char) (i : ℕ) : Except Stop Char :=
  match s[i]? with
  | some c => .ok c
  | none => if i = s.length then .ok (Char.ofNat 0) else .error .undefined

/-- The loop of `io_mqtt_topic_matches` at index `i`, with the rest of the topic from there on. While a level is
skipped the index into the filter moves on, too. -/
def topicMatchesFrom (filter : List Char) : Bool → ℕ → List Char → Except Stop (Option (List Char))
  | true, _, [] => .ok (some [])
  | true, i, c :: topic => topicMatchesFrom filter (c ≠ '/') (i + 1) topic
  | false, i, [] => do
    let f ← charAt filter i
    return if f = Char.ofNat 0 then some [] else none
  | false, i, c :: topic => do
    let f ← charAt filter i
    if c ≠ f then return none
    if c = '/' then
      let g ← charAt filter (i + 1)
      if g = '#' then return some (c :: topic)
      topicMatchesFrom filter (g = '+') (i + 1) topic
    else topicMatchesFrom filter false (i + 1) topic

def topicMatches (topic filter : List Char) : Except Stop (Option (List Char)) :=
  topicMatchesFrom filter false 0 topic
def Connection.doNext (c : Connection K R) (task : Task) : Connection K R :=
  { c with tasks := c.tasks ++ [⟨task,0⟩] }
def Connection.doLater (c : Connection K R) (task : Task) (delay : UInt32) : Connection K R :=
  { c with tasks := c.tasks.filter (·.task ≠ task) ++ [⟨task,delay⟩] }
def Connection.clearTasks (c : Connection K R) : Connection K R :=
  { c with tasks := c.tasks.filter (·.task.ofSubscription) }
def ticks32 (x : ℤ) : UInt32 :=
  .ofNat (x % 2 ^ 32).toNat
def Connection.clearFailures (now : ℤ) (c : Connection K R) : Connection K R :=
  { c with lastSuccess := now, lastActivity := now, backOffInSeconds := 0 }
def nextId (counter : UInt16) : UInt16 :=
  if counter + 1 ≠ 0 then counter + 1 else counter + 1 + 1
def Connection.nextPktId (c : Connection K R) : Connection K R :=
  { c with pktCounter := nextId c.pktCounter, draws := c.draws + 1 }

def Connection.subscribeAll (results : Results) (c : Connection K R) : Connection K R :=
  let unsubscribed := c.subscriptions.filter (·.isUnsubscribed)
  if unsubscribed.isEmpty then c
  else if !results.memory then c.doNext .hardReset
  else
    let c := c.nextPktId
    if !results.client then c.doNext .hardReset
    else { c with
      sent := c.sent ++ [.subscribe c.pktCounter (unsubscribed.map (·.uri))]
      subscriptions := c.subscriptions.map fun next =>
        if next.isUnsubscribed then { next with subscribed := true, pktid := c.pktCounter } else next }
def Connection.unsubscribeAll (results : Results) (c : Connection K R) : Connection K R :=
  let subscribed := c.subscriptions.filter (·.isSubscribed)
  if subscribed.isEmpty then
    if c.status = .disconnecting ∨ c.status = .closing then c.doNext .beginDisconnect else c
  else if !results.memory then c.doNext .hardReset
  else
    let c := c.nextPktId
    if !results.client then c.doNext .hardReset
    else { c with
      sent := c.sent ++ [.unsubscribe c.pktCounter (subscribed.map (·.uri))]
      subscriptions := c.subscriptions.map fun next =>
        if next.isSubscribed then { next with subscribed := false, pktid := c.pktCounter } else next }
def attemptFirst (now : ℤ) (published : Bool) : List (Message K) → List (Message K)
  | [] => []
  | next :: queue =>
    if next.published then next :: attemptFirst now published queue
    else { next with published, attempted := now } :: queue
def Connection.publishMessage (now : ℤ) (results : Results) (c : Connection K R) : Connection K R :=
  if c.status ≠ .connected then c
  else
    match c.sendQueue.find? (!·.published) with
    | none => c
    | some message =>
      let c := { c with sendQueue := attemptFirst now results.client c.sendQueue }
      if results.client then { c with sent := c.sent ++ [.publish message.ticket message.msgHandle] }
      else c.doNext .softReset
def Connection.missingAck (now : ℤ) (c : Connection K R) : Bool :=
  c.sendQueue.any fun next => ticks32 (now - next.attempted) > 2 * c.keepAliveInterval
def Connection.checkLater (now : ℤ) (timeToWait : UInt32) (c : Connection K R) : Connection K R :=
  let timeToWait :=
    if c.expiry ≠ 0 ∧ timeToWait > ticks32 (c.expiry - now) then ticks32 (c.expiry - now) else timeToWait
  c.doLater .monitor timeToWait

def Connection.expired (now : ℤ) (c : Connection K R) : Prop :=
  c.expiry ≠ 0 ∧ c.expiry < now
instance {now : ℤ} {c : Connection K R} : Decidable (c.expired now) := by
  unfold Connection.expired
  infer_instance

/-- `io_mqtt_connection_monitor`; a ping is not answered through the connection. -/
def Connection.monitor (now : ℤ) (c : Connection K R) : Connection K R :=
  if c.expired now then
    let c := if c.address.scheme.isNone then { c with isWebsocket := !c.isWebsocket } else c
    (c.clearFailures now).doNext .softReset
  else
    let timeDiff := ticks32 (now - c.lastActivity)
    if timeDiff ≥ c.keepAliveInterval then
      if c.missingAck now then c.doNext .hardReset
      else if timeDiff ≥ 6 * c.keepAliveInterval ∨ c.status = .connecting then c.doNext .hardReset
      else c.checkLater now c.keepAliveInterval
    else c.checkLater now (c.keepAliveInterval - timeDiff)

def Connection.beginDisconnect (c : Connection K R) : Connection K R :=
  if c.subscriptions.any (·.isSubscribed) then c.doNext .unsubscribeAll
  else { c with sent := c.sent ++ [.disconnect] }
def Connection.completeDisconnect (c : Connection K R) : Connection K R :=
  let c : Connection K R := { c with
    socketIo := none
    client := false
    sendQueue := c.sendQueue.map Message.reset
    subscriptions := c.subscriptions.map fun subscription => { subscription with pktid := 0, subscribed := false } }
  c.clearTasks
def Connection.socketConfig (results : Results) (c : Connection K R) : SocketConfig :=
  if c.isWebsocket ∧ results.wsClient then
    .ws c.address.hostName (if c.address.port ≠ 0 then c.address.port else 443) "MQTT" c.address.path
  else .tls c.address.hostName (if c.address.port ≠ 0 then c.address.port else 8883)

def Connection.openLayers (now : ℤ) (results : Results) (c : Connection K R) :
    Connection K R × Except PrxError Unit :=
  if !c.client ∧ !results.clientInit then (c,.error .connecting)
  else
    let c := { c with client := true }
    if c.socketIo.isSome then (c,.ok ())
    else
      let c := if c.address.scheme.isNone then { c with isWebsocket := !c.isWebsocket } else c
      if !results.socketCreated then (c,.error .connecting)
      else
        let c := { c with socketIo := some (c.socketConfig results) }
        if !results.schedulerSet then (c,.error .connecting)
        else
          let token := if c.address.tokenProvider.isSome then results.newToken.map some else .ok none
          match token with
          | .error e => (c,.error e)
          | .ok token =>
            let c := { c with expiry := (token.map fun token => now + token.2).getD c.expiry }
            if !results.connected then (c,.error .connecting)
            else
              let options : ClientOptions := {
                clientId := c.clientId
                keepAliveInterval := 60 * 4
                username := c.address.userName <|> c.address.tokenProvider.join
                password := c.address.password <|> token.map Prod.fst }
              ({ c with sent := c.sent ++ [.connect options] },.ok ())

def Connection.reconnect (now : ℤ) (results : Results) (c : Connection K R) : Connection K R :=
  match c.openLayers now results with
  | (c,.error _) => c.doNext .hardReset
  | (c,.ok _) => { c with lastActivity := now, status := .connecting }.doLater .monitor 30000
def nextBackOff (backOffInSeconds : UInt32) : UInt32 :=
  let backOff := (if backOffInSeconds = 0 then 1 else backOffInSeconds) * 2
  if backOff > 24 * 60 * 60 then 24 * 60 * 60 else backOff
def Connection.hardReset (results : Results) (c : Connection K R) : Connection K R :=
  if c.status = .closing then c.doNext .free
  else
    let c := { c with status := .reset }.completeDisconnect
    if c.reconnectCb ∧ !results.reconnectCb then c
    else
      let c := c.doLater .reconnect (c.backOffInSeconds * 1000)
      { c with backOffInSeconds := nextBackOff c.backOffInSeconds }

def Connection.softReset (c : Connection K R) : Connection K R :=
  { c with status := .disconnecting }.doNext .beginDisconnect
def Connection.free (c : Connection K R) : Connection K R :=
  let c := c.completeDisconnect
  { c with frees := c.frees + 1 }

/-- `io_mqtt_subscription_free` for a subscription of the connection. -/
def Connection.freeSubscription (key : ℕ) (results : Results) (c : Connection K R) : Connection K R :=
  match c.subscriptions.find? (·.key = key) with
  | none => c
  | some subscription =>
    let c := { c with subscriptions := c.subscriptions.eraseP (·.key = key) }
    if subscription.isSubscribed then
      let c := c.nextPktId
      if results.client then { c with sent := c.sent ++ [.unsubscribe c.pktCounter [subscription.uri]] } else c
    else c

def Connection.runTask (now : ℤ) (results : Results) (c : Connection K R) : Task → Connection K R
  | .reconnect => c.reconnect now results
  | .monitor => c.monitor now
  | .hardReset => c.hardReset results
  | .softReset => c.softReset
  | .beginDisconnect => c.beginDisconnect
  | .unsubscribeAll => c.unsubscribeAll results
  | .subscribeAll => c.subscribeAll results
  | .publishMessage => c.publishMessage now results
  | .free => c.free
  | .freeSubscription key => c.freeSubscription key results

inductive ConnectReturn where
  | accepted
  | unacceptableVersion
  | idRejected
  | serverUnavailable
  | badUsernamePassword
  | notAuthorized
  | unknown
deriving DecidableEq

/-- What the client calls back with. For a subscribe acknowledgement it is known of each topic whether it was granted.
-/
inductive Event where
  | connectAck (returnCode : Option ConnectReturn)
  | publishAck (packetId : Option UInt16)
  | subscribeAck (ack : Option (UInt16 × List Bool))
  | unsubscribeAck (packetId : Option UInt16)
  | publishStage
  | disconnected
  | pingResponse
  | unknown
  | error
  | message (topicName : List Char) (payload : List UInt8)
deriving DecidableEq

def findSubscription (uri : List Char) :
    List (Subscription R) → Except Stop (Option (Subscription R × List Char))
  | [] => .ok none
  | subscription :: subscriptions =>
    if !subscription.subscribed then findSubscription uri subscriptions
    else do
      match ← topicMatches uri subscription.uri with
      | some props => return some (subscription,props)
      | none => findSubscription uri subscriptions
def Connection.receiveMessage (now : ℤ) (uri : List Char) (payload : List UInt8) (c : Connection K R) :
    Except Stop (Connection K R) :=
  let c := if c.status = .connecting then { c with status := .connected } else c
  if c.status = .closing then .ok c
  else do
    match ← findSubscription uri c.subscriptions with
    | none => return c
    | some (subscription,props) =>
      match subscription.receiver with
      | none => return c
      | some receiver => return { c with received := c.received ++ [(receiver,props,payload)] }.clearFailures now
def Message.completion (result : Except PrxError Unit) (message : Message K) : List (Completion K) :=
  (message.cb.map fun cb => ⟨message.ticket,cb,result⟩).toList
def Connection.handlePublishAck (now : ℤ) (puback : Option UInt16) (c : Connection K R) :
    Connection K R × Except PrxError Unit :=
  match puback with
  | none => (c,.error .arg)
  | some packetId =>
    match c.sendQueue.find? (·.pktId = packetId) with
    | none => (c,.error .notFound)
    | some message =>
      let c := { c with sendQueue := c.sendQueue.eraseP (·.pktId = packetId) }.clearFailures now
      let c := { c with invoked := c.invoked ++ message.completion (.ok ()) }
      (if c.status = .connected then c.doNext .publishMessage else c,.ok ())
def Connection.handleSubscribeAck (suback : Option (UInt16 × List Bool)) (c : Connection K R) :
    Connection K R × Except PrxError Unit :=
  match suback with
  | none => (c,.error .arg)
  | some (packetId,granted) =>
    if granted.any (!·) then (c,.error .connecting)
    else
      let c : Connection K R := { c with subscriptions := c.subscriptions.map fun subscription =>
        if subscription.pktid = packetId then { subscription with subscribed := true, pktid := 0 } else subscription }
      (c.doNext .subscribeAll,.ok ())
def Connection.handleUnsubscribeAck (unsuback : Option UInt16) (c : Connection K R) :
    Connection K R × Except PrxError Unit :=
  match unsuback with
  | none => (c,.error .arg)
  | some packetId =>
    let c : Connection K R := { c with subscriptions := c.subscriptions.map fun subscription =>
      if subscription.pktid = packetId then { subscription with pktid := 0 } else subscription }
    (if c.status = .disconnecting then c.doNext .unsubscribeAll else c,.ok ())
def Connection.handleConnectAck (connack : Option ConnectReturn) (c : Connection K R) :
    Connection K R × Except PrxError Unit :=
  match connack with
  | none => (c,.error .arg)
  | some .accepted =>
    let c := { c with status := .connected }
    (((c.doNext .subscribeAll).doNext .publishMessage).doNext .monitor,.ok ())
  | some _ => (c,.error .refused)
def operated (now : ℤ) : Connection K R × Except PrxError Unit → Connection K R
  | (c,.ok _) => { c with lastActivity := now }
  | (c,.error _) => c.doNext .hardReset

/-- The callbacks of the client: `io_mqtt_connection_operation_callback`, `io_mqtt_connection_error_callback` and
`io_mqtt_connection_receive_message`. -/
def Connection.handleEvent (now : ℤ) (c : Connection K R) : Event → Except Stop (Connection K R)
  | .connectAck connack => .ok (operated now (c.handleConnectAck connack))
  | .publishAck puback => .ok (operated now (c.handlePublishAck now puback))
  | .subscribeAck suback => .ok (operated now (c.handleSubscribeAck suback))
  | .unsubscribeAck unsuback => .ok (operated now (c.handleUnsubscribeAck unsuback))
  | .publishStage => .ok c
  | .disconnected => .ok (operated now (if c.status = .closing then c.doNext .free else c.doNext .hardReset,.ok ()))
  | .pingResponse => .ok (operated now (c,.ok ()))
  | .unknown => .ok (operated now (c,.error .fatal))
  | .error => .ok (c.doNext .hardReset)
  | .message topicName payload => c.receiveMessage now topicName payload

def Connection.create (address : Address) (clientId : String) (memory clientIdMemory : Bool)
    (clone scheduler : Except PrxError Unit) : Except PrxError (Connection K R) := do
  if !memory then throw .outOfMemory
  if !clientIdMemory then throw .outOfMemory
  clone
  scheduler
  return {
    address
    isWebsocket := address.scheme.all fun scheme => scheme.map Char.toLower = ['w','s','s']
    expiry := 0
    tasks := []
    socketIo := none
    clientId
    client := false
    pktCounter := 0
    keepAliveInterval := 10 * 1000
    sendQueue := []
    subscriptions := []
    status := .reset
    lastSuccess := 0
    lastActivity := 0
    reconnectCb := false
    backOffInSeconds := 0
    draws := 0
    calls := []
    subscribes := 0
    invoked := []
    received := []
    sent := []
    closed := false
    frees := 0 }

structure PublishMemory where
  message : Bool := true
  topicName : Bool := true
  properties : Bool := true
  msgHandle : Bool := true
deriving DecidableEq

def topicName (uri : List Char) (properties : Option (List Char)) (memory : Bool) : List Char :=
  match properties with
  | some ('&' :: rest) => if memory then uri ++ '?' :: rest else uri
  | some properties => if memory then uri ++ properties else uri
  | none => uri

namespace Connection

def newMessage (uri : List Char) (properties : Option (List Char)) (buffer : List UInt8) (cb : Option K)
    (memory : PublishMemory) (c : Connection K R) : Message K where
  msgHandle := ⟨c.pktCounter,topicName uri properties memory.properties,buffer⟩
  pktId := c.pktCounter
  published := false
  attempted := 0
  cb
  ticket := c.calls.length
  serial := c.draws
def published (cb : Option K) (result : Except PrxError Unit) (c : Connection K R) :
    Connection K R × Except PrxError Unit :=
  ({ c with calls := c.calls ++ [⟨c.calls.length,cb,result⟩] },result)

def publish (uri properties : Option (List Char)) (buffer : Option (List UInt8)) (cb : Option K)
    (memory : PublishMemory) (c : Connection K R) : Connection K R × Except PrxError Unit :=
  match uri, buffer with
  | some uri, some buffer =>
    if !memory.message then c.published cb (.error .outOfMemory)
    else
      let c := c.nextPktId
      let message := c.newMessage uri properties buffer cb memory
      if !memory.topicName ∨ !memory.msgHandle then
        -- The caller frees its context in the callback, so it is called here, too.
        let c := { c with invoked := c.invoked ++ message.completion (.error .outOfMemory) }
        c.published cb (.error .outOfMemory)
      else
        let c := c.doNext .publishMessage
        { c with sendQueue := c.sendQueue ++ [message] }.published cb (.ok ())
  | _, _ => c.published cb (.error .fault)

def subscribe (uri : Option (List Char)) (receiver : Option R) (memory uriMemory : Bool)
    (c : Connection K R) : Connection K R × Except PrxError ℕ :=
  match uri with
  | none => (c,.error .fault)
  | some uri =>
    if !memory ∨ !uriMemory then (c,.error .outOfMemory)
    else
      let subscription : Subscription R := {
        key := c.subscribes
        uri
        subscribed := false
        pktid := 0
        receiver }
      let c := { c with subscriptions := c.subscriptions ++ [subscription], subscribes := c.subscribes + 1 }
      (if c.status = .connected then c.doNext .subscribeAll else c,.ok subscription.key)

def releaseSubscription (key : ℕ) (c : Connection K R) : Connection K R :=
  let c : Connection K R := { c with subscriptions := c.subscriptions.map fun subscription =>
    if subscription.key = key then { subscription with receiver := none } else subscription }
  c.doNext (.freeSubscription key)
def connect (reconnectCb : Bool) (c : Connection K R) : Connection K R :=
  { c with reconnectCb }.doNext .reconnect
def close (c : Connection K R) : Connection K R :=
  let status := c.status
  let c : Connection K R := { c with
    status := .closing
    reconnectCb := false
    sendQueue := []
    invoked := c.invoked ++ c.sendQueue.flatMap (Message.completion (.error .aborted))
    closed := true }
  if status ≠ .reset then (c.doNext .beginDisconnect).doLater .free 30000 else c.doNext .free

end Connection

structure System (K R : Type) where
  connection : Connection K R
  clock : ℤ

inductive Label (K R : Type) where
  | advance (ticks : ℕ)
  | publish (uri properties : Option (List Char)) (buffer : Option (List UInt8)) (cb : Option K)
      (memory : PublishMemory)
  | subscribe (uri : Option (List Char)) (receiver : Option R) (memory uriMemory : Bool)
  | release (key : ℕ)
  | connect (reconnectCb : Bool)
  | close
  | run (index : ℕ) (results : Results)
  | drop (index : ℕ)
  | event (event : Event)

def Label.isCall : Label K R → Bool
  | .publish .. | .subscribe .. | .release _ | .connect _ | .close => true
  | _ => false
def Connection.takeTask (index : ℕ) (c : Connection K R) : Option (Task × Connection K R) :=
  c.tasks[index]?.map fun entry => (entry.task,{ c with tasks := c.tasks.eraseIdx index })

/-- The connection after a label. A freed connection is not called any more, and without a client there are no
events. -/
def Connection.step (now : ℤ) (c : Connection K R) (label : Label K R) : Option (Connection K R) :=
  if label.isCall ∧ c.frees ≠ 0 then none
  else
    match label with
    | .advance _ => some c
    | .publish uri properties buffer cb memory => some (c.publish uri properties buffer cb memory).1
    | .subscribe uri receiver memory uriMemory => some (c.subscribe uri receiver memory uriMemory).1
    | .release key => some (c.releaseSubscription key)
    | .connect reconnectCb => some (c.connect reconnectCb)
    | .close => some c.close
    | .run index results => (c.takeTask index).map fun (task,c) => c.runTask now results task
    | .drop index => (c.takeTask index).map Prod.snd
    | .event event => if c.client then (c.handleEvent now event).toOption else none

def System.step (s : System K R) (label : Label K R) : Option (System K R) :=
  let clock := match label with
    | .advance ticks => s.clock + ticks
    | _ => s.clock
  (s.connection.step s.clock label).map fun connection => { connection, clock }

end EdgeProxy.Mqtt
