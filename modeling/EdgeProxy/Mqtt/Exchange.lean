import EdgeProxy.Mqtt.PacketId

/-! # What a step does to subscriptions

The effects of a step on subscriptions, the packets that are sent and the socket, and what more is known when the other
side acknowledges what it was sent on the current connection and no packet takes an id that a subscription still waits
for.
-/
namespace EdgeProxy.Mqtt
open Base List Connection

variable {K R : Type} {c d : Connection K R} {now : ℤ} {results : Results}

def Packet.ackId : Packet → Option UInt16
  | .subscribe packetId _ | .unsubscribe packetId _ => some packetId
  | _ => none
def Packet.isConnect : Packet → Bool
  | .connect _ => true
  | _ => false
def recent (sent : List Packet) : List Packet :=
  sent.reverse.takeWhile (!·.isConnect)
def connects (sent : List Packet) : ℕ :=
  sent.countP (·.isConnect)
def packetOf (sent : List Packet) (packetId : UInt16) : Option Packet :=
  (recent sent).find? (·.ackId = some packetId)

variable {packet : Packet}

lemma recent_append (sent : List Packet) (h : packet.isConnect = false) :
    recent (sent ++ [packet]) = packet :: recent sent := by
  rw [recent,reverse_concat,takeWhile_cons_of_pos (by simp [h])]
  rfl
lemma recent_append_connect (sent : List Packet) (h : packet.isConnect) : recent (sent ++ [packet]) = [] := by
  rw [recent,reverse_concat,takeWhile_cons_of_neg (by simp [h])]
lemma connects_append (sent : List Packet) (h : packet.isConnect = false) :
    connects (sent ++ [packet]) = connects sent := by
  rw [connects,countP_append,countP_cons_of_neg (by simp [h])]
  rfl
lemma packetOf_append (sent : List Packet) (h : packet.isConnect = false) {packetId}
    (hne : packet.ackId ≠ some packetId) : packetOf (sent ++ [packet]) packetId = packetOf sent packetId := by
  rw [packetOf,recent_append sent h,List.find?_cons_of_neg (by simpa using hne)]
  rfl

lemma packetOf_append_self (sent : List Packet) (h : packet.isConnect = false) {packetId}
    (heq : packet.ackId = some packetId) : packetOf (sent ++ [packet]) packetId = some packet := by
  rw [packetOf,recent_append sent h,List.find?_cons_of_pos (by simpa using heq)]
def Task.takesId : Task → Bool
  | .subscribeAll | .unsubscribeAll | .freeSubscription _ => true
  | _ => false
def Packet.subscribes (count : ℕ) : Packet → Bool
  | .subscribe _ topics => topics.length = count
  | _ => false
def Packet.unsubscribes : Packet → Bool
  | .unsubscribe .. => true
  | _ => false

/-- The client calls back only when it has a socket. What is acknowledged is the packet of the current connection with
that id, topic for topic, and no id is taken that a subscription still waits for. -/
def Connection.genuine (c : Connection K R) : Label K R → Bool
  | .event event => c.socketIo.isSome && match event with
      | .subscribeAck (some (packetId,granted)) => (packetOf c.sent packetId).any (·.subscribes granted.length)
      | .unsubscribeAck (some packetId) => (packetOf c.sent packetId).any (·.unsubscribes)
      | _ => true
  | .run index _ => c.tasks[index]?.all fun entry =>
    !entry.task.takesId || c.subscriptions.all (·.pktid ≠ nextId c.pktCounter)
  | _ => true

structure Exchange (R : Type) where
  subscriptions : List (Subscription R)
  sent : List Packet
  socketIo : Option SocketConfig
  pktCounter : UInt16

def Connection.exchange (c : Connection K R) : Exchange R :=
  ⟨c.subscriptions,c.sent,c.socketIo,c.pktCounter⟩
def Subscription.Clean (s : Subscription R) : Prop :=
  s.pktid = 0 ∧ s.subscribed = false
def Subscription.Same (s t : Subscription R) : Prop :=
  s.key = t.key ∧ s.uri = t.uri ∧ s.pktid = t.pktid ∧ s.subscribed = t.subscribed
lemma Subscription.Same.refl (s : Subscription R) : s.Same s :=
  ⟨rfl,rfl,rfl,rfl⟩
def Exchange.IdFree (x : Exchange R) : Prop :=
  ∀ s ∈ x.subscriptions, s.pktid ≠ nextId x.pktCounter

/-- What a step does to the subscriptions, to the packets that were sent and to the socket, and what is known in
addition under a condition `g`. -/
inductive Exchange.Effect (g : Prop) (x y : Exchange R) : Label K R → Prop
  | keeps {label : Label K R} : (∀ s ∈ y.subscriptions, s.Clean ∨ ∃ r ∈ x.subscriptions, r.Same s) →
      (y.sent = x.sent ∨ ∃ packet, y.sent = x.sent ++ [packet] ∧ packet.ackId = none ∧ packet.isConnect = false) →
      (y.socketIo = none → x.socketIo = none) → Effect g x y label
  | begins {label : Label K R} {options : ClientOptions} : x.socketIo = none → y.socketIo ≠ none →
      y.subscriptions = x.subscriptions → y.sent = x.sent ++ [.connect options] → Effect g x y label
  | cleans {label : Label K R} : (∀ s ∈ y.subscriptions, s.Clean) → y.sent = x.sent → Effect g x y label
  | subscribes {label : Label K R} : (g → y.socketIo ≠ none) → (g → x.IdFree) →
      y.subscriptions = x.subscriptions.map (fun s =>
        if s.isUnsubscribed then { s with subscribed := true, pktid := nextId x.pktCounter } else s) →
      y.sent = x.sent ++ [.subscribe (nextId x.pktCounter) ((x.subscriptions.filter (·.isUnsubscribed)).map (·.uri))] →
      Effect g x y label
  | unsubscribes {label : Label K R} : y.socketIo = x.socketIo → (g → x.IdFree) →
      y.subscriptions = x.subscriptions.map (fun s =>
        if s.isSubscribed then { s with subscribed := false, pktid := nextId x.pktCounter } else s) →
      y.sent = x.sent ++ [.unsubscribe (nextId x.pktCounter) ((x.subscriptions.filter (·.isSubscribed)).map (·.uri))] →
      Effect g x y label
  | releases {label : Label K R} {topics : List (List Char)} : y.socketIo = x.socketIo → (g → x.IdFree) →
      y.subscriptions ⊆ x.subscriptions → y.sent = x.sent ++ [.unsubscribe (nextId x.pktCounter) topics] →
      Effect g x y label
  | acks {packetId : UInt16} {granted : List Bool} : y.socketIo = x.socketIo → y.sent = x.sent →
      (∀ success ∈ granted, success) →
      (g → (packetOf x.sent packetId).any (·.subscribes granted.length)) →
      y.subscriptions = x.subscriptions.map (fun s =>
        if s.pktid = packetId then { s with subscribed := true, pktid := 0 } else s) →
      Effect g x y (.event (.subscribeAck (some (packetId,granted))))
  | unacks {packetId : UInt16} : y.socketIo = x.socketIo → y.sent = x.sent →
      (g → (packetOf x.sent packetId).any (·.unsubscribes)) →
      y.subscriptions = x.subscriptions.map (fun s => if s.pktid = packetId then { s with pktid := 0 } else s) →
      Effect g x y (.event (.unsubscribeAck (some packetId)))

variable {g : Prop} {x y : Exchange R} {label : Label K R}

lemma Exchange.Effect.frame (hsubs : y.subscriptions = x.subscriptions) (hsent : y.sent = x.sent)
    (hsocket : y.socketIo = none → x.socketIo = none) : x.Effect g y label :=
  .keeps (fun s hs => .inr ⟨s,hsubs ▸ hs,.refl s⟩) (.inl hsent) hsocket
lemma Exchange.Effect.sends {packet} (hsubs : y.subscriptions = x.subscriptions)
    (hsent : y.sent = x.sent ++ [packet]) (hack : packet.ackId = none) (hconnect : packet.isConnect = false)
    (hsocket : y.socketIo = x.socketIo) : x.Effect g y label :=
  .keeps (fun s hs => .inr ⟨s,hsubs ▸ hs,.refl s⟩) (.inr ⟨packet,hsent,hack,hconnect⟩) (fun h => hsocket ▸ h)
def Connection.Idle (c : Connection K R) : Prop :=
  c.socketIo = none → (∀ entry ∈ c.tasks, entry.task ≠ .subscribeAll) ∧ (c.frees = 0 → c.status ≠ .connected)
lemma Connection.Idle.queued (hc : c.Idle) {tasks}
    (htasks : ∀ entry ∈ tasks, entry ∈ c.tasks ∨ entry.task ≠ .subscribeAll) : { c with tasks }.Idle := by
  intro hnone
  obtain ⟨hidle,hstatus⟩ := hc hnone
  refine ⟨fun entry hentry => ?_,hstatus⟩
  rcases htasks entry hentry with hentry | hne
  · exact hidle entry hentry
  · exact hne
lemma Connection.Idle.doNext (hc : c.Idle) {task} (hne : task ≠ .subscribeAll) : (c.doNext task).Idle := by
  refine hc.queued fun _ hentry => ?_
  exact (mem_doNext hentry).elim .inl fun h => .inr (h ▸ hne)
lemma Connection.Idle.doLater (hc : c.Idle) {task delay} (hne : task ≠ .subscribeAll) :
    (c.doLater task delay).Idle := by
  refine hc.queued fun _ hentry => ?_
  exact (mem_doLater hentry).elim .inl fun h => .inr (h ▸ hne)
lemma Connection.Idle.withStatus (hc : c.Idle) {status} (hne : status ≠ .connected) : { c with status }.Idle :=
  fun hnone => ⟨(hc hnone).1,fun _ => hne⟩
lemma clearTasks_idle (hne : c.frees = 0 → c.status ≠ .connected) : c.clearTasks.Idle := by
  refine fun _ => ⟨fun entry hentry heq => ?_,hne⟩
  have hof := (mem_filter.1 hentry).2
  rw [heq] at hof
  cases hof

structure Connection.Exchanges (g : Prop) (label : Label K R) (c d : Connection K R) : Prop where
  effect : c.exchange.Effect g d.exchange label
  idle : c.Idle → d.Idle

lemma Connection.Exchanges.refl : c.Exchanges g label c :=
  ⟨.frame rfl rfl id,id⟩
lemma Connection.Exchanges.next {task} (hne : task ≠ .subscribeAll) : c.Exchanges g label (c.doNext task) :=
  ⟨.frame rfl rfl id,(·.doNext hne)⟩

lemma completeDisconnect_effect : c.exchange.Effect g c.completeDisconnect.exchange label := by
  refine .cleans (fun s hs => ?_) rfl
  obtain ⟨r,-,rfl⟩ := mem_map.1 hs
  exact ⟨rfl,rfl⟩
lemma subscribeAll_exchanges (hsocket : g → c.socketIo ≠ none) (hfree : g → c.exchange.IdFree) :
    c.Exchanges g label (c.subscribeAll results) := by
  unfold subscribeAll
  dsimp only
  split
  · exact .refl
  split
  · exact .next nofun
  split
  · exact ⟨.frame rfl rfl id,(.doNext · nofun)⟩
  · exact ⟨.subscribes hsocket hfree rfl rfl,id⟩

lemma unsubscribeAll_exchanges (hfree : g → c.exchange.IdFree) : c.Exchanges g label (c.unsubscribeAll results) := by
  unfold unsubscribeAll
  dsimp only
  split
  · split
    · exact .next nofun
    · exact .refl
  split
  · exact .next nofun
  split
  · exact ⟨.frame rfl rfl id,(.doNext · nofun)⟩
  · exact ⟨.unsubscribes rfl hfree rfl rfl,id⟩

lemma publishMessage_exchanges : c.Exchanges g label (c.publishMessage now results) := by
  unfold publishMessage
  split
  · exact .refl
  split
  · exact .refl
  split
  · exact ⟨.sends rfl rfl rfl rfl rfl,id⟩
  · exact ⟨.frame rfl rfl id,(.doNext · nofun)⟩

lemma monitor_exchanges : c.Exchanges g label (c.monitor now) := by
  have hsoft : c.Exchanges g label (c.doNext .softReset) := .next nofun
  unfold monitor
  dsimp only
  split
  · split <;> exact ⟨hsoft.effect,hsoft.idle⟩
  split
  · split
    · exact .next nofun
    split
    · exact .next nofun
    · exact ⟨.frame rfl rfl id,(·.doLater nofun)⟩
  · exact ⟨.frame rfl rfl id,(·.doLater nofun)⟩

lemma beginDisconnect_exchanges : c.Exchanges g label c.beginDisconnect := by
  unfold beginDisconnect
  split
  · exact .next nofun
  · exact ⟨.sends rfl rfl rfl rfl rfl,id⟩

lemma openLayers_exchanges : c.Exchanges g label (c.openLayers now results).1 := by
  unfold openLayers
  split
  · exact .refl
  dsimp only
  split
  · exact ⟨.frame rfl rfl id,id⟩
  rename_i hsocket
  have hnone : c.socketIo = none := by simpa using hsocket
  repeat' split
  all_goals first
    | exact ⟨.frame rfl rfl fun _ => hnone,id⟩
    | exact ⟨.frame rfl rfl fun _ => hnone,fun _ => nofun⟩
    | exact ⟨.begins hnone nofun rfl rfl,fun _ => nofun⟩

lemma reconnect_exchanges : c.Exchanges g label (c.reconnect now results) := by
  have hopen : c.Exchanges g label (c.openLayers now results).1 := openLayers_exchanges
  unfold reconnect
  split <;> rename_i d _ h <;> rw [h] at hopen
  · exact ⟨hopen.effect,fun hc => (hopen.idle hc).doNext nofun⟩
  · refine ⟨hopen.effect,fun hc => ?_⟩
    have hconnecting : { d with lastActivity := now, status := .connecting }.Idle :=
      .withStatus (hopen.idle hc) nofun
    exact hconnecting.doLater nofun
lemma hardReset_exchanges : c.Exchanges g label (c.hardReset results) := by
  unfold hardReset
  dsimp only
  split
  · exact .next nofun
  have heffect : c.exchange.Effect g c.completeDisconnect.exchange label := completeDisconnect_effect
  have hreset : { c with status := .reset }.completeDisconnect.Idle := clearTasks_idle fun _ => nofun
  split
  · exact ⟨heffect,fun _ => hreset⟩
  · exact ⟨heffect,fun _ => hreset.doLater nofun⟩

lemma freeSubscription_exchanges {key} (hfree : g → c.exchange.IdFree) :
    c.Exchanges g label (c.freeSubscription key results) := by
  unfold freeSubscription
  split
  · exact .refl
  have hsubset : c.subscriptions.eraseP (·.key = key) ⊆ c.subscriptions := eraseP_subset
  have hkeeps : ∀ s ∈ c.subscriptions.eraseP (·.key = key), s.Clean ∨ ∃ r ∈ c.subscriptions, r.Same s :=
    fun s hs => .inr ⟨s,hsubset hs,.refl s⟩
  split
  · split
    · exact ⟨.releases rfl hfree hsubset rfl,id⟩
    · exact ⟨.keeps hkeeps (.inl rfl) id,id⟩
  · exact ⟨.keeps hkeeps (.inl rfl) id,id⟩

lemma runTask_exchanges {task} (hfree : task.takesId → g → c.exchange.IdFree)
    (hsocket : task = .subscribeAll → g → c.socketIo ≠ none) : c.Exchanges g label (c.runTask now results task) := by
  cases task with
  | reconnect => exact reconnect_exchanges
  | monitor => exact monitor_exchanges
  | hardReset => exact hardReset_exchanges
  | softReset => exact ⟨.frame rfl rfl id,fun hc => (hc.withStatus (show .disconnecting ≠ _ by nofun)).doNext nofun⟩
  | beginDisconnect => exact beginDisconnect_exchanges
  | unsubscribeAll => exact unsubscribeAll_exchanges (hfree rfl)
  | subscribeAll => exact subscribeAll_exchanges (hsocket rfl) (hfree rfl)
  | publishMessage => exact publishMessage_exchanges
  | free =>
    refine ⟨completeDisconnect_effect,fun _ => ?_⟩
    exact clearTasks_idle (c := { c with socketIo := none, frees := c.frees + 1 }) fun h => nomatch h
  | freeSubscription => exact freeSubscription_exchanges (hfree rfl)

lemma operated_exchange (outcome : Connection K R × Except PrxError Unit) :
    (operated now outcome).exchange = outcome.1.exchange := by
  obtain ⟨d,result⟩ := outcome
  cases result <;> rfl
lemma handleSubscribeAck_effect {suback}
    (hgenuine : g → c.genuine (.event (.subscribeAck suback) : Label K R)) :
    c.exchange.Effect g (c.handleSubscribeAck suback).1.exchange (.event (.subscribeAck suback) : Label K R) ∧
      (c.handleSubscribeAck suback).1.exchange.socketIo = c.socketIo := by
  unfold handleSubscribeAck
  split
  · exact ⟨.frame rfl rfl id,rfl⟩
  split
  · exact ⟨.frame rfl rfl id,rfl⟩
  · rename_i hgranted
    have hpacket (hg : g) := (Bool.and_eq_true _ _ ▸ hgenuine hg).2
    exact ⟨.acks rfl rfl (by simpa using hgranted) hpacket rfl,rfl⟩
lemma handleUnsubscribeAck_effect {unsuback}
    (hgenuine : g → c.genuine (.event (.unsubscribeAck unsuback) : Label K R)) :
    c.exchange.Effect g (c.handleUnsubscribeAck unsuback).1.exchange
      (.event (.unsubscribeAck unsuback) : Label K R) ∧
      (c.handleUnsubscribeAck unsuback).1.exchange.socketIo = c.socketIo := by
  unfold handleUnsubscribeAck
  split
  · exact ⟨.frame rfl rfl id,rfl⟩
  have hpacket (hg : g) := (Bool.and_eq_true _ _ ▸ hgenuine hg).2
  dsimp only
  split <;> exact ⟨.unacks rfl rfl hpacket rfl,rfl⟩

lemma handleEvent_effect {event} (h : c.handleEvent now event = .ok d)
    (hgenuine : g → c.genuine (.event event : Label K R)) :
    c.exchange.Effect g d.exchange (.event event : Label K R) ∧ d.exchange.socketIo = c.socketIo := by
  cases event with
  | connectAck =>
    cases h
    unfold handleConnectAck
    split <;> exact ⟨.frame rfl rfl id,rfl⟩
  | publishAck =>
    cases h
    unfold handlePublishAck
    dsimp only
    repeat' split
    all_goals exact ⟨.frame rfl rfl id,rfl⟩
  | subscribeAck =>
    cases h
    rw [operated_exchange]
    exact handleSubscribeAck_effect hgenuine
  | unsubscribeAck =>
    cases h
    rw [operated_exchange]
    exact handleUnsubscribeAck_effect hgenuine
  | disconnected =>
    cases h
    split <;> exact ⟨.frame rfl rfl id,rfl⟩
  | message =>
    obtain ⟨_,_,_,_,_,rfl,_⟩ := receiveMessage_eq h
    exact ⟨.frame rfl rfl id,rfl⟩
  | _ =>
    cases h
    exact ⟨.frame rfl rfl id,rfl⟩

lemma subscribe_effect (uri : Option (List Char)) (receiver : Option R) (memory uriMemory : Bool) :
    c.exchange.Effect g (c.subscribe uri receiver memory uriMemory).1.exchange label := by
  unfold subscribe
  split
  · exact .frame rfl rfl id
  rename_i uri
  split
  · exact .frame rfl rfl id
  have hkeeps : ∀ s ∈ c.subscriptions ++ [⟨c.subscribes,uri,false,0,receiver⟩],
      s.Clean ∨ ∃ r ∈ c.subscriptions, r.Same s := by
    intro s hs
    rcases mem_append.1 hs with hs | hs
    · exact .inr ⟨s,hs,.refl s⟩
    · cases mem_singleton.1 hs
      exact .inl ⟨rfl,rfl⟩
  dsimp only
  split <;> exact .keeps hkeeps (.inl rfl) id

lemma releaseSubscription_effect (key : ℕ) : c.exchange.Effect g (c.releaseSubscription key).exchange label := by
  refine .keeps (fun s hs => .inr ?_) (.inl rfl) id
  obtain ⟨r,hr,rfl⟩ := mem_map.1 hs
  refine ⟨r,hr,?_⟩
  split <;> exact ⟨rfl,rfl,rfl,rfl⟩
lemma publish_exchanges (uri properties : Option (List Char)) (buffer : Option (List UInt8)) (cb : Option K)
    (memory : PublishMemory) : c.Exchanges g label (c.publish uri properties buffer cb memory).1 := by
  have hnext : c.Exchanges g label (c.doNext .publishMessage) := .next nofun
  unfold publish
  split
  · split
    · exact ⟨.frame rfl rfl id,id⟩
    split
    · exact ⟨.frame rfl rfl id,id⟩
    · exact ⟨.frame rfl rfl id,hnext.idle⟩
  · exact ⟨.frame rfl rfl id,id⟩
lemma close_exchanges : c.Exchanges g label c.close := by
  have hclosing (hc : c.Idle) : { c with status := .closing }.Idle := hc.withStatus nofun
  have hbegin (hc : c.Idle) : ({ c with status := .closing }.doNext .beginDisconnect).Idle := (hclosing hc).doNext nofun
  have hfree (hc : c.Idle) : ({ c with status := .closing }.doNext .free).Idle := (hclosing hc).doNext nofun
  unfold close
  dsimp only
  split
  · exact ⟨.frame rfl rfl id,fun hc => (hbegin hc).doLater (show Task.free ≠ _ by nofun)⟩
  · exact ⟨.frame rfl rfl id,hfree⟩

lemma subscribe_idle (hc : c.Idle) (hfrees : c.frees = 0) (uri : Option (List Char)) (receiver : Option R)
    (memory uriMemory : Bool) : (c.subscribe uri receiver memory uriMemory).1.Idle := by
  unfold subscribe
  split
  · exact hc
  split
  · exact hc
  dsimp only
  split
  · rename_i hconnected
    intro hnone
    exact absurd hconnected ((hc hnone).2 hfrees)
  · exact hc

lemma idFree_of_genuine {index entry} (h : c.genuine (.run index results : Label K R))
    (hentry : c.tasks[index]? = some entry) (htakes : entry.task.takesId) : c.exchange.IdFree := by
  have hall : c.subscriptions.all (·.pktid ≠ nextId c.pktCounter) := by
    simpa [genuine,hentry,htakes] using h
  intro s hs
  exact of_decide_eq_true (all_eq_true.1 hall s hs)

def Connection.Trusted (c : Connection K R) (label : Label K R) : Prop :=
  c.Idle ∧ c.genuine label
lemma Connection.Exchanges.trusted (h : c.Exchanges (c.Trusted label) label d) :
    c.exchange.Effect (c.Trusted label) d.exchange label ∧ (c.Trusted label → d.Idle) :=
  ⟨h.effect,fun hc => h.idle hc.1⟩

open Connection.Exchanges

lemma step_exchanges (h : c.step now label = some d) :
    c.exchange.Effect (c.Trusted label) d.exchange label ∧ (c.Trusted label → d.Idle) := by
  have hstep := h
  unfold step at h
  split at h
  · cases h
  rename_i hfreed
  cases label with
  | advance =>
    cases h
    exact refl.trusted
  | publish uri properties buffer cb memory =>
    cases h
    exact (publish_exchanges uri properties buffer cb memory).trusted
  | subscribe uri receiver memory uriMemory =>
    cases h
    have hfrees : c.frees = 0 := not_not.1 fun hne => hfreed ⟨rfl,hne⟩
    exact ⟨subscribe_effect uri receiver memory uriMemory,
      fun hc => subscribe_idle hc.1 hfrees uri receiver memory uriMemory⟩
  | release key =>
    cases h
    have hnext (hc : c.Idle) : (c.doNext (.freeSubscription key)).Idle := hc.doNext nofun
    exact ⟨releaseSubscription_effect key,fun hc => hnext hc.1⟩
  | connect =>
    cases h
    have hnext (hc : c.Idle) : (c.doNext .reconnect).Idle := hc.doNext nofun
    exact trusted ⟨.frame rfl rfl id,hnext⟩
  | close =>
    cases h
    exact close_exchanges.trusted
  | run index results =>
    obtain ⟨⟨task,e⟩,htake,rfl⟩ := Option.map_eq_some_iff.1 h
    obtain ⟨entry,hentry,tasks,htasks,rfl,rfl⟩ := takeTask_eq htake
    have hfree (htakes : entry.task.takesId) (hc : c.Trusted (.run index results)) : c.exchange.IdFree :=
      idFree_of_genuine hc.2 hentry htakes
    have hruns : { c with tasks }.Exchanges (c.Trusted (.run index results)) (.run index results)
        ({ c with tasks }.runTask now results entry.task) := by
      refine runTask_exchanges hfree fun htask hc hnone => ?_
      exact (hc.1 hnone).1 entry (mem_of_getElem? hentry) htask
    exact ⟨hruns.effect,fun hc => hruns.idle (hc.1.queued fun entry hentry => .inl (htasks hentry))⟩
  | drop =>
    obtain ⟨⟨task,e⟩,htake,rfl⟩ := Option.map_eq_some_iff.1 h
    obtain ⟨_,_,tasks,htasks,_,rfl⟩ := takeTask_eq htake
    have hqueued (hc : c.Idle) : { c with tasks }.Idle := hc.queued fun entry hentry => .inl (htasks hentry)
    exact trusted ⟨.frame rfl rfl id,hqueued⟩
  | event =>
    obtain ⟨heffect,hsocket⟩ := handleEvent_effect (event_of_step hstep).2 And.right
    refine ⟨heffect,fun hc hnone => ?_⟩
    have hsome : c.socketIo.isSome := (Bool.and_eq_true _ _ ▸ hc.2).1
    rw [hsocket.symm.trans hnone] at hsome
    cases hsome

end EdgeProxy.Mqtt
