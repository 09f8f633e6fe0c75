import EdgeProxy.Mqtt.Connection

/-! # What a step of the connection can do

Which messages a step takes out or adds to those that wait, and which tasks it can queue in which status of the
connection.
-/
namespace EdgeProxy.Mqtt
open Base Message List

variable {K R : Type} {c d : Connection K R} {now : ℤ} {results : Results}

section

lemma mem_doNext {task entry} (h : entry ∈ (c.doNext task).tasks) : entry ∈ c.tasks ∨ entry.task = task := by
  rcases mem_append.1 h with h | h
  · exact .inl h
  · exact .inr (congrArg Entry.task (mem_singleton.1 h))
lemma mem_doLater {task delay entry} (h : entry ∈ (c.doLater task delay).tasks) :
    entry ∈ c.tasks ∨ entry.task = task := by
  rcases mem_append.1 h with h | h
  · exact .inl (mem_of_mem_filter h)
  · exact .inr (congrArg Entry.task (mem_singleton.1 h))
def Connection.waiting (c : Connection K R) : List (Message K) :=
  c.sendQueue.map Message.reset

inductive Cause where
  | task (task : Task)
  | event (event : Event)
deriving DecidableEq

def Cause.leaves : Cause → Bool
  | .task .softReset | .task .reconnect | .event (.connectAck (some .accepted)) => true
  | _ => false
def Connection.mayQueue (now : ℤ) (cause : Cause) (c : Connection K R) : Task → Prop
  | .free => c.status = .closing
  | .reconnect => c.status ≠ .closing
  | .softReset => c.status = .connected ∨ cause = .task .monitor ∧ c.expired now
  | .freeSubscription _ => False
  | _ => True

structure Connection.Moves (now : ℤ) (cause : Cause) (c d : Connection K R) : Prop where
  waiting : d.waiting = c.waiting
  calls : d.calls = c.calls
  invoked : d.invoked = c.invoked
  closed : d.closed = c.closed
  counter : d.pktCounter = c.pktCounter ∧ d.draws = c.draws ∨
    d.pktCounter = nextId c.pktCounter ∧ d.draws = c.draws + 1
  tasks : ∀ entry ∈ d.tasks, entry ∈ c.tasks ∨ c.mayQueue now cause entry.task
  status : d.status = c.status ∨ d.status ≠ .closing ∧ (c.status = .closing → cause.leaves)
  frees : d.frees = c.frees ∨ cause = .task .free ∧ d.frees = c.frees + 1 ∧ d.client = false ∧
    ∀ entry ∈ d.tasks, entry.task.ofSubscription

variable {cause : Cause}

lemma Connection.Moves.refl (c : Connection K R) : c.Moves now cause c :=
  ⟨rfl,rfl,rfl,rfl,.inl ⟨rfl,rfl⟩,fun _ => .inl,.inl rfl,.inl rfl⟩

open Connection.Moves

lemma Connection.Moves.nextPktId (c : Connection K R) : c.Moves now cause c.nextPktId :=
  { refl c with counter := .inr ⟨rfl,rfl⟩ }
lemma Connection.Moves.queued (h : c.Moves now cause d) (hfrees : d.frees = c.frees) {tasks}
    (htasks : ∀ entry ∈ tasks, entry ∈ d.tasks ∨ c.mayQueue now cause entry.task) :
    c.Moves now cause { d with tasks } := by
  refine { h with tasks := fun entry hentry => ?_, frees := .inl hfrees }
  exact (htasks entry hentry).elim (h.tasks entry) .inr
lemma Connection.Moves.doNext (h : c.Moves now cause d) (task : Task) (hfrees : d.frees = c.frees)
    (hmay : c.mayQueue now cause task) : c.Moves now cause (d.doNext task) := by
  refine h.queued hfrees fun _ hentry => ?_
  exact (mem_doNext hentry).elim .inl fun h => .inr (h ▸ hmay)
lemma Connection.Moves.next {task} (hmay : c.mayQueue now cause task) : c.Moves now cause (c.doNext task) :=
  (refl c).doNext task rfl hmay
lemma Connection.Moves.doLater {delay} (h : c.Moves now cause d) (task : Task)
    (hfrees : d.frees = c.frees) (hmay : c.mayQueue now cause task) : c.Moves now cause (d.doLater task delay) := by
  refine h.queued hfrees fun _ hentry => ?_
  exact (mem_doLater hentry).elim .inl fun h => .inr (h ▸ hmay)
lemma Connection.Moves.completeDisconnect (h : c.Moves now cause d) (hfrees : d.frees = c.frees) :
    c.Moves now cause d.completeDisconnect := by
  have hqueue : (d.sendQueue.map reset).map reset = d.sendQueue.map reset := by
    rw [map_map]
    rfl
  exact { h with
    waiting := hqueue.trans h.waiting
    tasks := fun entry hentry => h.tasks entry (mem_of_mem_filter hentry)
    frees := .inl hfrees }
lemma attemptFirst_reset (published : Bool) (queue : List (Message K)) :
    (attemptFirst now published queue).map reset = queue.map reset := by
  induction queue with
  | nil => rfl
  | cons next queue ih =>
    unfold attemptFirst
    split
    · rw [map_cons,ih,map_cons]
    · rfl
lemma subscribeAll_moves : c.Moves now cause (c.subscribeAll results) := by
  unfold Connection.subscribeAll
  dsimp only
  split
  · exact .refl c
  split
  · exact .next trivial
  split
  · exact (nextPktId c).doNext _ rfl trivial
  · exact { nextPktId c with }
lemma unsubscribeAll_moves : c.Moves now cause (c.unsubscribeAll results) := by
  unfold Connection.unsubscribeAll
  dsimp only
  split
  · split
    · exact .next trivial
    · exact .refl c
  split
  · exact .next trivial
  split
  · exact (nextPktId c).doNext _ rfl trivial
  · exact { nextPktId c with }
lemma publishMessage_moves : c.Moves now cause (c.publishMessage now results) := by
  unfold Connection.publishMessage
  split
  · exact .refl c
  rename_i hstatus
  split
  · exact .refl c
  · have hattempt : c.Moves now cause { c with sendQueue := attemptFirst now results.client c.sendQueue } :=
      { refl c with waiting := attemptFirst_reset _ _ }
    split
    · exact { hattempt with }
    · exact hattempt.doNext _ rfl (.inl (not_not.1 hstatus))

lemma monitor_moves : c.Moves now (.task .monitor) (c.monitor now) := by
  unfold Connection.monitor
  dsimp only
  split
  · rename_i hexpired
    have hnext : c.Moves now (.task .monitor) (c.doNext .softReset) :=
      .next (.inr ⟨rfl,hexpired⟩)
    split <;> exact { hnext with }
  split
  · split
    · exact .next trivial
    split
    · exact .next trivial
    · exact (refl c).doLater _ rfl trivial
  · exact (refl c).doLater _ rfl trivial

lemma beginDisconnect_moves : c.Moves now cause c.beginDisconnect := by
  unfold Connection.beginDisconnect
  split
  · exact .next trivial
  · exact { refl c with }
lemma openLayers_moves :
    c.Moves now cause (c.openLayers now results).1 ∧ (c.openLayers now results).1.frees = c.frees := by
  unfold Connection.openLayers
  dsimp only
  repeat' split
  all_goals exact ⟨{ refl c with frees := .inl rfl },rfl⟩
lemma reconnect_moves : c.Moves now (.task .reconnect) (c.reconnect now results) := by
  obtain ⟨hopen,hfrees⟩ : c.Moves now (.task .reconnect) (c.openLayers now results).1 ∧ _ := openLayers_moves
  unfold Connection.reconnect
  split <;> rename_i d _ h <;> rw [h] at hopen hfrees
  · exact hopen.doNext _ hfrees trivial
  · have hconnecting : c.Moves now (.task .reconnect) { d with lastActivity := now, status := .connecting } :=
      { hopen with status := .inr ⟨nofun,fun _ => rfl⟩ }
    exact hconnecting.doLater .monitor hfrees trivial

lemma hardReset_moves : c.Moves now cause (c.hardReset results) := by
  unfold Connection.hardReset
  dsimp only
  split
  · rename_i hclosing
    exact .next hclosing
  rename_i hopen
  have hreset : c.Moves now cause { c with status := .reset }.completeDisconnect :=
    completeDisconnect
      { refl c with status := .inr ⟨nofun,fun hclosing => absurd hclosing hopen⟩ } rfl
  split
  · exact hreset
  · exact { hreset.doLater .reconnect rfl hopen with }

lemma softReset_moves : c.Moves now (.task .softReset) c.softReset := by
  have hdisconnecting : c.Moves now (.task .softReset) { c with status := .disconnecting } :=
    { refl c with status := .inr ⟨nofun,fun _ => rfl⟩ }
  exact hdisconnecting.doNext .beginDisconnect rfl trivial
lemma free_moves : c.Moves now (.task .free) c.free := by
  have hcomplete : c.Moves now (.task .free) c.completeDisconnect := (refl c).completeDisconnect rfl
  exact { hcomplete with frees := .inr ⟨rfl,rfl,rfl,fun entry hentry => (mem_filter.1 hentry).2⟩ }
lemma freeSubscription_moves {key} : c.Moves now cause (c.freeSubscription key results) := by
  unfold Connection.freeSubscription
  split
  · exact .refl c
  split
  · split <;> exact { nextPktId c with }
  · exact { refl c with }

lemma runTask_moves (now : ℤ) (results : Results) (task : Task) :
    c.Moves now (.task task) (c.runTask now results task) := by
  cases task with
  | reconnect => exact reconnect_moves
  | monitor => exact monitor_moves
  | hardReset => exact hardReset_moves
  | softReset => exact softReset_moves
  | beginDisconnect => exact beginDisconnect_moves
  | unsubscribeAll => exact unsubscribeAll_moves
  | subscribeAll => exact subscribeAll_moves
  | publishMessage => exact publishMessage_moves
  | free => exact free_moves
  | freeSubscription => exact freeSubscription_moves

structure Connection.Acks (now : ℤ) (c : Connection K R) (packetId : UInt16) (message : Message K)
    (d : Connection K R) : Prop where
  found : c.sendQueue.find? (·.pktId = packetId) = some message
  sendQueue : d.sendQueue = c.sendQueue.eraseP (·.pktId = packetId)
  calls : d.calls = c.calls
  invoked : d.invoked = c.invoked ++ message.completion (.ok ())
  closed : d.closed = c.closed
  counter : d.pktCounter = c.pktCounter ∧ d.draws = c.draws
  tasks : ∀ entry ∈ d.tasks, entry ∈ c.tasks ∨ c.mayQueue now (.event (.publishAck (some packetId))) entry.task
  status : d.status = c.status
  frees : d.frees = c.frees

lemma operated_moves {outcome} (h : c.Moves now cause outcome.1)
    (hfrees : outcome.1.frees = c.frees) : c.Moves now cause (operated now outcome) := by
  obtain ⟨d,result⟩ := outcome
  cases result with
  | ok => exact { h with }
  | error => exact h.doNext _ hfrees trivial
lemma handleConnectAck_moves (connack : Option ConnectReturn) :
    c.Moves now (.event (.connectAck connack)) (operated now (c.handleConnectAck connack)) := by
  unfold Connection.handleConnectAck
  split
  · exact operated_moves (.refl c) rfl
  · have hconnected : c.Moves now (.event (.connectAck (some .accepted))) { c with status := .connected } :=
      { refl c with status := .inr ⟨nofun,fun _ => rfl⟩ }
    have hnext := ((hconnected.doNext .subscribeAll rfl trivial).doNext .publishMessage rfl trivial).doNext .monitor rfl
      trivial
    exact operated_moves hnext rfl
  · exact operated_moves (.refl c) rfl

lemma handlePublishAck_cases (puback : Option UInt16) :
    c.Moves now (.event (.publishAck puback)) (operated now (c.handlePublishAck now puback)) ∨
      ∃ packetId message, Event.publishAck puback = .publishAck (some packetId) ∧
      c.Acks now packetId message (operated now (c.handlePublishAck now puback)) := by
  unfold Connection.handlePublishAck
  split
  · exact .inl (operated_moves (.refl c) rfl)
  split
  · exact .inl (operated_moves (.refl c) rfl)
  · rename_i packetId _ message hfound
    refine .inr ⟨packetId,message,rfl,?_⟩
    dsimp only
    split
    · have hnext : c.Moves now (.event (.publishAck (some packetId))) (c.doNext .publishMessage) :=
        .next trivial
      exact ⟨hfound,rfl,rfl,rfl,rfl,⟨rfl,rfl⟩,hnext.tasks,rfl,rfl⟩
    · exact ⟨hfound,rfl,rfl,rfl,rfl,⟨rfl,rfl⟩,fun _ => .inl,rfl,rfl⟩

lemma handleSubscribeAck_moves (suback : Option (UInt16 × List Bool)) :
    c.Moves now cause (operated now (c.handleSubscribeAck suback)) := by
  unfold Connection.handleSubscribeAck
  split
  · exact operated_moves (.refl c) rfl
  split
  · exact operated_moves (.refl c) rfl
  · have hnext : c.Moves now cause (c.doNext .subscribeAll) := .next trivial
    exact operated_moves { hnext with } rfl
lemma handleUnsubscribeAck_moves (unsuback : Option UInt16) :
    c.Moves now cause (operated now (c.handleUnsubscribeAck unsuback)) := by
  unfold Connection.handleUnsubscribeAck
  split
  · exact operated_moves (.refl c) rfl
  dsimp only
  split
  · have hnext : c.Moves now cause (c.doNext .unsubscribeAll) := .next trivial
    exact operated_moves { hnext with } rfl
  · exact operated_moves { refl c with } rfl

lemma receiveMessage_eq {uri payload} (h : c.receiveMessage now uri payload = .ok d) :
    ∃ status received lastSuccess lastActivity backOffInSeconds,
      d = { c with status, received, lastSuccess, lastActivity, backOffInSeconds } ∧
      (status = c.status ∨ c.status = .connecting ∧ status = .connected) := by
  unfold Connection.receiveMessage at h
  have hstatus : ∃ status, (if c.status = .connecting then { c with status := .connected } else c) = { c with status } ∧
      (status = c.status ∨ c.status = .connecting ∧ status = .connected) := by
    split
    · next hconnecting => exact ⟨_,rfl,.inr ⟨hconnecting,rfl⟩⟩
    · exact ⟨_,rfl,.inl rfl⟩
  obtain ⟨status,hc,hstatus⟩ := hstatus
  rw [hc] at h
  dsimp only at h
  split at h
  · cases h
    exact ⟨_,_,_,_,_,rfl,hstatus⟩
  cases hfind : findSubscription uri c.subscriptions with
  | error => simp [hfind,bind,Except.bind] at h
  | ok =>
    simp only [hfind,bind,Except.bind] at h
    repeat' split at h
    all_goals
      cases h
      exact ⟨_,_,_,_,_,rfl,hstatus⟩

lemma receiveMessage_moves {uri payload} (h : c.receiveMessage now uri payload = .ok d) : c.Moves now cause d := by
  obtain ⟨status,_,_,_,_,rfl,hstatus⟩ := receiveMessage_eq h
  refine { refl c with status := hstatus.imp_right fun ⟨hconnecting,hconnected⟩ => ⟨?_,?_⟩ }
  · rintro rfl
    cases hconnected
  · rw [hconnecting]
    nofun

lemma handleEvent_cases {event} (h : c.handleEvent now event = .ok d) :
    c.Moves now (.event event) d ∨ ∃ packetId message, event = .publishAck (some packetId) ∧
      c.Acks now packetId message d := by
  cases event with
  | connectAck connack =>
    cases h
    exact .inl (handleConnectAck_moves connack)
  | publishAck puback =>
    cases h
    exact handlePublishAck_cases puback
  | subscribeAck suback =>
    cases h
    exact .inl (handleSubscribeAck_moves suback)
  | unsubscribeAck unsuback =>
    cases h
    exact .inl (handleUnsubscribeAck_moves unsuback)
  | publishStage =>
    cases h
    exact .inl (.refl c)
  | disconnected =>
    cases h
    left
    split
    · rename_i hclosing
      exact operated_moves (.next hclosing) rfl
    · exact operated_moves (.next trivial) rfl
  | pingResponse | unknown =>
    cases h
    exact .inl (operated_moves (.refl c) rfl)
  | error =>
    cases h
    exact .inl (.next trivial)
  | message => exact .inl (receiveMessage_moves h)

end

def Label.prepares : Label K R → Bool
  | .subscribe .. | .release _ | .connect _ => true
  | _ => false
lemma Label.prepares_isCall {label : Label K R} (h : label.prepares) : label.isCall := by
  cases label <;> first | rfl | cases h

structure Connection.Prepares (c d : Connection K R) : Prop where
  sendQueue : d.sendQueue = c.sendQueue
  calls : d.calls = c.calls
  invoked : d.invoked = c.invoked
  closed : d.closed = c.closed
  counter : d.pktCounter = c.pktCounter ∧ d.draws = c.draws
  tasks : ∀ entry ∈ d.tasks, entry ∈ c.tasks ∨ entry.task ≠ .free
  status : d.status = c.status
  frees : d.frees = c.frees

lemma doNext_tasks (task : Task) (hne : task ≠ .free) :
    ∀ entry ∈ (c.doNext task).tasks, entry ∈ c.tasks ∨ entry.task ≠ .free := by
  intro _ hentry
  exact (mem_doNext hentry).elim .inl fun h => .inr (h ▸ hne)
lemma subscribe_prepares (uri : Option (List Char)) (receiver : Option R) (memory uriMemory : Bool) :
    c.Prepares (c.subscribe uri receiver memory uriMemory).1 := by
  have hrefl : c.Prepares c := ⟨rfl,rfl,rfl,rfl,⟨rfl,rfl⟩,fun _ => .inl,rfl,rfl⟩
  unfold Connection.subscribe
  split
  · exact hrefl
  split
  · exact hrefl
  dsimp only
  split
  · exact { hrefl with tasks := doNext_tasks .subscribeAll nofun }
  · exact { hrefl with }

/-- What a step does. A publish call is refused before it has a message, fails with one, or adds one. -/
inductive Connection.Does (now : ℤ) (c : Connection K R) : Label K R → Connection K R → Prop
  | idles {ticks : ℕ} : c.Does now (.advance ticks) c
  | drops {index : ℕ} {tasks : List Entry} : tasks ⊆ c.tasks → c.Does now (.drop index) { c with tasks }
  | runs {index : ℕ} {results : Results} {entry : Entry} {tasks : List Entry} {d : Connection K R} :
      c.tasks[index]? = some entry → tasks ⊆ c.tasks → ({ c with tasks }).Moves now (.task entry.task) d →
      (entry.task.ofSubscription → d.tasks = tasks ∧ d.client = c.client) → c.Does now (.run index results) d
  | moves {event : Event} {d : Connection K R} : c.client → c.Moves now (.event event) d →
      c.Does now (.event event) d
  | acks {packetId : UInt16} {message : Message K} {d : Connection K R} : c.client →
      c.Acks now packetId message d → c.Does now (.event (.publishAck (some packetId))) d
  | prepares {label : Label K R} {d : Connection K R} : label.prepares → c.frees = 0 → c.Prepares d →
      c.Does now label d
  | refuses {uri properties : Option (List Char)} {buffer : Option (List UInt8)} (cb : Option K)
      {memory : PublishMemory} (e : PrxError) : c.frees = 0 → uri = none ∨ buffer = none ∨ memory.message = false →
      c.Does now (.publish uri properties buffer cb memory) (c.published cb (.error e)).1
  | fails {uri : List Char} {properties : Option (List Char)} {buffer : List UInt8} {memory : PublishMemory}
      (message : Message K) : c.frees = 0 → message.ticket = c.calls.length → memory.message →
      memory.topicName = false ∨ memory.msgHandle = false →
      c.Does now (.publish (some uri) properties (some buffer) message.cb memory)
        ({ c.nextPktId with invoked := c.invoked ++ message.completion (.error .outOfMemory) }.published message.cb
          (.error .outOfMemory)).1
  | enqueues {uri : List Char} {properties : Option (List Char)} {buffer : List UInt8} {memory : PublishMemory}
      (message : Message K) : c.frees = 0 → message.ticket = c.calls.length → message.pktId = nextId c.pktCounter →
      message.serial = c.draws + 1 → memory.message → memory.topicName → memory.msgHandle →
      c.Does now (.publish (some uri) properties (some buffer) message.cb memory)
        ({ c.nextPktId.doNext .publishMessage with sendQueue := c.sendQueue ++ [message] }.published message.cb
          (.ok ())).1
  | closes : c.frees = 0 → c.Does now .close c.close

lemma publish_does (now : ℤ) (uri properties : Option (List Char)) (buffer : Option (List UInt8)) (cb : Option K)
    (memory : PublishMemory) (hfrees : c.frees = 0) :
    c.Does now (.publish uri properties buffer cb memory) (c.publish uri properties buffer cb memory).1 := by
  unfold Connection.publish
  split
  · rename_i uri buffer
    split
    · rename_i hmemory
      exact .refuses cb _ hfrees (.inr (.inr (by simpa using hmemory)))
    · rename_i hmemory
      split
      · rename_i hfails
        exact .fails (c.nextPktId.newMessage uri properties buffer cb memory) hfrees rfl (by simpa using hmemory)
          (by simpa using hfails)
      · rename_i hfails
        simp only [Bool.not_eq_eq_eq_not,Bool.not_true,not_or,Bool.not_eq_false] at hfails hmemory
        exact .enqueues (c.nextPktId.newMessage uri properties buffer cb memory) hfrees rfl rfl rfl hmemory hfails.1
          hfails.2
  · rename_i hnone
    refine .refuses cb _ hfrees ?_
    cases uri with
    | none => exact .inl rfl
    | some uri =>
      cases buffer with
      | none => exact .inr (.inl rfl)
      | some buffer => exact absurd rfl (hnone uri buffer rfl)

lemma takeTask_eq {index task} (h : c.takeTask index = some (task,d)) :
    ∃ entry, c.tasks[index]? = some entry ∧ ∃ tasks, tasks ⊆ c.tasks ∧ entry.task = task ∧ d = { c with tasks } := by
  obtain ⟨entry,hentry,⟨⟩⟩ := Option.map_eq_some_iff.1 h
  exact ⟨entry,hentry,_,eraseIdx_subset,rfl,rfl⟩
lemma freeSubscription_frame {key} :
    (c.freeSubscription key results).tasks = c.tasks ∧ (c.freeSubscription key results).client = c.client := by
  unfold Connection.freeSubscription
  repeat' split
  all_goals exact ⟨rfl,rfl⟩

lemma event_of_step {event} (h : c.step now (.event event) = some d) : c.client ∧ c.handleEvent now event = .ok d := by
  unfold Connection.step at h
  split at h
  · cases h
  dsimp only at h
  split at h
  · next hclient =>
    cases hevent : c.handleEvent now event with
    | error => simp [hevent,Except.toOption] at h
    | ok =>
      rw [hevent] at h
      exact ⟨hclient,congrArg Except.ok (Option.some.inj h)⟩
  · cases h

lemma does_of_step {label} (h : c.step now label = some d) : c.Does now label d := by
  have hstep := h
  unfold Connection.step at h
  split at h
  · cases h
  rename_i hfreed
  have hfrees (hcall : label.isCall) : c.frees = 0 := by
    by_contra hne
    exact hfreed ⟨hcall,hne⟩
  cases label with
  | advance =>
    cases h
    exact .idles
  | publish uri properties buffer cb memory =>
    cases h
    exact publish_does now uri properties buffer cb memory (hfrees rfl)
  | subscribe uri receiver memory uriMemory =>
    cases h
    exact .prepares rfl (hfrees rfl) (subscribe_prepares uri receiver memory uriMemory)
  | release key =>
    cases h
    exact .prepares rfl (hfrees rfl) ⟨rfl,rfl,rfl,rfl,⟨rfl,rfl⟩,doNext_tasks (.freeSubscription key) nofun,rfl,rfl⟩
  | connect =>
    cases h
    exact .prepares rfl (hfrees rfl) ⟨rfl,rfl,rfl,rfl,⟨rfl,rfl⟩,doNext_tasks .reconnect nofun,rfl,rfl⟩
  | close =>
    cases h
    exact .closes (hfrees rfl)
  | run index results =>
    obtain ⟨⟨task,e⟩,htake,rfl⟩ := Option.map_eq_some_iff.1 h
    obtain ⟨entry,hentry,tasks,htasks,rfl,rfl⟩ := takeTask_eq htake
    refine .runs hentry htasks (runTask_moves now results entry.task) fun hof => ?_
    cases htask : entry.task with
    | freeSubscription => exact freeSubscription_frame
    | _ => simp [htask,Task.ofSubscription] at hof
  | drop =>
    obtain ⟨⟨task,e⟩,htake,rfl⟩ := Option.map_eq_some_iff.1 h
    obtain ⟨_,_,tasks,htasks,_,rfl⟩ := takeTask_eq htake
    exact .drops htasks
  | event =>
    obtain ⟨hclient,hevent⟩ := event_of_step hstep
    obtain hmoves | ⟨packetId,message,rfl,hacks⟩ := handleEvent_cases hevent
    · exact .moves hclient hmoves
    · exact .acks hclient hacks

end EdgeProxy.Mqtt
