import EdgeProxy.Server.Effects

/-! # What a step of a server socket can do

One constructor for each handler that an event can run, with the facts known when it runs. Every
property of a step is proved by cases on it.
-/
namespace EdgeProxy.Server
open Base Codec Option Cell

def Returns (c : Cell) (tasks : List Task) : Prop :=
  tasks = c.tasks ∨ tasks = c.tasks.filter (· ≠ .timeoutPollrequest) ++ [.timeoutPollrequest]

inductive Delivers (c : Cell) (calls : Calls) : Cell → Prop
  | pair {caller poll polls message rest} (pc : c.delivery = some (.receive,caller)) (polled : c.socket.polled)
      (read : c.socket.readQueue = poll :: polls) (recv : c.socket.recvQueue = message :: rest) :
      Delivers c calls { c with
        socket.readQueue := polls
        socket.recvQueue := rest
        delivery := some (.sending
          (c.socket.address { message with correlationId := poll.ioMessageAsResponse.correlationId })
          (some poll.ioMessageAsResponse),caller) }
  | take {caller message rest} (pc : c.delivery = some (.receive,caller)) (polled : c.socket.polled = false)
      (recv : c.socket.recvQueue = message :: rest) :
      Delivers c calls { c with
        socket.recvQueue := rest
        delivery := some (.sending (c.socket.address message) none,caller) }
  | toWrite {caller} (pc : c.delivery = some (.receive,caller)) :
      Delivers c calls { c with delivery := some (.write,caller) }
  | sent {caller message poll} (pc : c.delivery = some (.sending message poll,caller))
      (ok : ioConnectionSend c.socket.stream calls message = erOk) :
      Delivers c calls { c with
        delivery := some (.receive,caller)
        history.delivered := c.history.delivered ++ [message]
        history.answers := c.history.answers ++ poll.toList.map fun p => (p.object,message) }
  | failed {caller message poll} (pc : c.delivery = some (.sending message poll,caller))
      (fails : ioConnectionSend c.socket.stream calls message ≠ erOk) :
      Delivers c calls { c with delivery := some (.sendFailed message poll,caller) }
  | pushBack {caller message poll} (pc : c.delivery = some (.sendFailed message poll,caller)) :
      Delivers c calls { c with
        socket.recvQueue := message :: c.socket.recvQueue
        socket.readQueue := poll.toList ++ c.socket.readQueue
        delivery := some (.write,caller) }
  | writeTake {caller message rest} (pc : c.delivery = some (.write,caller))
      (queue : c.socket.writeQueue = message :: rest) :
      Delivers c calls { c with socket.writeQueue := rest, delivery := some (.writing message,caller) }
  | returns {caller lastActivity tasks} (pc : c.delivery = some (.write,caller)) (returns : Returns c tasks) :
      Delivers c calls { c with delivery := none, socket.lastActivity := lastActivity, tasks := tasks }
  | written {caller message} (pc : c.delivery = some (.writing message,caller)) :
      Delivers c calls { c with delivery := some (.write,caller) }
  | writeFailed {caller message} (pc : c.delivery = some (.writing message,caller)) :
      Delivers c calls { c with delivery := some (.writeFailed message,caller) }
  | writeBack {caller message lastActivity tasks} (pc : c.delivery = some (.writeFailed message,caller))
      (returns : Returns c tasks) :
      Delivers c calls { c with
        socket.writeQueue := message :: c.socket.writeQueue
        delivery := none
        socket.lastActivity := lastActivity
        tasks := tasks }

inductive Takes (c : Cell) : Event → Calls → Cell → Prop
  | received {fromStream message calls c'} (idle : c.schedulerIdle) (table : c.inTable)
      (receives : Receives c fromStream message calls c') : Takes c (.received fromStream message) calls c'
  | worker {calls c'} (idle : c.schedulerIdle) (table : c.inTable) (works : Works c calls c') :
      Takes c .worker calls c'
  | openComplete {calls c'} (idle : c.schedulerIdle) (queued : Task.openComplete ∈ c.tasks)
      (completes : Completes { c with tasks := c.tasks.erase .openComplete } calls c') :
      Takes c (.task .openComplete) calls c'
  | closeComplete {calls} (idle : c.schedulerIdle) (queued : Task.closeComplete ∈ c.tasks) :
      Takes c (.task .closeComplete) calls ({ c with tasks := c.tasks.erase .closeComplete }.setState .closed)
  | deliverResults {calls} (idle : c.schedulerIdle) (queued : Task.deliverResults ∈ c.tasks) :
      Takes c (.task .deliverResults) calls { c with
        tasks := c.tasks.erase .deliverResults
        delivery := some (.receive,.task) }
  | timeoutPollrequest {calls} (idle : c.schedulerIdle) (queued : Task.timeoutPollrequest ∈ c.tasks) :
      Takes c (.task .timeoutPollrequest) calls { c with
        tasks := c.tasks.erase .timeoutPollrequest
        socket.readQueue := (manageReadQueue c.socket.stream false calls c.socket.readQueue).1
        history.answers := c.history.answers ++ (manageReadQueue c.socket.stream false calls c.socket.readQueue).2 }
  | free {calls} (idle : c.schedulerIdle) (queued : Task.free ∈ c.tasks) :
      Takes c (.task .free) calls { c with tasks := c.tasks.erase .free }.prxServerSocketFree
  | deliver {calls c'} (delivers : Delivers c calls c') : Takes c .deliver calls c'
  | transportRelease {calls} (holds : c.transportHolds) :
      Takes c .transportRelease calls { c with transportHolds := false, linkRefs := c.linkRefs - 1 }
  | receiveRefused {result calls sock sock' objects} (hsock : c.socket.sock = some sock)
      (idle : c.portThread = .idle) (enters : Pal.palSocketOnRecvEnter sock result = some sock')
      (mono : c.history.objects ≤ objects) :
      Takes c (.beginReceive result) calls { c with socket.sock := some sock', history.objects := objects }
  | receiveBegun {result calls sock sock'} (hsock : c.socket.sock = some sock)
      (idle : c.portThread = .idle) (enters : Pal.palSocketOnRecvEnter sock result = some sock') :
      Takes c (.beginReceive result) calls { c with
        socket.sock := some sock'
        history.objects := c.history.objects + 1
        portThread := .receiving (ioMessageCreate c.history.objects .data c.socket.id c.socket.streamId) result }
  | receiveDropped {os converted data addr calls message result}
      (receiving : c.portThread = .receiving message result) :
      Takes c (.endReceive os converted data addr) calls { c with portThread := .idle }
  | receiveEnded {os converted data addr calls message result result'}
      (receiving : c.portThread = .receiving message result) :
      Takes c (.endReceive os converted data addr) calls { c with
        portThread := .idle
        socket.lastActivity := calls.now
        socket.bytesRecvd := c.socket.bytesRecvd + UInt64.ofNat data.length
        socket.recvQueue := c.socket.recvQueue ++ [receivedMessage message data addr result']
        history.arrived := c.history.arrived ++ [receivedMessage message data addr result']
        tasks := c.tasks ++ [.deliverResults] }
  | sendIdle {calls} (queue : c.socket.sendQueue = []) : Takes c .beginSend calls c
  | sendLost {calls message rest} (queue : c.socket.sendQueue = message :: rest) (idle : c.portThread = .idle)
      (null : message.content.dataMessage.buffer = none) :
      Takes c .beginSend calls { c with socket.sendQueue := rest }
  | sendBegun {calls sock sock' message rest} (queue : c.socket.sendQueue = message :: rest)
      (idle : c.portThread = .idle) (buffer : message.content.dataMessage.buffer.isSome)
      (hsock : c.socket.sock = some sock) (enters : Pal.palSocketOnSendEnter sock = some sock') :
      Takes c .beginSend calls { c with socket.sendQueue := rest, portThread := .sending message }
  | sendRetried {prepared : Int32} {os : Pal.OsResult} {calls : Calls} {message : Message}
      (sending : c.portThread = .sending message) (bound : os.ret.toInt ≤ message.payload.length)
      (result : (Pal.palSocketOnSendFinish prepared (.ofNat message.payload.length) os).1 = erRetry) :
      Takes c (.endSend prepared os) calls { c with
        portThread := .idle
        socket.sendQueue := message :: c.socket.sendQueue
        history.osBytes := c.history.osBytes ++ acceptedBytes prepared os message.payload }
  | sendEnded {prepared : Int32} {os : Pal.OsResult} {calls : Calls} {message : Message}
      {lastActivity writeQueue tasks} (sending : c.portThread = .sending message)
      (bound : os.ret.toInt ≤ message.payload.length)
      (result : (Pal.palSocketOnSendFinish prepared (.ofNat message.payload.length) os).1 ≠ erRetry)
      (htasks : tasks = c.tasks ∨ tasks = c.tasks ++ [.deliverResults]) :
      Takes c (.endSend prepared os) calls { c with
        portThread := .idle
        socket.lastActivity := lastActivity
        socket.writeQueue := writeQueue
        history.osBytes := c.history.osBytes ++ acceptedBytes prepared os message.payload
        history.completed := c.history.completed ++
          [(message,(Pal.palSocketOnSendFinish prepared (.ofNat message.payload.length) os).1)]
        tasks := tasks }
  | destroyed {calls sock} (hsock : c.socket.sock = some sock) (idle : c.portThread = .idle)
      (deleting : sock.handle = .deleting) (state : sock.state ≠ .closing) :
      Takes c .destroyed calls { c with socket.sock := some { sock with handle := .freed } }
  | closed {calls sock} (hsock : c.socket.sock = some sock) (idle : c.portThread = .idle)
      (deleting : sock.handle = .deleting) (state : sock.state = .closing) :
      Takes c .destroyed calls { c with
        socket.sock := some { sock with handle := .freed, state := .closed }
        socket.lastError := erOk
        tasks := c.tasks ++ [.closeComplete] }

variable {c c' : Cell} {calls : Calls}

lemma takes_of_beginReceive {result} (h : c.beginReceive result calls = some c') :
    Takes c (.beginReceive result) calls c' := by
  unfold beginReceive at h
  split at h
  · next hsock idle =>
    split at h
    · next enters =>
      unfold prxServerSocketOnBeginReceive at h
      dsimp only at h
      split_ifs at h <;> cases h
      · exact .receiveRefused hsock idle enters (Nat.le_refl c.history.objects)
      · exact .receiveRefused hsock idle enters (Nat.le_succ c.history.objects)
      · exact .receiveBegun hsock idle enters
    · cases h
  · cases h

lemma takes_of_endReceive {os converted data addr} (h : c.endReceive os converted data addr calls = some c') :
    Takes c (.endReceive os converted data addr) calls c' := by
  unfold endReceive at h
  split at h
  · next receiving =>
    obtain ⟨_,h⟩ := ite_none_right_eq_some.1 h
    unfold prxServerSocketOnEndReceive at h
    cases h
    split
    · exact .receiveDropped receiving
    · exact .receiveEnded receiving
  · cases h

lemma takes_of_beginSend (h : c.beginSend = some c') : Takes c .beginSend calls c' := by
  unfold beginSend at h
  split at h
  · next hsock idle =>
    split at h
    · next enters =>
      unfold prxServerSocketOnBeginSend at h
      cases hq : c.socket.sendQueue with
      | nil =>
        simp only [hq] at h
        cases h
        exact .sendIdle hq
      | cons =>
        simp only [hq] at h
        split_ifs at h with buffer <;> cases h
        · exact .sendBegun hq idle buffer hsock enters
        · exact .sendLost hq idle (by simpa using buffer)
    · cases h
  · cases h

lemma takes_of_endSend {prepared os} (h : c.endSend prepared os calls = some c') :
    Takes c (.endSend prepared os) calls c' := by
  unfold endSend at h
  split at h
  · next sending =>
    obtain ⟨bound,h⟩ := ite_none_right_eq_some.1 h
    unfold prxServerSocketOnEndSend at h
    cases h
    dsimp only
    split
    · next result => exact .sendRetried sending bound result
    · next result =>
      repeat' split
      all_goals exact .sendEnded sending bound result (by first | exact .inl rfl | exact .inr rfl)
  · cases h

lemma takes_of_destroyed (h : c.destroyed = some c') : Takes c .destroyed calls c' := by
  unfold destroyed at h
  split at h
  · next sock hsock idle =>
    obtain ⟨deleting,h⟩ := ite_none_right_eq_some.1 h
    unfold Pal.palSocketDestroyed Pal.palSocketCompleteClose at h
    by_cases state : sock.state = .closing
    · simp only [state] at h
      cases h
      exact .closed hsock idle deleting state
    · simp only [if_neg state] at h
      cases h
      exact .destroyed hsock idle deleting state
  · cases h

lemma deliveryReturn_eq (c : Cell) (caller : Caller) : ∃ lastActivity tasks, c.deliveryReturn caller =
      { c with delivery := none, socket.lastActivity := lastActivity, tasks := tasks } ∧ Returns c tasks := by
  unfold deliveryReturn
  cases caller with
  | task | worker => exact ⟨_,_,rfl,.inl rfl⟩
  | pollrequest =>
    dsimp only
    split
    · exact ⟨_,_,rfl,.inl rfl⟩
    · exact ⟨_,_,rfl,.inr rfl⟩

lemma delivers_of_deliverStep (h : c.deliverStep calls = some c') : Delivers c calls c' := by
  unfold deliverStep at h
  split at h
  · cases h
  · next hd =>
    cases h
    unfold deliverReceive
    split
    · next hp =>
      split
      · next hread hrecv => exact .pair hd hp hread hrecv
      · exact .toWrite hd
    · next hp =>
      split
      · next hrecv => exact .take hd (by simpa using hp) hrecv
      · exact .toWrite hd
  · next hd =>
    cases h
    unfold deliverSending
    split
    · exact .sent hd ‹_›
    · exact .failed hd ‹_›
  · next hd =>
    cases h
    exact .pushBack hd
  · next caller hd =>
    split at h
    · next hq =>
      cases h
      exact .writeTake hd hq
    · cases h
      obtain ⟨lastActivity,tasks,heq,returns⟩ := deliveryReturn_eq c caller
      rw [heq]
      exact .returns hd returns
  · next hd =>
    cases h
    split
    · exact .written hd
    · exact .writeFailed hd
  · next message caller hd =>
    cases h
    obtain ⟨lastActivity,tasks,heq,returns⟩ := deliveryReturn_eq
      { c with socket.writeQueue := message :: c.socket.writeQueue } caller
    rw [heq]
    exact .writeBack hd returns

variable {message : Message} {event : Event}

lemma receives_streamHandler {c calls} :
    Receives c true message calls (c.prxServerSocketStreamHandler message calls) := by
  unfold Cell.prxServerSocketStreamHandler
  split
  · next type => exact receives_close type
  · next type => exact receives_poll type
  · next type => exact receives_data type
  · exact .answers nofun
lemma receives_controlHandler {c calls} :
    Receives c false message calls (c.prxServerSocketControlHandler message calls) := by
  unfold Cell.prxServerSocketControlHandler
  split
  · next type => exact receives_close type
  · next type => exact receives_open type
  · next type => exact receives_getopt (by simp [type])
  · next type => exact receives_setopt (by simp [type])
  · next type => exact receives_poll type
  · next type => exact receives_data type
  · next hopen _ _ _ _ => exact .answers fun _ => hopen
lemma takes_of_received {c c' fromStream calls} (idle : c.schedulerIdle)
    (h : c.received fromStream message calls = some c') : Takes c (.received fromStream message) calls c' := by
  obtain ⟨table,h⟩ := ite_none_left_eq_some.1 h
  have table : c.inTable := by simpa using table
  cases fromStream with
  | false =>
    cases h
    exact .received idle table receives_controlHandler
  | true =>
    obtain ⟨-,⟨⟩⟩ := ite_none_right_eq_some.1 h
    exact .received idle table receives_streamHandler

lemma takes_of_schedule {c c' calls} (idle : c.schedulerIdle)
    (h : c.schedule event calls = some c') : Takes c event calls c' := by
  unfold Cell.schedule at h
  split at h
  · exact takes_of_received idle h
  · obtain ⟨table,⟨⟩⟩ := ite_none_right_eq_some.1 h
    exact .worker idle table works_worker
  · next task =>
    obtain ⟨queued,⟨⟩⟩ := ite_none_right_eq_some.1 h
    cases task with
    | openComplete => exact .openComplete idle queued completes_openComplete
    | closeComplete => exact .closeComplete idle queued
    | deliverResults => exact .deliverResults idle queued
    | timeoutPollrequest => exact .timeoutPollrequest idle queued
    | free => exact .free idle queued
  · cases h

lemma takes_of_step {c c' calls} (h : c.step (event,calls) = some c') : c.live ∧ Takes c event calls c' := by
  obtain ⟨live,h⟩ := ite_none_left_eq_some.1 h
  refine ⟨by simpa using live,?_⟩
  dsimp only at h
  split at h
  · exact .deliver (delivers_of_deliverStep h)
  · obtain ⟨holds,⟨⟩⟩ := ite_none_right_eq_some.1 h
    exact .transportRelease holds
  · exact takes_of_beginReceive h
  · exact takes_of_endReceive h
  · exact takes_of_beginSend h
  · exact takes_of_endSend h
  · exact takes_of_destroyed h
  · obtain ⟨idle,h⟩ := ite_none_right_eq_some.1 h
    exact takes_of_schedule idle h

lemma handled_of_step {c c' : Cell} {fromStream calls} (h : c.step (.received fromStream message,calls) = some c') :
    c' = if fromStream then c.prxServerSocketStreamHandler message calls
      else c.prxServerSocketControlHandler message calls := by
  obtain ⟨_,h⟩ := ite_none_left_eq_some.1 h
  obtain ⟨_,h⟩ := ite_none_right_eq_some.1 h
  obtain ⟨_,h⟩ := ite_none_left_eq_some.1 h
  cases fromStream with
  | false => exact (Option.some.inj h).symm
  | true =>
    obtain ⟨_,h⟩ := ite_none_right_eq_some.1 h
    exact (Option.some.inj h).symm
lemma worked_of_step {c c' : Cell} {calls} (h : c.step (.worker,calls) = some c') : c' = c.prxServerWorker calls := by
  obtain ⟨_,h⟩ := ite_none_left_eq_some.1 h
  obtain ⟨_,h⟩ := ite_none_right_eq_some.1 h
  obtain ⟨_,h⟩ := ite_none_right_eq_some.1 h
  exact (Option.some.inj h).symm

/-- What a step leaves as it is, and what it is when it does not. -/
structure Frame (c : Cell) (event : Event) (calls : Calls) (c' : Cell) : Prop where
  bytesSent : c'.socket.bytesSent = c.socket.bytesSent := by rfl
  bytesRecvd : c'.socket.bytesRecvd = c.socket.bytesRecvd ∨
    ∃ os converted data addr, event = .endReceive os converted data addr := by exact .inl rfl
  refs : event ≠ .transportRelease → c'.linkRefs = c.linkRefs ∧ c'.transportHolds = c.transportHolds := by
    exact fun _ => ⟨rfl,rfl⟩
  polls : c'.history.polls = c.history.polls ∨
    ∃ request : Message, c'.history.polls = c.history.polls ++ [request.queuedAt calls.now] := by exact .inl rfl
  link : c'.socket.linkMessage = none ∨
    c'.socket.linkMessage = c.socket.linkMessage ∧ c'.socket.poolSize = c.socket.poolSize := by
    exact .inr ⟨rfl,rfl⟩
  assigns : c'.history.pools = c.history.pools ∧ c'.history.streams = c.history.streams ∨
    c.socket.state = .created ∧ c'.socket.state ≠ .created ∧ c'.history.pools ≤ c.history.pools + 1 ∧
      c'.history.streams ≤ c.history.streams + 1 := by exact .inl ⟨rfl,rfl⟩
  accepted : c'.history.accepted = c.history.accepted ∧ c.history.objects ≤ c'.history.objects ∨
    ∃ message : Message, c'.history.accepted = c.history.accepted ++ [message] ∧
      message.object = c.history.objects ∧ c'.history.objects = c.history.objects + 1 := by
    exact .inl ⟨rfl,Nat.le_refl _⟩

lemma Takes.frame {c c' calls} (h : Takes c event calls c') : Frame c event calls c' := by
  cases h with
  | received idle table receives =>
    cases receives with
    | openFailed type control state hpools hstreams => exact { assigns := .inr ⟨state,nofun,hpools,hstreams⟩ }
    | opened type control state => exact { assigns := .inr ⟨state,nofun,Nat.le_refl _,Nat.le_refl _⟩ }
    | polls => exact { polls := .inr ⟨_,rfl⟩, accepted := .inl ⟨rfl,Nat.le_succ _⟩ }
    | data => exact { accepted := .inr ⟨_,rfl,rfl,rfl⟩ }
    | _ => exact {}
  | worker idle table works =>
    cases works with
    | notified => exact { accepted := .inl ⟨rfl,Nat.le_succ _⟩ }
    | reverted _ _ collects | drops _ _ collects | collects _ collects =>
      have same := collects.unchanged
      exact ⟨same.bytesSent,.inl same.bytesRecvd,fun _ => ⟨same.linkRefs,same.transportHolds⟩,.inl same.polls,
        .inr ⟨same.linkMessage,same.poolSize⟩,.inl ⟨same.pools,same.streams⟩,
        .inl ⟨same.accepted,Nat.le_of_eq same.objects.symm⟩⟩
    | _ => exact {}
  | openComplete idle queued completes =>
    cases completes with
    | missing link => exact { link := .inl link }
    | _ => exact { link := .inl rfl }
  | free => exact { link := .inl rfl }
  | deliver delivers => cases delivers <;> exact {}
  | transportRelease => exact { refs := fun other => absurd rfl other }
  | receiveRefused hsock idle enters mono => exact { accepted := .inl ⟨rfl,mono⟩ }
  | receiveBegun => exact { accepted := .inl ⟨rfl,Nat.le_succ _⟩ }
  | receiveEnded => exact { bytesRecvd := .inr ⟨_,_,_,_,rfl⟩ }
  | _ => exact {}

structure Initial (c : Cell) : Prop where
  state : c.socket.state = .created
  states : c.history.states = [.created]
  pools : c.history.pools = 0
  streams : c.history.streams = 0
  readQueue : c.socket.readQueue = []
  sendQueue : c.socket.sendQueue = []
  recvQueue : c.socket.recvQueue = []
  stream : c.socket.stream = none
  poolSize : c.socket.poolSize = 0
  bytesRecvd : c.socket.bytesRecvd = 0
  bytesSent : c.socket.bytesSent = 0
  delivery : c.delivery = none
  portThread : c.portThread = .idle
  tasks : ∀ task ∈ c.tasks, task = .openComplete
  arrived : c.history.arrived = []
  delivered : c.history.delivered = []
  accepted : c.history.accepted = []
  completed : c.history.completed = []
  osBytes : c.history.osBytes = []
  polls : c.history.polls = []
  answers : c.history.answers = []

lemma Born.initial {c} (h : Born c) : Initial c := by
  cases h with
  | accept => constructor <;> first | rfl | exact nofun
  | link =>
    unfold linked Cell.prxServerHandleLinkrequest
    split
    · split
      · constructor <;> first | rfl | simp [prxServerSocketCreate,Cell.onOpened,Cell.doNext]
      · constructor <;> first | rfl | exact nofun
    · split <;> constructor <;> first | rfl | exact nofun

end EdgeProxy.Server
