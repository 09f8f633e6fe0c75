import EdgeProxy.Server.System

/-! # The effects of the handlers

Every step of a server socket as an explicit change of its record. The handlers that answer a request without touching
the streaming part of a socket are one case.
-/
namespace EdgeProxy.Server
open Base Codec Cell

def Cell.dropped (c : Cell) : Cell :=
  { c.setState .collect with socket.sendQueue := [], socket.recvQueue := [] }
def Cell.startClose (c : Cell) (calls : Calls) : Cell :=
  let managed := manageReadQueue c.socket.stream true calls c.socket.readQueue
  { c.setState .closing with
    socket.timeout := 5 * 60 * 1000
    socket.lastActivity := calls.now
    socket.readQueue := managed.1
    history.answers := c.history.answers ++ managed.2 }

inductive Collects (c : Cell) (calls : Calls) : Cell → Prop
  | noSocket (hsock : c.socket.sock = none) : Collects c calls (c.setState .closed)
  | waits : Collects c calls c
  | undefined {sock} (hsock : c.socket.sock = some sock)
      (hclose : Pal.palSocketClose sock calls.eventCloseSent = none) :
      Collects c calls (c.startClose calls).markUndefined
  | closing {sock sock'} (hsock : c.socket.sock = some sock)
      (hclose : Pal.palSocketClose sock calls.eventCloseSent = some (sock',false)) :
      Collects c calls { c.startClose calls with socket.sock := some sock' }
  | closed {sock sock'} (hsock : c.socket.sock = some sock)
      (hclose : Pal.palSocketClose sock calls.eventCloseSent = some (sock',true)) :
      Collects c calls { c.startClose calls with socket.sock := some sock' }.onClosed

structure Unchanged (c c' : Cell) : Prop where
  delivery : c'.delivery = c.delivery
  portThread : c'.portThread = c.portThread
  sendQueue : c'.socket.sendQueue = c.socket.sendQueue
  stream : c'.socket.stream = c.socket.stream
  linkMessage : c'.socket.linkMessage = c.socket.linkMessage
  bufferSize : c'.socket.bufferSize = c.socket.bufferSize
  poolSize : c'.socket.poolSize = c.socket.poolSize
  pools : c'.history.pools = c.history.pools
  streams : c'.history.streams = c.history.streams
  polls : c'.history.polls = c.history.polls
  linkRefs : c'.linkRefs = c.linkRefs
  transportHolds : c'.transportHolds = c.transportHolds
  bytesSent : c'.socket.bytesSent = c.socket.bytesSent
  bytesRecvd : c'.socket.bytesRecvd = c.socket.bytesRecvd
  accepted : c'.history.accepted = c.history.accepted
  objects : c'.history.objects = c.history.objects
  osBytes : c'.history.osBytes = c.history.osBytes
  completed : c'.history.completed = c.history.completed

lemma Collects.unchanged {c c' calls} (h : Collects c calls c') : Unchanged c c' := by
  cases h <;> constructor <;> rfl

/-- The tasks of a socket that leaves the table. It is queued to be freed, or its stream is closed
first: the handler of a websocket stream then queues the release, any other one does not. -/
def Leaves (c : Cell) (tasks : List Task) : Prop :=
  tasks = c.tasks.filter (· ≠ .free) ++ [.free] ∨
  c.socket.stream.isSome ∧ c.socket.stream ≠ some .webSocket ∧ ¬c.socket.serverStream ∧ tasks = c.tasks

inductive Works (c : Cell) (calls : Calls) : Cell → Prop
  | waits (idle : c.socket.state = .opened → ¬c.socket.timedout calls.now ∧ ¬calls.exit) : Works c calls c
  | closeTimedout {stream tasks} (state : c.socket.state = .closing) (timedout : c.socket.timedout calls.now)
      (leaves : Leaves c tasks) :
      Works c calls { c.setState .closed with socket.stream := stream, tasks := tasks, inTable := false }
  | leaves {stream tasks} (state : c.socket.state = .closed) (leaves : Leaves c tasks) :
      Works c calls { c with socket.stream := stream, tasks := tasks, inTable := false }
  | notified (state : c.socket.state = .opened) (timedout : c.socket.timedout calls.now) :
      Works c calls { c.setState .created with
        socket.recvQueue := c.socket.recvQueue ++ [c.closeMessage]
        history.objects := c.history.objects + 1
        history.arrived := c.history.arrived ++ [c.closeMessage]
        delivery := some (.receive,.worker calls.now) }
  | reverted {c'} (state : c.socket.state = .opened) (due : c.socket.timedout calls.now ∨ calls.exit)
      (collects : Collects (c.setState .created).dropped calls c') : Works c calls c'
  | drops {c'} (state : c.socket.state = .created) (due : c.socket.timedout calls.now ∨ calls.exit)
      (collects : Collects c.dropped calls c') : Works c calls c'
  | collects {c'} (state : c.socket.state = .collect) (collects : Collects c calls c') : Works c calls c'

inductive Receives (c : Cell) (fromStream : Bool) (message : Message) (calls : Calls) : Cell → Prop
  | answers {timeout lastActivity responses}
      (type : fromStream = false → messageType message.type ≠ some .open) :
      Receives c fromStream message calls { c with
        socket.timeout := timeout
        socket.lastActivity := lastActivity
        history.responses := responses }
  | closes {responses} (type : messageType message.type = some .close)
      (live : c.socket.state = .created ∨ c.socket.state = .opened) :
      Receives c fromStream message calls { c.setState .collect with history.responses := responses }
  | openRefused {responses} (type : messageType message.type = some .open) (control : fromStream = false)
      (state : c.socket.state ≠ .created) :
      Receives c fromStream message calls { c.setState .collect with history.responses := responses }
  | openFailed {streamId polled bufferSize messagePool stream serverStream pools streams responses}
      (type : messageType message.type = some .open) (control : fromStream = false)
      (state : c.socket.state = .created) (hpools : pools ≤ c.history.pools + 1)
      (hstreams : streams ≤ c.history.streams + 1)
      (hstream : stream = c.socket.stream ∧ serverStream = c.socket.serverStream ∨
        ∃ connection, openConnection message.content.openRequest calls = .ok connection ∧
          stream = some connection ∧ serverStream = (c.socket.serverStream || decide (connection = .listener))) :
      Receives c fromStream message calls { c.setState .collect with
        socket.streamId := streamId
        socket.polled := polled
        socket.bufferSize := bufferSize
        socket.messagePool := messagePool
        socket.stream := stream
        socket.serverStream := serverStream
        history.pools := pools
        history.streams := streams
        history.responses := responses }
  | opened {connection responses} (type : messageType message.type = some .open) (control : fromStream = false)
      (state : c.socket.state = .created)
      (connects : openConnection message.content.openRequest calls = .ok connection) :
      Receives c fromStream message calls { c.setState .opened with
        socket.streamId := message.content.openRequest.streamId
        socket.polled := message.content.openRequest.polled
        socket.bufferSize := message.content.openRequest.maxRecv.toUInt64
        socket.messagePool := true
        socket.stream := some connection
        socket.serverStream := c.socket.serverStream || decide (connection = .listener)
        socket.timeOpened := calls.now
        socket.lastActivity := calls.now
        history.pools := c.history.pools + 1
        history.streams := c.history.streams + 1
        history.responses := responses }
  | polls (type : messageType message.type = some .poll) (state : c.socket.state = .opened) :
      Receives c fromStream message calls { c with
        socket.timeout := (message.content.pollMessage.timeout.toUInt32 * 3).toUInt64
        socket.lastActivity := calls.now
        socket.readQueue := c.socket.readQueue ++ [{ message with object := c.history.objects }.queuedAt calls.now]
        history.objects := c.history.objects + 1
        history.polls := c.history.polls ++ [{ message with object := c.history.objects }.queuedAt calls.now]
        delivery := some (.receive,.pollrequest message.content.pollMessage.timeout) }
  | data (type : messageType message.type = some .data) (state : c.socket.state = .opened) :
      Receives c fromStream message calls { c with
        socket.sendQueue := c.socket.sendQueue ++ [{ message with object := c.history.objects }]
        history.objects := c.history.objects + 1
        history.accepted := c.history.accepted ++ [{ message with object := c.history.objects }] }

inductive Completes (c : Cell) (calls : Calls) : Cell → Prop
  | missing (link : c.socket.linkMessage = none) (fails : c.openFails calls = false) :
      Completes c calls c.markUndefined
  | undefined {message} (link : c.socket.linkMessage = some message) (fails : c.openFails calls = false)
      (empty : c.socket.openBufferSize calls = 0) :
      Completes c calls { c with socket.linkMessage := none, socket.lastError := erOk }.markUndefined
  | failed {message response bufferSize poolSize} (link : c.socket.linkMessage = some message)
      (fails : c.openFails calls) :
      Completes c calls { c.setState .collect with
        socket.linkMessage := none
        socket.lastError := erOk
        socket.bufferSize := bufferSize
        socket.poolSize := poolSize
        history.linkResponses := c.history.linkResponses ++ message.context.toList.map fun _ => response }
  | completed {message response bufferSize poolSize} (link : c.socket.linkMessage = some message)
      (fails : c.openFails calls = false) :
      Completes c calls { c with
        socket.linkMessage := none
        socket.lastError := erOk
        socket.bufferSize := bufferSize
        socket.poolSize := poolSize
        history.linkResponses := c.history.linkResponses ++ message.context.toList.map fun _ => response }

variable {c : Cell} {fromStream : Bool} {message : Message} {responder : Option Connection} {calls : Calls}

lemma receives_close (type : messageType message.type = some .close) :
    Receives c fromStream message calls (c.prxServerSocketHandleCloserequest responder message calls) := by
  unfold prxServerSocketHandleCloserequest
  by_cases live : c.socket.state = .created ∨ c.socket.state = .opened
  · simp only [if_pos live]
    exact .closes type live
  · simp only [if_neg live]
    exact .answers fun _ => by simp [type]
lemma receives_respondClosed (type : messageType message.type ≠ some .open) :
    Receives c fromStream message calls (c.respondClosed responder message) := by
  unfold respondClosed
  split <;> exact .answers fun _ => type
lemma receives_data (type : messageType message.type = some .data) :
    Receives c fromStream message calls (c.prxServerSocketHandleDatamessage responder message calls) := by
  have other : messageType message.type ≠ some .open := by simp [type]
  unfold prxServerSocketHandleDatamessage
  split
  · exact receives_respondClosed other
  · next state =>
    split
    · exact .answers fun _ => other
    · exact .data type (not_not.1 state)
lemma receives_poll (type : messageType message.type = some .poll) :
    Receives c fromStream message calls (c.prxServerSocketHandlePollrequest responder message calls) := by
  have other : messageType message.type ≠ some .open := by simp [type]
  unfold prxServerSocketHandlePollrequest
  split
  · exact receives_respondClosed other
  · next state =>
    split
    · exact .answers fun _ => other
    · exact .polls type (not_not.1 state)
lemma receives_setopt (type : messageType message.type ≠ some .open) :
    Receives c fromStream message calls (c.prxServerSocketHandleSetoptrequest responder message calls) := by
  unfold prxServerSocketHandleSetoptrequest
  split <;> exact .answers fun _ => type
lemma receives_getopt (type : messageType message.type ≠ some .open) :
    Receives c fromStream message calls (c.prxServerSocketHandleGetoptrequest responder message calls) := by
  unfold prxServerSocketHandleGetoptrequest
  dsimp only
  repeat' split
  all_goals exact .answers fun _ => type
lemma openEntry_error {request e} (h : openEntry request calls = .error e) : e ≠ erOk := by
  unfold openEntry at h
  split_ifs at h with _ _ hc he <;> cases h
  exacts [hc,he,by decide,by decide]
lemma openConnection_error {request e} (h : openConnection request calls = .error e) : e ≠ erOk := by
  unfold openConnection at h
  split at h
  · next he =>
    cases h
    exact openEntry_error he
  · cases h
  · split_ifs at h with _ ht _ ht <;> cases h
    exacts [ht,ht,by decide]

lemma receives_open (type : messageType message.type = some .open) :
    Receives c false message calls (c.prxServerSocketHandleOpenrequest responder message calls) := by
  unfold prxServerSocketHandleOpenrequest
  by_cases state : c.socket.state = .created
  · unfold openBody
    simp only [state]
    by_cases hf : calls.factory = erOk
    · rw [if_neg (not_not_intro hf)]
      cases hconn : openConnection message.content.openRequest calls with
      | error =>
        rw [if_pos (openConnection_error hconn)]
        exact .openFailed type rfl state (Nat.le_refl _) (Nat.le_succ _) (.inl ⟨rfl,rfl⟩)
      | ok connection =>
        dsimp only
        split
        · exact .openFailed type rfl state (Nat.le_refl _) (Nat.le_refl _) (.inr ⟨connection,hconn,rfl,rfl⟩)
        · exact .opened type rfl state hconn
    · rw [if_pos hf]
      rw [if_pos hf]
      exact .openFailed type rfl state (Nat.le_succ _) (Nat.le_succ _) (.inl ⟨rfl,rfl⟩)
  · have hcollect : Receives c false message calls { c.setState .collect with
        history.responses := c.history.responses ++ responder.toList.map fun _ =>
          { message.ioMessageAsResponse with
            errorCode := if c.socket.state = .opened then erBadState else erClosed
            targetId := c.socket.owner } } := .openRefused type rfl state
    cases hs : c.socket.state with
    | created => exact absurd hs state
    | _ =>
      simp only [hs] at hcollect
      exact hcollect

variable {timedout : Bool}

lemma collects_workerCollect : Collects c calls (c.workerCollect timedout calls) := by
  unfold workerCollect
  split
  · next hsock => exact .noSocket hsock
  · next hsock =>
    obtain ⟨sock,hsock⟩ := Option.ne_none_iff_exists'.1 hsock
    split
    · exact .waits
    · change Collects c calls ((c.startClose calls).palSocketClose calls)
      have hsock' : (c.startClose calls).socket.sock = some sock := hsock
      rw [palSocketClose,hsock']
      dsimp only
      cases hclose : Pal.palSocketClose sock calls.eventCloseSent with
      | none => exact .undefined hsock hclose
      | some p =>
        obtain ⟨sock',closed⟩ := p
        cases closed with
        | false => exact .closing hsock hclose
        | true => exact .closed hsock hclose

lemma due_of_not_idle (h : ¬(¬timedout ∧ ¬calls.exit)) : timedout ∨ calls.exit := by
  by_contra hnot
  exact h (not_or.1 hnot)
lemma workerClosed_eq :
    ∃ stream tasks, c.workerClosed = { c with socket.stream := stream, tasks := tasks, inTable := false } ∧
      Leaves c tasks := by
  unfold workerClosed ioConnectionClose
  split
  · next h =>
    split
    · exact ⟨_,_,rfl,.inl rfl⟩
    · next hs => exact ⟨_,_,rfl,.inr ⟨h.1,hs,h.2,rfl⟩⟩
  · exact ⟨_,_,rfl,.inl rfl⟩

lemma works_worker : Works c calls (c.prxServerWorker calls) := by
  unfold prxServerWorker
  cases state : c.socket.state with
  | closing =>
    dsimp only
    split
    · next timedout =>
      obtain ⟨stream,tasks,heq,leaves⟩ := workerClosed_eq
      rw [heq]
      exact .closeTimedout state timedout leaves
    · exact .waits (by simp [state])
  | closed =>
    obtain ⟨stream,tasks,heq,leaves⟩ := workerClosed_eq (c := c)
    rw [heq]
    exact .leaves state leaves
  | collect => exact .collects state collects_workerCollect
  | created =>
    dsimp only
    unfold workerCreated
    split
    · exact .waits (by simp [state])
    · next h => exact .drops state (due_of_not_idle h) collects_workerCollect
  | opened =>
    dsimp only
    unfold workerOpened
    split
    · next h => exact .waits fun _ => h
    · next h =>
      dsimp only
      split
      · next timedout => exact .notified state timedout.1
      · unfold workerCreated
        rw [if_neg h]
        exact .reverted state (due_of_not_idle h) collects_workerCollect

lemma linkResponse_result {s : ServerSocket} {message} :
    (s.linkResponse calls message).2 ≠ erOk ↔ calls.getsockname.1 ≠ erOk ∨ calls.getpeername.1 ≠ erOk := by
  unfold ServerSocket.linkResponse
  split
  · next h => exact iff_of_true h (.inl h)
  · next h =>
    split
    · next h' => exact iff_of_true h' (.inr h')
    · next h' => exact iff_of_false (absurd rfl) (not_or.2 ⟨h,h'⟩)

lemma completes_openComplete : Completes c calls (c.prxServerSocketOpenComplete calls) := by
  unfold prxServerSocketOpenComplete
  cases link : c.socket.linkMessage with
  | none => exact .missing link (by simp [openFails,link])
  | some =>
    dsimp only
    split
    · next he =>
      unfold openCompleteRespond
      simp only [if_pos he]
      exact .failed link (by simp [openFails,link,he])
    · next he =>
      split
      · next hb =>
        have hb' : c.socket.openBufferSize calls = 0 := hb
        exact .undefined link (by simpa [openFails,link,hb'] using he) hb'
      · next hb =>
        have hb' : c.socket.openBufferSize calls ≠ 0 := hb
        have he' : c.socket.lastError = erOk := not_not.1 he
        have heq : c.openFails calls = decide (calls.getsockname.1 ≠ erOk ∨ calls.getpeername.1 ≠ erOk) := by
          simp [openFails,link,hb',he']
        unfold openCompleteRespond
        split
        · next hr => exact .failed link (by simpa [heq] using linkResponse_result.1 hr)
        · next hr => exact .completed link (by simpa [heq] using mt linkResponse_result.2 hr)

end EdgeProxy.Server
