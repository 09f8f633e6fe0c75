import Mathlib.Data.List.Nodup
import EdgeProxy.Server.Queues

/-! # Poll requests and their answers

A poll request waits in the read queue until a received message or an error answers it, and none is answered twice. A
request whose answer could not be sent goes back to the queue as a response.
-/
namespace EdgeProxy.Server
open Base Codec Lib Cell Option Message
open List hiding Vector

variable {c c' : Cell} {calls : Calls} {event : Event} {stream : Option Connection} {close : Bool}

/-- The requests that are not due stay in order; those due are answered where the answer can be sent. -/
theorem manageReadQueue_eq (queue : List Message) :
    manageReadQueue stream close calls queue = (queue.filter fun poll => !pollDue close calls.now poll,
        (queue.filter fun poll => pollDue close calls.now poll &&
          ioConnectionSend stream calls (pollError close poll) = erOk).map
            fun poll => (poll.object,pollError close poll)) := by
  induction queue with
  | nil => rfl
  | cons next rest ih =>
    rw [manageReadQueue,ih]
    cases hdue : pollDue close calls.now next with
    | false => simp [hdue]
    | true =>
      by_cases hsend : ioConnectionSend stream calls (pollError close next) = erOk <;> simp [hdue,hsend]

lemma manageReadQueue_answer {queue answer} (h : answer ∈ (manageReadQueue stream close calls queue).2) :
    ∃ poll ∈ queue, answer = (poll.object,pollError close poll) := by
  rw [manageReadQueue_eq] at h
  obtain ⟨poll,hmem,rfl⟩ := mem_map.1 h
  exact ⟨poll,mem_of_mem_filter hmem,rfl⟩

/-- A request of the read queue stays in it or is answered, not both. -/
theorem manageReadQueue_count (stream : Option Connection) (close : Bool) (calls : Calls) (queue : List Message)
    (object : ℕ) : ((manageReadQueue stream close calls queue).1.map Message.object).count object +
      ((manageReadQueue stream close calls queue).2.map Prod.fst).count object ≤
      (queue.map Message.object).count object := by
  induction queue with
  | nil => exact Nat.le_refl _
  | cons =>
    unfold manageReadQueue
    dsimp only
    repeat' split
    all_goals
      simp only [map_cons,count_cons]
      omega

section

/-- What becomes of the poll requests of a socket. A request whose answer could not be sent counts as queued,
since the delivery is about to push it back. -/
structure Polling where
  id : IoRef
  streamId : IoRef
  queue : List Message
  /-- A request in the hands of a delivery, and the message that is to answer it. -/
  paired : Option (Message × Message)
  answers : List (ℕ × Message)
  polls : List Message
  objects : ℕ

def Delivery.paired : Delivery → Option (Message × Message)
  | .sending message poll => poll.map fun poll => (poll,message)
  | _ => none
def Delivery.returned : Delivery → List Message
  | .sendFailed _ poll => poll.toList
  | _ => []

def Cell.polling (c : Cell) : Polling where
  id := c.socket.id
  streamId := c.socket.streamId
  queue := (c.delivery.toList.flatMap fun d => d.1.returned) ++ c.socket.readQueue
  paired := c.delivery.bind fun d => d.1.paired
  answers := c.history.answers
  polls := c.history.polls
  objects := c.history.objects

/-- The operations on poll requests. Those that break the pairing of requests and answers are possible only where
`keeps` fails. -/
inductive Polling.Step (keeps : Prop) (p : Polling) : Polling → Prop
  | skip {objects} (mono : p.objects ≤ objects) : Step keeps p { p with objects := objects }
  | accept {poll : Message} (object : poll.object = p.objects)
      (addressed : keeps → poll.sourceId = p.streamId ∧ poll.targetId = p.id) :
      Step keeps p { p with
        queue := p.queue ++ [poll]
        polls := p.polls ++ [poll]
        objects := p.objects + 1 }
  | pair {poll message : Message} {rest} (queue : p.queue = poll :: rest) (free : p.paired = none)
      (correlationId : message.correlationId = poll.correlationId) (source : message.sourceId = p.id)
      (target : message.targetId = p.streamId) :
      Step keeps p { p with queue := rest, paired := some (poll.ioMessageAsResponse,message) }
  | answer {poll message : Message} (paired : p.paired = some (poll,message)) :
      Step keeps p { p with paired := none, answers := p.answers ++ [(poll.object,message)] }
  | giveBack {poll message : Message} (paired : p.paired = some (poll,message)) (breaks : ¬keeps) :
      Step keeps p { p with paired := none, queue := poll :: p.queue }
  | manage (stream : Option Connection) (close : Bool) (calls : Calls) :
      Step keeps p { p with
        queue := (manageReadQueue stream close calls p.queue).1
        answers := p.answers ++ (manageReadQueue stream close calls p.queue).2 }
  | clear : Step keeps p { p with queue := [] }
  | rename (streamId : IoRef) (empty : keeps → p.queue = []) : Step keeps p { p with streamId := streamId }

def Polling.count (p : Polling) (object : ℕ) : ℕ :=
  (p.queue.map Message.object).count object + (p.paired.toList.map fun pair => pair.1.object).count object +
    (p.answers.map Prod.fst).count object

structure Polling.Once (p : Polling) : Prop where
  once : ∀ object, p.count object ≤ 1
  fresh : ∀ object, p.objects ≤ object → p.count object = 0
  distinct : (p.polls.map Message.object).Nodup
  bound : ∀ poll ∈ p.polls, poll.object < p.objects

variable {keeps : Prop} {p q : Polling}

lemma Polling.Once.mono (hp : p.Once) (hle : ∀ object, q.count object ≤ p.count object) (polls : q.polls = p.polls)
    (objects : p.objects ≤ q.objects) : q.Once where
  once object := Nat.le_trans (hle object) (hp.once object)
  fresh object hobject := Nat.le_zero.1 (hp.fresh object (Nat.le_trans objects hobject) ▸ hle object)
  distinct := polls ▸ hp.distinct
  bound poll hpoll := Nat.lt_of_lt_of_le (hp.bound poll (polls ▸ hpoll)) objects

lemma Polling.count_accept (poll : Message) (object : ℕ) : count { p with
      queue := p.queue ++ [poll]
      polls := p.polls ++ [poll]
      objects := p.objects + 1 } object = p.count object + if poll.object = object then 1 else 0 := by
  simp only [count,map_append,count_append,map_cons,map_nil,count_cons,count_nil,beq_iff_eq]
  omega

lemma Polling.Once.accept (hp : p.Once) {poll} (object : poll.object = p.objects) : Once { p with
      queue := p.queue ++ [poll]
      polls := p.polls ++ [poll]
      objects := p.objects + 1 } := by
  constructor
  · intro o
    rw [count_accept]
    split
    · have hzero := hp.fresh o (by omega)
      omega
    · exact hp.once o
  · intro o ho
    have hlt : p.objects < o := ho
    rw [count_accept,if_neg (by omega)]
    exact hp.fresh o (Nat.le_of_lt hlt)
  · rw [map_append,nodup_append]
    refine ⟨hp.distinct,by simp,?_⟩
    intro a ha b hb
    obtain ⟨earlier,hmem,rfl⟩ := mem_map.1 ha
    have hlt := hp.bound earlier hmem
    have hnew : b = poll.object := mem_singleton.1 hb
    omega
  · intro request hmem
    rcases mem_append.1 hmem with hold | hnew
    · exact Nat.lt_succ_of_lt (hp.bound request hold)
    · rw [mem_singleton.1 hnew,object]
      exact Nat.lt_succ_self _

lemma Polling.Step.once (h : Step keeps p q) (hp : p.Once) : q.Once := by
  cases h with
  | skip mono => exact hp.mono (fun _ => Nat.le_refl _) rfl mono
  | accept object => exact hp.accept object
  | pair queue free =>
    refine hp.mono (fun o => ?_) rfl (Nat.le_refl _)
    simp only [count,queue,free,toList,map_cons,count_cons,ioMessageAsResponse]
    omega
  | answer paired =>
    refine hp.mono (fun o => ?_) rfl (Nat.le_refl _)
    simp only [count,paired,toList,map_cons,map_nil,count_nil,map_append,count_append]
    omega
  | giveBack paired =>
    refine hp.mono (fun o => ?_) rfl (Nat.le_refl _)
    simp only [count,paired,toList,map_cons,count_cons]
    omega
  | manage stream close calls =>
    refine hp.mono (fun o => ?_) rfl (Nat.le_refl _)
    have hcount := manageReadQueue_count stream close calls p.queue o
    simp only [count,map_append,count_append]
    omega
  | clear =>
    refine hp.mono (fun o => ?_) rfl (Nat.le_refl _)
    simp only [count,map_nil,count_nil]
    omega
  | rename => exact hp.mono (fun _ => Nat.le_refl _) rfl (Nat.le_refl _)

/-- The answer carries the correlation id of the request and its addresses, exchanged. -/
structure Answers (request answer : Message) : Prop where
  correlationId : answer.correlationId = request.correlationId
  source : answer.sourceId = request.targetId
  target : answer.targetId = request.sourceId

structure Polling.Matched (p : Polling) : Prop where
  queued : ∀ poll ∈ p.queue, poll ∈ p.polls ∧ poll.sourceId = p.streamId ∧ poll.targetId = p.id
  paired : ∀ poll message, p.paired = some (poll,message) →
    ∃ request ∈ p.polls, poll.object = request.object ∧ Answers request message
  answered : ∀ answer ∈ p.answers, ∃ request ∈ p.polls, answer.1 = request.object ∧ Answers request answer.2

lemma Polling.Matched.accept (hp : p.Matched) {poll objects}
    (addressed : poll.sourceId = p.streamId ∧ poll.targetId = p.id) : Matched { p with
      queue := p.queue ++ [poll]
      polls := p.polls ++ [poll]
      objects := objects } where
  queued next hmem := by
    rcases mem_append.1 hmem with hold | hnew
    · exact ⟨mem_append_left _ (hp.queued next hold).1,(hp.queued next hold).2⟩
    · rw [mem_singleton.1 hnew]
      exact ⟨mem_append_right _ mem_cons_self,addressed⟩
  paired next message hpaired := by
    obtain ⟨request,hmem,hanswers⟩ := hp.paired next message hpaired
    exact ⟨request,mem_append_left _ hmem,hanswers⟩
  answered answer hanswer := by
    obtain ⟨request,hmem,hanswers⟩ := hp.answered answer hanswer
    exact ⟨request,mem_append_left _ hmem,hanswers⟩

lemma Polling.Matched.manage (hp : p.Matched) (stream : Option Connection) (close : Bool) (calls : Calls) :
    Matched { p with
      queue := (manageReadQueue stream close calls p.queue).1
      answers := p.answers ++ (manageReadQueue stream close calls p.queue).2 } where
  queued poll hmem := hp.queued poll (mem_of_mem_filter (manageReadQueue_eq .. ▸ hmem))
  paired := hp.paired
  answered answer hmem := by
    rcases mem_append.1 hmem with hold | hnew
    · exact hp.answered answer hold
    · obtain ⟨poll,hpoll,rfl⟩ := manageReadQueue_answer hnew
      exact ⟨poll,(hp.queued poll hpoll).1,rfl,⟨rfl,rfl,rfl⟩⟩

lemma Polling.Step.matched (h : Step keeps p q) (hkeeps : keeps) (hp : p.Matched) : q.Matched := by
  cases h with
  | skip => exact ⟨hp.queued,hp.paired,hp.answered⟩
  | accept object addressed => exact hp.accept (addressed hkeeps)
  | @pair poll message rest queue free correlationId source target =>
    obtain ⟨hmem,hsource,htarget⟩ := hp.queued poll (by simp [queue])
    refine ⟨fun next hnext => hp.queued next (queue ▸ mem_cons_of_mem _ hnext),?_,hp.answered⟩
    intro next reply hpaired
    cases hpaired
    exact ⟨poll,hmem,rfl,correlationId,source.trans htarget.symm,target.trans hsource.symm⟩
  | @answer poll message paired =>
    refine ⟨hp.queued,fun _ _ hnone => absurd hnone.symm (some_ne_none _),?_⟩
    intro next hnext
    rcases mem_append.1 hnext with hold | hnew
    · exact hp.answered next hold
    · rw [mem_singleton.1 hnew]
      exact hp.paired poll message paired
  | giveBack paired breaks => exact absurd hkeeps breaks
  | manage stream close calls => exact hp.manage stream close calls
  | clear => exact ⟨fun _ hmem => absurd hmem not_mem_nil,hp.paired,hp.answered⟩
  | rename streamId empty =>
    refine ⟨fun poll hmem => ?_,hp.paired,hp.answered⟩
    exact absurd (empty hkeeps ▸ hmem) not_mem_nil

end

/-- The send of an answer succeeds, poll requests come from the client of the socket, and the socket is not opened while
some are queued. -/
def Cell.keepsPolls (c : Cell) (label : Label) : Bool :=
  match label.1 with
  | .deliver =>
    match c.delivery with
    | some (.sending message (some _),_) => ioConnectionSend c.socket.stream label.2 message = erOk
    | _ => true
  | .received fromStream message =>
    match messageType message.type with
    | some .poll => c.socket.state ≠ .opened ∨ message.sourceId = c.socket.streamId ∧ message.targetId = c.socket.id
    | some .open => fromStream ∨ c.socket.state ≠ .created ∨ c.socket.readQueue = []
    | _ => true
  | _ => true

lemma polling_skip (h : c'.polling = c.polling) : Polling.Step keeps c.polling c'.polling := by
  rw [h]
  exact .skip (Nat.le_refl _)

lemma Delivers.polling (h : Delivers c calls c') :
    Polling.Step (c.keepsPolls (.deliver,calls)) c.polling c'.polling := by
  cases h with
  | @pair caller poll polls message rest pc polled read recv =>
    simp only [polling,pc]
    exact .pair (by simp [Delivery.returned,read]) rfl rfl rfl rfl
  | @sent caller message poll pc ok =>
    simp only [polling,pc]
    cases poll with
    | none =>
      have same : c.history.answers ++ [] = c.history.answers := append_nil _
      simp only [toList,map_nil,same]
      exact .skip (Nat.le_refl _)
    | some => exact .answer rfl
  | @failed caller message poll pc fails =>
    simp only [polling,pc]
    cases poll with
    | none => exact .skip (Nat.le_refl _)
    | some =>
      have breaks : ¬c.keepsPolls (.deliver,calls) := by simp [keepsPolls,pc,fails]
      exact .giveBack rfl breaks
  | pushBack pc | take pc | toWrite pc | writeTake pc | returns pc | written pc | writeFailed pc | writeBack pc =>
    exact polling_skip (by simp [polling,pc,Delivery.returned,Delivery.paired])

lemma startClose_polling (idle : c.delivery = none) : Polling.Step keeps c.polling (c.startClose calls).polling := by
  have idle' : (c.startClose calls).delivery = none := idle
  simp only [polling,idle,idle']
  exact .manage c.socket.stream true calls
lemma Collects.polling (h : Collects c calls c') (idle : c.delivery = none) :
    Polling.Step keeps c.polling c'.polling := by
  cases h with
  | noSocket | waits => exact polling_skip rfl
  | _ => exact startClose_polling idle

lemma Receives.polling {fromStream message} (h : Receives c fromStream message calls c') (idle : c.delivery = none) :
    Polling.Step (c.keepsPolls (.received fromStream message,calls)) c.polling c'.polling := by
  cases h with
  | openFailed type control state | opened type control state =>
    refine .rename _ fun hkeeps => ?_
    simpa [keepsPolls,type,control,state,polling,idle] using hkeeps
  | polls type state =>
    simp only [polling,idle]
    refine .accept rfl fun hkeeps => ?_
    change message.sourceId = c.socket.streamId ∧ message.targetId = c.socket.id
    simpa [keepsPolls,type,state] using hkeeps
  | data => exact .skip (Nat.le_succ _)
  | _ => exact polling_skip rfl

lemma Takes.polling (h : Takes c event calls c') : Polling.Step (c.keepsPolls (event,calls)) c.polling c'.polling := by
  cases h with
  | received idle table receives => exact receives.polling (delivery_eq_none idle)
  | worker idle table works =>
    have none := delivery_eq_none idle
    cases works with
    | notified =>
      simp only [polling,none]
      exact .skip (Nat.le_succ _)
    | reverted _ _ collects | drops _ _ collects | collects _ collects => exact collects.polling none
    | _ => exact polling_skip rfl
  | openComplete idle queued completes => cases completes <;> exact polling_skip rfl
  | deliverResults idle =>
    simp only [polling,delivery_eq_none idle]
    exact .skip (Nat.le_refl _)
  | @timeoutPollrequest calls idle queued =>
    simp only [polling,delivery_eq_none idle]
    exact .manage c.socket.stream false calls
  | free idle =>
    simp only [polling,delivery_eq_none idle]
    exact .clear
  | deliver delivers => exact delivers.polling
  | receiveRefused hsock idle enters mono => exact .skip mono
  | receiveBegun => exact .skip (Nat.le_succ _)
  | _ => exact polling_skip rfl

def Message.unaddressed (message : Message) : Message :=
  { message with proxyId := default, targetId := default, sourceId := default }
def Delivery.unsent : Delivery → List Message
  | .sending message none => [message]
  | .sendFailed message _ => [message]
  | _ => []

def Cell.unsent (c : Cell) : List Message :=
  ((c.delivery.toList.flatMap fun d => d.1.unsent) ++ c.socket.recvQueue).map Message.unaddressed
def Cell.arrivals (c : Cell) : List Message :=
  c.history.arrived.map Message.unaddressed
lemma Collects.arrivals (h : Collects c calls c') : c.arrivals ⊆ c'.arrivals := by
  cases h <;> exact .refl _
lemma Collects.unsent (h : Collects c calls c') : c'.unsent ⊆ c.unsent := by
  cases h <;> exact .refl _

lemma Takes.arrivals (h : Takes c event calls c') : c.arrivals ⊆ c'.arrivals := by
  cases h with
  | received _ _ step | openComplete _ _ step | deliver step => cases step <;> exact .refl _
  | worker idle table works =>
    cases works with
    | notified => exact map_subset _ (subset_append_left _ _)
    | reverted _ _ collects | drops _ _ collects | collects _ collects => exact collects.arrivals
    | _ => exact .refl _
  | receiveEnded => exact map_subset _ (subset_append_left _ _)
  | _ => exact .refl _
lemma Delivers.unsent (h : Delivers c calls c') (hkeeps : c.keepsPolls (.deliver,calls)) : c'.unsent ⊆ c.unsent := by
  cases h with
  | pair pc polled read recv => simp [unsent,recv,Delivery.unsent]
  | take pc polled recv => simp [unsent,recv,Delivery.unsent,unaddressed,ServerSocket.address]
  | sent => simp [unsent,Delivery.unsent]
  | @failed caller message poll pc fails =>
    cases poll with
    | none => simp [unsent,pc,Delivery.unsent]
    | some => simp [keepsPolls,pc,fails] at hkeeps
  | pushBack pc | toWrite pc | writeTake pc | returns pc | written pc | writeFailed pc | writeBack pc =>
    simp [unsent,pc,Delivery.unsent]
lemma dropped_unsent : c.dropped.unsent ⊆ c.unsent := by
  apply map_subset
  exact append_subset.2 ⟨subset_append_left _ _,nil_subset _⟩

lemma Takes.unsent (h : Takes c event calls c') (hkeeps : c.keepsPolls (event,calls)) :
    c'.unsent ⊆ c.unsent ++ c'.arrivals := by
  have left (hsub : c'.unsent ⊆ c.unsent) : c'.unsent ⊆ c.unsent ++ c'.arrivals :=
    List.Subset.trans hsub (subset_append_left _ _)
  cases h with
  | received idle table receives =>
    apply left
    cases receives with
    | polls => simp [Cell.unsent,Delivery.unsent]
    | _ => exact .refl _
  | worker idle table works =>
    cases works with
    | notified => simp [Cell.unsent,Cell.arrivals,Delivery.unsent]
    | reverted _ _ collects | drops _ _ collects => exact left (List.Subset.trans collects.unsent dropped_unsent)
    | collects state collects => exact left collects.unsent
    | _ => exact left (.refl _)
  | openComplete idle queued completes => cases completes <;> exact left (.refl _)
  | deliverResults => exact left (by simp [Cell.unsent,Delivery.unsent])
  | free => exact left (by simp [Cell.unsent,Cell.prxServerSocketFree])
  | deliver delivers => exact left (delivers.unsent hkeeps)
  | receiveEnded => simp [Cell.unsent,Cell.arrivals]
  | _ => exact left (.refl _)

/-- Poll requests are answered at most once, every answer is addressed to its request, and what is queued is as it was.
-/
structure PollsAnswered (c : Cell) : Prop where
  distinct : (c.history.polls.map Message.object).Nodup
  once : (c.history.answers.map Prod.fst).Nodup
  addressed : ∀ answer ∈ c.history.answers,
    ∃ request ∈ c.history.polls, answer.1 = request.object ∧ Answers request answer.2
  queued : ∀ poll ∈ c.socket.readQueue, poll ∈ c.history.polls
  received : ∀ message ∈ c.socket.recvQueue,∃ arrival ∈ c.history.arrived, message.unaddressed = arrival.unaddressed

structure PollsKept (c : Cell) : Prop where
  once : c.polling.Once
  matched : c.polling.Matched
  unsent : c.unsent ⊆ c.arrivals

lemma Initial.pollsKept (h : Initial c) : PollsKept c where
  once := by
    constructor <;> simp [Polling.count,polling,h.delivery,h.readQueue,h.answers,h.polls]
  matched := by
    constructor <;> simp [polling,h.delivery,h.readQueue,h.answers]
  unsent := by simp [unsent,h.delivery,h.recvQueue]
lemma step_pollsKept {label} (hc : PollsKept c) (hkeeps : c.keepsPolls label)
    (h : c.step label = some c') : PollsKept c' := by
  obtain ⟨_,takes⟩ := takes_of_step h
  constructor
  · exact takes.polling.once hc.once
  · exact takes.polling.matched hkeeps hc.matched
  · have hsub := List.Subset.trans hc.unsent takes.arrivals
    exact List.Subset.trans (takes.unsent hkeeps) (append_subset.2 ⟨hsub,.refl _⟩)
lemma Polling.Once.answers_nodup {p : Polling} (hp : p.Once) : (p.answers.map Prod.fst).Nodup := by
  apply nodup_iff_count_le_one.2
  intro object
  have hcount := hp.once object
  unfold count at hcount
  omega
lemma Polling.Once.queue_nodup {p : Polling} (hp : p.Once) : (p.queue.map object).Nodup := by
  apply nodup_iff_count_le_one.2
  intro object
  have hcount := hp.once object
  unfold count at hcount
  omega
lemma PollsKept.pollsAnswered (h : PollsKept c) : PollsAnswered c where
  distinct := h.once.distinct
  once := h.once.answers_nodup
  addressed := h.matched.answered
  queued poll hmem := (h.matched.queued poll (mem_append_right _ hmem)).1
  received message hmem := by
    have hunsent : message.unaddressed ∈ c.unsent := mem_map_of_mem (mem_append_right _ hmem)
    obtain ⟨arrival,harrived,heq⟩ := mem_map.1 (h.unsent hunsent)
    exact ⟨arrival,harrived,heq.symm⟩

/-- If the steps keep polls, all requests are answered once and correctly addressed. -/
theorem pollsAnswered_of_keeps {c₀ : Cell} {labels : List Label} (born : Born c₀)
    (keeps : Along Cell.step (fun c label => c.keepsPolls label) c₀ labels) :
    Always Cell.step PollsAnswered c₀ labels :=
  always_of_along step_pollsKept PollsKept.pollsAnswered born.initial.pollsKept keeps

def client : IoRef :=
  ⟨Vector.replicate 16 1⟩
def pollRequest (correlationId : Int32) (timeout : UInt64) : Message :=
  { Message.request .poll with
    sourceId := client
    correlationId := correlationId
    content.pollMessage.timeout := timeout }
def receivedOne : List Label :=
  linkDone ++ [(.received false { openPolled with content.openRequest.streamId := client },.succeed 1),
    (.beginReceive erOk,.succeed 2),(.endReceive ⟨2,erOk⟩ erOk [7,8] none,.succeed 2)]
def polledTwice : List Label :=
  receivedOne ++ [(.received false (pollRequest 5 100),.succeed 3),(.deliver,.succeed 3),(.deliver,.succeed 3),
    (.deliver,.succeed 3),(.deliver,.succeed 3),(.received false (pollRequest 6 100),.succeed 4),(.deliver,.succeed 4),
    (.deliver,.succeed 4),(.received false (.request .close),.succeed 5),(.worker,.succeed 1000)]
theorem polledTwice_answered :
    ∃ c, run Cell.step linkedStream polledTwice = some c ∧
      c.history.answers.map (fun answer => (answer.2.correlationId,answer.2.errorCode)) = [(5,erOk),(6,erClosed)] ∧
      Always Cell.step PollsAnswered linkedStream polledTwice :=
  ⟨_,rfl,rfl,pollsAnswered_of_keeps born_linkedStream (by decide)⟩
def polledFailing : List Label :=
  receivedOne ++ [(.received false (pollRequest 5 100),.succeed 3),(.deliver,.succeed 3),
    (.deliver,{ Calls.succeed 3 with send := fun _ => erAborted }),(.deliver,.succeed 3),(.deliver,.succeed 3),
    (.received false (.request .close),.succeed 5),(.worker,.succeed 1000)]

/-- The request went back to the queue as a response, so its answer is addressed to the socket itself. -/
theorem polledFailing_not_answered :
    ∃ c, Runs Cell.step linkedStream polledFailing c ∧
      c.history.polls.map (fun request => (request.sourceId,request.targetId)) = [(client,default)] ∧
      c.history.answers.map (fun answer => (answer.2.sourceId,answer.2.targetId)) = [(client,default)] ∧
      ¬PollsAnswered c := by
  refine ⟨_,runs_of_run rfl,rfl,rfl,?_⟩
  intro answered
  obtain ⟨request,hrequest,_,hmatch⟩ := answered.addressed _ mem_cons_self
  cases mem_singleton.1 hrequest
  exact absurd hmatch.source (by decide)

end EdgeProxy.Server
