import EdgeProxy.Server.Steps
import EdgeProxy.Lib.Fifo

/-! # The queues of a server socket are first-in first-out channels

Received messages enter at the end callback of a receive and leave when the stream took them; data messages enter when
they arrive and leave when their send is complete. Every step of an open socket is an operation of both channels,
except that the platform drops a data message without a payload.
-/
namespace EdgeProxy.Server
open Base Codec Lib Cell PortThread

variable {c c' : Cell} {calls : Calls} {event : Event}

def Cell.isOpen (c : Cell) : Bool :=
  c.socket.state = .created ∨ c.socket.state = .opened
lemma Collects.isOpen (h : Collects c calls c') (closed : c.isOpen = false) : c'.isOpen = false := by
  cases h with
  | waits => exact closed
  | _ => rfl

lemma Takes.isOpen (h : Takes c event calls c') (closed : c.isOpen = false) : c'.isOpen = false := by
  have hcreated : c.socket.state ≠ .created := fun hs => by simp [Cell.isOpen,hs] at closed
  have hopened : c.socket.state ≠ .opened := fun hs => by simp [Cell.isOpen,hs] at closed
  cases h with
  | received idle table receives =>
    cases receives with
    | opened type control state => exact absurd state hcreated
    | answers | polls | data => exact closed
    | _ => rfl
  | worker idle table works =>
    cases works with
    | waits | leaves => exact closed
    | closeTimedout => rfl
    | notified state | reverted state => exact absurd state hopened
    | drops state => exact absurd state hcreated
    | collects state collects => exact collects.isOpen closed
  | openComplete idle queued completes =>
    cases completes with
    | failed => rfl
    | _ => exact closed
  | closeComplete => rfl
  | deliver delivers =>
    cases delivers with
    | _ => exact closed
  | _ => exact closed

def FreeClosed (c : Cell) : Prop :=
  Task.free ∈ c.tasks → c.isOpen = false
def Message.parcel (message : Message) : Message :=
  { message with
    sourceId := default
    proxyId := default
    targetId := default
    correlationId := 0 }
def Delivery.hand : Delivery → Option Message
  | .sending message _ => some message
  | .sendFailed message _ => some message
  | _ => none
def Cell.incoming (c : Cell) : Channel Message where
  entered := c.history.arrived.map Message.parcel
  finished := c.history.delivered.map Message.parcel
  hand := (c.delivery.bind fun d => d.1.hand).map Message.parcel
  queue := c.socket.recvQueue.map Message.parcel
lemma delivery_eq_none (h : c.schedulerIdle) : c.delivery = none := by
  unfold schedulerIdle at h
  cases hd : c.delivery with
  | none => rfl
  | some => simp [hd] at h
lemma incoming_hand {pc caller} (h : c.delivery = some (pc,caller)) : c.incoming.hand = pc.hand.map Message.parcel := by
  simp [incoming,h]
lemma Delivers.incoming (h : Delivers c calls c') : Channel.Step c.incoming c'.incoming := by
  cases h with
  | @pair _ _ _ message _ pc _ _ recv | @take _ message _ pc _ recv =>
    exact .take message.parcel rfl rfl (incoming_hand pc) rfl (by simp [incoming,recv])
  | @sent caller message poll pc ok =>
    exact .finish message.parcel rfl (by simp [incoming]) (incoming_hand pc) rfl rfl
  | @pushBack caller message poll pc =>
    exact .giveBack message.parcel rfl rfl (incoming_hand pc) rfl rfl
  | failed pc | toWrite pc | writeTake pc | returns pc | written pc | writeFailed pc | writeBack pc =>
    exact .skip (by simp [incoming,pc,Delivery.hand])
lemma Collects.incoming (h : Collects c calls c') : c'.incoming = c.incoming := by
  cases h with
  | _ => rfl

lemma Takes.incoming (h : Takes c event calls c') (hfree : FreeClosed c) :
    Channel.Step c.incoming c'.incoming ∨ c'.isOpen = false := by
  cases h with
  | received idle table receives =>
    cases receives with
    | polls => exact .inl (.skip (by simp [incoming,delivery_eq_none idle,Delivery.hand]))
    | _ => exact .inl (.skip rfl)
  | worker idle table works =>
    cases works with
    | notified =>
      exact .inl (.put c.closeMessage.parcel (by simp [incoming]) rfl
        (by simp [incoming,delivery_eq_none idle,Delivery.hand]) (by simp [incoming]))
    | reverted _ _ collects | drops _ _ collects => exact .inr (collects.isOpen rfl)
    | collects state collects => exact .inl (.skip collects.incoming)
    | _ => exact .inl (.skip rfl)
  | openComplete idle queued completes =>
    cases completes with
    | _ => exact .inl (.skip rfl)
  | deliverResults idle => exact .inl (.skip (by simp [incoming,delivery_eq_none idle,Delivery.hand]))
  | free idle queued => exact .inr (hfree queued)
  | deliver delivers => exact .inl delivers.incoming
  | @receiveEnded os converted data addr calls message result result' receiving =>
    exact .inl (.put (receivedMessage message data addr result').parcel (by simp [incoming]) rfl rfl
      (by simp [incoming]))
  | _ => exact .inl (.skip rfl)

def PortThread.hand : PortThread → Option Message
  | .sending message => some message
  | _ => none
def Cell.outgoing (c : Cell) : Channel Message where
  entered := c.history.accepted
  finished := c.history.completed.map Prod.fst
  hand := c.portThread.hand
  queue := c.socket.sendQueue

/-- No message without a payload is handed to the platform. -/
def SendStep (c : Cell) (label : Label) : Prop :=
  label.1 = .beginSend → ∀ message ∈ c.socket.sendQueue.head?, message.content.dataMessage.buffer.isSome

lemma Takes.outgoing (h : Takes c event calls c') (hfree : FreeClosed c) (open' : c'.isOpen) :
    SendStep c (event,calls) ∧ Channel.Step c.outgoing c'.outgoing ∨
    ¬SendStep c (event,calls) ∧ c'.outgoing.missing = c.outgoing.missing + 1 := by
  cases h with
  | received idle table receives =>
    cases receives with
    | data => exact .inl ⟨nofun,.put _ rfl rfl rfl rfl⟩
    | _ => exact .inl ⟨nofun,.skip rfl⟩
  | worker idle table works =>
    cases works with
    | reverted _ _ collects | drops _ _ collects => simp [collects.isOpen rfl] at open'
    | collects state collects =>
      have closed : c.isOpen = false := by simp [Cell.isOpen,state]
      simp [collects.isOpen closed] at open'
    | _ => exact .inl ⟨nofun,.skip rfl⟩
  | openComplete _ _ step | deliver step => cases step <;> exact .inl ⟨nofun,.skip rfl⟩
  | free idle queued =>
    have closed : c.isOpen = false := hfree queued
    have open'' : c.isOpen := open'
    simp [closed] at open''
  | receiveBegun hsock idle => exact .inl ⟨nofun,.skip (by simp [outgoing,idle,hand])⟩
  | receiveDropped receiving | receiveEnded receiving =>
    exact .inl ⟨nofun,.skip (by simp [outgoing,receiving,hand])⟩
  | sendIdle queue => exact .inl ⟨fun _ => by simp [queue],.skip rfl⟩
  | sendLost queue idle null =>
    refine .inr ⟨fun h => ?_,?_⟩
    · simpa [queue,null] using h rfl
    · simp only [Channel.missing,outgoing,queue,List.length_cons]
      omega
  | @sendBegun calls sock sock' message rest queue idle buffer =>
    refine .inl ⟨fun _ => by simpa [queue] using buffer,.take message rfl rfl ?_ rfl queue⟩
    simp [outgoing,idle,hand]
  | @sendRetried prepared os calls message sending =>
    refine .inl ⟨nofun,.giveBack message rfl rfl ?_ rfl rfl⟩
    simp [outgoing,sending,hand]
  | @sendEnded prepared os calls message lastActivity writeQueue tasks sending =>
    refine .inl ⟨nofun,.finish message rfl ?_ ?_ rfl rfl⟩
    · simp [outgoing]
    · simp [outgoing,sending,hand]
  | _ => exact .inl ⟨nofun,.skip rfl⟩

lemma Collects.free_mem (h : Collects c calls c') (queued : Task.free ∈ c'.tasks) : Task.free ∈ c.tasks := by
  cases h with
  | closed => simpa [onClosed,doNext,startClose,setState] using queued
  | _ => exact queued
lemma Returns.free_mem {tasks} (h : Returns c tasks) (queued : Task.free ∈ tasks) : Task.free ∈ c.tasks := by
  rcases h with rfl | rfl
  · exact queued
  · simpa using queued

lemma Takes.free_mem (h : Takes c event calls c') (queued : Task.free ∈ c'.tasks) :
    Task.free ∈ c.tasks ∨ c'.socket.state = .closed := by
  cases h with
  | received idle table receives =>
    cases receives with
    | _ => exact .inl queued
  | worker idle table works =>
    cases works with
    | closeTimedout => exact .inr rfl
    | leaves state => exact .inr state
    | reverted _ _ collects | drops _ _ collects | collects _ collects => exact .inl (collects.free_mem queued)
    | _ => exact .inl queued
  | openComplete idle _ completes =>
    have hmem : .free ∈ c.tasks.erase .openComplete := by
      cases completes with
      | _ => exact queued
    exact .inl (List.mem_of_mem_erase hmem)
  | closeComplete | deliverResults | timeoutPollrequest => exact .inl (List.mem_of_mem_erase queued)
  | free idle hmem => exact .inl hmem
  | deliver delivers =>
    cases delivers with
    | returns _ returns | writeBack _ returns => exact .inl (returns.free_mem queued)
    | _ => exact .inl queued
  | receiveEnded | closed => exact .inl (by simpa using queued)
  | sendEnded sending bound result htasks =>
    rcases htasks with rfl | rfl
    · exact .inl queued
    · exact .inl (by simpa using queued)
  | _ => exact .inl queued

lemma step_freeClosed {label} (hfree : FreeClosed c) (h : c.step label = some c') : FreeClosed c' := by
  intro queued
  obtain ⟨_,takes⟩ := takes_of_step h
  rcases takes.free_mem queued with hmem | closed
  · exact takes.isOpen (hfree hmem)
  · simp [isOpen,closed]

/-- The queues of the socket are loss-free: what arrived, in each direction, is what left, what is in
hand and what is queued, in this order. -/
def LossFree (c : Cell) : Prop :=
  c.incoming.Conserved ∧ c.outgoing.Conserved

/-- What the exact condition rests on: a release is queued for closed sockets only, and no message is
sent twice. -/
structure QueuesWellFormed (c : Cell) : Prop where
  free : FreeClosed c
  missing : 0 ≤ c.outgoing.missing

lemma step_lossFree {label} (hc : QueuesWellFormed c) (open' : c'.isOpen) (h : c.step label = some c') :
    QueuesWellFormed c' ∧ (LossFree c' ↔ LossFree c ∧ SendStep c label) := by
  obtain ⟨_,takes⟩ := takes_of_step h
  have hin : c'.incoming.Conserved ↔ c.incoming.Conserved := by
    rcases takes.incoming hc.free with hstep | closed
    · exact hstep.conserved_iff
    · simp [closed] at open'
  have hmissing := hc.missing
  unfold LossFree
  rcases takes.outgoing hc.free open' with ⟨sends,hout⟩ | ⟨loses,hout⟩
  · constructor
    · exact ⟨step_freeClosed hc.free h,by rw [hout.missing]; exact hmissing⟩
    · rw [hin,hout.conserved_iff]
      exact ⟨fun h => ⟨h,sends⟩,fun h => h.1⟩
  · constructor
    · exact ⟨step_freeClosed hc.free h,by omega⟩
    · constructor
      · intro hloss
        have hzero := hloss.2.missing
        omega
      · intro hloss
        exact absurd hloss.2 loses

lemma Initial.queuesWellFormed (h : Initial c) : QueuesWellFormed c where
  free queued := absurd (h.tasks _ queued) nofun
  missing := by simp [Channel.missing,outgoing,h.completed,h.portThread,h.sendQueue,hand]
lemma Initial.lossFree (h : Initial c) : LossFree c := by
  unfold LossFree Channel.Conserved
  simp [incoming,outgoing,h.arrived,h.delivered,h.delivery,h.recvQueue,h.accepted,h.completed,h.portThread,
    h.sendQueue,hand]

/-- The queues of an open socket are loss-free exactly when no message without a payload was handed to the platform. -/
theorem lossFree_iff {c₀ c : Cell} {labels : List Label} (born : Born c₀) (runs : Runs Cell.step c₀ labels c)
    (still : c.isOpen) : LossFree c ↔ Along Cell.step SendStep c₀ labels := by
  have hiff := Runs.iff_along
    (fun h open' => by
      by_contra closed
      have closed' := (takes_of_step h).2.isOpen (by simpa using closed)
      simp [closed'] at open') step_lossFree runs born.initial.queuesWellFormed still
  rw [hiff]
  exact ⟨fun h => h.2,fun h => ⟨born.initial.lossFree,h⟩⟩

def dataMessage (payload : Option Bytes) : Message :=
  { Message.request .data with content.dataMessage.buffer := payload }
def sendAndReceive : List Label :=
  linkDone ++ [(.received false openPolled,.succeed 1),(.received false (dataMessage (some [1])),.succeed 2),
    (.beginSend,.succeed 3),(.endSend erOk ⟨-1,erRetry⟩,.succeed 3),(.beginReceive erOk,.succeed 4),
    (.endReceive ⟨2,erOk⟩ erOk [7,8] none,.succeed 4),(.beginSend,.succeed 5),(.endSend erOk ⟨1,erOk⟩,.succeed 5)]
theorem sendAndReceive_lossFree :
    ∃ c, run Cell.step linkedStream sendAndReceive = some c ∧ c.isOpen ∧ c.history.osBytes = [1] ∧
      c.socket.recvQueue.length = 1 ∧ LossFree c ∧ Along Cell.step SendStep linkedStream sendAndReceive := by
  refine ⟨_,rfl,rfl,rfl,rfl,?_,?_⟩
  · exact ⟨rfl,rfl⟩
  · refine (lossFree_iff born_linkedStream (runs_of_run rfl) ?_).1 ⟨?_,?_⟩ <;> rfl
def sendEmpty : List Label :=
  linkDone ++ [(.received false openPolled,.succeed 1),(.received false (dataMessage none),.succeed 2),
    (.beginSend,.succeed 3)]
theorem sendEmpty_not_lossFree :
    ∃ c, Runs Cell.step linkedStream sendEmpty c ∧ c.isOpen ∧ c.history.accepted.length = 1 ∧
      c.history.completed = [] ∧ c.portThread.hand.isNone ∧ c.socket.sendQueue = [] ∧ ¬LossFree c := by
  refine ⟨_,runs_of_run rfl,rfl,rfl,rfl,rfl,rfl,?_⟩
  intro hloss
  cases hloss.2

end EdgeProxy.Server
