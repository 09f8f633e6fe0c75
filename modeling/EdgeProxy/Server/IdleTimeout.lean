import EdgeProxy.Server.Steps

/-! # Passes of the worker, and idle timeouts

The loop of `prx_server_worker` over the table of sockets. The removal of an entry moves the iterator to the next one,
and the loop then advances it once more. The worker reads the clock once in a pass and compares the time since the last
activity of a socket with its timeout. The thread of the event port also writes the last activity.
-/
namespace EdgeProxy.Server

structure Entry where
  cell : Cell
  calls : Calls
  inTable : cell.inTable

/-- The entries in the order of the iterator: the table after the pass, and the entries that it examines. -/
def workerPass : List Entry → List Cell × List Entry
  | [] => ([],[])
  | e :: rest =>
    let cell := e.cell.prxServerWorker e.calls
    if cell.inTable then
      let (table,examined) := workerPass rest
      (cell :: table,e :: examined)
    else
      match rest with
      | [] => ([],[e])
      | next :: rest =>
        let (table,examined) := workerPass rest
        (next.cell :: table,e :: examined)

def Entry.Leaves (e : Entry) : Prop :=
  e.cell.socket.state = .closed ∨ e.cell.socket.state = .closing ∧ e.cell.socket.timedout e.calls.now

lemma inTable_worker_iff (e : Entry) : (e.cell.prxServerWorker e.calls).inTable ↔ ¬e.Leaves := by
  constructor
  · rintro h (closed | ⟨closing,timedout⟩)
    · simp [Cell.prxServerWorker,closed,Cell.workerClosed] at h
    · simp [Cell.prxServerWorker,closing,timedout,Cell.workerClosed] at h
  · intro stays
    have works : Works e.cell e.calls _ := works_worker
    generalize e.cell.prxServerWorker e.calls = cell at works
    cases works with
    | closeTimedout state timedout => exact absurd (.inr ⟨state,timedout⟩) stays
    | leaves state => exact absurd (.inl state) stays
    | waits | notified => exact e.inTable
    | reverted _ _ collects | drops _ _ collects | collects _ collects => cases collects <;> exact e.inTable

lemma length_examined_le (table : List Entry) : (workerPass table).2.length ≤ table.length := by
  fun_induction workerPass table with
  | case1 => exact Nat.le_refl _
  | case2 e rest _ _ _ _ h ih =>
    rw [h] at ih
    exact Nat.succ_le_succ ih
  | case3 => exact Nat.le_refl _
  | case4 e _ _ next rest _ _ h ih =>
    rw [h] at ih
    exact Nat.le_succ_of_le (Nat.succ_le_succ ih)

/-- A pass examines every entry exactly if none but the last one leaves the table. -/
theorem examined_eq_iff (table : List Entry) : (workerPass table).2 = table ↔ ∀ e ∈ table.dropLast, ¬e.Leaves := by
  induction table with
  | nil => simp [workerPass]
  | cons e rest ih =>
    by_cases leaves : e.Leaves
    · have gone := mt (inTable_worker_iff e).1 (not_not.2 leaves)
      cases rest with
      | nil => simp [workerPass,gone]
      | cons next rest =>
        refine iff_of_false (fun h => ?_) fun h => h e List.mem_cons_self leaves
        have length := congrArg List.length h
        have := length_examined_le rest
        simp [workerPass,gone] at length
        omega
    · have stays := (inTable_worker_iff e).2 leaves
      cases rest with
      | nil => simp [workerPass,stays]
      | cons => simpa [workerPass,stays,leaves] using ih

def closedEntry : Entry where
  cell := (prxServerSocketCreate default default default).setState .closed
  calls := .succeed 0
  inTable := rfl

/-- Of two closed sockets the second is not examined. -/
theorem closedEntry_not_examined : (workerPass [closedEntry,closedEntry]).2 ≠ [closedEntry,closedEntry] := by
  intro h
  cases congrArg List.length h

open Base Codec Lib Option Cell

structure Timer where
  timeout : UInt64
  lastActivity : Ticks

def Cell.timer (c : Cell) : Timer where
  timeout := c.socket.timeout
  lastActivity := c.socket.lastActivity
def Message.pollTimeout (message : Message) : UInt64 :=
  (message.content.pollMessage.timeout.toUInt32 * 3).toUInt64
def Message.setsTimeout (message : Message) : Bool :=
  messageType message.type = some .setopt ∧ message.content.setoptRequest.soVal.type = prxSoPropsTimeout

def Cell.transfers (c : Cell) (event : Event) : Bool :=
  match event, c.portThread with
  | .endReceive os converted _ _, .receiving _ result =>
    let result := (Pal.palSocketOnRecvFinish result c.socket.bufferSize os converted).1
    ¬(result = erAborted ∨ result = erRetry)
  | .endSend prepared os, .sending message =>
    (Pal.palSocketOnSendFinish prepared (.ofNat message.payload.length) os).1 = erOk
  | _, _ => false

inductive SetsTimer (c : Cell) (event : Event) (calls : Calls) : Timer → Prop
  | same : SetsTimer c event calls c.timer
  | transferred (transfers : c.transfers event) : SetsTimer c event calls { c.timer with lastActivity := calls.now }
  | requested {fromStream : Bool} {message : Message} (received : event = .received fromStream message) :
      SetsTimer c event calls { c.timer with lastActivity := calls.now }
  | polled {fromStream : Bool} {message : Message} (received : event = .received fromStream message)
      (type : messageType message.type = some .poll) (opened : c.socket.state = .opened)
      (cloned : calls.clone = erOk) :
      SetsTimer c event calls ⟨message.pollTimeout,calls.now⟩
  | setopt {message : Message} (received : event = .received false message) (sets : message.setsTimeout)
      (state : c.socket.state = .created ∨ c.socket.state = .opened) :
      SetsTimer c event calls ⟨message.content.setoptRequest.soVal.value,calls.now⟩
  | closing (worker : event = .worker) : SetsTimer c event calls ⟨5 * 60 * 1000,calls.now⟩
  | returned {delivery : Delivery} {sample : Ticks} (deliver : event = .deliver)
      (delivering : c.delivery = some (delivery,.worker sample)) :
      SetsTimer c event calls { c.timer with lastActivity := sample }

variable {c : Cell} {fromStream : Bool} {message : Message} {responder : Option Connection} {calls : Calls}

lemma timer_respondClosed : (c.respondClosed responder message).timer = c.timer := by
  unfold respondClosed
  split <;> rfl
lemma timer_close : (c.prxServerSocketHandleCloserequest responder message calls).timer = c.timer := by
  unfold prxServerSocketHandleCloserequest
  dsimp only
  split <;> rfl
lemma timer_data : (c.prxServerSocketHandleDatamessage responder message calls).timer = c.timer := by
  unfold prxServerSocketHandleDatamessage
  split
  · exact timer_respondClosed
  · split <;> rfl
lemma setsTimer_poll (type : messageType message.type = some .poll) : SetsTimer c (.received fromStream message) calls
      (c.prxServerSocketHandlePollrequest responder message calls).timer := by
  unfold prxServerSocketHandlePollrequest
  split
  · rw [timer_respondClosed]
    exact .same
  · next state =>
    split
    · exact .same
    · next cloned => exact .polled rfl type (not_not.1 state) (not_not.1 cloned)

lemma setsTimer_setopt (type : messageType message.type = some .setopt) : SetsTimer c (.received false message) calls
      (c.prxServerSocketHandleSetoptrequest responder message calls).timer := by
  unfold prxServerSocketHandleSetoptrequest
  by_cases state : c.socket.state = .created ∨ c.socket.state = .opened
  · rw [if_neg (by tauto)]
    by_cases option : message.content.setoptRequest.soVal.type = prxSoPropsTimeout
    · simp only [if_pos option]
      exact .setopt rfl (by simp [Message.setsTimeout,type,option]) state
    · simp only [if_neg option]
      exact .requested rfl
  · rw [if_pos (by tauto)]
    exact .same

lemma setsTimer_getopt : SetsTimer c (.received fromStream message) calls
      (c.prxServerSocketHandleGetoptrequest responder message calls).timer := by
  unfold prxServerSocketHandleGetoptrequest
  dsimp only
  split
  · exact .same
  · split
    · exact .same
    · split <;> exact .requested rfl
lemma setsTimer_open (type : messageType message.type = some .open) : SetsTimer c (.received false message) calls
      (c.prxServerSocketHandleOpenrequest responder message calls).timer := by
  have h : Receives c false message calls (c.prxServerSocketHandleOpenrequest responder message calls) :=
    receives_open type
  generalize c.prxServerSocketHandleOpenrequest responder message calls = c' at h
  cases h with
  | answers other => exact absurd type (other rfl)
  | opened => exact .requested rfl
  | polls other => exact absurd (other.symm.trans type) (by decide)
  | _ => exact .same
lemma setsTimer_streamHandler :
    SetsTimer c (.received true message) calls (c.prxServerSocketStreamHandler message calls).timer := by
  unfold prxServerSocketStreamHandler
  split
  · rw [timer_close]
    exact .same
  · next type => exact setsTimer_poll type
  · rw [timer_data]
    exact .same
  · exact .same

lemma setsTimer_controlHandler :
    SetsTimer c (.received false message) calls (c.prxServerSocketControlHandler message calls).timer := by
  unfold prxServerSocketControlHandler
  split
  · rw [timer_close]
    exact .same
  · next type => exact setsTimer_open type
  · exact setsTimer_getopt
  · next type => exact setsTimer_setopt type
  · next type => exact setsTimer_poll type
  · rw [timer_data]
    exact .same
  · exact .same

variable {c' : Cell}

lemma setsTimer_received (h : c.step (.received fromStream message,calls) = some c') :
    SetsTimer c (.received fromStream message) calls c'.timer := by
  rw [handled_of_step h]
  cases fromStream with
  | false => exact setsTimer_controlHandler
  | true => exact setsTimer_streamHandler
lemma timer_deliveryReturn (c : Cell) (caller : Caller) : (c.deliveryReturn caller).timer = c.timer ∨
    ∃ sample, caller = .worker sample ∧ (c.deliveryReturn caller).timer = { c.timer with lastActivity := sample } := by
  unfold deliveryReturn
  cases caller with
  | task => exact .inl rfl
  | worker sample => exact .inr ⟨sample,rfl,rfl⟩
  | pollrequest =>
    dsimp only
    split <;> exact .inl rfl

lemma setsTimer_deliver (h : c.deliverStep calls = some c') : SetsTimer c .deliver calls c'.timer := by
  have returned {d : Cell} {delivery : Delivery} {caller : Caller} (same : d.timer = c.timer)
      (hd : c.delivery = some (delivery,caller)) : SetsTimer c .deliver calls (d.deliveryReturn caller).timer := by
    rcases timer_deliveryReturn d caller with kept | ⟨sample,rfl,returns⟩
    · rw [kept,same]
      exact .same
    · rw [returns,same]
      exact .returned rfl hd
  have hd := delivers_of_deliverStep h
  unfold deliverStep at h
  cases hd with
  | returns pc =>
    simp only [pc] at h
    split at h
    · cases h
    · rw [← Option.some.inj h]
      exact returned rfl pc
  | writeBack pc =>
    simp only [pc,Option.some.injEq] at h
    rw [← h]
    exact returned rfl pc
  | _ => exact .same

lemma setsTimer_endReceive {os converted data} {addr} (h : c.endReceive os converted data addr calls = some c') :
    SetsTimer c (.endReceive os converted data addr) calls c'.timer := by
  unfold endReceive at h
  split at h
  · next receiving =>
    dsimp only at h
    split at h
    · cases h
      unfold prxServerSocketOnEndReceive
      split
      · exact .same
      · next done => exact .transferred (by simpa [transfers,receiving] using done)
    · cases h
  · cases h

lemma setsTimer_endSend {prepared os}
    (h : c.endSend prepared os calls = some c') : SetsTimer c (.endSend prepared os) calls c'.timer := by
  unfold endSend at h
  split at h
  · next message sending =>
    dsimp only at h
    split at h
    · cases h
      unfold prxServerSocketOnEndSend
      split
      · exact .same
      · dsimp only
        split
        · exact .same
        · by_cases ok : (Pal.palSocketOnSendFinish prepared (.ofNat message.payload.length) os).1 = erOk
          · simp only [if_pos ok]
            have moved : SetsTimer c (.endSend prepared os) calls { c.timer with lastActivity := calls.now } :=
              .transferred (by simp [transfers,sending,ok])
            split <;> exact moved
          · simp only [if_neg ok]
            split <;> exact .same
    · cases h
  · cases h

lemma setsTimer_collects {d} (same : d.timer = c.timer) (h : Collects d calls c') :
    SetsTimer c .worker calls c'.timer := by
  cases h with
  | noSocket | waits => exact same ▸ .same
  | _ => exact .closing rfl
lemma setsTimer_works (h : Works c calls c') : SetsTimer c .worker calls c'.timer := by
  cases h with
  | reverted _ _ collects => exact setsTimer_collects (d := (c.setState .created).dropped) rfl collects
  | drops _ _ collects => exact setsTimer_collects (d := c.dropped) rfl collects
  | collects _ collects => exact setsTimer_collects rfl collects
  | _ => exact .same

variable {event : Event} {now time : Ticks} {s t : Pass}

lemma setsTimer_of_step {c calls} (h : c.step (event,calls) = some c') : SetsTimer c event calls c'.timer := by
  obtain ⟨live,takes⟩ := takes_of_step h
  have hrun := h
  unfold Cell.step at hrun
  rw [if_neg (by simpa using live)] at hrun
  cases takes with
  | received => exact setsTimer_received h
  | worker _ _ works => exact setsTimer_works works
  | openComplete _ _ completes => cases completes <;> exact .same
  | deliver => exact setsTimer_deliver hrun
  | receiveEnded => exact setsTimer_endReceive hrun
  | sendEnded => exact setsTimer_endSend hrun
  | _ => exact .same

def Event.onPort : Event → Bool
  | .beginReceive _ | .endReceive _ _ _ _ | .beginSend | .endSend _ _ | .destroyed => true
  | _ => false
def Event.isWorker : Event → Bool
  | .worker => true
  | _ => false

/-- A socket, the clock, and the reading of a pass of the worker that has still to visit the socket. -/
structure Pass where
  cell : Cell
  clock : Ticks
  sample : Option Ticks

inductive PassEvent where
  /-- The worker reads the clock and starts on the sockets of the table. -/
  | begins
  | visits (calls : Calls)
  | other (event : Event) (calls : Calls)

/-- The successor at a time that the clock shows. The worker visits the socket with the reading of its
pass; until then the scheduler thread does nothing else for the socket. -/
def Pass.step (s : Pass) (label : Ticks × PassEvent) : Option Pass :=
  if label.1 < s.clock then none
  else
    match label.2 with
    | .begins =>
      if s.cell.inTable ∧ s.cell.schedulerIdle ∧ s.sample.isNone then
        some { s with clock := label.1, sample := some label.1 }
      else none
    | .visits calls =>
      if s.sample = some calls.now then
        (s.cell.step (.worker,calls)).map fun c => ⟨c,label.1,none⟩
      else none
    | .other event calls =>
      if calls.now = label.1 ∧ ¬event.isWorker ∧ (s.sample.isSome → event.onPort) then
        (s.cell.step (event,calls)).map fun c => ⟨c,label.1,s.sample⟩
      else none

/-- A visit takes the socket to be timed out only when its timeout has passed since its last activity. -/
def Pass.NotEarly (s : Pass) (label : Ticks × PassEvent) : Prop :=
  ∀ calls, label.2 = .visits calls → s.sample = some calls.now → s.clock ≤ label.1 →
    s.cell.socket.timedout calls.now →
    s.cell.socket.lastActivity.toInt + s.cell.socket.timeout.toNat ≤ label.1.toInt

/-- No transfer ends after the clock reading of a pass that has still to visit the socket. -/
def Pass.quiet (s : Pass) (label : Ticks × PassEvent) : Bool :=
  match label.2, s.sample with
  | .other event _, some now => s.cell.transfers event → label.1 ≤ now
  | _, _ => true

lemma Delivers.worker_delivery {c calls} (h : Delivers c calls c') {d}
    (hd : c'.delivery = some (d,.worker now)) : ∃ d', c.delivery = some (d',.worker now) := by
  cases h with
  | returns | writeBack => cases hd
  | _ pc =>
    cases hd
    exact ⟨_,pc⟩

lemma Takes.worker_delivery {c calls} (h : Takes c event calls c') {d} (hd : c'.delivery = some (d,.worker now)) :
    (∃ d', c.delivery = some (d',.worker now)) ∨ event.isWorker ∧ now = calls.now := by
  cases h with
  | received idle table receives =>
    cases receives with
    | polls => cases hd
    | _ => exact .inl ⟨d,hd⟩
  | worker idle table works =>
    cases works with
    | notified =>
      cases hd
      exact .inr ⟨rfl,rfl⟩
    | reverted _ _ collects | drops _ _ collects | collects _ collects =>
      exact .inl ⟨d,collects.unchanged.delivery ▸ hd⟩
    | _ => exact .inl ⟨d,hd⟩
  | openComplete idle queued completes => cases completes <;> exact .inl ⟨d,hd⟩
  | deliverResults => cases hd
  | deliver delivers => exact .inl (delivers.worker_delivery hd)
  | _ => exact .inl ⟨d,hd⟩

/-- A step records the time of the step as last activity, or that of the pass it finishes. -/
theorem SetsTimer.lastActivity {c calls timer} (h : SetsTimer c event calls timer) :
    timer.lastActivity = c.socket.lastActivity ∨ timer.lastActivity = calls.now ∧ (event.onPort → c.transfers event) ∨
      event = .deliver ∧ ∃ d, c.delivery = some (d,.worker timer.lastActivity) := by
  cases h with
  | same => exact .inl rfl
  | transferred transfers => exact .inr (.inl ⟨rfl,fun _ => transfers⟩)
  | requested received | polled received | setopt received | closing received =>
    subst received
    exact .inr (.inl ⟨rfl,nofun⟩)
  | returned deliver delivering => exact .inr (.inr ⟨deliver,_,delivering⟩)

structure Cell.RecordedBy (c : Cell) (time : Ticks) : Prop where
  activity : c.socket.lastActivity ≤ time
  returning : ∀ delivery now, c.delivery = some (delivery,.worker now) → now ≤ time

lemma Cell.RecordedBy.mono {c : Cell} {time'} (h : c.RecordedBy time) (hle : time ≤ time') : c.RecordedBy time' :=
  ⟨Int64.le_trans h.activity hle,fun d now hd => Int64.le_trans (h.returning d now hd) hle⟩
lemma step_recordedBy {c : Cell} {calls} (hc : c.RecordedBy time)
    (hnow : calls.now ≤ time) (h : c.step (event,calls) = some c') : c'.RecordedBy time := by
  constructor
  · change c'.timer.lastActivity ≤ time
    rcases (setsTimer_of_step h).lastActivity with hsame | ⟨hlast,_⟩ | ⟨_,d,hd⟩
    · exact hsame ▸ hc.activity
    · exact hlast ▸ hnow
    · exact hc.returning d _ hd
  · intro d now hd
    rcases (takes_of_step h).2.worker_delivery hd with ⟨d',hd'⟩ | ⟨_,rfl⟩
    · exact hc.returning d' now hd'
    · exact hnow

/-- The clock has shown every time that is recorded; while a pass is under way, its clock reading is not
earlier than the last activity. -/
structure Pass.Timely (s : Pass) : Prop where
  recorded : s.cell.RecordedBy s.clock
  pending : ∀ now, s.sample = some now → now ≤ s.clock ∧ s.cell.socket.lastActivity ≤ now

lemma Pass.step_begins (hs : s.Timely) (h : s.step (time,.begins) = some t) : t.Timely := by
  obtain ⟨hclock,h⟩ := ite_none_left_eq_some.1 h
  obtain ⟨_,⟨⟩⟩ := ite_none_right_eq_some.1 h
  have recorded := hs.recorded.mono (Int64.not_lt.1 hclock)
  refine ⟨recorded,?_⟩
  rintro now ⟨⟩
  exact ⟨Int64.le_refl _,recorded.activity⟩
lemma Pass.step_visits {calls : Calls} (hs : s.Timely) (h : s.step (time,.visits calls) = some t) : t.Timely := by
  obtain ⟨hclock,h⟩ := ite_none_left_eq_some.1 h
  obtain ⟨hsample,h⟩ := ite_none_right_eq_some.1 h
  obtain ⟨c,hstep,rfl⟩ := map_eq_some_iff.1 h
  have hclock := Int64.not_lt.1 hclock
  exact ⟨step_recordedBy (hs.recorded.mono hclock) (Int64.le_trans (hs.pending _ hsample).1 hclock) hstep,nofun⟩

lemma Pass.step_other {calls : Calls} (hs : s.Timely) (hquiet : s.quiet (time,.other event calls))
    (h : s.step (time,.other event calls) = some t) : t.Timely := by
  obtain ⟨hclock,h⟩ := ite_none_left_eq_some.1 h
  obtain ⟨⟨rfl,hworker,hport⟩,h⟩ := ite_none_right_eq_some.1 h
  obtain ⟨c,hstep,rfl⟩ := map_eq_some_iff.1 h
  have hclock := Int64.not_lt.1 hclock
  refine ⟨step_recordedBy (hs.recorded.mono hclock) (Int64.le_refl _) hstep,fun now hsample => ?_⟩
  obtain ⟨hle,hbefore⟩ := hs.pending now hsample
  refine ⟨Int64.le_trans hle hclock,?_⟩
  -- Until the visit only the event port acts, and it leaves the last activity alone unless a transfer ends.
  change c.timer.lastActivity ≤ now
  have onPort := hport (isSome_of_mem hsample)
  rcases (setsTimer_of_step hstep).lastActivity with hsame | ⟨hlast,htransfers⟩ | ⟨rfl,_⟩
  · exact hsame ▸ hbefore
  · have hsample : s.sample = some now := hsample
    have hnow : calls.now ≤ now := by simpa [Pass.quiet,hsample,htransfers onPort] using hquiet
    exact hlast ▸ hnow
  · cases onPort

lemma Pass.step_timely {label} (hs : s.Timely) (hquiet : s.quiet label) (h : s.step label = some t) : t.Timely := by
  obtain ⟨time,event⟩ := label
  cases event with
  | begins => exact Pass.step_begins hs h
  | visits => exact Pass.step_visits hs h
  | other => exact Pass.step_other hs hquiet h
lemma toNat_elapsed {last} (h : last ≤ now) : ((now - last).toUInt64.toNat : Int) = now.toInt - last.toInt := by
  have hle : last.toBitVec.toInt ≤ now.toBitVec.toInt := Int64.le_iff_toInt_le.1 h
  change ((now.toBitVec - last.toBitVec).toNat) = now.toBitVec.toInt - last.toBitVec.toInt
  rw [BitVec.toInt_eq_toNat_cond,BitVec.toInt_eq_toNat_cond] at hle ⊢
  rw [BitVec.toNat_sub]
  omega
lemma elapsed_of_timedout {s : ServerSocket} (h : s.lastActivity ≤ now) (timedout : s.timedout now) :
    s.lastActivity.toInt + s.timeout.toNat ≤ now.toInt := by
  simp only [ServerSocket.timedout,not_or,UInt64.not_lt,decide_eq_true_eq] at timedout
  have hle := UInt64.le_iff_toNat_le.1 timedout.2
  have helapsed := toNat_elapsed h
  omega
lemma Pass.Timely.notEarly {label : Ticks × PassEvent} (hs : s.Timely) : s.NotEarly label := by
  rintro calls hvisits hsample hclock timedout
  obtain ⟨hnow,hlast⟩ := hs.pending _ hsample
  have hpassed := elapsed_of_timedout hlast timedout
  have hlater := Int64.le_iff_toInt_le.1 (Int64.le_trans hnow hclock)
  omega

/-- Idle timeouts are not early if no transfer ends between the clock reading of a pass and its visit to the socket. -/
theorem timeouts_notEarly {c₀ : Cell} {clock : Ticks} {labels : List (Ticks × PassEvent)} (born : Born c₀)
    (started : c₀.socket.lastActivity ≤ clock)
    (quiet : Along Pass.step (fun s label => s.quiet label) ⟨c₀,clock,none⟩ labels) :
    Along Pass.step Pass.NotEarly ⟨c₀,clock,none⟩ labels := by
  have recorded : c₀.RecordedBy clock :=
    ⟨started,fun d now hd => absurd (born.initial.delivery.symm.trans hd) (some_ne_none _).symm⟩
  have start : Pass.Timely ⟨c₀,clock,none⟩ := ⟨recorded,nofun⟩
  exact .of_invariant Pass.step_timely (fun hs _ => hs.notEarly) start quiet

def happens (now : Ticks) (event : Event) : Ticks × PassEvent :=
  (now,.other event (.succeed now))
def openedReceiving : List (Ticks × PassEvent) :=
  [happens 1 .transportRelease,happens 1 (.task .openComplete),happens 1 (.received false openPolled),
    happens 900 (.beginReceive erOk)]
def idleLong : List (Ticks × PassEvent) :=
  openedReceiving ++ [(1000,.begins),(1002,.visits (.succeed 1000)),happens 1003 (.endReceive ⟨2,erOk⟩ erOk [7,8] none),
    (121003,.begins),(121005,.visits (.succeed 121003))]

theorem idleLong_notEarly :
    (∃ s, run Pass.step ⟨linkedStream,1,none⟩ idleLong = some s ∧ s.cell.socket.state = .created) ∧
      Along Pass.step Pass.NotEarly ⟨linkedStream,1,none⟩ idleLong :=
  ⟨⟨_,rfl,rfl⟩,timeouts_notEarly born_linkedStream (by decide) (by decide)⟩
def receivedInPass : List (Ticks × PassEvent) :=
  openedReceiving ++ [(1000,.begins),happens 1001 (.endReceive ⟨2,erOk⟩ erOk [7,8] none)]

/-- One millisecond after it received data the socket is taken to be timed out. -/
theorem receivedInPass_early :
    ∃ s t, Runs Pass.step ⟨linkedStream,1,none⟩ receivedInPass s ∧ s.step (1002,.visits (.succeed 1000)) = some t ∧
      (s.cell.socket.state,s.cell.socket.lastActivity,s.cell.socket.timeout) = (.opened,1001,120000) ∧
      t.cell.socket.state = .created ∧ ¬s.NotEarly (1002,.visits (.succeed 1000)) := by
  refine ⟨_,_,runs_of_run rfl,rfl,rfl,rfl,?_⟩
  intro notEarly
  exact absurd (notEarly _ rfl rfl (by decide) (by decide)) (by decide)

end EdgeProxy.Server
