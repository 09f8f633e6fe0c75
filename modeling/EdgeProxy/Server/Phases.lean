import EdgeProxy.Server.Steps

/-! # The phases in the life of a server socket

What the state of a server socket tells about its platform socket, its queued tasks and its entry in the table, as long
as no step goes back from the two last states.
-/
namespace EdgeProxy.Server
open Codec Cell PortThread

variable {c c' : Cell} {calls : Calls} {event : Event}

/-- The platform can still call the server for this socket: it is in a transfer, it may begin one, or it is
going to report the end of a close. -/
def Cell.canDeliver (c : Cell) : Bool :=
  ¬c.portThread.isIdle ∨ c.socket.sock.any Pal.Socket.active

def Cell.closes (c : Cell) : Bool :=
  c.socket.state = .closing ∨ c.socket.state = .closed

/-- No open request arrives and no open fails while the socket closes, no polled stream of its own is opened, no
receive buffer has zero bytes, and the worker does not give up on a close while the platform can still deliver. -/
def Cell.keepsPhase (c : Cell) (label : Label) : Bool :=
  match label.1 with
  | .received false message =>
    messageType message.type ≠ some .open ∨
      ¬c.closes ∧ ¬(message.content.openRequest.polled ∧ OpenRequest.hasConnectionString message.content.openRequest)
  | .worker => c.socket.state ≠ .closing ∨ ¬c.socket.timedout label.2.now ∨ ¬c.canDeliver
  | .task .openComplete => ¬(c.openFails label.2 ∧ c.closes) ∧ c.socket.openBufferSize label.2 ≠ 0
  | _ => true

structure Phases (c : Cell) : Prop where
  table : c.inTable → c.history.freed = 0
  once : c.history.freed ≤ 1
  queued : Task.free ∈ c.tasks → c.inTable = false
  left : c.inTable = false → c.socket.state = .closed ∧ (c.history.freed = 0 → Task.free ∈ c.tasks)
  quiet : c.socket.state = .closed ∨ Task.closeComplete ∈ c.tasks → c.canDeliver = false
  closing : Task.closeComplete ∈ c.tasks → c.closes
  handle : c.closes = false → ∀ sock, c.socket.sock = some sock → sock.handle = .none ∨ sock.handle = .registered
  port : c.portThread.isIdle = false → ∃ sock, c.socket.sock = some sock ∧ sock.handle ≠ .none

structure SamePhase (c c' : Cell) : Prop where
  state : c'.socket.state = c.socket.state
  sock : c'.socket.sock = c.socket.sock
  port : c'.portThread = c.portThread
  table : c'.inTable = c.inTable
  freed : c'.history.freed = c.history.freed
  free : Task.free ∈ c'.tasks ↔ Task.free ∈ c.tasks
  close : Task.closeComplete ∈ c'.tasks → Task.closeComplete ∈ c.tasks

lemma SamePhase.canDeliver (h : SamePhase c c') : c'.canDeliver = c.canDeliver := by
  simp [Cell.canDeliver,h.sock,h.port]
lemma SamePhase.closes (h : SamePhase c c') : c'.closes = c.closes := by
  simp [Cell.closes,h.state]

lemma Phases.same (hc : Phases c) (h : SamePhase c c') : Phases c' where
  table table := by
    rw [h.freed]
    exact hc.table (h.table ▸ table)
  once := by
    rw [h.freed]
    exact hc.once
  queued free := by
    rw [h.table]
    exact hc.queued (h.free.1 free)
  left gone := by
    rw [h.state,h.freed,h.free]
    exact hc.left (h.table ▸ gone)
  quiet closed := by
    rw [h.canDeliver]
    exact hc.quiet (closed.imp (h.state ▸ ·) h.close)
  closing close := by
    rw [h.closes]
    exact hc.closing (h.close close)
  handle early := by
    rw [h.sock]
    exact hc.handle (h.closes ▸ early)
  port busy := by
    rw [h.sock]
    exact hc.port (h.port ▸ busy)

structure EarlyMove (c c' : Cell) : Prop where
  early : c.closes = false
  early' : c'.closes = false
  sock : c'.socket.sock = c.socket.sock
  port : c'.portThread = c.portThread
  table : c'.inTable = c.inTable
  freed : c'.history.freed = c.history.freed
  free : Task.free ∈ c'.tasks → Task.free ∈ c.tasks
  close : Task.closeComplete ∈ c'.tasks → Task.closeComplete ∈ c.tasks

lemma Phases.inTable (hc : Phases c) (early : c.closes = false) : c.inTable := by
  by_contra gone
  have closed := (hc.left (by simpa using gone)).1
  simp [closes,closed] at early

lemma Phases.early (hc : Phases c) (h : EarlyMove c c') : Phases c' where
  table table := by
    rw [h.freed]
    exact hc.table (h.table ▸ table)
  once := by
    rw [h.freed]
    exact hc.once
  queued free := by
    rw [h.table]
    exact hc.queued (h.free free)
  left gone := by
    have table := hc.inTable h.early
    rw [← h.table,gone] at table
    exact absurd table nofun
  quiet closed := by
    rcases closed with closed | close
    · have early' := h.early'
      simp [closes,closed] at early'
    · have early := h.early
      rw [hc.closing (h.close close)] at early
      exact absurd early nofun
  closing close := by
    have early := h.early
    rw [hc.closing (h.close close)] at early
    exact absurd early nofun
  handle _ := by
    rw [h.sock]
    exact hc.handle h.early
  port busy := by
    rw [h.sock]
    exact hc.port (h.port ▸ busy)

variable {sock sock' : Pal.Socket} {tasks : List Task}

lemma canDeliver_of_open (hsock : c.socket.sock = some sock)
    (active : sock.handle = .registered ∧ sock.state = .open) : c.canDeliver := by
  simp [canDeliver,hsock,Pal.Socket.active,active]
lemma canDeliver_of_busy (busy : c.portThread.isIdle = false) : c.canDeliver := by
  simp [canDeliver,busy]

lemma Phases.active (hc : Phases c) (active : c.canDeliver) :
    c.socket.state ≠ .closed ∧ Task.closeComplete ∉ c.tasks ∧ c.inTable := by
  have hclosed : c.socket.state ≠ .closed := by
    intro closed
    simp [hc.quiet (.inl closed)] at active
  refine ⟨hclosed,?_,?_⟩
  · intro close
    simp [hc.quiet (.inr close)] at active
  · by_contra gone
    exact hclosed (hc.left (by simpa using gone)).1
lemma Phases.closes_of_deleting (hc : Phases c) (hsock : c.socket.sock = some sock)
    (deleting : sock.handle = .deleting) : c.closes := by
  by_contra early
  rcases hc.handle (by simpa using early) sock hsock with hhandle | hhandle <;> simp [deleting] at hhandle

structure TransferStep (c c' : Cell) : Prop where
  active : c.canDeliver
  state : c'.socket.state = c.socket.state
  table : c'.inTable = c.inTable
  freed : c'.history.freed = c.history.freed
  free : Task.free ∈ c'.tasks → Task.free ∈ c.tasks
  close : Task.closeComplete ∈ c'.tasks → Task.closeComplete ∈ c.tasks
  handle : ∀ sock', c'.socket.sock = some sock' → ∃ sock, c.socket.sock = some sock ∧ sock'.handle = sock.handle
  port : c'.portThread.isIdle = false → ∃ sock, c'.socket.sock = some sock ∧ sock.handle ≠ .none

lemma Phases.transfer (hc : Phases c) (h : TransferStep c c') : Phases c' := by
  obtain ⟨hclosed,hclose,htable⟩ := hc.active h.active
  have hcloses : c'.closes = c.closes := by simp [closes,h.state]
  have hclose' : .closeComplete ∉ c'.tasks := fun close => hclose (h.close close)
  constructor
  · intro _
    rw [h.freed]
    exact hc.table htable
  · rw [h.freed]
    exact hc.once
  · intro free
    rw [h.table]
    exact hc.queued (h.free free)
  · intro gone
    rw [h.table,htable] at gone
    exact absurd gone nofun
  · intro closed
    rcases closed with closed | close
    · rw [h.state] at closed
      exact absurd closed hclosed
    · exact absurd close hclose'
  · intro close
    exact absurd close hclose'
  · intro early sock' hsock'
    obtain ⟨sock,hsock,hhandle⟩ := h.handle sock' hsock'
    rw [hhandle]
    exact hc.handle (hcloses ▸ early) sock hsock
  · exact h.port

lemma recvEnter_eq {result} (h : Pal.palSocketOnRecvEnter sock result = some sock') :
    (sock.handle = .registered ∧ sock.state = .open) ∧ sock'.handle = sock.handle := by
  obtain ⟨⟨registered,state,_⟩,⟨⟩⟩ := Option.ite_none_right_eq_some.1 h
  refine ⟨⟨registered,state⟩,?_⟩
  split <;> rfl
lemma sendEnter_eq (h : Pal.palSocketOnSendEnter sock = some sock') :
    sock.handle = .registered ∧ sock.state = .open := by
  obtain ⟨⟨registered,state,_⟩,_⟩ := Option.ite_none_right_eq_some.1 h
  exact ⟨registered,state⟩

lemma palSocketClose_cases {sent closed} (h : Pal.palSocketClose sock sent = some (sock',closed)) :
    closed ∧ sock.handle = .none ∧ sock'.active = false ∨ closed = false ∧ sock'.handle ≠ .none := by
  unfold Pal.palSocketClose at h
  cases hhandle : sock.handle with
  | none =>
    simp only [hhandle] at h
    cases h
    exact .inl ⟨rfl,rfl,rfl⟩
  | registered =>
    simp only [hhandle] at h
    cases h
    refine .inr ⟨rfl,?_⟩
    split <;> nofun
  | deleting | freed => simp [hhandle] at h

lemma Phases.idle (hc : Phases c) (none : ∀ sock, c.socket.sock = some sock → sock.handle = .none) :
    c.portThread.isIdle := by
  by_contra busy
  obtain ⟨sock,hsock,hhandle⟩ := hc.port (by simpa using busy)
  exact hhandle (none sock hsock)

lemma Collects.phases (h : Collects c calls c') (hc : Phases c) (state : c.socket.state = .collect) : Phases c' := by
  have early : c.closes = false := by simp [closes,state]
  have table := hc.inTable early
  have hclose : .closeComplete ∉ c.tasks := by
    intro close
    simp [hc.closing close] at early
  have gone : c.inTable = false → False := fun gone => absurd (table.symm.trans gone) nofun
  cases h with
  | noSocket hsock =>
    have idle := hc.idle fun sock hsome => by simp [hsock] at hsome
    refine ⟨hc.table,hc.once,hc.queued,fun h => (gone h).elim,fun _ => ?_,fun close => absurd close hclose,nofun,
      hc.port⟩
    simp [canDeliver,setState,hsock,idle]
  | waits => exact hc
  | @undefined sock hsock hclose' =>
    rcases hc.handle early sock hsock with hhandle | hhandle <;> simp [Pal.palSocketClose,hhandle] at hclose'
  | @closing sock sock' hsock hclose' =>
    obtain ⟨hfalse,_⟩ | ⟨_,hhandle⟩ := palSocketClose_cases hclose'
    · cases hfalse
    · refine ⟨hc.table,hc.once,hc.queued,fun h => (gone h).elim,?_,fun close => absurd close hclose,nofun,
        fun _ => ⟨sock',rfl,hhandle⟩⟩
      rintro (closed | close)
      · cases closed
      · exact absurd close hclose
  | @closed sock sock' hsock hclose' =>
    obtain ⟨_,hhandle,inactive⟩ | ⟨hfalse,_⟩ := palSocketClose_cases hclose'
    · have idle := hc.idle fun sock'' hsome => by
        rw [hsock] at hsome
        cases hsome
        exact hhandle
      refine ⟨hc.table,hc.once,fun free => hc.queued ?_,fun h => (gone h).elim,fun _ => ?_,fun _ => rfl,nofun,?_⟩
      · simpa [onClosed,doNext,startClose,setState] using free
      · simp [canDeliver,onClosed,doNext,startClose,setState,idle,inactive]
      · intro busy
        exact absurd (idle.symm.trans busy) nofun
    · cases hfalse

def StreamsOwned (c : Cell) : Prop :=
  c.inTable →
    c.socket.stream ≠ some .polledStream ∧ (c.socket.stream = some .listener → c.socket.serverStream)
lemma Leaves.free_mem (h : Leaves c tasks) (table : c.inTable) (streams : StreamsOwned c) : Task.free ∈ tasks := by
  have streams := streams table
  rcases h with htasks | ⟨some',other,own,_⟩
  · simp [htasks]
  · cases hstream : c.socket.stream with
    | none => simp [hstream] at some'
    | some connection =>
      cases connection with
      | listener => exact absurd (streams.2 hstream) own
      | polledStream => exact absurd hstream streams.1
      | webSocket => exact absurd hstream other
lemma phases_leaves {stream} (hc : Phases c) (table : c.inTable) (streams : StreamsOwned c)
    (state : c.socket.state = .closed) (quiet : c.canDeliver = false) (leaves : Leaves c tasks) :
    Phases { c with socket.stream := stream, tasks := tasks, inTable := false } where
  table := nofun
  once := hc.once
  queued _ := rfl
  left _ := ⟨state,fun _ => leaves.free_mem table streams⟩
  quiet _ := quiet
  closing _ := by simp [closes,state]
  handle early := by simp [closes,state] at early
  port := hc.port

lemma Works.phases (h : Works c calls c') (hc : Phases c) (table : c.inTable) (streams : StreamsOwned c)
    (keeps : c.keepsPhase (.worker,calls)) : Phases c' := by
  cases h with
  | waits => exact hc
  | @closeTimedout stream tasks state timedout leaves =>
    have quiet : c.canDeliver = false := by simpa [keepsPhase,state,timedout] using keeps
    have hc' : Phases (c.setState .closed) := by
      refine ⟨hc.table,hc.once,hc.queued,fun gone => ⟨rfl,(hc.left gone).2⟩,fun _ => quiet,fun _ => rfl,nofun,hc.port⟩
    exact phases_leaves hc' table streams rfl quiet leaves
  | leaves state leaves => exact phases_leaves hc table streams state (hc.quiet (.inl state)) leaves
  | notified state =>
    have early : c.closes = false := by simp [closes,state]
    exact hc.early ⟨early,rfl,rfl,rfl,rfl,rfl,id,id⟩
  | reverted state due collects | drops state due collects =>
    have early : c.closes = false := by simp [closes,state]
    exact collects.phases (hc.early ⟨early,rfl,rfl,rfl,rfl,rfl,id,id⟩) rfl
  | collects state collects => exact collects.phases hc state

lemma Receives.phases {fromStream message} (h : Receives c fromStream message calls c')
    (hc : Phases c) (keeps : c.keepsPhase (.received fromStream message,calls)) : Phases c' := by
  cases h with
  | closes type live =>
    have early : c.closes = false := by
      rcases live with state | state <;> simp [Cell.closes,state]
    exact hc.early ⟨early,rfl,rfl,rfl,rfl,rfl,id,id⟩
  | openRefused type control =>
    have early : c.closes = false := by
      subst control
      simp only [keepsPhase,type] at keeps
      exact (by simpa using keeps : c.closes = false ∧ _).1
    exact hc.early ⟨early,rfl,rfl,rfl,rfl,rfl,id,id⟩
  | openFailed _ _ state | opened _ _ state =>
    have early : c.closes = false := by simp [Cell.closes,state]
    exact hc.early ⟨early,rfl,rfl,rfl,rfl,rfl,id,id⟩
  | _ => exact hc.same ⟨rfl,rfl,rfl,rfl,rfl,.rfl,id⟩

lemma Returns.mem_iff (h : Returns c tasks) (task : Task) (other : task ≠ .timeoutPollrequest) :
    task ∈ tasks ↔ task ∈ c.tasks := by
  rcases h with rfl | rfl
  · exact .rfl
  · simp [other]
lemma Delivers.phases (h : Delivers c calls c') (hc : Phases c) : Phases c' := by
  cases h with
  | returns _ returns | writeBack _ returns =>
    exact hc.same ⟨rfl,rfl,rfl,rfl,rfl,returns.mem_iff .free nofun,(returns.mem_iff .closeComplete nofun).1⟩
  | _ => exact hc.same ⟨rfl,rfl,rfl,rfl,rfl,.rfl,id⟩
lemma Completes.phases (h : Completes { c with tasks := c.tasks.erase .openComplete } calls c') (hc : Phases c)
    (keeps : c.keepsPhase (.task .openComplete,calls)) : Phases c' := by
  have hfree : .free ∈ c.tasks.erase .openComplete ↔ .free ∈ c.tasks := List.mem_erase_of_ne nofun
  cases h with
  | failed link fails =>
    have fails' : c.openFails calls := fails
    have early : c.closes = false := by
      simp only [keepsPhase,fails'] at keeps
      exact (by simpa using keeps : c.closes = false ∧ _).1
    exact hc.early ⟨early,rfl,rfl,rfl,rfl,rfl,hfree.1,List.mem_of_mem_erase⟩
  | _ => exact hc.same ⟨rfl,rfl,rfl,rfl,rfl,hfree,List.mem_of_mem_erase⟩

lemma Takes.phases (h : Takes c event calls c') (live : c.live) (hc : Phases c) (streams : StreamsOwned c)
    (keeps : c.keepsPhase (event,calls)) : Phases c' := by
  cases h with
  | received idle table receives => exact receives.phases hc keeps
  | worker idle table works => exact works.phases hc table streams keeps
  | openComplete idle queued completes => exact completes.phases hc keeps
  | closeComplete idle queued =>
    have quiet := hc.quiet (.inr queued)
    have hfree : .free ∈ c.tasks.erase .closeComplete ↔ .free ∈ c.tasks := List.mem_erase_of_ne nofun
    exact ⟨hc.table,hc.once,fun free => hc.queued (hfree.1 free),
      fun gone => ⟨rfl,fun zero => hfree.2 ((hc.left gone).2 zero)⟩,fun _ => quiet,fun _ => rfl,nofun,hc.port⟩
  | deliverResults | timeoutPollrequest =>
    exact hc.same ⟨rfl,rfl,rfl,rfl,rfl,List.mem_erase_of_ne nofun,List.mem_of_mem_erase⟩
  | free idle queued =>
    have gone := hc.queued queued
    have zero : c.history.freed = 0 := by
      unfold Cell.live at live
      simp at live
      exact live.1
    have closed := (hc.left gone).1
    refine ⟨fun table => absurd (table.symm.trans gone) nofun,?_,nofun,fun _ => ⟨closed,nofun⟩,?_,nofun,?_,hc.port⟩
    · exact Nat.le_of_eq (congrArg (· + 1) zero)
    · intro _
      exact hc.quiet (.inl closed)
    · intro early
      have early' : c.closes = false := early
      simp [closes,closed] at early'
  | deliver delivers => exact delivers.phases hc
  | transportRelease | sendLost => exact hc.same ⟨rfl,rfl,rfl,rfl,rfl,.rfl,id⟩
  | receiveRefused hsock idle enters | receiveBegun hsock idle enters =>
    obtain ⟨hopen,hhandle⟩ := recvEnter_eq enters
    refine hc.transfer ⟨canDeliver_of_open hsock hopen,rfl,rfl,rfl,id,id,?_,?_⟩
    · rintro _ ⟨⟩
      exact ⟨_,hsock,hhandle⟩
    · simp [hhandle,hopen.1]
  | receiveDropped transfers | sendRetried transfers =>
    have busy : c.portThread.isIdle = false := by simp [transfers,isIdle]
    exact hc.transfer ⟨canDeliver_of_busy busy,rfl,rfl,rfl,id,id,fun sock hsock => ⟨sock,hsock,rfl⟩,nofun⟩
  | receiveEnded receiving =>
    have busy : c.portThread.isIdle = false := by simp [receiving,isIdle]
    exact hc.transfer ⟨canDeliver_of_busy busy,rfl,rfl,rfl,fun free => by simpa using free,
      fun close => by simpa using close,fun sock hsock => ⟨sock,hsock,rfl⟩,nofun⟩
  | sendIdle => exact hc
  | sendBegun queue idle buffer hsock enters =>
    have hopen := sendEnter_eq enters
    exact hc.transfer ⟨canDeliver_of_open hsock hopen,rfl,rfl,rfl,id,id,fun sock hsock' => ⟨sock,hsock',rfl⟩,
      fun _ => ⟨_,hsock,by simp [hopen.1]⟩⟩
  | @sendEnded prepared os calls message lastActivity writeQueue tasks sending bound result htasks =>
    have busy : c.portThread.isIdle = false := by simp [sending,isIdle]
    have hmem : ∀ task, task ≠ .deliverResults → task ∈ tasks → task ∈ c.tasks := by
      intro task other queued
      rcases htasks with rfl | rfl
      · exact queued
      · simpa [other] using queued
    exact hc.transfer ⟨canDeliver_of_busy busy,rfl,rfl,rfl,hmem .free nofun,hmem .closeComplete nofun,
      fun sock hsock => ⟨sock,hsock,rfl⟩,nofun⟩
  | destroyed hsock idle deleting | closed hsock idle deleting =>
    have closes := hc.closes_of_deleting hsock deleting
    refine ⟨hc.table,hc.once,fun free => hc.queued (by simpa using free),fun gone => ?_,fun _ => ?_,fun _ => closes,?_,
      ?_⟩
    · obtain ⟨closed,free⟩ := hc.left gone
      exact ⟨closed,fun zero => by simp [free zero]⟩
    · simp [canDeliver,idle,isIdle,Pal.Socket.active]
    · intro early
      exact absurd (closes.symm.trans early) nofun
    · intro busy
      simp [idle,isIdle] at busy

end EdgeProxy.Server
