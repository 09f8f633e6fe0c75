import EdgeProxy.Server.System

/-! # The end of a received stream

The thread of the event port with one server socket repeats the read callback as long as that returns `er_ok`. A
receive call that returns no bytes is reported as a successful receive: the peer's shutdown is not noticed.
-/
namespace EdgeProxy.Server
open Base Codec Lib Option

structure Port where
  cell : Cell
  thread : Pal.Dispatch
  ends : List (Int32 × UInt64)

inductive PortEvent where
  /-- `epoll_wait` returns an event for the socket. -/
  | ready (events : Pal.EpollEvents) (soError : Option Int32)
  /-- The thread makes a callback, up to the system call. -/
  | callback
  | recv (os : Pal.OsResult) (converted : Int32) (data : Bytes) (addr : Option SocketAddress)
  | send (prepared : Int32) (os : Pal.OsResult)
  /-- The thread runs the control message that deletes the handle. -/
  | destroy
  /-- A step of the scheduler thread. -/
  | schedule (event : Event)

abbrev PortLabel := PortEvent × Calls
def Event.onScheduler : Event → Bool
  | .received _ _ => true
  | .worker => true
  | .task _ => true
  | .deliver => true
  | .transportRelease => true
  | _ => false

namespace Port

/-- A read callback up to the system call: `er_closed` if the socket is not open, and `er_aborted` if the
server has no buffer. -/
def readCallback (p : Port) (result : Int32) (calls : Calls) : Port :=
  match p.cell.beginReceive result calls with
  | none => { p with thread := p.thread.done }
  | some c => { p with cell := c, thread := if c.portThread.isIdle then p.thread.done else p.thread }

def writeCallback (p : Port) : Port :=
  match p.cell.beginSend with
  | none => { p with thread := p.thread.done }
  | some c => { p with cell := c, thread := if c.portThread.isIdle then p.thread.done else p.thread }
def callback (p : Port) (calls : Calls) : Option Port :=
  match p.cell.portThread, p.thread with
  | .idle, .once result => some (p.readCallback result calls)
  | .idle, .reading _ => some (p.readCallback erOk calls)
  | .idle, .writing => some p.writeCallback
  | _, _ => none
def recv (p : Port) (os : Pal.OsResult) (converted : Int32) (data : Bytes) (addr : Option SocketAddress)
    (calls : Calls) : Option Port :=
  match p.cell.portThread, p.cell.endReceive os converted data addr calls with
  | .receiving _ result, some c =>
    let finished := Pal.palSocketOnRecvFinish result p.cell.socket.bufferSize os converted
    some { cell := c, thread := p.thread.returned finished.1, ends := p.ends ++ [finished] }
  | _, _ => none
def send (p : Port) (prepared : Int32) (os : Pal.OsResult) (calls : Calls) : Option Port :=
  match p.cell.portThread, p.cell.endSend prepared os calls with
  | .sending message, some c =>
    let finished := Pal.palSocketOnSendFinish prepared (.ofNat message.payload.length) os
    some { p with cell := c, thread := p.thread.returned finished.1 }
  | _, _ => none
def step (p : Port) (label : PortLabel) : Option Port :=
  if ¬p.cell.live then none
  else
    match label.1 with
    | .ready events soError =>
      if p.thread = .waiting then some { p with thread := Pal.palEpollDispatch events soError } else none
    | .callback => p.callback label.2
    | .recv os converted data addr => p.recv os converted data addr label.2
    | .send prepared os => p.send prepared os label.2
    | .destroy => if p.thread = .waiting then p.cell.destroyed.map fun c => { p with cell := c } else none
    | .schedule event =>
      if event.onScheduler then (p.cell.step (event,label.2)).map fun c => { p with cell := c } else none

end Port

variable {p q : Port} {label : PortLabel}

open Port

lemma readCallback_cell (live : p.cell.live) (result : Int32) (calls : Calls) : (p.readCallback result calls).cell =
    p.cell ∨ p.cell.step (.beginReceive result,calls) = some (p.readCallback result calls).cell := by
  unfold readCallback
  cases h : p.cell.beginReceive result calls with
  | none => exact .inl rfl
  | some => exact .inr (by simp [Cell.step,live,h])
lemma writeCallback_cell (live : p.cell.live) (calls : Calls) :
    p.writeCallback.cell = p.cell ∨ p.cell.step (.beginSend,calls) = some p.writeCallback.cell := by
  unfold writeCallback
  cases h : p.cell.beginSend with
  | none => exact .inl rfl
  | some => exact .inr (by simp [Cell.step,live,h])
lemma callback_cell (live : p.cell.live) {calls} (h : p.callback calls = some q) :
    q.cell = p.cell ∨ ∃ event, p.cell.step (event,calls) = some q.cell := by
  unfold callback at h
  split at h
  · cases h
    exact (readCallback_cell live _ calls).imp_right fun h => ⟨_,h⟩
  · cases h
    exact (readCallback_cell live _ calls).imp_right fun h => ⟨_,h⟩
  · cases h
    exact (writeCallback_cell live calls).imp_right fun h => ⟨_,h⟩
  · cases h

lemma Port.step_cell (h : p.step label = some q) :
    q.cell = p.cell ∨ ∃ event, p.cell.step (event,label.2) = some q.cell := by
  unfold step at h
  split at h
  · cases h
  · next live =>
    have live : p.cell.live := by simpa using live
    split at h
    · obtain ⟨_,⟨⟩⟩ := ite_none_right_eq_some.1 h
      exact .inl rfl
    · exact callback_cell live h
    · next os converted data addr _ =>
      unfold recv at h
      split at h
      · next hend =>
        cases h
        exact .inr ⟨.endReceive os converted data addr,by simpa [Cell.step,live] using hend⟩
      · cases h
    · next prepared os _ =>
      unfold send at h
      split at h
      · next hend =>
        cases h
        exact .inr ⟨.endSend prepared os,by simpa [Cell.step,live] using hend⟩
      · cases h
    · obtain ⟨_,h⟩ := ite_none_right_eq_some.1 h
      obtain ⟨c,hd,rfl⟩ := map_eq_some_iff.1 h
      exact .inr ⟨.destroyed,by simpa [Cell.step,live] using hd⟩
    · next event _ =>
      obtain ⟨_,h⟩ := ite_none_right_eq_some.1 h
      obtain ⟨c,hs,rfl⟩ := map_eq_some_iff.1 h
      exact .inr ⟨event,hs⟩

/-- What the threads of the event port and of the scheduler do to a socket is a run of the socket. -/
theorem Port.runs_cell (p : Port) (labels : List PortLabel) :
    Always Port.step (fun q => ∃ labels', Runs Cell.step p.cell labels' q.cell) p labels := by
  refine always_of_along ?_ (fun h => h) ⟨[],.refl p.cell⟩ along_true
  rintro q label r ⟨labels',hruns⟩ _ hstep
  rcases step_cell hstep with hsame | ⟨event,hcell⟩
  · exact ⟨labels',hsame ▸ hruns⟩
  · exact ⟨_,hruns.append (.step hcell (.refl r.cell))⟩

variable {message : Message}

def PortEvent.EndOfStream : PortEvent → Prop
  | .recv os converted _ _ => os.ret = 0 ∧ converted = erOk
  | _ => True
def PortEvent.isReceive : PortEvent → Bool
  | .callback => true
  | .recv _ _ _ _ => true
  | _ => false

/-- From `p` on, where the shutdown is reported, the dispatch of the readiness event ends after boundedly many receive
callbacks, and there is at most one more end callback, with the result closed. -/
structure ShutdownNoticed (p : Port) : Prop where
  ends : ∃ bound, ∀ labels q, Runs Port.step p labels q →
    (∀ label ∈ labels, label.1.EndOfStream ∧ ∀ events soError, label.1 ≠ .ready events soError) →
    labels.countP (fun label => label.1.isReceive) ≤ bound
  closed : ∀ labels q, Runs Port.step p labels q → (∀ label ∈ labels, label.1.EndOfStream) →
    ∃ new, q.ends = p.ends ++ new ∧ new.length ≤ 1 ∧ ∀ finished ∈ new, finished.1 = erClosed

def emptyRecv (now : Ticks) : PortLabel :=
  (.recv ⟨0,erOk⟩ erOk [] none,.succeed now)
lemma finish_empty (bufLen : UInt64) : Pal.palSocketOnRecvFinish erOk bufLen ⟨0,erOk⟩ erOk = (erOk,0) := by
  rfl

lemma step_emptyRecv (live : p.cell.live) (receiving : p.cell.portThread = .receiving message erOk) (now : Ticks) :
    p.step (emptyRecv now) = some
      { cell := { p.cell with portThread := .idle }.prxServerSocketOnEndReceive message [] none erOk (.succeed now)
        thread := p.thread.returned erOk
        ends := p.ends ++ [(erOk,0)] } := by
  have hend : p.cell.endReceive ⟨0,erOk⟩ erOk [] none (.succeed now) =
      some ({ p.cell with portThread := .idle }.prxServerSocketOnEndReceive message [] none erOk (.succeed now)) := by
    simp [Cell.endReceive,receiving,finish_empty]
  simp [Port.step,emptyRecv,live,Port.recv,receiving,hend,finish_empty]
lemma not_noticed_of_emptyRecv {labels finished}
    (runs : Runs Port.step p labels q) (empty : ∀ label ∈ labels, label.1.EndOfStream)
    (ends : q.ends = p.ends ++ [finished]) (ok : finished.1 = erOk) : ¬ShutdownNoticed p := by
  intro noticed
  obtain ⟨new,hnew,_,hclosed⟩ := noticed.closed labels q runs empty
  have heq : new = [finished] := List.append_cancel_left (hnew.symm.trans ends)
  have herror := hclosed finished (by simp [heq])
  rw [ok] at herror
  exact absurd herror (by decide)

/-- A socket that is in a receive call when the stream ends does not notice it. -/
theorem shutdown_not_noticed (live : p.cell.live) (receiving : p.cell.portThread = .receiving message erOk) :
    ¬ShutdownNoticed p := by
  have hstep := step_emptyRecv live receiving 0
  refine not_noticed_of_emptyRecv (.step hstep (.refl _)) ?_ rfl rfl
  intro label hlabel
  rw [List.mem_singleton.1 hlabel]
  exact ⟨rfl,rfl⟩

def openReadable : List PortLabel :=
  [(.schedule .transportRelease,.succeed 1),(.schedule (.task .openComplete),.succeed 1),
    (.schedule (.received false openPolled),.succeed 1),
    (.ready { rdHup := true, hup := false, err := false, input := true, output := false } none,.succeed 2)]
theorem openReadable_not_noticed :
    ∃ p, run Port.step ⟨linkedStream,.waiting,[]⟩ (openReadable ++ [(.callback,.succeed 3)]) = some p ∧
      ¬ShutdownNoticed p := by
  obtain ⟨p,message,hrun,live,receiving⟩ : ∃ p message,
      run Port.step ⟨linkedStream,.waiting,[]⟩ (openReadable ++ [(.callback,.succeed 3)]) = some p ∧ p.cell.live ∧
      p.cell.portThread = .receiving message erOk := ⟨_,_,rfl,rfl,rfl⟩
  exact ⟨p,hrun,shutdown_not_noticed live receiving⟩

/-- The peer of an open socket shuts down: two successful receives of no bytes, and the loop goes on. -/
theorem emptyReceives_not_noticed :
    ∃ p q, Runs Port.step ⟨linkedStream,.waiting,[]⟩ (openReadable ++ [(.callback,.succeed 3)]) p ∧
      Runs Port.step p [emptyRecv 3,(.callback,.succeed 4),emptyRecv 4] q ∧
      q.ends = [(erOk,0),(erOk,0)] ∧ q.thread = .reading false ∧ q.cell.socket.recvQueue.length = 2 ∧
      ¬ShutdownNoticed p := by
  refine ⟨_,_,runs_of_run rfl,runs_of_run rfl,rfl,rfl,rfl,?_⟩
  intro noticed
  obtain ⟨new,hnew,hlen,_⟩ := noticed.closed _ _ (runs_of_run rfl)
    (by simp [emptyRecv,PortEvent.EndOfStream] : ∀ e ∈ [emptyRecv 3,(.callback,.succeed 4),emptyRecv 4], _)
  cases hnew
  exact absurd hlen (by decide)

end EdgeProxy.Server
