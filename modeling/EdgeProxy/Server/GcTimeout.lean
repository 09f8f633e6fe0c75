import EdgeProxy.Server.IdleTimeout
import EdgeProxy.Server.Table

/-! # The minimum of idle timeouts

A link request cannot ask for less than the minimum. Poll requests and set option requests write the timeout they ask
for, and an accept attempt that gets no message leaves a socket without a timeout.
-/
namespace EdgeProxy.Server
open Base Codec Lib PrxServer List

lemma minGcTimeout_le_linkTimeout (timeout : UInt64) : minGcTimeout ≤ linkTimeout timeout := by
  unfold linkTimeout
  split
  · decide
  · split
    · exact UInt64.le_refl _
    · next above => exact UInt64.not_lt.1 above
lemma timeout_linked (serverId id owner : IoRef) (message : Message) (palOpen : PalOpen) (calls : Calls) :
    (linked serverId id owner message palOpen calls).socket.timeout =
      linkTimeout message.content.linkRequest.props.timeout := by
  unfold linked Cell.prxServerHandleLinkrequest
  cases palOpen.opened with
  | none | some =>
    dsimp only
    split <;> rfl
def Cell.keepsTimeout (c : Cell) (fromStream : Bool) (message : Message) (calls : Calls) : Bool :=
  (messageType message.type = some .poll → c.socket.state = .opened → calls.clone = erOk →
    minGcTimeout ≤ message.pollTimeout) ∧
  (fromStream = false → message.setsTimeout → c.socket.state = .created ∨ c.socket.state = .opened →
    minGcTimeout ≤ message.content.setoptRequest.soVal.value)

lemma step_minGcTimeout {c c' : Cell} {event calls} (hc : minGcTimeout ≤ c.socket.timeout)
    (keeps : ∀ fromStream message, event = .received fromStream message → c.keepsTimeout fromStream message calls)
    (h : c.step (event,calls) = some c') : minGcTimeout ≤ c'.socket.timeout := by
  have hsets := setsTimer_of_step h
  change minGcTimeout ≤ c'.timer.timeout
  generalize c'.timer = timer at hsets
  cases hsets with
  | polled received type opened cloned =>
    have hkeeps := keeps _ _ received
    simp only [Cell.keepsTimeout,decide_eq_true_eq] at hkeeps
    exact hkeeps.1 type opened cloned
  | setopt received sets state =>
    have hkeeps := keeps _ _ received
    simp only [Cell.keepsTimeout,decide_eq_true_eq] at hkeeps
    exact hkeeps.2 trivial sets state
  | closing => exact show minGcTimeout ≤ 5 * 60 * 1000 by decide
  | _ => exact hc

def AcceptCalls.lacksMessage (calls : AcceptCalls) (listener : Cell) : Bool :=
  calls.eventPort ∧ listener.accepts ∧ calls.createSocket = erOk ∧
    ¬(listener.socket.messagePool ∧ calls.createMessage = erOk)
def PrxServer.MinTimeouts (s : PrxServer) : Prop :=
  ∀ c ∈ s.sockets, minGcTimeout ≤ c.socket.timeout

variable {s t : PrxServer} {index : ℕ} {listener : Cell} {calls : AcceptCalls}

lemma minTimeouts_concat {c} (hs : s.MinTimeouts) (hc : minGcTimeout ≤ c.socket.timeout) :
    ({ s with sockets := s.sockets ++ [c] } : PrxServer).MinTimeouts := by
  intro d hmem
  rcases mem_append.1 hmem with hold | hnew
  · exact hs d hold
  · rw [mem_singleton.1 hnew]
    exact hc
lemma minTimeouts_acceptWith {client} (hs : s.MinTimeouts) : (s.acceptWith index client calls).1.MinTimeouts := by
  unfold acceptWith
  split
  · exact hs
  · split
    · intro c hmem
      obtain ⟨i,hi⟩ := mem_iff_getElem?.1 hmem
      rw [getElem?_modify] at hi
      obtain ⟨d,hd,rfl⟩ := Option.map_eq_some_iff.1 hi
      have hold := hs d (mem_of_getElem? hd)
      split <;> exact hold
    · exact hs
lemma minTimeouts_beginAccept (hs : s.MinTimeouts) (hlistener : minGcTimeout ≤ listener.socket.timeout)
    (message : ¬(calls.createSocket = erOk ∧ ¬(listener.socket.messagePool ∧ calls.createMessage = erOk))) :
    (s.prxServerSocketOnBeginAccept listener calls).server.MinTimeouts := by
  unfold prxServerSocketOnBeginAccept
  split
  · exact hs
  · next created =>
    split
    · exact absurd ⟨not_not.1 created,by tauto⟩ message
    · exact minTimeouts_concat hs hlistener

lemma minTimeouts_acceptOn (hs : s.MinTimeouts)
    (message : ∀ listener, s.sockets[index]? = some listener → calls.lacksMessage listener = false)
    (h : s.acceptOn index calls = some t) : t.MinTimeouts := by
  unfold acceptOn palSocketOnAccept at h
  split at h
  · cases h
  · next listener found =>
    obtain ⟨_,h⟩ := Option.ite_none_right_eq_some.1 h
    rw [found] at h
    cases h
    dsimp only [Option.map_some]
    by_cases port : calls.eventPort
    · by_cases accepts : listener.accepts
      · rw [if_neg (not_not_intro port),if_neg (not_not_intro accepts)]
        have hbegin : (s.prxServerSocketOnBeginAccept listener calls).server.MinTimeouts := by
          have hmessage := message listener found
          simp only [AcceptCalls.lacksMessage,port,accepts,true_and,decide_eq_false_iff_not] at hmessage
          exact minTimeouts_beginAccept hs (hs _ (mem_of_getElem? found)) hmessage
        split
        · exact hbegin
        · exact minTimeouts_acceptWith hbegin
      · rw [if_neg (not_not_intro port),if_pos accepts]
        exact hs
    · rw [if_pos port]
      exact hs

/-- The step asks for no timeout below the minimum, and is no accept attempt that gets no message. -/
def PrxServer.keepsTimeouts (s : PrxServer) (label : ServerLabel) : Bool :=
  match label.1 with
  | .socket index (.received fromStream message) =>
    s.sockets[index]?.all fun c => c.keepsTimeout fromStream message label.2
  | .accept index calls => s.sockets[index]?.all fun listener => ¬calls.lacksMessage listener
  | _ => true

lemma step_minTimeouts {s t : PrxServer} {label} (hs : s.MinTimeouts)
    (keeps : s.keepsTimeouts label) (h : s.step label = some t) : t.MinTimeouts := by
  cases (steps_of_step h).2 with
  | same => exact hs
  | socket found step =>
    intro d hmem
    rcases mem_or_eq_of_mem_set hmem with hold | rfl
    · exact hs d hold
    · refine step_minGcTimeout (hs _ (mem_of_getElem? found)) ?_ step
      rintro fromStream message rfl
      simpa [keepsTimeouts,found] using keeps
  | linked =>
    apply minTimeouts_concat hs
    rw [timeout_linked]
    exact minGcTimeout_le_linkTimeout _
  | accepted | undefined =>
    obtain ⟨_,h⟩ := Option.ite_none_left_eq_some.1 h
    refine minTimeouts_acceptOn hs (fun listener found => ?_) h
    simpa [keepsTimeouts,found] using keeps

/-- All sockets have at least the minimum timeout if no request asks for less and none is created without a message. -/
theorem minTimeouts_of_keeps {id : IoRef} {labels : List ServerLabel}
    (keeps : Along PrxServer.step (fun s label => s.keepsTimeouts label) (.start id) labels) :
    Always PrxServer.step PrxServer.MinTimeouts (.start id) labels :=
  always_of_along step_minTimeouts (fun hs => hs) (fun _ hmem => absurd hmem List.not_mem_nil) keeps

def linkedOpened : List ServerLabel :=
  (.link erOk erOk default { Message.request .link with content.linkRequest.props.timeout := 1 }
      (.byName .stream erOk true),.succeed 1) ::
    (linkDone ++ [(Event.received false openPolled,Calls.succeed 1)]).map (Label.at 0)
def pollFor (timeout : UInt64) : ServerLabel :=
  Label.at 0 (.received false { Message.request .poll with content.pollMessage.timeout := timeout },.succeed 2)
def setTimeout (timeout : UInt64) : ServerLabel :=
  Label.at 0 (.received false { Message.request .setopt with
    content.setoptRequest.soVal.type := prxSoPropsTimeout
    content.setoptRequest.soVal.value := timeout },.succeed 2)
theorem pollFor_minTimeouts :
    (∃ s, run PrxServer.step (.start default) (linkedOpened ++ [pollFor 10000]) = some s ∧
      s.sockets.map (·.socket.timeout) = [30000]) ∧
    Always PrxServer.step PrxServer.MinTimeouts (.start default) (linkedOpened ++ [pollFor 10000]) := by
  have hrun : ∃ s, run PrxServer.step (.start default) (linkedOpened ++ [pollFor 10000]) = some s ∧
      s.sockets.map (·.socket.timeout) = [30000] := ⟨_,rfl,rfl⟩
  exact ⟨hrun,minTimeouts_of_keeps (by decide)⟩

/-- A poll request with a timeout of 100 ms and a set option request for 1 ms are taken as they are. -/
theorem pollFor_setTimeout_not_min :
    ∃ s t, Runs PrxServer.step (.start default) (linkedOpened ++ [pollFor 100]) s ∧
      Runs PrxServer.step (.start default) (linkedOpened ++ [setTimeout 1]) t ∧
      s.sockets.map (·.socket.timeout) = [300] ∧ t.sockets.map (·.socket.timeout) = [1] ∧
      ¬s.MinTimeouts ∧ ¬t.MinTimeouts := by
  refine ⟨_,_,runs_of_run rfl,runs_of_run rfl,rfl,rfl,?_,?_⟩
  · intro min
    exact absurd (min _ List.mem_cons_self) (by decide)
  · intro min
    exact absurd (min _ List.mem_cons_self) (by decide)

end EdgeProxy.Server
