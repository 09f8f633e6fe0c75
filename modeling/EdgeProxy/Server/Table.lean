import EdgeProxy.Server.Accept
import EdgeProxy.Server.Steps

/-! # The server and its table of sockets

Link requests and accept attempts create sockets, the sockets take their steps, the listener is closed, and the worker
releases the server once it exits and its table is empty.
-/
namespace EdgeProxy.Server
open Base Codec PrxServer Option

inductive ServerEvent where
  /-- A link request, with the results of the checks before it and of the creation of the socket. -/
  | link (checked created : Int32) (id : IoRef) (message : Message) (palOpen : PalOpen)
  | accept (index : ℕ) (calls : AcceptCalls)
  | socket (index : ℕ) (event : Event)
  | listenerClosed
  /-- The end of a pass of the worker. -/
  | workerDone

abbrev ServerLabel := ServerEvent × Calls
def Label.at (index : ℕ) (label : Label) : ServerLabel :=
  (.socket index label.1,label.2)

namespace PrxServer

def start (id : IoRef) : PrxServer :=
  { id, sockets := [], exit := false, released := false, undefined := false }
def prxServerHandleLinkrequest (s : PrxServer) (checked created : Int32) (id : IoRef) (message : Message)
    (palOpen : PalOpen) (calls : Calls) : PrxServer :=
  if checked ≠ erOk ∨ created ≠ erOk then s
  else { s with sockets := s.sockets ++ [linked s.id id message.sourceId message palOpen calls] }
def socketStep (s : PrxServer) (index : ℕ) (event : Event) (calls : Calls) : Option PrxServer :=
  match s.sockets[index]? with
  | none => none
  | some c =>
    if calls.exit = s.exit then
      (c.step (event,calls)).map fun c' => { s with sockets := s.sockets.set index c' }
    else none
def acceptOn (s : PrxServer) (index : ℕ) (calls : AcceptCalls) : Option PrxServer :=
  match s.sockets[index]? with
  | none => none
  | some c => if c.live then (s.palSocketOnAccept index calls).map Attempt.server else none
def step (s : PrxServer) (label : ServerLabel) : Option PrxServer :=
  if s.undefined then none
  else
    match label.1 with
    | .link checked created id message palOpen =>
      if s.exit then none
      else some (s.prxServerHandleLinkrequest checked created id message palOpen label.2)
    | .accept index calls => s.acceptOn index calls
    | .socket index event => s.socketStep index event label.2
    | .listenerClosed => if s.exit then none else some { s with exit := true }
    | .workerDone =>
      if s.exit ∧ ¬s.released ∧ s.sockets.all (¬·.inTable) then some { s with released := true } else none

end PrxServer

variable {s t : PrxServer}

inductive ServerSteps (s : PrxServer) : ServerLabel → PrxServer → Prop
  | same {label exit released} (exits : s.exit = true → exit = true)
      (down : released = true → s.released = true ∨ exit = true ∧ ∀ c ∈ s.sockets, c.inTable = false) :
      ServerSteps s label { s with exit := exit, released := released }
  | socket {index event calls c c'} (found : s.sockets[index]? = some c) (step : c.step (event,calls) = some c') :
      ServerSteps s (.socket index event,calls) { s with sockets := s.sockets.set index c' }
  | linked {id message palOpen calls} (running : s.exit = false) :
      ServerSteps s (.link erOk erOk id message palOpen,calls)
        { s with sockets := s.sockets ++ [linked s.id id message.sourceId message palOpen calls] }
  | accepted {index calls calls' listener id owner timeout link} (found : s.sockets[index]? = some listener)
      (live : listener.live) (accepts : listener.accepts) :
      ServerSteps s (.accept index calls,calls')
        { s with sockets := s.sockets ++ [accepted s.id id owner timeout link] }
  | undefined {index calls calls' listener t} (found : s.sockets[index]? = some listener)
      (ends : calls.reachesEnd listener) (undefined : t.undefined = true) : ServerSteps s (.accept index calls,calls') t

variable {index : ℕ} {calls : AcceptCalls}

lemma steps_of_acceptOn {calls'} (h : s.acceptOn index calls = some t) :
    ServerSteps s (.accept index calls,calls') t := by
  unfold acceptOn at h
  split at h
  · cases h
  · next found =>
    obtain ⟨live,h⟩ := ite_none_right_eq_some.1 h
    obtain ⟨attempt,hattempt,rfl⟩ := map_eq_some_iff.1 h
    cases attempts_of_palSocketOnAccept found hattempt with
    | stopped => exact .same id .inl
    | left creates => exact .accepted found live creates.2.1
    | ended reaches undefined => exact .undefined found reaches undefined
lemma acceptOn_undefined {listener} (found : s.sockets[index]? = some listener) (reaches : calls.reachesEnd listener)
    (h : s.acceptOn index calls = some t) : t.undefined := by
  unfold acceptOn at h
  rw [found] at h
  obtain ⟨_,h⟩ := ite_none_right_eq_some.1 h
  obtain ⟨attempt,hattempt,rfl⟩ := map_eq_some_iff.1 h
  cases attempts_of_palSocketOnAccept found hattempt with
  | stopped none => exact absurd (creates_of_reachesEnd reaches) none
  | left creates cut => exact absurd (reaches.symm.trans cut) nofun
  | ended _ undefined => exact undefined

lemma steps_of_step {label} (h : s.step label = some t) : s.undefined = false ∧ ServerSteps s label t := by
  obtain ⟨event,calls⟩ := label
  unfold step at h
  split at h
  · cases h
  · next defined =>
    refine ⟨by simpa using defined,?_⟩
    dsimp only at h
    split at h
    · split at h
      · cases h
      · next running =>
        cases h
        unfold prxServerHandleLinkrequest
        split
        · exact .same id .inl
        · next created =>
          obtain ⟨rfl,rfl⟩ := not_or.1 created |>.imp not_not.1 not_not.1
          exact .linked (by simpa using running)
    · exact steps_of_acceptOn h
    · unfold socketStep at h
      split at h
      · cases h
      · next found =>
        obtain ⟨_,h⟩ := ite_none_right_eq_some.1 h
        obtain ⟨c',hstep,rfl⟩ := map_eq_some_iff.1 h
        exact .socket found hstep
    · split at h
      · cases h
      · cases h
        exact .same (fun _ => rfl) .inl
    · obtain ⟨⟨exit,_,empty⟩,⟨⟩⟩ := ite_none_right_eq_some.1 h
      exact .same id fun _ => .inr ⟨exit,by simpa using empty⟩

lemma sockets_of_link {id message palOpen calls} (h : s.step (.link erOk erOk id message palOpen,calls) = some t) :
    t.sockets = s.sockets ++ [linked s.id id message.sourceId message palOpen calls] := by
  unfold step at h
  split at h
  · cases h
  · dsimp only at h
    split at h
    · cases h
    · cases h
      rfl
lemma undefined_of_accept {calls' listener} (h : s.step (.accept index calls,calls') = some t)
    (found : s.sockets[index]? = some listener) (reaches : calls.reachesEnd listener) : t.undefined := by
  unfold step at h
  split at h
  · cases h
  · exact acceptOn_undefined found reaches h

/-- The rule for invariants of all sockets: the steps of a socket keep it, and new sockets have it. -/
theorem ServerSteps.all_sockets {I : Cell → Prop} {label} (h : ServerSteps s label t)
    (defined : t.undefined = false) (hs : ∀ c ∈ s.sockets, I c)
    (hstep : ∀ {index event calls c c'}, label = (.socket index event,calls) → s.sockets[index]? = some c →
      c.step (event,calls) = some c' → I c → I c')
    (hlink : ∀ {id message palOpen calls}, label = (.link erOk erOk id message palOpen,calls) →
      I (EdgeProxy.Server.linked s.id id message.sourceId message palOpen calls))
    (haccept : ∀ id owner timeout link, I (EdgeProxy.Server.accepted s.id id owner timeout link)) :
    ∀ c ∈ t.sockets, I c := by
  cases h with
  | same => exact hs
  | socket found step =>
    intro c hmem
    rcases List.mem_or_eq_of_mem_set hmem with hold | rfl
    · exact hs c hold
    · exact hstep rfl found step (hs _ (List.mem_of_getElem? found))
  | linked =>
    intro c hmem
    rcases List.mem_append.1 hmem with hold | hnew
    · exact hs c hold
    · rw [List.mem_singleton.1 hnew]
      exact hlink rfl
  | accepted =>
    intro c hmem
    rcases List.mem_append.1 hmem with hold | hnew
    · exact hs c hold
    · rw [List.mem_singleton.1 hnew]
      exact haccept _ _ _ _
  | undefined found ends undefined => exact absurd (undefined.symm.trans defined) nofun

end EdgeProxy.Server
