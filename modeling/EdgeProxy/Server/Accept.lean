import EdgeProxy.Server.System
import EdgeProxy.Pal.Accept

/-! # Accepting connections

`pal_socket_on_accept` with the begin and end callbacks of the server. The begin callback stores the server socket
through `op_context`, the address of a variable; the end callback takes that address itself for the server socket.
-/
namespace EdgeProxy.Server
open Base Codec Lib

/-- `prx_server_t` with all the sockets it created, oldest first. `undefined` tells that a callback wrote
through a pointer that points to no server socket. -/
structure PrxServer where
  id : IoRef
  sockets : List Cell
  exit : Bool
  released : Bool
  undefined : Bool

/-- The pointers that the accept callbacks handle: null, a server socket, and the address of the
variable `context` of `pal_socket_on_accept`. -/
inductive Pointer where
  | null
  | socket (index : ℕ)
  | context
deriving DecidableEq

structure AcceptCalls where
  eventPort : Bool
  /-- The result with which the event port calls the read handler. -/
  event : Int32
  createSocket : Int32
  id : IoRef
  createMessage : Int32
  palCreate : Int32
  accept : Int32
  address : Int32
  register : Int32
  select : Int32
  properties : Int32 × SocketProperties Bytes
  now : Ticks

/-- An accept attempt: the server after it, the socket that the begin callback created, what it stored in `context`, the
socket that the end callback completed, and the result. -/
structure Attempt where
  server : PrxServer
  created : Option ℕ
  context : Pointer
  completed : Option Pointer
  result : Int32

def PrxServer.noAttempt (s : PrxServer) (result : Int32) : Attempt :=
  { server := s, created := none, context := .null, completed := none, result }

structure BeginAccept where
  server : PrxServer
  created : Option ℕ
  buffer : Option ℕ
  context : Pointer

def PrxServer.prxServerSocketOnBeginAccept (s : PrxServer) (listener : Cell) (calls : AcceptCalls) : BeginAccept :=
  if calls.createSocket ≠ erOk then { server := s, created := none, buffer := none, context := .null }
  else
    let index := s.sockets.length
    if ¬listener.socket.messagePool ∨ calls.createMessage ≠ erOk then
      { server := { s with sockets := s.sockets ++ [accepted s.id calls.id listener.socket.owner 0 none] }
        created := some index
        buffer := none
        context := .null }
    else
      let message := ioMessageCreate listener.history.objects .link listener.socket.id listener.socket.streamId
      let socket := accepted s.id calls.id listener.socket.owner listener.socket.timeout (some message)
      { server := { s with sockets := s.sockets ++ [socket] }
        created := some index
        buffer := some index
        context := .socket index }

def linkVersion : UInt8 := 7
def Cell.queueLink (listener : Cell) (message : Message) (now : Ticks) : Cell :=
  { listener with
    socket.lastActivity := now
    socket.recvQueue := listener.socket.recvQueue ++ [message]
    history.arrived := listener.history.arrived ++ [message] }.doNext .deliverResults

def PrxServer.endAccept (s : PrxServer) (listener index : ℕ) (accepted : Cell) (sock : Pal.Socket) (result : Int32)
    (calls : AcceptCalls) : PrxServer :=
  if result ≠ erOk then { s with sockets := s.sockets.set index accepted.prxServerSocketFree }
  else
    match accepted.socket.linkMessage with
    | none => { s with undefined := true }
    | some message =>
      let accepted := { accepted with
        socket.sock := some sock
        socket.linkMessage := none
        socket.lastActivity := calls.now }
      if calls.properties.1 ≠ erOk then { s with sockets := s.sockets.set index accepted.prxServerSocketFree }
      else
        let message := { message with
          content.linkRequest.version := linkVersion
          content.linkRequest.props := calls.properties.2
          errorCode := erOk }
        { s with sockets := (s.sockets.set index accepted).modify listener fun l => l.queueLink message calls.now }

/-- `prx_server_socket_on_end_accept`: the pointer `op_context` is the server socket. -/
def PrxServer.prxServerSocketOnEndAccept (s : PrxServer) (listener : ℕ) (sock : Pal.Socket) (result : Int32)
    (opContext : Pointer) (calls : AcceptCalls) : PrxServer :=
  match opContext with
  | .socket index =>
    match s.sockets[index]? with
    | some accepted => s.endAccept listener index accepted sock result calls
    | none => { s with undefined := true }
  | _ => { s with undefined := true }

def Cell.accepts (c : Cell) : Bool :=
  c.socket.sock.any fun sock => sock.kind = .listener ∧ sock.state = .open ∧ sock.handle = .registered

/-- The result of an attempt with which the end callback is called. A peer address that cannot be
converted ends the attempt without it. -/
def AcceptCalls.ended (calls : AcceptCalls) : Option Int32 :=
  if calls.event ≠ erOk then some calls.event
  else if calls.palCreate ≠ erOk then some calls.palCreate
  else if calls.accept ≠ erOk then some calls.accept
  else if calls.address ≠ erOk then none
  else if calls.register ≠ erOk then some calls.register
  else some calls.select

def codeOf (result : Option PrxError) : Int32 :=
  result.elim erOk PrxError.code
lemma codeOf_eq_erOk (result : Option PrxError) : codeOf result = erOk ↔ result = none := by
  cases result with
  | none => exact iff_of_true rfl rfl
  | some e => cases e <;> decide

/-- The end callback gets the result with which the platform ends the attempt. -/
lemma ended_eq {calls : AcceptCalls} {c : Pal.Connection} {accepted}
    (h : [calls.event,calls.palCreate,calls.accept,calls.address,calls.register,calls.select] =
      [c.event,c.create,c.accept,c.address,c.register,c.selectClose].map codeOf) (offers : c.offers)
    (haccept : Pal.palSocketOnAccept true .open c = some accepted) : calls.ended = accepted.ended.map codeOf := by
  obtain ⟨_,event,create,accept,address,register,select⟩ := c
  obtain rfl : _ = true := offers
  simp only [List.map_cons,List.cons.injEq] at h
  obtain ⟨hevent,hcreate,hcall,haddress,hregister,hselect,-⟩ := h
  rw [AcceptCalls.ended,hevent,hcreate,hcall,haddress,hregister,hselect]
  simp only [ne_eq,codeOf_eq_erOk]
  cases event <;> cases create <;> cases accept <;> cases address <;> cases register <;> cases select <;>
    cases haccept <;> rfl

section
open Pal

variable {kind : SocketKind} {props : OpenProps} {s : Opening}

/-- The platform leaves this socket and reports and returns this. -/
def PalOpen.Ends (palOpen : PalOpen) (kind : SocketKind) (r : Opening × Option PrxError) : Prop :=
  palOpen.sock = some ⟨kind,r.1.state,r.1.handle⟩ ∧ palOpen.opened.toList = r.1.opened.map codeOf ∧
    palOpen.result = codeOf r.2

lemma tryOpen_handle (props : OpenProps) (a : Pal.Attempt) (h : s.handle = .none) :
    (palSocketTryOpen props a s).1.handle = .none := by
  unfold palSocketTryOpen palSocketConnect palSocketConnectFinish palSocketClear
  grind
lemma ends_byName {result : Option PrxError} (registered : Bool) (hopened : s.opened = [])
    (hhandle : s.handle = if registered then .registered else .none) (h : result = none → registered) :
    (PalOpen.byName kind (codeOf result) registered).Ends kind (palSocketOpenComplete s result,none) := by
  refine ⟨?_,by rw [palSocketOpenComplete,hopened]; rfl,rfl⟩
  simp only [PalOpen.sock,palOpenState,codeOf_eq_erOk,palSocketOpenComplete,hhandle]
  grind

lemma tryNext_ends {addresses : List Pal.Attempt} (hopened : s.opened = []) (hhandle : s.handle = .none)
    (hended : (palSocketTryNext props addresses s).opened ≠ []) :
    ∃ palOpen : PalOpen, palOpen.Ends kind (palSocketTryNext props addresses s,none) := by
  induction addresses generalizing s with
  | nil => exact ⟨_,ends_byName false hopened hhandle (by simp)⟩
  | cons a addresses ih =>
    have hleft := (tryOpen_leaves props a s).2.opened.trans hopened
    have hnone := tryOpen_handle props a hhandle
    unfold palSocketTryNext at hended ⊢
    generalize palSocketTryOpen props a s = r at *
    obtain ⟨t,_ | e⟩ := r
    · dsimp only [palSocketRegister]
      cases a.register with
      | some => exact ⟨_,ends_byName false hleft hnone (by simp)⟩
      | none => exact ⟨_,ends_byName true hleft rfl (by simp)⟩
    · dsimp only at hended ⊢
      split_ifs at hended ⊢
      · exact absurd hleft hended
      · exact ih hleft hnone hended

/-- An open that has ended has one of the outcomes. -/
theorem palSocketOpen_ends (call : OpenCall)
    (hended : (palSocketOpen props call .none).2 = none → (palSocketOpen props call .none).1.opened ≠ []) :
    ∃ palOpen : PalOpen, palOpen.Ends kind (palSocketOpen props call .none) := by
  unfold palSocketOpen palSocketOpenByAddr palSocketOpenByName at *
  cases call with
  | address a =>
    have hleft := (tryOpen_leaves props a ⟨.opening,.invalid,.none,[]⟩).2.opened
    have hnone := tryOpen_handle props a (s := ⟨.opening,.invalid,.none,[]⟩) rfl
    dsimp only at hended ⊢
    generalize palSocketTryOpen props a _ = r at *
    obtain ⟨t,result⟩ := r
    dsimp only at hleft hnone
    split_ifs at hended ⊢
    · exact absurd hleft (hended rfl)
    · refine ⟨.byAddress kind (codeOf result),?_,by rw [palSocketOpenComplete,hleft]; rfl,rfl⟩
      simp only [PalOpen.sock,palOpenState,codeOf_eq_erOk,palSocketOpenComplete,hnone]
  | name port resolved =>
    rcases port with _ | e
    · rcases resolved with e | _ | _
      · exact ⟨.resolveFailed kind e,rfl,rfl,rfl⟩
      · exact ⟨.resolveFailed kind .connecting,rfl,rfl,rfl⟩
      · exact tryNext_ends rfl rfl (hended rfl)
    · exact ⟨.resolveFailed kind e,rfl,rfl,rfl⟩

end

/-- The part of an attempt after the begin callback supplied the client interface of a socket. The opened event
of the accepted socket goes to that interface. -/
def PrxServer.acceptWith (s : PrxServer) (index client : ℕ) (calls : AcceptCalls) :
    PrxServer × Option Pointer × Int32 :=
  match calls.ended with
  | none => (s,none,erRetry)
  | some result =>
    let s := s.prxServerSocketOnEndAccept index ⟨.stream,.closed,.registered⟩ result .context calls
    if result = erOk then
      ({ s with sockets := s.sockets.modify client fun c => c.onOpened result },some .context,result)
    else (s,some .context,result)

def PrxServer.palSocketOnAccept (s : PrxServer) (index : ℕ) (calls : AcceptCalls) : Option Attempt :=
  s.sockets[index]?.map fun listener =>
    if ¬calls.eventPort then s.noAttempt erBadState
    else if ¬listener.accepts then s.noAttempt erClosed
    else
      let begun := s.prxServerSocketOnBeginAccept listener calls
      match begun.buffer with
      | none =>
        { server := begun.server, created := begun.created, context := begun.context, completed := none
          result := erAborted }
      | some client =>
        let (server,completed,result) := begun.server.acceptWith index client calls
        { server, created := begun.created, context := begun.context, completed, result }

variable {s : PrxServer} {index : ℕ} {listener : Cell} {calls : AcceptCalls}

lemma acceptWith_cases (client : ℕ) : calls.ended = none ∧ s.acceptWith index client calls = (s,none,erRetry) ∨
    calls.ended.isSome ∧ (s.acceptWith index client calls).2.1 = some .context ∧
      (s.acceptWith index client calls).1.undefined := by
  unfold PrxServer.acceptWith
  cases calls.ended with
  | none => exact .inl ⟨rfl,rfl⟩
  | some =>
    dsimp only
    split <;> exact .inr ⟨rfl,rfl,rfl⟩
def AcceptCalls.creates (calls : AcceptCalls) (listener : Cell) : Prop :=
  calls.eventPort ∧ listener.accepts ∧ calls.createSocket = erOk

/-- The begin callback hands out a socket and the end callback is called. -/
def AcceptCalls.reachesEnd (calls : AcceptCalls) (listener : Cell) : Bool :=
  calls.eventPort ∧ listener.accepts ∧ calls.createSocket = erOk ∧ listener.socket.messagePool ∧
    calls.createMessage = erOk ∧ calls.ended.isSome

open AcceptCalls

lemma creates_of_reachesEnd (reaches : calls.reachesEnd listener) : calls.creates listener := by
  simp only [reachesEnd,decide_eq_true_eq] at reaches
  exact ⟨reaches.1,reaches.2.1,reaches.2.2.1⟩

inductive Attempts (s : PrxServer) (listener : Cell) (calls : AcceptCalls) : Attempt → Prop
  | stopped {result} (none : ¬calls.creates listener) : Attempts s listener calls (s.noAttempt result)
  | left {owner timeout link stored result} (creates : calls.creates listener)
      (cut : calls.reachesEnd listener = false) (failed : result ≠ erOk) :
      Attempts s listener calls
        { server := { s with sockets := s.sockets ++ [accepted s.id calls.id owner timeout link] }
          created := some s.sockets.length
          context := stored
          completed := none
          result }
  | ended {server created stored result} (reaches : calls.reachesEnd listener) (undefined : server.undefined) :
      Attempts s listener calls
        { server, created, context := stored, completed := some .context, result }

lemma attempts_of_palSocketOnAccept {attempt} (found : s.sockets[index]? = some listener)
    (h : s.palSocketOnAccept index calls = some attempt) : Attempts s listener calls attempt := by
  unfold PrxServer.palSocketOnAccept at h
  rw [found,Option.map_some] at h
  cases h
  have aborted : erAborted ≠ erOk := by decide
  have retry : erRetry ≠ erOk := by decide
  by_cases port : calls.eventPort
  · by_cases accepts : listener.accepts
    · rw [if_neg (by simp [port]),if_neg (by simp [accepts])]
      unfold PrxServer.prxServerSocketOnBeginAccept
      by_cases create : calls.createSocket = erOk
      · by_cases message : ¬listener.socket.messagePool ∨ calls.createMessage ≠ erOk
        · rw [if_neg (not_not.2 create),if_pos message]
          have cut : calls.reachesEnd listener = false := by
            simp only [reachesEnd,decide_eq_false_iff_not]
            rintro ⟨_,_,_,pool,created,_⟩
            rcases message with h | h
            · exact h pool
            · exact h created
          exact .left ⟨port,accepts,create⟩ cut aborted
        · obtain ⟨pool,created⟩ : listener.socket.messagePool ∧ calls.createMessage = erOk := by
            simpa using message
          rw [if_neg (not_not.2 create),if_neg message]
          dsimp only
          rcases acceptWith_cases s.sockets.length with ⟨ends,hwith⟩ | ⟨ends,hcompleted,hundefined⟩
          · rw [hwith]
            exact .left ⟨port,accepts,create⟩ (by simp [reachesEnd,ends]) retry
          · rw [hcompleted]
            exact .ended (by simp [reachesEnd,port,accepts,create,pool,created,ends]) hundefined
      · rw [if_pos create]
        exact .stopped fun creates => create creates.2.2
    · rw [if_neg (by simp [port]),if_pos (by exact accepts)]
      exact .stopped fun creates => accepts creates.2.1
  · rw [if_pos (by exact port)]
    exact .stopped fun creates => port creates.1

/-- The end callback completes the socket that the begin callback created, and an attempt that fails leaves none behind.
-/
def Attempt.Paired (attempt : Attempt) : Prop :=
  (∀ pointer, attempt.completed = some pointer → ∃ i, attempt.created = some i ∧ pointer = .socket i) ∧
  (attempt.result ≠ erOk → ∀ i, attempt.created = some i → ∀ c, attempt.server.sockets[i]? = some c →
    c.inTable = false ∧ c.history.freed = 1)

def acceptStep (index : ℕ) (s : PrxServer) (calls : AcceptCalls) : Option PrxServer :=
  if s.undefined then none else (s.palSocketOnAccept index calls).map Attempt.server
def AcceptPaired (index : ℕ) (s : PrxServer) (calls : AcceptCalls) : Prop :=
  ∀ attempt, s.palSocketOnAccept index calls = some attempt → attempt.Paired

/-- The attempt creates no server socket: there is no event port, the socket does not listen, or
`prx_server_socket_create` fails. -/
def CreatesNone (index : ℕ) (s : PrxServer) (calls : AcceptCalls) : Prop :=
  ∀ listener, s.sockets[index]? = some listener →
    calls.eventPort = false ∨ listener.accepts = false ∨ calls.createSocket ≠ erOk

lemma Attempts.paired_iff {listener attempt} (h : Attempts s listener calls attempt) :
    attempt.Paired ↔ ¬calls.creates listener := by
  cases h with
  | stopped none => exact ⟨fun _ => none,fun _ => ⟨nofun,fun _ => nofun⟩⟩
  | left creates cut failed =>
    refine ⟨fun paired => ?_,fun none => absurd creates none⟩
    have gone := (paired.2 failed _ rfl _ List.getElem?_concat_length).1
    cases gone
  | ended reaches =>
    refine ⟨fun paired => ?_,fun none => absurd (creates_of_reachesEnd reaches) none⟩
    obtain ⟨_,_,⟨⟩⟩ := paired.1 _ rfl

lemma acceptPaired_iff_createsNone : AcceptPaired index s calls ↔ CreatesNone index s calls := by
  have hcreates : ∀ listener : Cell, ¬calls.creates listener ↔
      calls.eventPort = false ∨ listener.accepts = false ∨ calls.createSocket ≠ erOk := by
    intro listener
    simp only [AcceptCalls.creates,not_and_or,Bool.not_eq_true]
  constructor
  · intro paired listener found
    obtain ⟨attempt,hattempt⟩ : ∃ attempt, s.palSocketOnAccept index calls = some attempt := by
      unfold PrxServer.palSocketOnAccept
      rw [found]
      exact ⟨_,rfl⟩
    have attempts := attempts_of_palSocketOnAccept found hattempt
    exact (hcreates listener).1 (attempts.paired_iff.1 (paired attempt hattempt))
  · intro none attempt hattempt
    obtain ⟨listener,found,_⟩ := Option.map_eq_some_iff.1 hattempt
    have attempts := attempts_of_palSocketOnAccept found hattempt
    exact attempts.paired_iff.2 ((hcreates listener).2 (none listener found))

/-- In a sequence of attempts on a listening socket each one is paired exactly when each one creates no server
socket. -/
theorem acceptsPaired_iff {s : PrxServer} {index : ℕ} {attempts : List AcceptCalls} :
    Along (acceptStep index) (AcceptPaired index) s attempts ↔
      Along (acceptStep index) (CreatesNone index) s attempts :=
  ⟨.mono fun _ _ => acceptPaired_iff_createsNone.1,.mono fun _ _ => acceptPaired_iff_createsNone.2⟩

def listening : Option Cell :=
  run Cell.step (linked default default default (.request .link) (.byName .listener erOk true) (.succeed 1))
    (linkDone ++ [(.received false openPolled,.succeed 1)])

def AcceptCalls.succeed (now : Ticks) : AcceptCalls where
  eventPort := true
  event := erOk
  createSocket := erOk
  id := default
  createMessage := erOk
  palCreate := erOk
  accept := erOk
  address := erOk
  register := erOk
  select := erOk
  properties := (erOk,(Content.zero (π := Bytes)).linkRequest.props)
  now

/-- The end callback completed the variable `context` itself. -/
theorem acceptOne_not_paired :
    ∃ c attempt, listening = some c ∧
      (PrxServer.mk default [c] false false false).palSocketOnAccept 0 (.succeed 2) = some attempt ∧
      attempt.result = erOk ∧ attempt.context = .socket 1 ∧ attempt.completed = some .context ∧
      attempt.server.undefined ∧
      ¬Along (acceptStep 0) (AcceptPaired 0) (PrxServer.mk default [c] false false false) [.succeed 2] := by
  refine ⟨_,_,rfl,rfl,rfl,rfl,rfl,rfl,?_⟩
  intro paired
  obtain ⟨i,_,⟨⟩⟩ := (paired.1 _ rfl).1 _ rfl

end EdgeProxy.Server
