import EdgeProxy.Pal.Open

/-! # Registration of open sockets

A client selects the events it waits for, which needs the registration of its socket with the event port. Only the
socket that is opened by address has none.
-/
namespace EdgeProxy.Pal
open Base

/-- The results of the calls for one connection. The client of the listening socket `offers` the options of the new one
or not. -/
structure Connection where
  offers : Bool := true
  event : Option PrxError := none
  create : Option PrxError := none
  accept : Option PrxError := none
  address : Option PrxError := none
  register : Option PrxError := none
  selectClose : Option PrxError := none
deriving DecidableEq

structure Accepted where
  socket : Option Opening
  ended : Option (Option PrxError)
  stops : Bool
  result : Option PrxError
deriving DecidableEq

def palSocketCreate : Opening :=
  ⟨.closed,.invalid,.none,[]⟩
def palSocketAccept (c : Connection) (s : Opening) : Opening × Option PrxError :=
  match c.accept with
  | some e => (s,some e)
  | none =>
    let s := { s with fd := .usable }
    match c.register with
    | some e => (s,some e)
    | none =>
      let s := { s with handle := .registered }
      (s,palEventSelect s.handle c.selectClose)

/-- `pal_socket_on_accept`. A failure before there is a new socket is undefined, since the pointer to it is passed on
and cleared all the same. An address that is not understood leaves the new socket behind. -/
def palSocketOnAccept (hasPort : Bool) (listener : SocketState) (c : Connection) : Option Accepted :=
  if !hasPort then some ⟨none,none,false,some .badState⟩
  else if listener ≠ .open then some ⟨none,none,false,some .closed⟩
  else if !c.offers then some ⟨none,none,true,some .aborted⟩
  else if c.event ≠ none ∨ c.create ≠ none then none
  else if c.accept = none ∧ c.address ≠ none then
    some ⟨some { palSocketCreate with fd := .usable },none,false,some .retry⟩
  else
    match palSocketAccept c palSocketCreate with
    | (s,none) => some ⟨some (palSocketOpenComplete s none),some none,false,none⟩
    | (s,some e) => some ⟨some (palSocketClear s),some (some e),false,some e⟩

structure Selected where
  read : Bool
  write : Bool
deriving DecidableEq

def palSocketCanRecv (handle : EventHandle) (sent : Option PrxError) (ready : Bool) (e : Selected) :
    Selected × Option PrxError :=
  match palEventSelect handle sent with
  | some error => (e,some error)
  | none => ({ e with read := ready },none)
def palSocketCanSend (handle : EventHandle) (sent : Option PrxError) (ready : Bool) (e : Selected) :
    Selected × Option PrxError :=
  match palEventSelect handle sent with
  | some error => (e,some error)
  | none => ({ e with write := ready },none)
def Selectable (handle : EventHandle) : Prop :=
  ∀ e, palSocketCanRecv handle none true e = ({ e with read := true },none) ∧
    palSocketCanSend handle none true e = ({ e with write := true },none)

/-- A socket that was reported as open is registered, and its events can be selected. -/
def Opening.ReceivesEvents (s : Opening) : Prop :=
  none ∈ s.opened → s.handle = .registered ∧ Selectable s.handle

lemma selectable_registered : Selectable .registered :=
  fun _ => ⟨rfl,rfl⟩
lemma receivesEvents_iff {s : Opening} : s.ReceivesEvents ↔ (none ∈ s.opened → s.handle = .registered) := by
  constructor
  · exact fun h hopened => (h hopened).1
  · intro h hopened
    have hregistered := h hopened
    exact ⟨hregistered,hregistered ▸ selectable_registered⟩

variable {props : OpenProps} {a : Attempt} {s : Opening}

/-- The ways to an open socket: opening one that has this handle, or accepting a connection. -/
inductive Route where
  | opens (props : OpenProps) (call : OpenCall) (handle : EventHandle)
  | accepts (hasPort : Bool) (listener : SocketState) (connection : Connection)

def Route.socket : Route → Option Opening
  | opens props call handle => some (palSocketOpen props call handle).1
  | accepts hasPort listener connection => (palSocketOnAccept hasPort listener connection).bind Accepted.socket
def Route.Registers : Route → Prop
  | opens props (.address a) handle => a.failure props handle ≠ none ∨ handle = .registered
  | opens _ (.name _ _) _ => True
  | accepts _ _ _ => True
lemma openComplete_error (hclosed : none ∉ s.opened) (e : PrxError) :
    none ∉ (palSocketOpenComplete s (some e)).opened := by
  simpa [palSocketOpenComplete] using hclosed
lemma register_receivesEvents (hclosed : none ∉ s.opened) : (palSocketRegister a s).ReceivesEvents := by
  rw [receivesEvents_iff]
  unfold palSocketRegister
  cases a.register with
  | some e => exact fun h => absurd h (openComplete_error hclosed e)
  | none => exact fun _ => rfl

lemma tryNext_receivesEvents (addresses : List Attempt) (hclosed : none ∉ s.opened) :
    (palSocketTryNext props addresses s).ReceivesEvents := by
  induction addresses generalizing s with
  | nil => exact fun h => absurd h (openComplete_error hclosed _)
  | cons a addresses ih =>
    obtain ⟨-,hleaves⟩ := tryOpen_leaves props a s
    unfold palSocketTryNext
    generalize palSocketTryOpen props a s = r at hleaves
    obtain ⟨t,result⟩ := r
    have ht : none ∉ t.opened := hleaves.opened ▸ hclosed
    cases result with
    | none => exact register_receivesEvents ht
    | some e =>
      by_cases hwaiting : e = .waiting
      · dsimp only
        rw [if_pos hwaiting]
        exact fun h => absurd h ht
      · dsimp only
        rw [if_neg hwaiting]
        exact ih ht

lemma openByName_receivesEvents (port : Option PrxError) (resolved : Except PrxError (List Attempt))
    (hclosed : none ∉ s.opened) : (palSocketOpenByName props port resolved s).1.ReceivesEvents := by
  cases port with
  | some => exact fun h => absurd h hclosed
  | none =>
    cases resolved with
    | error => exact fun h => absurd h hclosed
    | ok addresses =>
      cases addresses with
      | nil => exact fun h => absurd h hclosed
      | cons a addresses => exact tryNext_receivesEvents (a :: addresses) hclosed
lemma accept_registers (c : Connection) (s : Opening) : (palSocketAccept c s).1.opened = s.opened ∧
      ((palSocketAccept c s).2 = none → (palSocketAccept c s).1.handle = .registered) := by
  unfold palSocketAccept
  cases c.accept with
  | some => exact ⟨rfl,nofun⟩
  | none =>
    cases c.register with
    | some => exact ⟨rfl,nofun⟩
    | none => exact ⟨rfl,fun _ => rfl⟩

lemma onAccept_receivesEvents {hasPort : Bool} {listener c r}
    (h : palSocketOnAccept hasPort listener c = some r) : ∀ t ∈ r.socket, t.ReceivesEvents := by
  have hnew : none ∉ palSocketCreate.opened := List.not_mem_nil
  intro t ht
  rw [receivesEvents_iff]
  unfold palSocketOnAccept at h
  split_ifs at h
  · cases h
    cases ht
  · cases h
    cases ht
  · cases h
    cases ht
  · cases h
    cases ht
    exact fun hopened => absurd hopened hnew
  · obtain ⟨hopened,hregistered⟩ := accept_registers c palSocketCreate
    generalize palSocketAccept c palSocketCreate = accepted at h hopened hregistered
    obtain ⟨u,result⟩ := accepted
    cases result with
    | none =>
      cases h
      cases ht
      exact fun _ => hregistered rfl
    | some =>
      cases h
      cases ht
      exact fun hmem => absurd (hopened ▸ hmem) hnew

lemma openByAddr_receivesEvents_iff (hclosed : none ∉ s.opened) :
    (palSocketOpenByAddr props a s).1.ReceivesEvents ↔ a.failure props s.handle ≠ none ∨ s.handle = .registered := by
  obtain ⟨hresult,hleaves⟩ := tryOpen_leaves props a s
  unfold palSocketOpenByAddr
  generalize palSocketTryOpen props a s = r at hresult hleaves
  obtain ⟨t,result⟩ := r
  have ht : none ∉ t.opened := hleaves.opened ▸ hclosed
  rw [← hresult] at hleaves
  rw [receivesEvents_iff,← hresult]
  cases result with
  | none =>
    have hhandle : t.handle = s.handle := hleaves.handle nofun
    have hopened : none ∈ (palSocketOpenComplete t none).opened := by simp [palSocketOpenComplete]
    rw [← hhandle]
    exact ⟨fun h => .inr (h hopened),fun h _ => h.resolve_left fun hne => hne rfl⟩
  | some e =>
    refine iff_of_true ?_ (.inl nofun)
    dsimp only
    split
    · exact fun h => absurd h ht
    · exact fun h => absurd h (openComplete_error ht e)

/-- A socket that was reported as open receives its events, unless it was opened by address. -/
theorem open_receivesEvents_iff (route : Route) :
    (∀ s ∈ route.socket, s.ReceivesEvents) ↔ route.Registers := by
  cases route with
  | opens props call handle =>
    have hsocket : (∀ s ∈ (Route.opens props call handle).socket, s.ReceivesEvents) ↔
        (palSocketOpen props call handle).1.ReceivesEvents := by
      simp [Route.socket]
    rw [hsocket]
    cases call with
    | name port resolved => exact iff_of_true (openByName_receivesEvents port resolved List.not_mem_nil) trivial
    | address => exact openByAddr_receivesEvents_iff List.not_mem_nil
  | accepts =>
    refine iff_of_true (fun s hs => ?_) trivial
    obtain ⟨r,hr,hsocket⟩ := Option.bind_eq_some_iff.1 hs
    exact onAccept_receivesEvents hr s hsocket

/-- A connection to an address is reported as open, and waiting for data from it fails. -/
theorem openedByAddr_not_receivesEvents :
    let s := (palSocketOpen ⟨.stream,false⟩ (.address { }) .none).1
    s.opened = [none] ∧ ¬s.ReceivesEvents ∧ (palSocketCanRecv s.handle none true ⟨false,false⟩).2 = some .fault := by
  refine ⟨rfl,?_,rfl⟩
  exact fun h => nomatch h (by decide)

/-- An accepted connection is registered. -/
example : palSocketOnAccept true .open { } = some ⟨some ⟨.open,.usable,.registered,[none]⟩,some none,false,none⟩ := by
  decide

end EdgeProxy.Pal
