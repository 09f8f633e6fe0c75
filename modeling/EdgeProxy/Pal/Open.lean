import EdgeProxy.Pal.Socket

/-! # Opening a socket

`pal_socket_open` of `pal_sk_posix.c`, built without `ASYNC_CONNECT`: by address, or by name with a list of resolved
addresses that are tried in turn. The results of the calls to the operating system are given.
-/
namespace EdgeProxy.Pal
open Base

inductive SocketType where
  | stream
  | dgram
  | raw
  | rdm
  | seqpacket
deriving DecidableEq

structure OpenProps where
  sockType : SocketType
  passive : Bool
deriving DecidableEq

inductive Descriptor where
  | invalid
  | usable
  | broken
deriving DecidableEq

inductive ConnectResult where
  | connected
  | inProgress
  | fails (error : PrxError)
deriving DecidableEq

/-- The results of the calls for one address. A pending error on the socket is reported as the last error of the
operating system, which is that of another call. -/
structure Attempt where
  family : Option PrxError := none
  socketType : Option PrxError := none
  protocol : Option PrxError := none
  socket : Option PrxError := none
  address : Option PrxError := none
  connect : ConnectResult := .connected
  selectWrite : Option PrxError := none
  getsockopt : Bool := true
  soError : Option (Option PrxError) := none
  getpeername : Option PrxError := none
  peer : Option PrxError := none
  bind : Option PrxError := none
  listen : Option PrxError := none
  register : Option PrxError := none
  selectClose : Option PrxError := none
deriving DecidableEq

structure Opening where
  state : SocketState
  fd : Descriptor
  handle : EventHandle
  opened : List (Option PrxError)
deriving DecidableEq

inductive OpenCall where
  | name (port : Option PrxError) (resolved : Except PrxError (List Attempt))
  | address (attempt : Attempt)

def palSocketClear (s : Opening) : Opening :=
  { s with handle := .none, fd := .invalid }
def palSocketOpenComplete (s : Opening) (result : Option PrxError) : Opening :=
  { s with state := if result = none then .open else .closed, opened := s.opened ++ [result] }
def palEventSelect (handle : EventHandle) (result : Option PrxError) : Option PrxError :=
  if handle = .none then some .fault else result

def palSocketConnectFinish (a : Attempt) (s : Opening) (result : Option PrxError) : Opening × Option PrxError :=
  match result with
  | some e => (palSocketClear s,some e)
  | none =>
    let s := if a.getsockopt ∧ a.soError ≠ none then { s with fd := .broken } else s
    let result :=
      if !a.getsockopt then some .fatal
      else
        match a.soError with
        | some lastError => lastError
        | none => a.getpeername.or a.peer
    match result with
    | some e => (palSocketClear s,some e)
    | none => (s,none)

def palSocketConnect (a : Attempt) (s : Opening) : Opening × Option PrxError :=
  match a.address with
  | some e => palSocketConnectFinish a s (some e)
  | none =>
    match a.connect with
    | .connected => palSocketConnectFinish a s none
    | .inProgress =>
      match palEventSelect s.handle a.selectWrite with
      | some e => palSocketConnectFinish a s (some e)
      | none => (s,some .waiting)
    | .fails e => palSocketConnectFinish a s (some e)

def palSocketBind (props : OpenProps) (a : Attempt) : Option PrxError :=
  a.address.or (a.bind.or (if props.sockType = .dgram ∨ props.sockType = .raw then none else a.listen))
def OpenProps.connects (props : OpenProps) : Bool :=
  (props.sockType = .seqpacket ∨ props.sockType = .rdm ∨ props.sockType = .stream) ∧ !props.passive

def palSocketTryOpen (props : OpenProps) (a : Attempt) (s : Opening) : Opening × Option PrxError :=
  let (s,result) :=
    match a.family.or (a.socketType.or (a.protocol.or a.socket)) with
    | some e => (s,some e)
    | none =>
      let s := { s with fd := .usable }
      if props.connects then palSocketConnect a s else (s,palSocketBind props a)
  if result ≠ none ∧ result ≠ some .waiting then (palSocketClear s,result) else (s,result)
def palSocketRegister (a : Attempt) (s : Opening) : Opening :=
  let s := { s with state := .open }
  match a.register with
  | some e => palSocketOpenComplete s (some e)
  | none =>
    let s := { s with handle := .registered }
    palSocketOpenComplete s (palEventSelect s.handle a.selectClose)
def palSocketTryNext (props : OpenProps) : List Attempt → Opening → Opening
  | [], s => palSocketOpenComplete s (some .connecting)
  | a :: addresses, s =>
    match palSocketTryOpen props a s with
    | (s,none) => palSocketRegister a s
    | (s,some e) => if e = .waiting then s else palSocketTryNext props addresses s
def palSocketOpenByName (props : OpenProps) (port : Option PrxError) (resolved : Except PrxError (List Attempt))
    (s : Opening) : Opening × Option PrxError :=
  match port with
  | some e => (s,some e)
  | none =>
    match resolved with
    | .error e => (s,some e)
    | .ok [] => (s,some .connecting)
    | .ok addresses => (palSocketTryNext props addresses s,none)
def palSocketOpenByAddr (props : OpenProps) (a : Attempt) (s : Opening) : Opening × Option PrxError :=
  match palSocketTryOpen props a s with
  | (s,result) => if result = some .waiting then (s,none) else (palSocketOpenComplete s result,result)
def palSocketOpen (props : OpenProps) (call : OpenCall) (handle : EventHandle) : Opening × Option PrxError :=
  let s : Opening := ⟨.opening,.invalid,handle,[]⟩
  match call with
  | .name port resolved => palSocketOpenByName props port resolved s
  | .address a => palSocketOpenByAddr props a s

variable {props : OpenProps} {a : Attempt} {s : Opening}

def Attempt.connectError (a : Attempt) (handle : EventHandle) : Option PrxError :=
  match a.connect with
  | .connected => none
  | .inProgress => (palEventSelect handle a.selectWrite).or (some .waiting)
  | .fails e => some e
def Attempt.finishError (a : Attempt) : Option PrxError :=
  if a.getsockopt then
    match a.soError with
    | some lastError => lastError
    | none => a.getpeername.or a.peer
  else some .fatal

def Attempt.failure (a : Attempt) (props : OpenProps) (handle : EventHandle) : Option PrxError :=
  (a.family.or (a.socketType.or (a.protocol.or a.socket))).or
    (if props.connects then a.address.or ((a.connectError handle).or a.finishError) else palSocketBind props a)
def Attempt.hides (a : Attempt) (props : OpenProps) : Bool :=
  props.connects && a.soError = some none

structure Leaves (s t : Opening) (hidden : Bool) (result : Option PrxError) : Prop where
  state : t.state = s.state
  opened : t.opened = s.opened
  fd : result = none → t.fd = if hidden then .broken else s.fd
  handle : result ≠ some .waiting → t.handle = if result = none then s.handle else .none

lemma connectFinish_leaves (result : Option PrxError) :
    (palSocketConnectFinish a s result).2 = result.or a.finishError ∧
      Leaves s (palSocketConnectFinish a s result).1 (a.soError = some none) (result.or a.finishError) := by
  unfold palSocketConnectFinish Attempt.finishError
  cases result with
  | some => exact ⟨rfl,rfl,rfl,nofun,fun _ => rfl⟩
  | none =>
    cases a.getsockopt with
    | false => exact ⟨rfl,⟨rfl,rfl,nofun,fun _ => rfl⟩⟩
    | true =>
      cases a.soError with
      | some lastError =>
        cases lastError with
        | some => exact ⟨rfl,⟨rfl,rfl,nofun,fun _ => rfl⟩⟩
        | none => exact ⟨rfl,⟨rfl,rfl,fun _ => rfl,fun _ => rfl⟩⟩
      | none =>
        cases a.getpeername.or a.peer with
        | some => exact ⟨rfl,⟨rfl,rfl,nofun,fun _ => rfl⟩⟩
        | none => exact ⟨rfl,⟨rfl,rfl,fun _ => rfl,fun _ => rfl⟩⟩

lemma connect_leaves : (palSocketConnect a s).2 = a.address.or ((a.connectError s.handle).or a.finishError) ∧
      Leaves s (palSocketConnect a s).1 (a.soError = some none)
        (a.address.or ((a.connectError s.handle).or a.finishError)) := by
  unfold palSocketConnect Attempt.connectError
  cases a.address with
  | some e => exact connectFinish_leaves (some e)
  | none =>
    cases a.connect with
    | connected => exact connectFinish_leaves none
    | fails e => exact connectFinish_leaves (some e)
    | inProgress =>
      cases palEventSelect s.handle a.selectWrite with
      | some e => exact connectFinish_leaves (some e)
      | none => exact ⟨rfl,⟨rfl,rfl,nofun,fun hne => absurd rfl hne⟩⟩

/-- A socket for which a call failed is cleared in the end. -/
theorem settle_leaves {t hidden result} (hstate : t.state = s.state)
    (hopened : t.opened = s.opened) (hfd : result = none → t.fd = if hidden then .broken else s.fd)
    (hhandle : result = none → t.handle = s.handle) :
    (if result ≠ none ∧ result ≠ some .waiting then (palSocketClear t,result) else (t,result)).2 = result ∧
      Leaves s (if result ≠ none ∧ result ≠ some .waiting then (palSocketClear t,result) else (t,result)).1 hidden
        result := by
  split
  · rename_i hfails
    exact ⟨rfl,⟨hstate,hopened,fun hnone => absurd hnone hfails.1,fun _ => (if_neg hfails.1).symm⟩⟩
  · rename_i hfails
    refine ⟨rfl,⟨hstate,hopened,hfd,fun hne => ?_⟩⟩
    have hnone : result = none := by_contra fun hsome => hfails ⟨hsome,hne⟩
    rw [if_pos hnone,hhandle hnone]

lemma tryOpen_leaves (props : OpenProps) (a : Attempt) (s : Opening) :
    (palSocketTryOpen props a s).2 = a.failure props s.handle ∧
      Leaves { s with fd := .usable } (palSocketTryOpen props a s).1 (a.hides props) (a.failure props s.handle) := by
  unfold palSocketTryOpen Attempt.failure Attempt.hides
  cases a.family.or (a.socketType.or (a.protocol.or a.socket)) with
  | some => exact settle_leaves rfl rfl nofun nofun
  | none =>
    cases props.connects with
    | true =>
      obtain ⟨hresult,hleaves⟩ := connect_leaves
      dsimp only [Option.none_or] at ⊢
      rw [if_pos rfl,hresult]
      refine settle_leaves hleaves.state hleaves.opened hleaves.fd fun hnone => ?_
      exact (hleaves.handle (hnone ▸ nofun)).trans (if_pos hnone)
    | false => exact settle_leaves rfl rfl (fun _ => rfl) fun _ => rfl

def Opening.isOpen (s : Opening) : Prop :=
  s.state = .open ∧ s.fd = .usable
instance (s : Opening) : Decidable s.isOpen :=
  inferInstanceAs (Decidable (_ ∧ _))

/-- An error is returned and nothing is reported, or success is returned and the socket is reported once, as open if it
is open. -/
def ReportsOnce (r : Opening × Option PrxError) : Prop :=
  (r.2 ≠ none ∧ r.1.opened = []) ∨ (r.2 = none ∧ ∃ result, r.1.opened = [result] ∧ (result = none ↔ r.1.isOpen))

/-- Among the addresses that are tried none waits, and the one that is connected hides no error if it is then
registered. -/
def orderly (props : OpenProps) : EventHandle → List Attempt → Bool
  | _, [] => true
  | handle, a :: addresses =>
    match a.failure props handle with
    | none => a.register ≠ none || a.selectClose ≠ none || !a.hides props
    | some e => if e = .waiting then false else orderly props .none addresses

/-- A name is resolved to addresses in order, or the address is opened without a failure. -/
def OpenCall.reports (props : OpenProps) (handle : EventHandle) : OpenCall → Bool
  | .name none (.ok addresses) => orderly props handle addresses
  | .name _ _ => true
  | .address a => a.failure props handle = none && !a.hides props

lemma reports_error (hopened : s.opened = []) (e : PrxError) : ReportsOnce (palSocketOpenComplete s (some e),none) := by
  refine .inr ⟨rfl,some e,?_,iff_of_false nofun fun hopen => nomatch hopen.1⟩
  exact congrArg (· ++ [some e]) hopened
lemma reports_success (hopened : s.opened = []) : ReportsOnce (palSocketOpenComplete s none,none) ↔ s.fd = .usable := by
  have hreport : (palSocketOpenComplete s none).opened = [none] := congrArg (· ++ [none]) hopened
  constructor
  · rintro (⟨hne,-⟩ | ⟨-,result,hresult,hiff⟩)
    · exact absurd rfl hne
    · cases hreport.symm.trans hresult
      exact (hiff.1 rfl).2
  · intro hfd
    exact .inr ⟨rfl,none,hreport,iff_of_true rfl ⟨rfl,hfd⟩⟩

lemma register_reports {a} (hopened : s.opened = []) :
    ReportsOnce (palSocketRegister a s,none) ↔ a.register ≠ none ∨ a.selectClose ≠ none ∨ s.fd = .usable := by
  unfold palSocketRegister
  cases a.register with
  | some e => exact iff_of_true (reports_error hopened e) (.inl nofun)
  | none =>
    cases a.selectClose with
    | some e =>
      exact iff_of_true (reports_error hopened e)
        (.inr (.inl nofun))
    | none =>
      refine (reports_success hopened).trans ?_
      simp

lemma waits_not_reports (hopened : s.opened = []) : ¬ReportsOnce (s,none) := by
  rintro (⟨hne,-⟩ | ⟨-,result,hreport,-⟩)
  · exact hne rfl
  · exact List.cons_ne_nil result [] (hreport.symm.trans hopened)
lemma Leaves.usable_iff {t hidden} (h : Leaves { s with fd := .usable } t hidden none) :
    t.fd = .usable ↔ hidden = false := by
  rw [h.fd rfl]
  cases hidden <;> simp

lemma tryNext_reports (addresses : List Attempt) (hopened : s.opened = []) :
    ReportsOnce (palSocketTryNext props addresses s,none) ↔ orderly props s.handle addresses := by
  induction addresses generalizing s with
  | nil => exact iff_of_true (reports_error hopened _) rfl
  | cons a addresses ih =>
    obtain ⟨hresult,hleaves⟩ := tryOpen_leaves props a s
    unfold palSocketTryNext orderly
    generalize palSocketTryOpen props a s = r at hresult hleaves
    obtain ⟨t,result⟩ := r
    have ht : t.opened = [] := hleaves.opened.trans hopened
    rw [← hresult] at hleaves ⊢
    cases result with
    | none =>
      refine (register_reports ht).trans ?_
      rw [hleaves.usable_iff]
      simp [or_assoc]
    | some e =>
      by_cases hwaiting : e = .waiting
      · dsimp only
        rw [if_pos hwaiting,if_pos hwaiting]
        exact iff_of_false (waits_not_reports ht) Bool.false_ne_true
      · dsimp only
        rw [if_neg hwaiting,if_neg hwaiting,ih ht]
        rw [hleaves.handle fun h => hwaiting (Option.some.inj h)]
        rfl

lemma openByAddr_reports (a : Attempt) (hopened : s.opened = []) :
    ReportsOnce (palSocketOpenByAddr props a s) ↔ a.failure props s.handle = none ∧ a.hides props = false := by
  obtain ⟨hresult,hleaves⟩ := tryOpen_leaves props a s
  unfold palSocketOpenByAddr
  generalize palSocketTryOpen props a s = r at hresult hleaves
  obtain ⟨t,result⟩ := r
  have ht : t.opened = [] := hleaves.opened.trans hopened
  rw [← hresult] at hleaves ⊢
  cases result with
  | none => exact (reports_success ht).trans (hleaves.usable_iff.trans (and_iff_right rfl).symm)
  | some =>
    refine iff_of_false ?_ fun h => nomatch h.1
    dsimp only
    split
    · exact waits_not_reports ht
    · -- the error is both returned and reported
      rintro (⟨-,hreport⟩ | ⟨hnone,-⟩)
      · exact List.append_ne_nil_of_right_ne_nil _ (List.cons_ne_nil _ _) hreport
      · exact nomatch hnone

/-- Opening returns an error without a report, or reports once and truly, exactly for a name that does not resolve or
of whose addresses none waits and the connected one hides no error, and for an address where nothing fails. -/
theorem open_reportsOnce_iff (props : OpenProps) (call : OpenCall) (handle : EventHandle) :
    ReportsOnce (palSocketOpen props call handle) ↔ call.reports props handle := by
  cases call with
  | address a =>
    refine (openByAddr_reports a rfl).trans ?_
    simp [OpenCall.reports]
  | name port resolved =>
    cases port with
    | some => exact iff_of_true (.inl ⟨nofun,rfl⟩) rfl
    | none =>
      cases resolved with
      | error => exact iff_of_true (.inl ⟨nofun,rfl⟩) rfl
      | ok addresses =>
        cases addresses with
        | nil => exact iff_of_true (.inl ⟨nofun,rfl⟩) rfl
        | cons a addresses => exact tryNext_reports (a :: addresses) rfl

/-- A refused connection to an address is returned as an error and reported as well. -/
theorem refused_not_reportsOnce :
    ¬ReportsOnce (palSocketOpen ⟨.stream,false⟩ (.address { connect := .fails .refused }) .none) := by
  rintro (⟨-,hreport⟩ | ⟨hnone,-⟩)
  · exact nomatch hreport
  · exact nomatch hnone

/-- A name whose first address refuses is opened with the second one. -/
example : palSocketOpen ⟨.stream,false⟩ (.name none (.ok [{ connect := .fails .refused },{ }])) .none =
    (⟨.open,.usable,.registered,[none]⟩,none) := by
  decide

end EdgeProxy.Pal
