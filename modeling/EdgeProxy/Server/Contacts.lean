import EdgeProxy.Util.Strings
import EdgeProxy.Server.Budget
import EdgeProxy.Server.Table

/-! # Ports that clients can reach

The ports that clients may not reach are a list of ranges. A link request connects a socket, a datagram socket sends to
the address in a data message, and the stream of an open request connects to the host in its connection string. Only
link requests are checked.
-/
namespace EdgeProxy.Server
open Base Util List
open Cs (ascii)

/-- The loop of `prx_server_check_restricted_port` when `remaining` numbers are left up to the bound of its index;
`rest` are the stored numbers from the index on. The result is `none` if it reads past them. -/
def checkRestrictedFrom (port : Int32) : (remaining : ℕ) → (rest : List Int32) → Option Int32
  | 0, _ => some erOk
  | _ + 1, [] => none
  | remaining + 1, low :: rest =>
    if port ≥ low then
      match rest with
      | [] => none
      | high :: rest =>
        if port ≤ high then some erRefused else checkRestrictedFrom port (remaining - 1) rest
    else checkRestrictedFrom port remaining rest

def prxServerCheckRestrictedPort (restricted : RangeList) (port : UInt16) : Option Int32 :=
  checkRestrictedFrom port.toUInt32.toInt32 (restricted.len * 2) restricted.tuples

structure PortRanges where
  ranges : List (Int32 × Int32)
  ordered : ranges.all fun r => r.1 ≤ r.2

def storedTuples (ranges : List (Int32 × Int32)) : List Int32 :=
  ranges.flatMap fun r => [r.1,r.2]
def PortRanges.stored (restricted : PortRanges) : RangeList where
  tuples := storedTuples restricted.ranges
  len := restricted.ranges.length
  overflow := false
def PortRanges.restricts (restricted : PortRanges) (port : UInt16) : Bool :=
  restricted.ranges.any fun r => r.1 ≤ port.toUInt32.toInt32 ∧ port.toUInt32.toInt32 ≤ r.2

lemma checkRestrictedFrom_eq {port ranges} (ordered : ∀ r ∈ ranges, r.1 ≤ r.2) :
    checkRestrictedFrom port (ranges.length * 2) (storedTuples ranges) =
      some (if ranges.any fun r => r.1 ≤ port ∧ port ≤ r.2 then erRefused else erOk) := by
  induction ranges with
  | nil => rfl
  | cons r ranges ih =>
    obtain ⟨low,high⟩ := r
    have hle : low ≤ high := ordered _ mem_cons_self
    have hnext := ih fun r hr => ordered r (mem_cons_of_mem _ hr)
    have hlength : ((low,high) :: ranges).length * 2 = ranges.length * 2 + 1 + 1 := by
      rw [length_cons]
      omega
    have htuples : storedTuples ((low,high) :: ranges) = low :: high :: storedTuples ranges := rfl
    rw [hlength,htuples,checkRestrictedFrom]
    by_cases above : port ≥ low
    · rw [if_pos above]
      by_cases within : port ≤ high
      · simp [within,show low ≤ port from above]
      · rw [if_neg within,any_cons,decide_eq_false fun h => within h.2]
        exact hnext
    · have below : ¬port ≥ high := fun h => above (Int32.le_trans hle h)
      have hskip : checkRestrictedFrom port (ranges.length * 2 + 1) (high :: storedTuples ranges) =
          checkRestrictedFrom port (ranges.length * 2) (storedTuples ranges) := by
        rw [checkRestrictedFrom.eq_def]
        exact if_neg below
      rw [if_neg above,hskip,any_cons,decide_eq_false fun h => above h.1]
      exact hnext

lemma check_stored (restricted : PortRanges) (port : UInt16) : prxServerCheckRestrictedPort restricted.stored port =
      some (if restricted.restricts port then erRefused else erOk) := by
  have ordered : ∀ r ∈ restricted.ranges, r.1 ≤ r.2 := by simpa using restricted.ordered
  exact checkRestrictedFrom_eq ordered
lemma ofNat_le_ofNat {a b} (ha : a < 2 ^ 31) (hb : b < 2 ^ 31) : Int32.ofNat a ≤ Int32.ofNat b ↔ a ≤ b := by
  rw [Int32.le_iff_toInt_le,Int32.toInt_ofNat_of_lt ha,Int32.toInt_ofNat_of_lt hb]
  omega
lemma toInt32_port (port : UInt16) : port.toUInt32.toInt32 = .ofNat port.toNat := by
  apply Int32.toBitVec_inj.1
  apply BitVec.eq_of_toNat_eq
  have hport := port.toNat_lt
  change port.toUInt32.toNat = (BitVec.ofNat 32 port.toNat).toNat
  rw [UInt16.toNat_toUInt32,BitVec.toNat_ofNat]
  omega
def portRanges (ranges : List Range) (fits : ∀ r ∈ ranges, r.high < 2 ^ 31) : PortRanges where
  ranges := ranges.map fun r => (.ofNat r.low,.ofNat r.high)
  ordered := by
    rw [List.all_map,List.all_eq_true]
    intro r hr
    exact decide_eq_true <| (ofNat_le_ofNat (Nat.lt_of_le_of_lt r.low_le_high (fits r hr)) (fits r hr)).2 r.low_le_high

variable {ranges : List Range} (fits : ∀ r ∈ ranges, r.high < 2 ^ 31)

lemma parse_portRanges : stringParseRangeList (rangeText ranges) true = .ok (portRanges ranges fits).stored := by
  rw [← append_nil (rangeText ranges),stringParseRangeList_spaced fits (forall_mem_nil _)]
  simp [PortRanges.stored,portRanges,storedTuples,flatMap_map]
lemma restricts_portRanges (port : UInt16) :
    (portRanges ranges fits).restricts port ↔ ∃ r ∈ ranges, r.low ≤ port.toNat ∧ port.toNat ≤ r.high := by
  have hport : port.toNat < 2 ^ 31 := Nat.lt_trans port.toNat_lt (by decide)
  simp only [PortRanges.restricts,portRanges,any_map,any_eq_true,Function.comp,decide_eq_true_eq,toInt32_port]
  refine exists_congr fun r => and_congr_right fun hr => ?_
  have hbound := Nat.lt_of_le_of_lt r.low_le_high (fits r hr)
  exact and_congr (ofNat_le_ofNat hbound hport) (ofNat_le_ofNat hport (fits r hr))

/-- Ranges of numbers below 2³¹ are stored within their memory, and the check refuses exactly the ports in them. -/
theorem refused_iff_in_ranges {ranges : List Range} (fits : ∀ r ∈ ranges, r.high < 2 ^ 31)
    (port : UInt16) :
    ∃ restricted result, stringParseRangeList (rangeText ranges) true = .ok restricted ∧
      restricted.overflow = false ∧ prxServerCheckRestrictedPort restricted port = some result ∧
      (result = erRefused ↔ ∃ r ∈ ranges, r.low ≤ port.toNat ∧ port.toNat ≤ r.high) := by
  refine ⟨_,_,parse_portRanges fits,rfl,check_stored _ port,?_⟩
  rw [← restricts_portRanges fits]
  split
  · next inside => exact iff_of_true rfl inside
  · next outside => exact iff_of_false (by decide) outside

def someRanges : List Range :=
  [.single ⟨ascii "80",by decide,by decide⟩,.span ⟨ascii "30",by decide,by decide⟩ ⟨ascii "20",by decide,by decide⟩]
theorem refused_someRanges :
    ∃ restricted result, stringParseRangeList (rangeText someRanges) true = .ok restricted ∧
      restricted.overflow = false ∧ prxServerCheckRestrictedPort restricted 22 = some result ∧
      (result = erRefused ↔ ∃ r ∈ someRanges, r.low ≤ (22 : UInt16).toNat ∧ (22 : UInt16).toNat ≤ r.high) :=
  refused_iff_in_ranges (by decide) 22
def wideRange : Range :=
  .span ⟨ascii "5",by decide,by decide⟩ ⟨ascii "4294967295",by decide,by decide⟩

/-- The second number is stored as -1, so that a port in the range is not refused. -/
theorem wideRange_not_refused :
    wideRange.high < 2 ^ 32 ∧ wideRange.low ≤ (80 : UInt16).toNat ∧ (80 : UInt16).toNat ≤ wideRange.high ∧
    ∃ restricted, stringParseRangeList (rangeText [wideRange]) true = .ok restricted ∧
      restricted.tuples = [-1,5] ∧ prxServerCheckRestrictedPort restricted 80 = some erOk := by
  refine ⟨by decide,by decide,by decide,(PortRanges.mk [(-1,5)] (by decide)).stored,?_,rfl,check_stored _ 80⟩
  have hitem : parseItem (rangeText [wideRange]) = some (⟨-1,5,true⟩,[]) := rfl
  rw [stringParseRangeList,parseItems_last hitem (by simp)]
  rfl

open Codec Lib List Option Cell

/-- `un.ip.port` of an address. A proxy address has its port in the same place, a unix address the start of its path. -/
def portField (address : SocketAddress) : UInt16 :=
  if address.family = prxAddressFamilyProxy then address.proxy.port
  else if address.family = prxAddressFamilyUnix then
    (address.ux.path.get ⟨0,by decide⟩).toUInt16 + (address.ux.path.get ⟨1,by decide⟩).toUInt16 <<< 8
  else address.ip.port

def targetPort (address : SocketAddress) : Option UInt16 :=
  if address.family = prxAddressFamilyInet ∨ address.family = prxAddressFamilyInet6 then some address.ip.port else none
lemma targetPort_eq_portField {address port} (h : targetPort address = some port) : port = portField address := by
  obtain ⟨family,h⟩ := ite_none_right_eq_some.1 h
  have other : address.family ≠ prxAddressFamilyProxy ∧ address.family ≠ prxAddressFamilyUnix := by
    rcases family with hf | hf <;> rw [hf] <;> decide
  rw [portField,if_neg other.1,if_neg other.2,Option.some.inj h]

def prxSocketFlagPassive : UInt32 := 1
def prxSocketFlagInternal : UInt32 := 2
def prxSocketTypeStream : Int32 := 1
def prxSocketTypeRdm : Int32 := 4
def prxSocketTypeSeqpacket : Int32 := 5

def linksOut (props : SocketProperties Bytes) : Bool :=
  props.flags &&& prxSocketFlagInternal = 0 ∧ props.flags &&& prxSocketFlagPassive = 0
def connects (props : SocketProperties Bytes) : Bool :=
  linksOut props ∧ (props.sockType = prxSocketTypeSeqpacket ∨ props.sockType = prxSocketTypeRdm ∨
    props.sockType = prxSocketTypeStream)
def linkCheck (restricted : RangeList) (props : SocketProperties Bytes) : Option Int32 :=
  if linksOut props then prxServerCheckRestrictedPort restricted (portField props.address) else some erOk

/-- The addresses that `pal_socket_open` can connect to. Those of a name come from `pal_getaddrinfo`, which is asked for
the port of the link request. -/
def mayTry (props : SocketProperties Bytes) (address : SocketAddress) : Bool :=
  connects props ∧ if props.address.family = prxAddressFamilyProxy then
      (targetPort address).all fun port => port = portField props.address
    else address = props.address

lemma mayTry_port {props address port} (tried : mayTry props address) (h : targetPort address = some port) :
    linksOut props ∧ port = portField props.address := by
  simp only [mayTry,connects,decide_eq_true_eq] at tried
  refine ⟨tried.1.1,?_⟩
  by_cases proxy : props.address.family = prxAddressFamilyProxy
  · rw [if_pos proxy] at tried
    simpa [h] using tried.2
  · rw [if_neg proxy] at tried
    rw [← of_decide_eq_true tried.2]
    exact targetPort_eq_portField h

/-- The ports that the transport of a stream connects to on the host of its connection string: that of websockets, and
for the transport of the server also that of MQTT. -/
def Connection.ports : Connection → List UInt16
  | .listener => []
  | .polledStream => [443,8883]
  | .webSocket => [443]

def Cell.isDatagram (c : Cell) : Bool :=
  c.socket.sock.any fun sock => sock.kind = .datagram
def Cell.sendsTo (c : Cell) (event : Event) : Option UInt16 :=
  match event, c.portThread with
  | .endSend prepared _, .sending message =>
    if c.isDatagram ∧ prepared = erOk then targetPort message.content.dataMessage.sourceAddress else none
  | _, _ => none

def PortRanges.admits (restricted : PortRanges) (message : Message) : Bool :=
  (targetPort message.content.dataMessage.sourceAddress).all fun port => ¬restricted.restricts port
def PortRanges.allows (restricted : PortRanges) (connection : Connection) : Bool :=
  connection.ports.all fun port => ¬restricted.restricts port

/-- The message brings no restricted port: a data message for a datagram socket has none as its target, and an open
request makes no stream that connects to one. -/
def Cell.keepsPorts (c : Cell) (restricted : PortRanges) (fromStream : Bool) (message : Message) (calls : Calls) :
    Bool :=
  (messageType message.type = some .data → c.socket.state = .opened → calls.clone = erOk → c.isDatagram →
    restricted.admits message) ∧
  (fromStream = false → messageType message.type = some .open → c.socket.state = .created → calls.factory = erOk →
    (openConnection message.content.openRequest calls).toOption.all restricted.allows)

structure Cell.Guarded (restricted : PortRanges) (c : Cell) : Prop where
  queued : c.isDatagram → ∀ message ∈ c.socket.sendQueue, restricted.admits message
  sending : c.isDatagram → ∀ message, c.portThread = .sending message → restricted.admits message
  stream : ∀ connection, c.socket.stream = some connection → restricted.allows connection

variable {c c' : Cell} {event : Event} {fromStream : Bool} {message : Message} {calls : Calls}

variable {sock sock' : Pal.Socket}

lemma kind_palSocketClose {sent closed}
    (h : Pal.palSocketClose sock sent = some (sock',closed)) : sock'.kind = sock.kind := by
  unfold Pal.palSocketClose at h
  dsimp only at h
  split at h
  · cases h
    rfl
  · cases sent <;> cases h <;> rfl
  all_goals cases h
lemma kind_palSocketOnRecvEnter {result}
    (h : Pal.palSocketOnRecvEnter sock result = some sock') : sock'.kind = sock.kind := by
  obtain ⟨_,⟨⟩⟩ := ite_none_right_eq_some.1 h
  split <;> rfl
lemma isDatagram_of_kind (hc : c.socket.sock = some sock)
    (hc' : c'.socket.sock = some sock') (hkind : sock'.kind = sock.kind) : c'.isDatagram = c.isDatagram := by
  rw [isDatagram,isDatagram,hc,hc']
  simp [hkind]
lemma Collects.isDatagram (h : Collects c calls c') : c'.isDatagram = c.isDatagram := by
  cases h with
  | closing hsock hclose | closed hsock hclose => exact isDatagram_of_kind hsock rfl (kind_palSocketClose hclose)
  | _ => rfl
lemma Takes.isDatagram (h : Takes c event calls c') : c'.isDatagram = c.isDatagram := by
  cases h with
  | received _ _ step | openComplete _ _ step | deliver step => cases step <;> rfl
  | worker idle table works =>
    cases works with
    | reverted _ _ collects | drops _ _ collects | collects _ collects => exact collects.isDatagram
    | _ => rfl
  | receiveRefused hsock _ enters | receiveBegun hsock _ enters =>
    exact isDatagram_of_kind hsock rfl (kind_palSocketOnRecvEnter enters)
  | destroyed hsock | closed hsock => exact isDatagram_of_kind hsock rfl rfl
  | _ => rfl

def Cell.toSend (c : Cell) (message : Message) : Prop :=
  message ∈ c.socket.sendQueue ∨ c.portThread = .sending message
lemma Collects.toSend {m} (h : Collects c calls c') : c'.toSend m ↔ c.toSend m := by
  rw [Cell.toSend,h.unchanged.sendQueue,h.unchanged.portThread,Cell.toSend]

lemma handles_data (type : messageType message.type = some .data)
    (h : c.step (.received fromStream message,calls) = some c') :
    ∃ responder, c' = c.prxServerSocketHandleDatamessage responder message calls := by
  rw [handled_of_step h]
  cases fromStream with
  | false => exact ⟨some .listener,by simp [prxServerSocketControlHandler,type]⟩
  | true => exact ⟨none,by simp [prxServerSocketStreamHandler,type]⟩

lemma sendQueue_data (type : messageType message.type = some .data)
    (h : c.step (.received fromStream message,calls) = some c') :
    c'.socket.sendQueue = c.socket.sendQueue ∨ c.socket.state = .opened ∧ calls.clone = erOk ∧
      c'.socket.sendQueue = c.socket.sendQueue ++ [{ message with object := c.history.objects }] := by
  obtain ⟨responder,rfl⟩ := handles_data type h
  unfold prxServerSocketHandleDatamessage
  split
  · left
    unfold respondClosed
    split <;> rfl
  · next state =>
    split
    · exact .inl rfl
    · next clone => exact .inr ⟨not_not.1 state,not_not.1 clone,rfl⟩

lemma toSend_of_step {m} (h : c.step (event,calls) = some c') (hm : c'.toSend m) :
    c.toSend m ∨ ∃ fromStream message, event = .received fromStream message ∧
      messageType message.type = some .data ∧ c.socket.state = .opened ∧ calls.clone = erOk ∧
      m = { message with object := c.history.objects } := by
  obtain ⟨_,takes⟩ := takes_of_step h
  cases takes with
  | received idle table receives =>
    cases receives with
    | data type =>
      rcases hm with queued | sending
      · rcases sendQueue_data type h with hsame | ⟨state,clone,happend⟩
        · exact .inl (.inl (hsame ▸ queued))
        · rcases mem_append.1 (happend ▸ queued) with hold | hnew
          · exact .inl (.inl hold)
          · exact .inr ⟨_,_,rfl,type,state,clone,mem_singleton.1 hnew⟩
      · exact .inl (.inr sending)
    | _ => exact .inl hm
  | worker idle table works =>
    cases works with
    | reverted _ _ collects | drops _ _ collects =>
      exact .inl (.inr ((collects.toSend.1 hm).resolve_left nofun))
    | collects _ collects => exact .inl (collects.toSend.1 hm)
    | _ => exact .inl hm
  | openComplete _ _ step | deliver step => cases step <;> exact .inl hm
  | free => exact .inl (.inr (hm.resolve_left nofun))
  | receiveBegun | receiveDropped | receiveEnded | sendEnded => exact .inl (.inl (hm.resolve_right nofun))
  | sendLost queue => exact .inl (hm.imp (fun queued => queue ▸ mem_cons_of_mem _ queued) id)
  | sendBegun queue =>
    rcases hm with queued | sending
    · exact .inl (.inl (queue ▸ mem_cons_of_mem _ queued))
    · cases sending
      exact .inl (.inl (queue ▸ mem_cons_self))
  | sendRetried sending =>
    rcases mem_cons.1 (hm.resolve_right nofun) with rfl | queued
    · exact .inl (.inr sending)
    · exact .inl (.inl queued)
  | _ => exact .inl hm

lemma stream_workerClosed : c.workerClosed.socket.stream = c.socket.stream ∨ c.workerClosed.socket.stream = none := by
  unfold workerClosed ioConnectionClose
  split
  · split <;> exact .inl rfl
  · exact .inr rfl

lemma stream_worker :
    (c.prxServerWorker calls).socket.stream = c.socket.stream ∨ (c.prxServerWorker calls).socket.stream = none := by
  have works : Works c calls (c.prxServerWorker calls) := works_worker
  generalize hc' : c.prxServerWorker calls = c' at works
  cases works with
  | closeTimedout state timedout =>
    rw [← hc',prxServerWorker]
    simp only [state,timedout]
    exact stream_workerClosed
  | leaves state =>
    rw [← hc',prxServerWorker]
    simp only [state]
    exact stream_workerClosed
  | reverted _ _ collects | drops _ _ collects | collects _ collects => exact .inl collects.unchanged.stream
  | _ => exact .inl rfl

lemma stream_openBody : (c.openBody message calls).1.socket.stream = c.socket.stream ∨
      calls.factory = erOk ∧ ∃ connection, openConnection message.content.openRequest calls = .ok connection ∧
        (c.openBody message calls).1.socket.stream = some connection := by
  unfold openBody
  by_cases factory : calls.factory = erOk
  · rw [if_neg (not_not_intro factory)]
    cases openConnection message.content.openRequest calls with
    | error => exact .inl rfl
    | ok connection =>
      dsimp only
      split <;> exact .inr ⟨factory,connection,rfl,rfl⟩
  · rw [if_pos factory]
    exact .inl rfl

lemma stream_open (responder : Option Connection) :
    (c.prxServerSocketHandleOpenrequest responder message calls).socket.stream = c.socket.stream ∨
      c.socket.state = .created ∧ (c.prxServerSocketHandleOpenrequest responder message calls).socket.stream =
        (c.openBody message calls).1.socket.stream := by
  unfold prxServerSocketHandleOpenrequest
  cases c.socket.state with
  | created =>
    refine .inr ⟨rfl,?_⟩
    dsimp only
    split <;> rfl
  | _ =>
    left
    dsimp only
    split <;> rfl

/-- A socket keeps its stream until it is released, apart from a stream that an open request makes. -/
theorem stream_of_step (h : c.step (event,calls) = some c') :
    c'.socket.stream = c.socket.stream ∨ c'.socket.stream = none ∨
      ∃ message connection, event = .received false message ∧ messageType message.type = some .open ∧
        c.socket.state = .created ∧ calls.factory = erOk ∧
        openConnection message.content.openRequest calls = .ok connection ∧ c'.socket.stream = some connection := by
  obtain ⟨_,takes⟩ := takes_of_step h
  cases takes with
  | received idle table receives =>
    cases receives with
    | openFailed type control | opened type control =>
      subst control
      rw [handles_open type h]
      rcases stream_open (some .listener) with hsame | ⟨state,hbody⟩
      · exact .inl hsame
      · rcases stream_openBody with hsame | ⟨factory,connection,hconn,hstream⟩
        · exact .inl (hbody.trans hsame)
        · exact .inr (.inr ⟨_,connection,rfl,type,state,factory,hconn,hbody.trans hstream⟩)
    | _ => exact .inl rfl
  | worker =>
    rw [worked_of_step h]
    exact stream_worker.imp_right .inl
  | openComplete _ _ step | deliver step => cases step <;> exact .inl rfl
  | free => exact .inr (.inl rfl)
  | _ => exact .inl rfl

lemma step_guarded {restricted} (hc : c.Guarded restricted)
    (keeps : ∀ fromStream message, event = .received fromStream message →
      c.keepsPorts restricted fromStream message calls)
    (h : c.step (event,calls) = some c') : c'.Guarded restricted := by
  have hkind := (takes_of_step h).2.isDatagram
  have hsend {m : Message} (datagram : c'.isDatagram) (hm : c'.toSend m) : restricted.admits m := by
    rw [hkind] at datagram
    rcases toSend_of_step h hm with (queued | sending) | ⟨fromStream,message,hevent,type,state,clone,rfl⟩
    · exact hc.queued datagram m queued
    · exact hc.sending datagram m sending
    · have hkeeps := keeps _ _ hevent
      simp only [keepsPorts,decide_eq_true_eq] at hkeeps
      exact hkeeps.1 type state clone datagram
  refine ⟨fun datagram _ queued => hsend datagram (.inl queued),fun datagram _ sending => hsend datagram (.inr sending),
    ?_⟩
  intro connection hstream
  rcases stream_of_step h with hsame | gone | ⟨message,made,hevent,type,state,factory,hconn,hmade⟩
  · exact hc.stream connection (hsame ▸ hstream)
  · cases gone.symm.trans hstream
  · cases hmade.symm.trans hstream
    have hkeeps := keeps _ _ hevent
    simp only [keepsPorts,decide_eq_true_eq] at hkeeps
    have hallows := hkeeps.2 trivial type state factory
    rw [hconn] at hallows
    exact hallows

structure Gate where
  server : PrxServer
  restricted : PortRanges
  contacts : List UInt16

inductive GateEvent where
  /-- A link request, with the addresses that were tried for it. -/
  | link (created : Int32) (id : IoRef) (message : Message) (palOpen : PalOpen) (tried : List SocketAddress)
  /-- A ping request resolves an address and contacts no port. -/
  | ping
  | server (event : ServerEvent)
  /-- The transport of the stream of a socket connects. -/
  | streamConnects (index : ℕ) (port : UInt16)

namespace Gate

def start (id : IoRef) (restricted : PortRanges) : Gate :=
  { server := .start id, restricted, contacts := [] }
def linkStep (g : Gate) (created : Int32) (id : IoRef) (message : Message) (palOpen : PalOpen)
    (tried : List SocketAddress) (calls : Calls) : Option Gate :=
  let props := message.content.linkRequest.props
  match linkCheck g.restricted.stored props with
  | none => none
  | some checked =>
    if tried.all (mayTry props) then
      (g.server.step (.link checked created id message palOpen,calls)).map fun s =>
        { g with
          server := s
          contacts := g.contacts ++ if checked = erOk ∧ created = erOk then tried.filterMap targetPort else [] }
    else none
def sendsTo (g : Gate) (event : ServerEvent) : Option UInt16 :=
  match event with
  | .socket index event => g.server.sockets[index]?.bind fun c => c.sendsTo event
  | _ => none
def step (g : Gate) (label : GateEvent × Calls) : Option Gate :=
  match label.1 with
  | .link created id message palOpen tried => g.linkStep created id message palOpen tried label.2
  | .ping => some g
  | .server (.link _ _ _ _ _) => none
  | .server event =>
    (g.server.step (event,label.2)).map fun s =>
      { g with server := s, contacts := g.contacts ++ (g.sendsTo event).toList }
  | .streamConnects index port =>
    if ¬g.server.undefined ∧
        g.server.sockets[index]?.any fun c => c.socket.stream.any fun s => s.ports.contains port then
      some { g with contacts := g.contacts ++ [port] }
    else none

/-- No restricted port was contacted. -/
def Unreached (g : Gate) : Prop :=
  ∀ port ∈ g.contacts, ¬g.restricted.restricts port

/-- The event brings no restricted port to a socket. -/
def keepsPorts (g : Gate) (label : GateEvent × Calls) : Bool :=
  match label.1 with
  | .server (.socket index (.received fromStream message)) =>
    g.server.sockets[index]?.all fun c => c.keepsPorts g.restricted fromStream message label.2
  | _ => true

structure Guarded (g : Gate) : Prop where
  unreached : g.Unreached
  sockets : g.server.undefined = false → ∀ c ∈ g.server.sockets, c.Guarded g.restricted

variable {g g' : Gate} {calls : Calls}

lemma guarded_socket {index : ℕ} {c} (hg : g.Guarded) (defined : g.server.undefined = false)
    (found : g.server.sockets[index]? = some c) : c.Guarded g.restricted :=
  hg.sockets defined c (mem_of_getElem? found)
lemma linkCheck_port {restricted : PortRanges} {props address}
    {port} (checked : linkCheck restricted.stored props = some erOk) (tried : mayTry props address)
    (h : targetPort address = some port) : ¬restricted.restricts port := by
  obtain ⟨out,rfl⟩ := mayTry_port tried h
  intro hrestricts
  rw [linkCheck,if_pos out,check_stored,if_pos hrestricts] at checked
  exact absurd checked (by decide)

lemma sockets_guarded {label s} (hg : g.Guarded)
    (keeps : ∀ index fromStream message c, label.1 = .socket index (.received fromStream message) →
      g.server.sockets[index]? = some c → c.keepsPorts g.restricted fromStream message label.2)
    (h : g.server.step label = some s) (defined : s.undefined = false) : ∀ c ∈ s.sockets, c.Guarded g.restricted := by
  obtain ⟨hdefined,hsteps⟩ := steps_of_step h
  have hborn {c : Cell} (born : Born c) : c.Guarded g.restricted := by
    have initial := born.initial
    refine ⟨fun _ m hm => ?_,fun _ m hm => ?_,fun connection hstream => ?_⟩
    · exact absurd (initial.sendQueue ▸ hm) not_mem_nil
    · cases initial.portThread.symm.trans hm
    · cases initial.stream.symm.trans hstream
  refine hsteps.all_sockets defined (hg.sockets hdefined) ?_ ?_ ?_
  · rintro index event calls c c' rfl found hstep hc
    exact step_guarded hc (fun fromStream message hevent => keeps _ _ _ _ (by rw [hevent]) found) hstep
  · rintro id message palOpen calls rfl
    exact hborn (.link _ _ _ _ _ _)
  · intro id owner timeout link
    exact hborn (.accept _ _ _ _ _)

lemma unreached_append {ports s} (hg : g.Unreached) (hports : ∀ port ∈ ports, ¬g.restricted.restricts port) :
    ({ g with server := s, contacts := g.contacts ++ ports } : Gate).Unreached := by
  intro port hmem
  rcases mem_append.1 hmem with hold | hnew
  · exact hg port hold
  · exact hports port hnew

lemma sendsTo_unrestricted {event : ServerEvent} {port} (hg : g.Guarded)
    (defined : g.server.undefined = false) (h : g.sendsTo event = some port) : ¬g.restricted.restricts port := by
  unfold sendsTo at h
  split at h
  · obtain ⟨c,found,hsends⟩ := bind_eq_some_iff.1 h
    have hc := guarded_socket hg defined found
    unfold Cell.sendsTo at hsends
    split at hsends
    · next message sending =>
      obtain ⟨⟨datagram,_⟩,htarget⟩ := ite_none_right_eq_some.1 hsends
      have hadmits := hc.sending datagram message sending
      simpa [PortRanges.admits,htarget] using hadmits
    · cases hsends
  · cases h

lemma server_guarded {event} (hg : g.Guarded) (keeps : g.keepsPorts (.server event,calls))
    (h : (g.server.step (event,calls)).map
      (fun s => { g with server := s, contacts := g.contacts ++ (g.sendsTo event).toList }) = some g') :
    g'.Guarded := by
  obtain ⟨s,hstep,rfl⟩ := map_eq_some_iff.1 h
  have hsockets := sockets_guarded hg (by
    rintro index fromStream message c rfl found
    simpa [keepsPorts,found] using keeps) hstep
  refine ⟨unreached_append hg.unreached fun port hport => ?_,hsockets⟩
  exact sendsTo_unrestricted hg (steps_of_step hstep).1 (mem_toList.1 hport)

lemma link_guarded {created : Int32} {id message palOpen}
    {tried} (hg : g.Guarded) (h : g.linkStep created id message palOpen tried calls = some g') : g'.Guarded := by
  unfold linkStep at h
  dsimp only at h
  split at h
  · cases h
  · next hcheck =>
    obtain ⟨htried,h⟩ := ite_none_right_eq_some.1 h
    obtain ⟨s,hstep,rfl⟩ := map_eq_some_iff.1 h
    have hsockets := sockets_guarded hg (by rintro index fromStream message c ⟨⟩) hstep
    refine ⟨unreached_append hg.unreached fun port hport => ?_,hsockets⟩
    split at hport
    · next ok =>
      obtain ⟨address,hmem,htarget⟩ := mem_filterMap.1 hport
      exact linkCheck_port (ok.1 ▸ hcheck) (all_eq_true.1 htried address hmem) htarget
    · cases hport

lemma step_guarded {label : GateEvent × Calls} (hg : g.Guarded) (keeps : g.keepsPorts label)
    (h : g.step label = some g') : g'.Guarded := by
  obtain ⟨event,calls⟩ := label
  unfold step at h
  dsimp only at h
  split at h
  · exact link_guarded hg h
  · cases h
    exact hg
  · cases h
  · exact server_guarded hg keeps h
  · next port =>
    obtain ⟨⟨defined,hany⟩,⟨⟩⟩ := ite_none_right_eq_some.1 h
    refine ⟨unreached_append hg.unreached fun port' hport => ?_,hg.sockets⟩
    rw [mem_singleton.1 hport]
    obtain ⟨c,found,hstream⟩ := (any_eq_true _ _).1 hany
    obtain ⟨connection,hconnection,hport⟩ := (any_eq_true _ _).1 hstream
    have hallows := (guarded_socket hg (by simpa using defined) found).stream connection hconnection
    have hall := all_eq_true.1 hallows port (contains_iff_mem.1 hport)
    simpa using hall

end Gate

/-- No restricted port is contacted in a run whose messages bring none. -/
theorem unreached_of_keepsPorts {id : IoRef} {restricted : PortRanges} {labels : List (GateEvent × Calls)}
    (keeps : Along Gate.step (fun g label => g.keepsPorts label) (.start id restricted) labels) :
    Always Gate.step Gate.Unreached (.start id restricted) labels := by
  have start : (Gate.start id restricted).Guarded :=
    ⟨fun _ hmem => absurd hmem not_mem_nil,fun _ _ hmem => absurd hmem not_mem_nil⟩
  exact always_of_along Gate.step_guarded Gate.Guarded.unreached start keeps

def somePorts : PortRanges :=
  ⟨[(20,30),(443,443)],by decide⟩
def Gate.at (label : Label) : GateEvent × Calls :=
  (.server (.socket 0 label.1),label.2)

def linkTo (sockType : Int32) (kind : Pal.SocketKind) (port : UInt16) (tried : List SocketAddress) :
    GateEvent × Calls :=
  (.link erOk default { Message.request .link with
      content.linkRequest.props.sockType := sockType
      content.linkRequest.props.address.family := prxAddressFamilyProxy
      content.linkRequest.props.address.proxy.port := port } (.byName kind erOk true) tried,.succeed 1)
def inetAddress (port : UInt16) : SocketAddress :=
  { (default : SocketAddress) with family := prxAddressFamilyInet, ip.port := port }
def sendsDatagram (port : UInt16) : List (GateEvent × Calls) :=
  linkTo 2 .datagram 0 [] :: (linkDone ++ [(Event.received false openPolled,Calls.succeed 1),
    (.received false { Message.request .data with
      content.dataMessage.buffer := some [1]
      content.dataMessage.sourceAddress := inetAddress port },.succeed 2),
    (.beginSend,.succeed 3),(.endSend erOk ⟨1,erOk⟩,.succeed 3)]).map Gate.at
def opensStream : List (GateEvent × Calls) :=
  linkTo prxSocketTypeStream .stream 8080 [inetAddress 8080] ::
    (linkDone ++ [(Event.received false { Message.request .open with
      content.openRequest.connectionString := some [72,111,115,116] },Calls.succeed 1)]).map Gate.at ++
    [(.streamConnects 0 443,.succeed 2)]
theorem sendsDatagram_unreached :
    (∃ g, run Gate.step (.start default somePorts) (sendsDatagram 53) = some g ∧ g.contacts = [53]) ∧
      Always Gate.step Gate.Unreached (.start default somePorts) (sendsDatagram 53) := by
  exact ⟨⟨_,rfl,rfl⟩,unreached_of_keepsPorts (by decide)⟩

/-- A datagram is sent to port 22, and a stream is connected to port 443. -/
theorem restricted_ports_reached :
    ∃ g g', Runs Gate.step (.start default somePorts) (sendsDatagram 22) g ∧
      Runs Gate.step (.start default somePorts) opensStream g' ∧ g.contacts = [22] ∧ g'.contacts = [8080,443] ∧
      ¬g.Unreached ∧ ¬g'.Unreached := by
  refine ⟨_,_,runs_of_run rfl,runs_of_run rfl,rfl,rfl,?_,?_⟩
  · exact fun unreached => unreached 22 mem_cons_self rfl
  · exact fun unreached => unreached 443 (mem_cons_of_mem _ mem_cons_self) rfl

end EdgeProxy.Server
