import EdgeProxy.Codec.Proto
import Mathlib.Data.List.TakeWhile

/-! # Messages as values

What a message means, without unions, pointers and type tags. The abstraction functions are undefined where the C
records hold no value that can be sent. `read` gives the memory behind a pointer.
-/
namespace EdgeProxy.Codec

def Text := { s : Bytes // 0 ∉ s }
def FixedText (n : ℕ) := { s : Bytes // 0 ∉ s ∧ s.length < n }
lemma zero_notMem_takeWhile (mem : Bytes) : 0 ∉ mem.takeWhile (· ≠ 0) := by
  intro h
  simpa using List.mem_takeWhile_imp h

lemma length_takeWhile_lt {mem : Bytes} (h : 0 ∈ mem) : (mem.takeWhile (· ≠ 0)).length < mem.length := by
  have hpre : mem.takeWhile (· ≠ 0) <+: mem := List.takeWhile_prefix _
  refine Nat.lt_of_le_of_ne hpre.length_le fun he => zero_notMem_takeWhile mem ?_
  rwa [hpre.eq_of_length he]
lemma takeWhile_terminated {t} (h : 0 ∉ t) (rest : Bytes) : (t ++ 0 :: rest).takeWhile (· ≠ 0) = t := by
  have hall : ∀ b ∈ t, decide (b ≠ 0) := fun b hb => by simpa using ne_of_mem_of_not_mem hb h
  rw [List.takeWhile_append_of_pos hall]
  simp

lemma cstr_terminated {t} (h : 0 ∉ t) : cstr (t ++ [0]) = some t := by
  rw [cstr,if_pos (by simp),takeWhile_terminated h]
def text (mem : Bytes) : Option Text :=
  if 0 ∈ mem then some ⟨mem.takeWhile (· ≠ 0),zero_notMem_takeWhile mem⟩ else none
lemma text_terminated (t : Text) : text (t.1 ++ [0]) = some t := by
  rw [text,if_pos (by simp)]
  exact congrArg some (Subtype.ext (takeWhile_terminated t.2 []))

def fixedText {n : ℕ} (v : Vector UInt8 n) : Option (FixedText n) :=
  if h : 0 ∈ v.toList then
    some ⟨v.toList.takeWhile (· ≠ 0),zero_notMem_takeWhile _,by simpa using length_takeWhile_lt h⟩
  else none

inductive Address where
  | unspec
  | inet (port : UInt16) (addr : Vector UInt8 4)
  | inet6 (port : UInt16) (flow : UInt32) (addr : Vector UInt8 16) (scopeId : UInt32)
  | proxy (port flags : UInt16) (itfIndex : Int32) (host : FixedText maxHostLength)
  | unix (path : FixedText maxUnixPathLength)

def SocketAddress.denote (sa : SocketAddress) : Option Address :=
  if sa.family = prxAddressFamilyUnspec then some .unspec
  else if sa.family = prxAddressFamilyInet then some (.inet sa.ip.port sa.ip.in4)
  else if sa.family = prxAddressFamilyInet6 then
    some (.inet6 sa.ip.port sa.ip.flow sa.ip.in6 sa.ip.scopeId)
  else if sa.family = prxAddressFamilyProxy then
    (fixedText sa.proxy.host).map (.proxy sa.proxy.port sa.proxy.flags sa.proxy.itfIndex)
  else if sa.family = prxAddressFamilyUnix then (fixedText sa.ux.path).map .unix
  else none

section

variable {sa : SocketAddress}

lemma SocketAddress.denote_proxy (h : sa.family = prxAddressFamilyProxy) :
    sa.denote = (fixedText sa.proxy.host).map (.proxy sa.proxy.port sa.proxy.flags sa.proxy.itfIndex) := by
  unfold denote
  rw [h,if_neg (by decide),if_neg (by decide),if_neg (by decide),if_pos rfl]
lemma SocketAddress.denote_unix (h : sa.family = prxAddressFamilyUnix) :
    sa.denote = (fixedText sa.ux.path).map .unix := by
  unfold denote
  rw [h,if_neg (by decide),if_neg (by decide),if_neg (by decide),if_neg (by decide),if_pos rfl]

end

inductive Multicast where
  | inet (itfIndex : Int32) (addr : Vector UInt8 4)
  | inet6 (itfIndex : Int32) (addr : Vector UInt8 16) (scopeId : UInt32)

def MulticastOption.denote (mo : MulticastOption) : Option Multicast :=
  if mo.family = prxAddressFamilyInet then some (.inet mo.itfIndex mo.in4)
  else if mo.family = prxAddressFamilyInet6 then some (.inet6 mo.itfIndex mo.in6 mo.scopeId)
  else none

structure Interface where
  address : Address
  prefixLen : UInt8
  flags : UInt8
  name : FixedText maxInterfaceLength
  index : Int32
  broadcastAddr : Address

def IfAddrInfo.denote (ifa : IfAddrInfo) : Option Interface := do
  let address ← ifa.address.denote
  let name ← fixedText ifa.name
  let broadcastAddr ← ifa.broadcastAddr.denote
  pure ⟨address,ifa.prefixLen,ifa.flags,name,ifa.index,broadcastAddr⟩

def IsPlainOption (type : Int32) : Prop :=
  isSocketOption type ∧ ¬isMulticast type
instance (type : Int32) : Decidable (IsPlainOption type) :=
  inferInstanceAs (Decidable (_ ∧ _))

inductive Value where
  | option (type : { t : Int32 // IsPlainOption t }) (value : UInt64)
  | multicast (type : { t : Int32 // isMulticast t }) (value : Multicast)
  | record (type : { t : Int32 // isRecordType t }) (value : Bytes)
  | fileInfo (value : FileInfo)
  | addrInfo (address : Address) (name : Text)
  | ifAddrInfo (value : Interface)

def Value.type : Value → Int32
  | option type _ => type.1
  | multicast type _ => type.1
  | record type _ => type.1
  | fileInfo _ => prxPropertyTypeFileInfo
  | addrInfo .. => prxPropertyTypeAddrinfo
  | ifAddrInfo _ => prxPropertyTypeIfaddrinfo

variable {π : Type} (read : π → Option Bytes)

def bufferValue : Option π → Option Bytes
  | none => some []
  | some p => read p
def nameValue : Option π → Option Text
  | none => some ⟨[],by simp⟩
  | some p => (read p).bind text

def AddrInfo.denote (ai : AddrInfo π) : Option (Address × Text) := do
  let address ← ai.address.denote
  let name ← nameValue read ai.name
  pure (address,name)
def Property.denote (prop : Property π) : Option Value :=
  if h : isMulticast prop.type then prop.mcast.denote.map (.multicast ⟨_,h⟩)
  else if prop.type = prxPropertyTypeAddrinfo then
    (prop.addrInfo.denote read).map fun p => .addrInfo p.1 p.2
  else if prop.type = prxPropertyTypeIfaddrinfo then prop.itfInfo.denote.map .ifAddrInfo
  else if prop.type = prxPropertyTypeFileInfo then some (.fileInfo prop.fileInfo)
  else if h : isRecordType prop.type then (bufferValue read prop.bin).map (.record ⟨_,h⟩)
  else if h : isSocketOption prop.type then some (.option ⟨_,h,‹_›⟩ prop.value)
  else none

section

variable {read} {prop : Property π}

lemma Property.denote_multicast (h : isMulticast prop.type) :
    prop.denote read = prop.mcast.denote.map (.multicast ⟨_,h⟩) := by
  rw [denote,dif_pos h]
lemma Property.denote_addrInfo (h : prop.type = prxPropertyTypeAddrinfo) :
    prop.denote read = (prop.addrInfo.denote read).map fun p => .addrInfo p.1 p.2 := by
  rw [denote,dif_neg (by rw [h]; decide),if_pos h]
lemma Property.denote_ifAddrInfo (h : prop.type = prxPropertyTypeIfaddrinfo) :
    prop.denote read = prop.itfInfo.denote.map .ifAddrInfo := by
  rw [denote,dif_neg (by rw [h]; decide),if_neg (by rw [h]; decide),if_pos h]
lemma Property.denote_fileInfo (h : prop.type = prxPropertyTypeFileInfo) :
    prop.denote read = some (.fileInfo prop.fileInfo) := by
  rw [denote,dif_neg (by rw [h]; decide),if_neg (by rw [h]; decide),if_neg (by rw [h]; decide),if_pos h]
private lemma ne_of_not_isObjectType {type t} (h : ¬isObjectType type) (ht : prxPropertyTypeFileInfo ≤ t) : type ≠ t :=
  fun he => h (.inr (he ▸ ht))

lemma Property.denote_record (h : isRecordType prop.type) :
    prop.denote read = (bufferValue read prop.bin).map (.record ⟨_,h⟩) := by
  have hobj := h.not_isObjectType
  rw [denote,dif_neg fun hm => hobj (.inl hm),if_neg (ne_of_not_isObjectType hobj (by decide)),
    if_neg (ne_of_not_isObjectType hobj (by decide)),if_neg (ne_of_not_isObjectType hobj (by decide)),dif_pos h]
lemma IsPlainOption.not_isObjectType {type} (h : IsPlainOption type) : ¬isObjectType type :=
  fun ho => ho.elim h.2 h.1.lt_fileInfo
lemma Property.denote_option (h : IsPlainOption prop.type) : prop.denote read = some (.option ⟨_,h⟩ prop.value) := by
  have hobj := h.not_isObjectType
  rw [denote,dif_neg h.2,if_neg (ne_of_not_isObjectType hobj (by decide)),
    if_neg (ne_of_not_isObjectType hobj (by decide)),if_neg (ne_of_not_isObjectType hobj (by decide)),
    dif_neg h.1.not_isRecordType,dif_pos h.1]

end

abbrev Options := Fin prxSoMax → Option Value

/-- Undefined when some slot is set to an option without a value. -/
def denoteOptions (options : Vector (Property π) prxSoMax) : Option Options :=
  if ∀ i : Fin prxSoMax, isSocketOption options[i].type → (options[i].denote read).isSome then
    some fun i => if isSocketOption options[i].type then options[i].denote read else none
  else none

structure Props where
  family : Int32
  sockType : Int32
  protoType : Int32
  flags : UInt32
  timeout : UInt64
  address : Address
  options : Options

def SocketProperties.denote (sp : SocketProperties π) : Option Props := do
  let address ← sp.address.denote
  let options ← denoteOptions read sp.options
  pure ⟨sp.family,sp.sockType,sp.protoType,sp.flags,sp.timeout,address,options⟩

inductive Body where
  | data (isResponse : Bool) (sequenceNumber : UInt64) (source : Address) (buffer controlBuffer : Bytes)
  | closeRequest
  | closeResponse (timeOpen bytesReceived bytesSent : UInt64) (errorCode : Int32)
  | pingRequest (address : Address)
  | pingResponse (address : Address) (physicalAddress : Vector UInt8 8) (timeMs : UInt32)
  | pollRequest (sequenceNumber timeout : UInt64)
  | pollResponse
  | linkRequest (version : UInt8) (props : Props)
  | linkResponse (linkId : IoRef) (localAddress peerAddress : Address)
  | openRequest (streamId : IoRef) (type : Int32) (connectionString : Text) (polled : Bool) (maxRecv : UInt32)
  | openResponse
  | setoptRequest (value : Value)
  | setoptResponse
  | getoptRequest (soOpt : Int32)
  | getoptResponse (value : Value)

namespace Body

def isResponse : Body → Bool
  | data r .. => r
  | closeResponse .. | pingResponse .. | pollResponse | linkResponse .. | openResponse | setoptResponse
  | getoptResponse _ => true
  | closeRequest | pingRequest _ | pollRequest .. | linkRequest .. | openRequest .. | setoptRequest _
  | getoptRequest _ => false
def type : Body → MessageType
  | data .. => .data
  | closeRequest | closeResponse .. => .close
  | pingRequest _ | pingResponse .. => .ping
  | pollRequest .. | pollResponse => .poll
  | linkRequest .. | linkResponse .. => .link
  | openRequest .. | openResponse => .open
  | setoptRequest _ | setoptResponse => .setopt
  | getoptRequest _ | getoptResponse _ => .getopt

end Body

structure Message where
  sourceId : IoRef
  proxyId : IoRef
  targetId : IoRef
  errorCode : Int32
  body : Body

variable {π : Type} (read : π → Option Bytes)

def DataMessage.denote (isResponse : Bool) (d : DataMessage π) : Option Body := do
  let source ← d.sourceAddress.denote
  let buffer ← bufferValue read d.buffer
  let controlBuffer ← bufferValue read d.controlBuffer
  pure (.data isResponse d.sequenceNumber source buffer controlBuffer)

def PingResponse.denote (r : PingResponse) : Option Body :=
  r.address.denote.map fun address => .pingResponse address r.physicalAddress r.timeMs
def LinkRequest.denote (r : LinkRequest π) : Option Body :=
  (r.props.denote read).map (.linkRequest r.version)

def LinkResponse.denote (r : LinkResponse) : Option Body := do
  let localAddress ← r.localAddress.denote
  let peerAddress ← r.peerAddress.denote
  pure (.linkResponse r.linkId localAddress peerAddress)
def OpenRequest.denote (r : OpenRequest π) : Option Body := do
  let p ← r.connectionString
  let s ← read p
  let connectionString ← text s
  pure (.openRequest r.streamId r.type connectionString r.polled r.maxRecv)
def CloseResponse.denote (r : CloseResponse) : Body :=
  .closeResponse r.timeOpen r.bytesReceived r.bytesSent r.errorCode

def IoMessage.denoteBody (msg : IoMessage π) : Option Body :=
  let c := msg.content
  match messageType msg.type, msg.isResponse with
  | some .data, isResponse => c.dataMessage.denote read isResponse
  | some .close, true => some c.closeResponse.denote
  | some .close, false => some .closeRequest
  | some .ping, true => c.pingResponse.denote
  | some .ping, false => c.pingRequest.address.denote.map .pingRequest
  | some .poll, true => some .pollResponse
  | some .poll, false => some (.pollRequest c.pollMessage.sequenceNumber c.pollMessage.timeout)
  | some .link, true => c.linkResponse.denote
  | some .link, false => c.linkRequest.denote read
  | some .open, true => some .openResponse
  | some .open, false => c.openRequest.denote read
  | some .setopt, true => some .setoptResponse
  | some .setopt, false => (c.setoptRequest.soVal.denote read).map .setoptRequest
  | some .getopt, true => (c.getoptResponse.soVal.denote read).map .getoptResponse
  | some .getopt, false => some (.getoptRequest c.getoptRequest.soOpt)
  | none, _ => none

def Tagged (isResponse : Bool) (type : MessageType) (x : Option Body) : Prop :=
  ∀ b ∈ x, b.isResponse = isResponse ∧ b.type = type

variable {isResponse : Bool} {type : MessageType}

lemma tagged_map {α : Type} {x : Option α} {f}
    (h : ∀ a, (f a).isResponse = isResponse ∧ (f a).type = type) : Tagged isResponse type (x.map f) := by
  intro b hb
  obtain ⟨a,-,rfl⟩ := Option.map_eq_some_iff.1 hb
  exact h a
lemma tagged_bind {α : Type} {x : Option α} {f}
    (h : ∀ a, Tagged isResponse type (f a)) : Tagged isResponse type (x.bind f) := by
  intro b hb
  obtain ⟨a,-,hb⟩ := Option.bind_eq_some_iff.1 hb
  exact h a b hb
lemma tagged_some {b} (h : b.isResponse = isResponse ∧ b.type = type) : Tagged isResponse type (some b) := by
  rintro _ ⟨⟩
  exact h

lemma IoMessage.tagged_denoteBody {msg : IoMessage π} {b} (h : msg.denoteBody read = some b) :
    b.isResponse = msg.isResponse ∧ b.type.code = msg.type := by
  cases ht : messageType msg.type with
  | none => simp [denoteBody,ht] at h
  | some t =>
    rw [← code_of_messageType ht]
    suffices ht : Tagged msg.isResponse t (msg.denoteBody read) from
      ⟨(ht b h).1,congrArg MessageType.code (ht b h).2⟩
    unfold denoteBody
    cases msg.isResponse <;> cases t <;> rw [ht]
    case false.data | true.data =>
      exact tagged_bind fun _ => tagged_bind fun _ => tagged_bind fun _ => tagged_some ⟨rfl,rfl⟩
    case false.open =>
      exact tagged_bind fun _ => tagged_bind fun _ => tagged_bind fun _ => tagged_some ⟨rfl,rfl⟩
    case true.link => exact tagged_bind fun _ => tagged_bind fun _ => tagged_some ⟨rfl,rfl⟩
    case true.ping | false.ping | false.link | false.setopt | true.getopt =>
      exact tagged_map fun _ => ⟨rfl,rfl⟩
    all_goals exact tagged_some ⟨rfl,rfl⟩

def IoMessage.denote (msg : IoMessage π) : Option Message :=
  (msg.denoteBody read).map fun body => ⟨msg.sourceId,msg.proxyId,msg.targetId,msg.errorCode,body⟩

end EdgeProxy.Codec
