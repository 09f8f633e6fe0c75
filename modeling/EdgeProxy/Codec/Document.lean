import EdgeProxy.Codec.Abstract

/-! # Messages as documents

The document that stands for a message, for any way of writing values. A codec may lose a 64-bit number, a string or
binary content, and then nothing arrives.
-/
namespace EdgeProxy.Codec

structure Format (β : Type) where
  null : β
  bool : Bool → β
  int : Int64 → β
  uint : UInt64 → β
  str : Bytes → β
  bin : Bytes → β
  ref : IoRef → β
  obj : List (String × β) → β
  arr : List β → β

variable {β : Type}

namespace Format

variable (F : Format β)

def int32 (v : Int32) : β := F.int v.toInt64
def uint32 (v : UInt32) : β := F.uint v.toUInt64
def uint16 (v : UInt16) : β := F.uint v.toUInt64
def uint8 (v : UInt8) : β := F.uint v.toUInt64

end Format

def Named (members : List (String × β)) : Prop :=
  members.length + 1 < 2 ^ 32 ∧ (members.map Prod.fst).Nodup

variable {β : Type} (F : Format β)

def IoRef.members (r : IoRef) : List (String × β) :=
  [("id",F.ref r)]
def Address.members : Address → List (String × β)
  | unspec => [("family",F.int32 prxAddressFamilyUnspec)]
  | inet port addr => [("family",F.int32 prxAddressFamilyInet),("port",F.uint16 port),("addr",F.bin addr.toList)]
  | inet6 port flow addr scopeId =>
    [("family",F.int32 prxAddressFamilyInet6),("port",F.uint16 port),("flow",F.uint32 flow),
      ("addr",F.bin addr.toList),("scope_id",F.uint32 scopeId)]
  | proxy port flags itfIndex host =>
    [("family",F.int32 prxAddressFamilyProxy),("port",F.uint16 port),("flags",F.uint16 flags),
      ("itf_index",F.int32 itfIndex),("host",F.str host.1)]
  | unix path => [("family",F.int32 prxAddressFamilyUnix),("path",F.str path.1)]
def Multicast.members : Multicast → List (String × β)
  | inet itfIndex addr =>
    [("family",F.int32 prxAddressFamilyInet),("itf_index",F.int32 itfIndex),("addr",F.bin addr.toList)]
  | inet6 itfIndex addr _ =>
    [("family",F.int32 prxAddressFamilyInet6),("itf_index",F.int32 itfIndex),("addr",F.bin addr.toList)]

def Interface.membersWith (i : Interface) (address broadcastAddr : β) : List (String × β) :=
  [("address",address),("prefix",F.uint8 i.prefixLen),("flags",F.uint8 i.flags),("name",F.str i.name.1),
    ("index",F.int32 i.index),("broadcast_addr",broadcastAddr)]
def FileInfo.members (fi : FileInfo) : List (String × β) :=
  [("inode_number",F.uint fi.inodeNumber),("device_id",F.uint fi.deviceId),("type",F.int32 fi.type),
    ("total_size",F.uint fi.totalSize),("last_atime",F.uint fi.lastAtime),("last_mtime",F.uint fi.lastMtime)]
def addrInfoMembers (address : β) (name : Text) : List (String × β) :=
  [("address",address),("name",F.str name.1)]
def propertyMembers (type : Int32) (property : β) : List (String × β) :=
  [("type",F.int32 type),("property",property)]

def Value.members : Value → List (String × β)
  | option type value => propertyMembers F type.1 (F.uint value)
  | multicast type value => propertyMembers F type.1 (F.obj (value.members F))
  | record type value => propertyMembers F type.1 (F.bin value)
  | fileInfo value => propertyMembers F prxPropertyTypeFileInfo (F.obj (value.members F))
  | addrInfo address name =>
    propertyMembers F prxPropertyTypeAddrinfo (F.obj (addrInfoMembers F (F.obj (address.members F)) name))
  | ifAddrInfo value =>
    propertyMembers F prxPropertyTypeIfaddrinfo (F.obj (value.membersWith F (F.obj (value.address.members F))
      (F.obj (value.broadcastAddr.members F))))
def Options.items (options : Options) (slots : List (Fin prxSoMax)) : List β :=
  (slots.filterMap options).map fun v => F.obj (v.members F)
def Props.membersWith (p : Props) (address : β) (slots : List (Fin prxSoMax)) : List (String × β) :=
  [("family",F.int32 p.family),("sock_type",F.int32 p.sockType),("proto_type",F.int32 p.protoType),
    ("flags",F.uint32 p.flags),("timeout",F.uint p.timeout),("address",address),
    ("options",F.arr (p.options.items F slots))]

def Props.members (p : Props) : List (String × β) :=
  p.membersWith F (F.obj (p.address.members F)) (List.finRange prxSoMax)
def dataMembers (sequenceNumber : UInt64) (source : β) (buffer controlBuffer : Bytes) : List (String × β) :=
  [("sequence_number",F.uint sequenceNumber),("source_address",source),("buffer",F.bin (castLength buffer)),
    ("control_buffer",F.bin (castLength controlBuffer))]
def closeResponseMembers (timeOpen bytesReceived bytesSent : UInt64) (errorCode : Int32) : List (String × β) :=
  [("time_open",F.uint timeOpen),("bytes_received",F.uint bytesReceived),("bytes_sent",F.uint bytesSent),
    ("error_code",F.int32 errorCode)]
def pingResponseMembers (address : β) (physicalAddress : Vector UInt8 8) (timeMs : UInt32) : List (String × β) :=
  [("address",address),("physical_address",F.bin physicalAddress.toList),("time_ms",F.uint32 timeMs)]

def openRequestMembers (streamId : β) (type : Int32) (connectionString : Text) (polled : Bool) (maxRecv : UInt32) :
    List (String × β) :=
  [("stream_id",streamId),("type",F.int32 type),("connection-string",F.str connectionString.1),
    ("polled",F.bool polled),("max_recv",F.uint32 maxRecv)]

def Body.members : Body → Option (List (String × β))
  | data _ sequenceNumber source buffer controlBuffer =>
    some (dataMembers F sequenceNumber (F.obj (source.members F)) buffer controlBuffer)
  | closeResponse timeOpen bytesReceived bytesSent errorCode =>
    some (closeResponseMembers F timeOpen bytesReceived bytesSent errorCode)
  | pingRequest address => some [("address",F.obj (address.members F))]
  | pingResponse address physicalAddress timeMs =>
    some (pingResponseMembers F (F.obj (address.members F)) physicalAddress timeMs)
  | pollRequest sequenceNumber timeout =>
    some [("sequence_number",F.uint sequenceNumber),("timeout",F.uint timeout)]
  | linkRequest version props => some [("version",F.uint8 version),("props",F.obj (props.members F))]
  | linkResponse linkId localAddress peerAddress =>
    some [("link_id",F.obj (linkId.members F)),("local_address",F.obj (localAddress.members F)),
      ("peer_address",F.obj (peerAddress.members F))]
  | openRequest streamId type connectionString polled maxRecv =>
    some (openRequestMembers F (F.obj (streamId.members F)) type connectionString polled maxRecv)
  | setoptRequest value => some [("so_val",F.obj (value.members F))]
  | getoptRequest soOpt => some [("so_opt",F.int32 soOpt)]
  | getoptResponse value => some [("so_val",F.obj (value.members F))]
  | closeRequest | pollResponse | openResponse | setoptResponse => none

def Body.doc (b : Body) : β :=
  (b.members F).elim F.null F.obj
def messageMembers (verNum : UInt32) (source proxy target : β) (errorCode : Int32) (isResponse : Bool)
    (type : UInt32) (content : β) : List (String × β) :=
  [("version",F.uint32 verNum),("source_id",source),("proxy_id",proxy),("target_id",target),
    ("error_code",F.int32 errorCode),("is_response",F.bool isResponse),("type",F.uint32 type),("content",content)]
def Message.members (verNum : UInt32) (msg : Message) : List (String × β) :=
  messageMembers F verNum (F.obj (msg.sourceId.members F)) (F.obj (msg.proxyId.members F))
    (F.obj (msg.targetId.members F)) msg.errorCode msg.body.isResponse msg.body.type.code (msg.body.doc F)

/-! What can stand for a value in place of its own document: null, for an object that the memory decoded into already
holds, and the options in any order. -/

variable {β π : Type} (F : Format β)

def IoRef.SentIn (r old : IoRef) (i : β) : Prop :=
  i = F.obj (r.members F) ∨ i = F.null ∧ old = r
def Address.SentIn (a : Address) (old : SocketAddress) (i : β) : Prop :=
  i = F.obj (a.members F) ∨ i = F.null ∧ old.denote = some a
def Interface.SentIn (v : Interface) (old : IfAddrInfo) (members : List (String × β)) : Prop :=
  ∃ a b, v.address.SentIn F old.address a ∧ v.broadcastAddr.SentIn F old.broadcastAddr b ∧
    members = v.membersWith F a b

def Value.SentIn (v : Value) (old : Property π) (members : List (String × β)) : Prop :=
  match v with
  | addrInfo address name => ∃ a, address.SentIn F old.addrInfo.address a ∧
      members = propertyMembers F prxPropertyTypeAddrinfo (F.obj (addrInfoMembers F a name))
  | ifAddrInfo value => ∃ m, value.SentIn F old.itfInfo m ∧
      members = propertyMembers F prxPropertyTypeIfaddrinfo (F.obj m)
  | v => members = v.members F

def Options.OwnSlots (o : Options) : Prop :=
  ∀ i v, o i = some v → v.type = .ofNat i.1
def Options.Settable (o : Options) : Prop :=
  ∀ i v, o i = some v → isSocketOption v.type

/-- Only options in the slots of their own types can be sent in any order. -/
def Props.SentIn (p : Props) (old : SocketProperties π) (members : List (String × β)) : Prop :=
  ∃ a slots, p.address.SentIn F old.address a ∧ slots.Nodup ∧ (∀ j, (p.options j).isSome → j ∈ slots) ∧
    (p.options.OwnSlots ∨ p.options.Settable ∧ slots = List.finRange prxSoMax) ∧ members = p.membersWith F a slots

def Body.SentIn (b : Body) (old : Content π) (i : β) : Prop :=
  match b with
  | data _ sequenceNumber source buffer controlBuffer => ∃ a, source.SentIn F old.dataMessage.sourceAddress a ∧
      i = F.obj (dataMembers F sequenceNumber a buffer controlBuffer)
  | pingRequest address => ∃ a, address.SentIn F old.pingRequest.address a ∧ i = F.obj [("address",a)]
  | pingResponse address physicalAddress timeMs => ∃ a, address.SentIn F old.pingResponse.address a ∧
      i = F.obj (pingResponseMembers F a physicalAddress timeMs)
  | linkRequest version props => ∃ m, props.SentIn F old.linkRequest.props m ∧
      i = F.obj [("version",F.uint8 version),("props",F.obj m)]
  | linkResponse linkId localAddress peerAddress => ∃ r a a', linkId.SentIn F old.linkResponse.linkId r ∧
      localAddress.SentIn F old.linkResponse.localAddress a ∧ peerAddress.SentIn F old.linkResponse.peerAddress a' ∧
      i = F.obj [("link_id",r),("local_address",a),("peer_address",a')]
  | openRequest streamId type connectionString polled maxRecv => ∃ r, streamId.SentIn F old.openRequest.streamId r ∧
      i = F.obj (openRequestMembers F r type connectionString polled maxRecv)
  | setoptRequest value => ∃ m, value.SentIn F old.setoptRequest.soVal m ∧ i = F.obj [("so_val",F.obj m)]
  | getoptResponse value => ∃ m, value.SentIn F old.getoptResponse.soVal m ∧ i = F.obj [("so_val",F.obj m)]
  | b => i = b.doc F

def Message.SentIn (msg : Message) (verNum : UInt32) (old : IoMessage π) (members : List (String × β)) : Prop :=
  ∃ source proxy target content, msg.sourceId.SentIn F old.sourceId source ∧
    msg.proxyId.SentIn F old.proxyId proxy ∧ msg.targetId.SentIn F old.targetId target ∧
    msg.body.SentIn F old.content content ∧
    members = messageMembers F verNum source proxy target msg.errorCode msg.body.isResponse msg.body.type.code content
lemma Value.sentIn_members (v : Value) (old : Property π) : v.SentIn F old (v.members F) := by
  cases v with
  | addrInfo => exact ⟨_,.inl rfl,rfl⟩
  | ifAddrInfo => exact ⟨_,⟨_,_,.inl rfl,.inl rfl,rfl⟩,rfl⟩
  | _ => rfl

lemma Props.sentIn_members {p : Props} (h : p.options.Settable) (old : SocketProperties π) :
    p.SentIn F old (p.members F) :=
  ⟨_,_,.inl rfl,List.nodup_finRange _,fun i _ => List.mem_finRange i,.inr ⟨h,rfl⟩,rfl⟩
def Body.Settable : Body → Prop
  | linkRequest _ props => props.options.Settable
  | _ => True

lemma Body.sentIn_doc {b : Body} (h : b.Settable) (old : Content π) : b.SentIn F old (b.doc F) := by
  cases b with
  | data | pingRequest | pingResponse | openRequest => exact ⟨_,.inl rfl,rfl⟩
  | linkRequest => exact ⟨_,Props.sentIn_members F h _,rfl⟩
  | linkResponse => exact ⟨_,_,_,.inl rfl,.inl rfl,.inl rfl,rfl⟩
  | setoptRequest value | getoptResponse value => exact ⟨_,value.sentIn_members F _,rfl⟩
  | _ => rfl
lemma Message.sentIn_members {msg : Message} (h : msg.body.Settable) (verNum : UInt32) (old : IoMessage π) :
    msg.SentIn F verNum old (msg.members F verNum) :=
  ⟨_,_,_,_,.inl rfl,.inl rfl,.inl rfl,Body.sentIn_doc F h _,rfl⟩

/-- What arrives of the values that a codec may change; `none` where the decoder cannot read them. -/
structure Channel where
  uint : UInt64 → Option UInt64
  bytes : Bytes → Bytes
  text : Text → Option Text

variable (χ : Channel)

def FileInfo.via (fi : FileInfo) : Option FileInfo := do
  let inodeNumber ← χ.uint fi.inodeNumber
  let deviceId ← χ.uint fi.deviceId
  let totalSize ← χ.uint fi.totalSize
  let lastAtime ← χ.uint fi.lastAtime
  let lastMtime ← χ.uint fi.lastMtime
  some ⟨inodeNumber,deviceId,fi.type,totalSize,lastAtime,lastMtime⟩

/-- The scope of an IPv6 address is set from the interface. -/
def Multicast.received : Multicast → Multicast
  | inet itfIndex addr => .inet itfIndex addr
  | inet6 itfIndex addr _ => .inet6 itfIndex addr itfIndex.toUInt32

def Value.via : Value → Option Value
  | option type value => (χ.uint value).map (.option type)
  | multicast type value => some (.multicast type value.received)
  | record type value => some (.record type (χ.bytes value))
  | fileInfo value => (value.via χ).map .fileInfo
  | addrInfo address name => (χ.text name).map (.addrInfo address)
  | ifAddrInfo value => some (.ifAddrInfo value)

/-- The receiver stores each value in the slot of its type, over what came before. -/
def Options.placed (values : List Value) : Options :=
  fun i => values.reverse.find? fun v => v.type = .ofNat i.1

def Options.via (o : Options) : Option Options :=
  (((List.finRange prxSoMax).filterMap o).mapM (Value.via χ)).map Options.placed
def Props.via (p : Props) : Option Props := do
  let timeout ← χ.uint p.timeout
  let options ← p.options.via χ
  some { p with timeout,options }

def Body.via : Body → Option Body
  | data isResponse sequenceNumber source buffer controlBuffer =>
    (χ.uint sequenceNumber).map fun sequenceNumber =>
      .data isResponse sequenceNumber source (χ.bytes (castLength buffer)) (χ.bytes (castLength controlBuffer))
  | closeResponse timeOpen bytesReceived bytesSent errorCode => do
    let timeOpen ← χ.uint timeOpen
    let bytesReceived ← χ.uint bytesReceived
    let bytesSent ← χ.uint bytesSent
    some (.closeResponse timeOpen bytesReceived bytesSent errorCode)
  | pollRequest sequenceNumber timeout => do
    let sequenceNumber ← χ.uint sequenceNumber
    let timeout ← χ.uint timeout
    some (.pollRequest sequenceNumber timeout)
  | linkRequest version props => (props.via χ).map (.linkRequest version)
  | openRequest streamId type connectionString polled maxRecv =>
    (χ.text connectionString).map fun connectionString =>
      .openRequest streamId type connectionString polled maxRecv
  | setoptRequest value => (value.via χ).map .setoptRequest
  | getoptResponse value => (value.via χ).map .getoptResponse
  | b => some b

/-- When the buffer moves between the allocations for two buffers, the first one is gone. -/
def Body.kept (moved : Bool) : Body → Option Body
  | data isResponse sequenceNumber source buffer controlBuffer =>
    if moved ∧ buffer ≠ [] ∧ controlBuffer ≠ [] then none
    else some (.data isResponse sequenceNumber source buffer controlBuffer)
  | b => some b

end EdgeProxy.Codec
