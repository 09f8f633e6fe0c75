import EdgeProxy.Codec.Document
import EdgeProxy.Codec.Mpack

/-! # The wire format

The tree of MessagePack values that stands for a message. An object is an array whose first element
is a place holder. A string or buffer is cut to the length that its length field can state.
-/
namespace EdgeProxy.Codec

open Lib.MessagePack

def obj (members : List Item) : Item := .arr (.nil :: members)
def bin (d : Bytes) : Item := .bin (truncate32 d)
def str (s : Bytes) : Item := .str (truncate32 s)
def int32 (v : Int32) : Item := .int v.toInt64
def uint32 (v : UInt32) : Item := .uint v.toUInt64
def uint16 (v : UInt16) : Item := .uint v.toUInt64
def uint8 (v : UInt8) : Item := .uint v.toUInt64

def IoRef.wire (r : IoRef) : Item :=
  obj [bin r.u8.toList]
def Address.wire : Address → Item
  | unspec => obj [int32 prxAddressFamilyUnspec]
  | inet port addr => obj [int32 prxAddressFamilyInet,uint16 port,bin addr.toList]
  | inet6 port flow addr scopeId =>
    obj [int32 prxAddressFamilyInet6,uint16 port,uint32 flow,bin addr.toList,uint32 scopeId]
  | proxy port flags itfIndex host =>
    obj [int32 prxAddressFamilyProxy,uint16 port,uint16 flags,int32 itfIndex,str host.1]
  | unix path => obj [int32 prxAddressFamilyUnix,str path.1]

def Multicast.wire : Multicast → Item
  | inet itfIndex addr => obj [int32 prxAddressFamilyInet,int32 itfIndex,bin addr.toList]
  | inet6 itfIndex addr _ => obj [int32 prxAddressFamilyInet6,int32 itfIndex,bin addr.toList]
def Interface.wire (i : Interface) : Item :=
  obj [i.address.wire,uint8 i.prefixLen,uint8 i.flags,str i.name.1,int32 i.index,i.broadcastAddr.wire]
def FileInfo.wire (fi : FileInfo) : Item :=
  obj [.uint fi.inodeNumber,.uint fi.deviceId,int32 fi.type,.uint fi.totalSize,.uint fi.lastAtime,.uint fi.lastMtime]

def Value.wire : Value → Item
  | option type value => obj [int32 type.1,.uint value]
  | multicast type value => obj [int32 type.1,value.wire]
  | record type value => obj [int32 type.1,bin value]
  | fileInfo value => obj [int32 prxPropertyTypeFileInfo,value.wire]
  | addrInfo address name => obj [int32 prxPropertyTypeAddrinfo,obj [address.wire,str name.1]]
  | ifAddrInfo value => obj [int32 prxPropertyTypeIfaddrinfo,value.wire]

def Options.wire (options : Options) (slots : List (Fin prxSoMax)) : List Item :=
  (slots.filterMap options).map Value.wire
lemma Options.wire_cons (o : Options) (j : Fin prxSoMax) (l : List (Fin prxSoMax)) :
    o.wire (j :: l) = (o j).elim (o.wire l) fun v => v.wire :: o.wire l := by
  cases h : o j <;> simp [Options.wire,h]
def Props.wire (p : Props) : Item :=
  obj [int32 p.family,int32 p.sockType,int32 p.protoType,uint32 p.flags,.uint p.timeout,p.address.wire,
    .arr (p.options.wire (List.finRange prxSoMax))]

def Body.wire : Body → Item
  | data _ sequenceNumber source buffer controlBuffer =>
    obj [.uint sequenceNumber,source.wire,bin buffer,bin controlBuffer]
  | closeRequest => .nil
  | closeResponse timeOpen bytesReceived bytesSent errorCode =>
    obj [.uint timeOpen,.uint bytesReceived,.uint bytesSent,int32 errorCode]
  | pingRequest address => obj [address.wire]
  | pingResponse address physicalAddress timeMs =>
    obj [address.wire,bin physicalAddress.toList,uint32 timeMs]
  | pollRequest sequenceNumber timeout => obj [.uint sequenceNumber,.uint timeout]
  | pollResponse => .nil
  | linkRequest version props => obj [uint8 version,props.wire]
  | linkResponse linkId localAddress peerAddress => obj [linkId.wire,localAddress.wire,peerAddress.wire]
  | openRequest streamId type connectionString polled maxRecv =>
    obj [streamId.wire,int32 type,str connectionString.1,.bool polled,uint32 maxRecv]
  | openResponse => .nil
  | setoptRequest value => obj [value.wire]
  | setoptResponse => .nil
  | getoptRequest soOpt => obj [int32 soOpt]
  | getoptResponse value => obj [value.wire]

def Message.wireOf (verNum : UInt32) (msg : Message) : Item :=
  obj [uint32 verNum,msg.sourceId.wire,msg.proxyId.wire,msg.targetId.wire,int32 msg.errorCode,
    .bool msg.body.isResponse,uint32 msg.body.type.code,msg.body.wire]
def Message.wire (msg : Message) : Item :=
  msg.wireOf moduleVerNum

/-! What can stand on the wire for a value in place of its own format: null, for an object that the memory decoded into
already holds, and the options in any order. -/

variable {π : Type}

def IoRef.SentAs (r old : IoRef) (i : Item) : Prop :=
  i = r.wire ∨ i = .nil ∧ old = r
def Address.SentAs (a : Address) (old : SocketAddress) (i : Item) : Prop :=
  i = a.wire ∨ i = .nil ∧ old.denote = some a
def Interface.SentAs (v : Interface) (old : IfAddrInfo) (i : Item) : Prop :=
  ∃ a b, v.address.SentAs old.address a ∧ v.broadcastAddr.SentAs old.broadcastAddr b ∧
    i = obj [a,uint8 v.prefixLen,uint8 v.flags,str v.name.1,int32 v.index,b]

def Value.SentAs (v : Value) (old : Property π) (i : Item) : Prop :=
  match v with
  | addrInfo address name =>
    ∃ a, address.SentAs old.addrInfo.address a ∧ i = obj [int32 prxPropertyTypeAddrinfo,obj [a,str name.1]]
  | ifAddrInfo value => ∃ j, value.SentAs old.itfInfo j ∧ i = obj [int32 prxPropertyTypeIfaddrinfo,j]
  | v => i = v.wire
def Props.SentAs (p : Props) (old : SocketProperties π) (i : Item) : Prop :=
  ∃ a slots, p.address.SentAs old.address a ∧ slots.Nodup ∧ (∀ j, (p.options j).isSome → j ∈ slots) ∧
    i = obj [int32 p.family,int32 p.sockType,int32 p.protoType,uint32 p.flags,.uint p.timeout,a,
      .arr (p.options.wire slots)]

def Body.SentAs (b : Body) (old : Content π) (i : Item) : Prop :=
  match b with
  | data _ sequenceNumber source buffer controlBuffer => ∃ a, source.SentAs old.dataMessage.sourceAddress a ∧
      i = obj [.uint sequenceNumber,a,bin buffer,bin controlBuffer]
  | pingRequest address => ∃ a, address.SentAs old.pingRequest.address a ∧ i = obj [a]
  | pingResponse address physicalAddress timeMs => ∃ a, address.SentAs old.pingResponse.address a ∧
      i = obj [a,bin physicalAddress.toList,uint32 timeMs]
  | linkRequest version props => ∃ j, props.SentAs old.linkRequest.props j ∧ i = obj [uint8 version,j]
  | linkResponse linkId localAddress peerAddress => ∃ r a a', linkId.SentAs old.linkResponse.linkId r ∧
      localAddress.SentAs old.linkResponse.localAddress a ∧ peerAddress.SentAs old.linkResponse.peerAddress a' ∧
      i = obj [r,a,a']
  | openRequest streamId type connectionString polled maxRecv => ∃ r, streamId.SentAs old.openRequest.streamId r ∧
      i = obj [r,int32 type,str connectionString.1,.bool polled,uint32 maxRecv]
  | setoptRequest value => ∃ j, value.SentAs old.setoptRequest.soVal j ∧ i = obj [j]
  | getoptResponse value => ∃ j, value.SentAs old.getoptResponse.soVal j ∧ i = obj [j]
  | b => i = b.wire

def Message.SentAs (msg : Message) (verNum : UInt32) (old : IoMessage π) (i : Item) : Prop :=
  ∃ source proxy target content, msg.sourceId.SentAs old.sourceId source ∧ msg.proxyId.SentAs old.proxyId proxy ∧
    msg.targetId.SentAs old.targetId target ∧ msg.body.SentAs old.content content ∧
    i = obj [uint32 verNum,source,proxy,target,int32 msg.errorCode,.bool msg.body.isResponse,
      uint32 msg.body.type.code,content]
lemma Interface.sentAs_wire (v : Interface) (old : IfAddrInfo) : v.SentAs old v.wire :=
  ⟨_,_,.inl rfl,.inl rfl,rfl⟩
lemma Value.sentAs_wire (v : Value) (old : Property π) : v.SentAs old v.wire := by
  cases v with
  | addrInfo => exact ⟨_,.inl rfl,rfl⟩
  | ifAddrInfo value => exact ⟨_,value.sentAs_wire _,rfl⟩
  | _ => rfl
lemma Props.sentAs_wire (p : Props) (old : SocketProperties π) : p.SentAs old p.wire :=
  ⟨_,_,.inl rfl,List.nodup_finRange _,fun i _ => List.mem_finRange i,rfl⟩
lemma Body.sentAs_wire (b : Body) (old : Content π) : b.SentAs old b.wire := by
  cases b with
  | data | pingRequest | pingResponse | openRequest => exact ⟨_,.inl rfl,rfl⟩
  | linkResponse => exact ⟨_,_,_,.inl rfl,.inl rfl,.inl rfl,rfl⟩
  | linkRequest _ value | setoptRequest value | getoptResponse value => exact ⟨_,value.sentAs_wire _,rfl⟩
  | _ => rfl

lemma Message.sentAs_wire (msg : Message) (verNum : UInt32) (old : IoMessage π) :
    msg.SentAs verNum old (msg.wireOf verNum) :=
  ⟨_,_,_,_,.inl rfl,.inl rfl,.inl rfl,msg.body.sentAs_wire _,rfl⟩
def Text.cut (t : Text) : Text :=
  ⟨castLength t.1,fun h => t.2 (List.mem_of_mem_take h)⟩
def Text.Wraps (t : Text) : Prop :=
  (castLength t.1).length + 1 = 2 ^ 32

def Value.received : Value → Value
  | multicast type value => .multicast type value.received
  | record type value => .record type (castLength value)
  | addrInfo address name => .addrInfo address name.cut
  | v => v

def Value.Wraps : Value → Prop
  | addrInfo _ name => name.Wraps
  | _ => False
def Props.received (p : Props) : Props :=
  { p with options := fun i => (p.options i).map Value.received }

/-- The body as it arrives. When the buffer moves between the allocations for two buffers, the first one is gone. -/
def Body.received (moved : Bool) : Body → Option Body
  | data isResponse sequenceNumber source buffer controlBuffer =>
    if moved ∧ castLength buffer ≠ [] ∧ castLength controlBuffer ≠ [] then none
    else some (.data isResponse sequenceNumber source (castLength buffer) (castLength controlBuffer))
  | linkRequest version props => some (.linkRequest version props.received)
  | openRequest streamId type connectionString polled maxRecv =>
    some (.openRequest streamId type connectionString.cut polled maxRecv)
  | setoptRequest value => some (.setoptRequest value.received)
  | getoptResponse value => some (.getoptResponse value.received)
  | b => some b

def Body.Wraps : Body → Prop
  | openRequest _ _ connectionString _ _ => connectionString.Wraps
  | setoptRequest value => value.Wraps
  | getoptResponse value => value.Wraps
  | _ => False
def Message.received (moved : Bool) (msg : Message) : Option Message :=
  (msg.body.received moved).map fun body => { msg with body }

end EdgeProxy.Codec
