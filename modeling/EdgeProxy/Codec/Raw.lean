import EdgeProxy.Codec.Abstract

/-! # What stands on the wire

The decoders leave what they do not find on the wire as it was. Here reading is separated from filling: a reader
returns what stands on the wire, and `apply` puts it over the previous content of the memory.
-/
namespace EdgeProxy.Codec

open Base

variable {m : Type → Type} {π : Type}

def Terminated (n : ℕ) := { d : Bytes // 0 ∈ d ∧ d.length ≤ n }

inductive RawAddress where
  | unspec
  | inet (port : UInt16) (addr : Bytes)
  | inet6 (port : UInt16) (flow : UInt32) (addr : Bytes) (scopeId : UInt32)
  | proxy (port flags : UInt16) (itfIndex : Int32) (host : Terminated maxHostLength)
  | unix (path : Terminated maxUnixPathLength)

inductive RawMulticast where
  | inet (itfIndex : Int32) (addr : Bytes)
  | inet6 (itfIndex : Int32) (addr : Bytes)

inductive RawProperty (π : Type) where
  | multicast (type : { t : Int32 // isMulticast t }) (value : RawMulticast)
  | addrInfo (address : Option RawAddress) (name : π)
  | ifAddrInfo (address : Option RawAddress) (prefixLen flags : UInt8) (name : Terminated maxInterfaceLength)
      (index : Int32) (broadcastAddr : Option RawAddress)
  | fileInfo (value : FileInfo)
  | record (type : { t : Int32 // isRecordType t }) (bin : Option π)
  | option (type : { t : Int32 // IsPlainOption t }) (value : UInt64)

structure RawProps (π : Type) where
  family : Int32
  sockType : Int32
  protoType : Int32
  flags : UInt32
  timeout : UInt64
  address : Option RawAddress
  options : List (RawProperty π)

structure RawDataMessage (π : Type) where
  sequenceNumber : UInt64
  source : Option RawAddress
  buffer : Option π
  controlBuffer : Option π

structure RawPingResponse where
  address : Option RawAddress
  physicalAddress : Bytes
  timeMs : UInt32

structure RawLinkRequest (π : Type) where
  version : UInt8
  props : Option (RawProps π)

structure RawLinkResponse where
  linkId : Option Bytes
  localAddress : Option RawAddress
  peerAddress : Option RawAddress

structure RawOpenRequest (π : Type) where
  streamId : Option Bytes
  type : Int32
  connectionString : π
  polled : Bool
  maxRecv : UInt32

inductive RawContent (π : Type) where
  | none
  | data (message : RawDataMessage π)
  | closeResponse (response : CloseResponse)
  | pingRequest (address : Option RawAddress)
  | pingResponse (response : RawPingResponse)
  | poll (message : PollMessage)
  | linkRequest (request : RawLinkRequest π)
  | linkResponse (response : RawLinkResponse)
  | openRequest (request : RawOpenRequest π)
  | setoptRequest (soVal : Option (RawProperty π))
  | getoptRequest (request : GetoptRequest)
  | getoptResponse (soVal : Option (RawProperty π))

structure RawMessage (π : Type) where
  sourceId : Option Bytes
  proxyId : Option Bytes
  targetId : Option Bytes
  errorCode : Int32
  isResponse : Bool
  type : UInt32
  content : RawContent π

def applyMember {α β : Type} (apply : α → β → β) : Option α → β → β
  | none, old => old
  | some raw, old => apply raw old
def applyRef (d : Bytes) (ref : IoRef) : IoRef :=
  { ref with u8 := overlay ref.u8 d }

def RawAddress.apply : RawAddress → SocketAddress → SocketAddress
  | unspec, sa => { sa with family := prxAddressFamilyUnspec }
  | inet port addr, sa =>
    { sa with
      family := prxAddressFamilyInet
      ip := { sa.ip with port,in4 := overlay sa.ip.in4 addr,flow := 0,padding := 0 } }
  | inet6 port flow addr scopeId, sa =>
    { sa with
      family := prxAddressFamilyInet6
      ip := { sa.ip with port,flow,in6 := overlay sa.ip.in6 addr,scopeId,padding := 0 } }
  | proxy port flags itfIndex host, sa =>
    { sa with
      family := prxAddressFamilyProxy
      proxy := { port,flags,itfIndex,host := overlay sa.proxy.host host.1 } }
  | unix path, sa =>
    { sa with
      family := prxAddressFamilyUnix
      ux := { path := overlay sa.ux.path path.1 } }

lemma RawAddress.apply_family (raw : RawAddress) (sa : SocketAddress) (family : Int32) :
    raw.apply { sa with family } = raw.apply sa := by
  cases raw <;> rfl
def RawMulticast.apply : RawMulticast → MulticastOption → MulticastOption
  | inet itfIndex addr, mo => { mo with family := prxAddressFamilyInet,itfIndex,in4 := overlay mo.in4 addr }
  | inet6 itfIndex addr, mo =>
    { mo with
      family := prxAddressFamilyInet6
      itfIndex
      in6 := overlay mo.in6 addr
      scopeId := itfIndex.toUInt32 }

def RawProperty.apply : RawProperty π → Property π → Property π
  | multicast type value, prop => { prop with type := type.1,mcast := value.apply prop.mcast }
  | addrInfo address name, prop =>
    { prop with
      type := prxPropertyTypeAddrinfo
      addrInfo := { address := applyMember RawAddress.apply address prop.addrInfo.address,name,reserved := 0 } }
  | ifAddrInfo address prefixLen flags name index broadcastAddr, prop =>
    { prop with
      type := prxPropertyTypeIfaddrinfo
      itfInfo :=
        { address := applyMember RawAddress.apply address prop.itfInfo.address
          prefixLen
          flags
          name := overlay prop.itfInfo.name name.1
          index
          broadcastAddr := applyMember RawAddress.apply broadcastAddr prop.itfInfo.broadcastAddr
          reserved := 0 } }
  | fileInfo value, prop => { prop with type := prxPropertyTypeFileInfo,fileInfo := value }
  | record type bin, prop => { prop with type := type.1,bin }
  | option type value, prop => { prop with type := type.1,value }

lemma RawProperty.apply_type (raw : RawProperty π) (prop : Property π) (type : Int32) :
    raw.apply { prop with type } = raw.apply prop := by
  cases raw <;> rfl
def applyOptions : List (RawProperty π) → Property π → Vector (Property π) prxSoMax → Vector (Property π) prxSoMax
  | [], _, options => options
  | raw :: raws, option, options => applyOptions raws (raw.apply option) (storeOption options (raw.apply option))

def RawProps.apply (stale : Property π) (raw : RawProps π) (sp : SocketProperties π) : SocketProperties π where
  family := raw.family
  sockType := raw.sockType
  protoType := raw.protoType
  flags := raw.flags
  timeout := raw.timeout
  address := applyMember RawAddress.apply raw.address sp.address
  options := applyOptions raw.options stale (.replicate prxSoMax .zero)
def RawDataMessage.apply (raw : RawDataMessage π) (message : DataMessage π) : DataMessage π where
  sequenceNumber := raw.sequenceNumber
  sourceAddress := applyMember RawAddress.apply raw.source message.sourceAddress
  buffer := raw.buffer
  controlBuffer := raw.controlBuffer
def applyPingRequest (address : Option RawAddress) (request : PingRequest) : PingRequest where
  address := applyMember RawAddress.apply address request.address
def RawPingResponse.apply (raw : RawPingResponse) (response : PingResponse) : PingResponse where
  address := applyMember RawAddress.apply raw.address response.address
  physicalAddress := overlay response.physicalAddress raw.physicalAddress
  timeMs := raw.timeMs
def RawLinkRequest.apply (stale : Property π) (raw : RawLinkRequest π) (request : LinkRequest π) : LinkRequest π where
  version := raw.version
  props := applyMember (RawProps.apply stale) raw.props request.props
def RawLinkResponse.apply (raw : RawLinkResponse) (response : LinkResponse) : LinkResponse where
  linkId := applyMember applyRef raw.linkId response.linkId
  localAddress := applyMember RawAddress.apply raw.localAddress response.localAddress
  peerAddress := applyMember RawAddress.apply raw.peerAddress response.peerAddress
def RawOpenRequest.apply (raw : RawOpenRequest π) (request : OpenRequest π) : OpenRequest π :=
  { request with
    streamId := applyMember applyRef raw.streamId request.streamId
    type := raw.type
    connectionString := raw.connectionString
    polled := raw.polled
    maxRecv := raw.maxRecv }

def applySetoptRequest (soVal : Option (RawProperty π)) (request : SetoptRequest π) : SetoptRequest π where
  soVal := applyMember RawProperty.apply soVal request.soVal
def applyGetoptResponse (soVal : Option (RawProperty π)) (response : GetoptResponse π) : GetoptResponse π where
  soVal := applyMember RawProperty.apply soVal response.soVal

def RawContent.apply (stale : Property π) : RawContent π → Content π → Content π
  | none, old => old
  | data message, old => { old with dataMessage := message.apply old.dataMessage }
  | closeResponse response, old => { old with closeResponse := response }
  | pingRequest address, old => { old with pingRequest := applyPingRequest address old.pingRequest }
  | pingResponse response, old => { old with pingResponse := response.apply old.pingResponse }
  | poll message, old => { old with pollMessage := message }
  | linkRequest request, old => { old with linkRequest := request.apply stale old.linkRequest }
  | linkResponse response, old => { old with linkResponse := response.apply old.linkResponse }
  | openRequest request, old => { old with openRequest := request.apply old.openRequest }
  | setoptRequest soVal, old => { old with setoptRequest := applySetoptRequest soVal old.setoptRequest }
  | getoptRequest request, old => { old with getoptRequest := request }
  | getoptResponse soVal, old => { old with getoptResponse := applyGetoptResponse soVal old.getoptResponse }

def RawMessage.apply (stale : Property π) (raw : RawMessage π) (msg : IoMessage π) : IoMessage π where
  sourceId := applyMember applyRef raw.sourceId msg.sourceId
  proxyId := applyMember applyRef raw.proxyId msg.proxyId
  targetId := applyMember applyRef raw.targetId msg.targetId
  errorCode := raw.errorCode
  isResponse := raw.isResponse
  type := raw.type
  content := raw.content.apply stale msg.content

variable [Monad m] [MonadExceptOf Stop m] (c : Decoder m π)

def collect (n : ℕ) : Allocator m Bytes where
  null := []
  alloc size :=
    if size ≤ n then
      pure fun d => if d.length ≤ n then pure d else throw .undefined
    else
      throw (.err .outOfMemory)
def collectText (n : ℕ) : Allocator m (Option (Terminated n)) where
  null := none
  alloc size :=
    if size ≤ n then
      pure fun d => if h : 0 ∈ d ∧ d.length ≤ n then pure (some ⟨d,h⟩) else throw .undefined
    else
      throw (.err .outOfMemory)
def required {α : Type} (x : m (Option α)) : m α := do
  match ← x with
  | some a => pure a
  | none => throw .undefined

def readBin (n : ℕ) (name : Option String) : m Bytes :=
  c.decBin name (collect n)
def readText (n : ℕ) (name : Option String) : m (Terminated n) :=
  required (c.decString name (collectText n))
def readMember {α : Type} (name : Option String) (read : m α) : m (Option α) :=
  c.decObject name fun isNull => if isNull then pure none else some <$> read

/-- What an id as text puts there. -/
def refBytes (palPton : Bytes → Except PrxError SocketAddress) (str : Bytes) : m Bytes :=
  match cstr str with
  | none => throw .undefined
  | some string =>
    if string.length ≥ 63 then throw (.err .arg)
    else
      let ptr := if string.head? = some 0x7b then (stringTrimBack string 0x7d).drop 1 else string
      match stringToUuid ptr, palPton ptr with
      | .ok uuid, _ => pure uuid
      | .error _, .ok sa => pure sa.ip.in6.toList
      | .error _, .error e => throw (.err e)
def readRef : m Bytes := do
  c.decTypeBegin
  let d ←
    match c.codecId with
    | .json palPton => do
      let str ← c.decodeSTRINGHANDLE "id"
      refBytes palPton str
    | .mpack => readBin c 16 "id"
  c.decTypeEnd
  pure d
def readAddressInet (family : Int32) : m RawAddress := do
  let port ← c.decodeUint16 "port"
  if family = prxAddressFamilyInet then
    let addr ← readBin c 4 "addr"
    c.decTypeEnd
    pure (.inet port addr)
  else
    let flow ← c.decodeUint32 "flow"
    let addr ← readBin c 16 "addr"
    let scopeId ← c.decodeUint32 "scope_id"
    c.decTypeEnd
    pure (.inet6 port flow addr scopeId)
def readAddressProxy : m RawAddress := do
  let port ← c.decodeUint16 "port"
  let flags ← c.decodeUint16 "flags"
  let itfIndex ← c.decodeInt32 "itf_index"
  let host ← readText c maxHostLength "host"
  c.decTypeEnd
  pure (.proxy port flags itfIndex host)
def readAddressUnix : m RawAddress := do
  let path ← readText c maxUnixPathLength "path"
  c.decTypeEnd
  pure (.unix path)

def readAddress : m RawAddress := do
  c.decTypeBegin
  let family ← c.decodeInt32 "family"
  if family = prxAddressFamilyUnspec then
    c.decTypeEnd
    pure .unspec
  else if family = prxAddressFamilyInet ∨ family = prxAddressFamilyInet6 then
    readAddressInet c family
  else if family = prxAddressFamilyProxy then
    readAddressProxy c
  else if family = prxAddressFamilyUnix then
    readAddressUnix c
  else
    throw (.err .invalidFormat)

def readMulticast : m RawMulticast := do
  c.decTypeBegin
  let family ← c.decodeInt32 "family"
  let itfIndex ← c.decodeInt32 "itf_index"
  if family = prxAddressFamilyInet then
    let addr ← readBin c 4 "addr"
    c.encTypeEnd
    pure (.inet itfIndex addr)
  else if family = prxAddressFamilyInet6 then
    let addr ← readBin c 16 "addr"
    c.encTypeEnd
    pure (.inet6 itfIndex addr)
  else
    throw (.err .invalidFormat)

def readAddrinfo : m (RawProperty π) := do
  c.decTypeBegin
  let address ← readMember c "address" (readAddress c)
  let name ← required (c.decodeStringDefault "name")
  c.decTypeEnd
  pure (.addrInfo address name)
def readIfaddrinfo : m (RawProperty π) := do
  c.decTypeBegin
  let address ← readMember c "address" (readAddress c)
  let prefixLen ← c.decodeUint8 "prefix"
  let flags ← c.decodeUint8 "flags"
  let name ← readText c maxInterfaceLength "name"
  let index ← c.decodeInt32 "index"
  let broadcastAddr ← readMember c "broadcast_addr" (readAddress c)
  c.decTypeEnd
  pure (.ifAddrInfo address prefixLen flags name index broadcastAddr)

def readPropertyObject (type : Int32) : m (RawProperty π) := do
  if h : isMulticast type then
    let value ← readMulticast c
    pure (.multicast ⟨type,h⟩ value)
  else if type = prxPropertyTypeAddrinfo then
    readAddrinfo c
  else if type = prxPropertyTypeIfaddrinfo then
    readIfaddrinfo c
  else if type = prxPropertyTypeFileInfo then
    let value ← ioDecodePrxFileInfo c
    pure (.fileInfo value)
  else
    throw (.err .invalidFormat)

def readProperty : m (RawProperty π) := do
  c.decTypeBegin
  let type ← c.decodeInt32 "type"
  let raw ←
    if hobject : isObjectType type then
      c.decObject "property" fun isNull =>
        if isNull then throw (.err .invalidFormat) else readPropertyObject c type
    else if hrecord : isRecordType type then do
      let bin ← c.decodeBinDefault "property"
      pure (.record ⟨type,hrecord⟩ bin)
    else if hoption : isSocketOption type then do
      let value ← c.decUint "property"
      pure (.option ⟨type,hoption,fun h => hobject (.inl h)⟩ value)
    else
      throw (.err .invalidFormat)
  c.decTypeEnd
  pure raw

def readOptions : ℕ → m (List (RawProperty π))
  | 0 => pure []
  | n + 1 => do
    let raw ← c.decObject none fun _ => readProperty c
    let raws ← readOptions n
    pure (raw :: raws)
def readProps : m (RawProps π) := do
  c.decTypeBegin
  let family ← c.decodeInt32 "family"
  let sockType ← c.decodeInt32 "sock_type"
  let protoType ← c.decodeInt32 "proto_type"
  let flags ← c.decodeUint32 "flags"
  let timeout ← c.decUint "timeout"
  let address ← readMember c "address" (readAddress c)
  let options ← c.decArray "options" (readOptions c)
  c.decTypeEnd
  pure { family,sockType,protoType,flags,timeout,address,options }
def readDataMessage : m (RawDataMessage π) := do
  c.decTypeBegin
  let sequenceNumber ← c.decUint "sequence_number"
  let source ← readMember c "source_address" (readAddress c)
  let buffer ← c.decodeBinDefault "buffer"
  let controlBuffer ← c.decodeBinDefault "control_buffer"
  c.decTypeEnd
  pure { sequenceNumber,source,buffer,controlBuffer }
def readPingRequest : m (Option RawAddress) := do
  c.decTypeBegin
  let address ← readMember c "address" (readAddress c)
  c.decTypeEnd
  pure address
def readPingResponse : m RawPingResponse := do
  c.decTypeBegin
  let address ← readMember c "address" (readAddress c)
  let physicalAddress ← readBin c 8 "physical_address"
  let timeMs ← c.decodeUint32 "time_ms"
  c.decTypeEnd
  pure { address,physicalAddress,timeMs }
def readLinkRequest : m (RawLinkRequest π) := do
  c.decTypeBegin
  let version ← c.decodeUint8 "version"
  let props ← readMember c "props" (readProps c)
  c.decTypeEnd
  pure { version,props }
def readLinkResponse : m RawLinkResponse := do
  c.decTypeBegin
  let linkId ← readMember c "link_id" (readRef c)
  let localAddress ← readMember c "local_address" (readAddress c)
  let peerAddress ← readMember c "peer_address" (readAddress c)
  c.decTypeEnd
  pure { linkId,localAddress,peerAddress }
def readOpenRequest : m (RawOpenRequest π) := do
  c.decTypeBegin
  let streamId ← readMember c "stream_id" (readRef c)
  let type ← c.decodeInt32 "type"
  let connectionString ← required (c.decodeStringDefault "connection-string")
  let polled ← c.decBool "polled"
  let maxRecv ← c.decodeUint32 "max_recv"
  c.decTypeEnd
  pure { streamId,type,connectionString,polled,maxRecv }
def readSoVal : m (Option (RawProperty π)) := do
  c.decTypeBegin
  let soVal ← readMember c "so_val" (readProperty c)
  c.decTypeEnd
  pure soVal

def readContent (type : UInt32) (isResponse : Bool) : m (RawContent π) :=
  match messageType type, isResponse with
  | some .data, _ => .data <$> ioDecodeContent c (readDataMessage c)
  | some .close, true => .closeResponse <$> ioDecodeContent c (ioDecodeCloseResponse c)
  | some .close, false => (fun _ => .none) <$> ioDecodeNull c
  | some .ping, true => .pingResponse <$> ioDecodeContent c (readPingResponse c)
  | some .ping, false => .pingRequest <$> ioDecodeContent c (readPingRequest c)
  | some .poll, true => (fun _ => .none) <$> ioDecodeNull c
  | some .poll, false => .poll <$> ioDecodeContent c (ioDecodePollMessage c)
  | some .link, true => .linkResponse <$> ioDecodeContent c (readLinkResponse c)
  | some .link, false => .linkRequest <$> ioDecodeContent c (readLinkRequest c)
  | some .open, true => (fun _ => .none) <$> ioDecodeNull c
  | some .open, false => .openRequest <$> ioDecodeContent c (readOpenRequest c)
  | some .setopt, true => (fun _ => .none) <$> ioDecodeNull c
  | some .setopt, false => .setoptRequest <$> ioDecodeContent c (readSoVal c)
  | some .getopt, true => .getoptResponse <$> ioDecodeContent c (readSoVal c)
  | some .getopt, false => .getoptRequest <$> ioDecodeContent c (ioDecodeGetoptRequest c)
  | none, _ => throw (.err .notSupported)

def readMessage : m (RawMessage π) := do
  c.decTypeBegin
  let version ← c.decodeUint32 "version"
  if version &&& 0xffff0000 ≠ moduleVerNum &&& 0xffff0000 then throw (.err .invalidFormat)
  let sourceId ← readMember c "source_id" (readRef c)
  let proxyId ← readMember c "proxy_id" (readRef c)
  let targetId ← readMember c "target_id" (readRef c)
  let errorCode ← c.decodeInt32 "error_code"
  let isResponse ← c.decBool "is_response"
  let type ← c.decodeUint32 "type"
  let content ← readContent c type isResponse
  c.decTypeEnd
  pure { sourceId,proxyId,targetId,errorCode,isResponse,type,content }

def readMessageObject : m (RawMessage π) :=
  c.decObject none fun isNull => if isNull then throw (.err .invalidFormat) else readMessage c

end EdgeProxy.Codec
