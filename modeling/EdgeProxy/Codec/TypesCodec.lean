import EdgeProxy.Codec.Ref

/-! # Encoders and decoders of the proxy types

The functions of `io_types.c`, and `io_encode_ref` and `io_decode_ref`. A decoder takes the previous
content of the memory it decodes into and returns the new one.
-/
namespace EdgeProxy.Codec

open Base Int32

variable {m : Type → Type} [Monad m] [MonadExceptOf Stop m]

variable (c : Encoder m)

/-- The JSON codec gets the id as text. -/
def ioEncodeRef (ref : IoRef) : m Unit :=
  match c.codecId with
  | .json _ => do
    c.encTypeBegin 1
    c.encString "id" (some (ioRefToSTRING ref ++ [0]))
    c.encTypeEnd
  | .mpack => do
    c.encTypeBegin 1
    c.encBin "id" ref.u8.toList
    c.encTypeEnd

def ioEncodePrxSocketAddressInet (sa : SocketAddress) : m Unit := do
  c.encTypeBegin (if sa.family = prxAddressFamilyInet then 3 else 5)
  c.encodeInt32 "family" sa.family
  c.encodeUint16 "port" sa.ip.port
  if sa.family = prxAddressFamilyInet then
    c.encBin "addr" sa.ip.in4.toList
  else
    c.encodeUint32 "flow" sa.ip.flow
    c.encBin "addr" sa.ip.in6.toList
    c.encodeUint32 "scope_id" sa.ip.scopeId
  c.encTypeEnd
def ioEncodePrxSocketAddressProxy (sa : SocketAddress) : m Unit := do
  c.encTypeBegin 5
  c.encodeInt32 "family" sa.family
  c.encodeUint16 "port" sa.proxy.port
  c.encodeUint16 "flags" sa.proxy.flags
  c.encodeInt32 "itf_index" sa.proxy.itfIndex
  c.encString "host" sa.proxy.host.toList
  c.encTypeEnd
def ioEncodePrxSocketAddressUnix (sa : SocketAddress) : m Unit := do
  c.encTypeBegin 2
  c.encodeInt32 "family" sa.family
  c.encString "path" sa.ux.path.toList
  c.encTypeEnd

def ioEncodePrxSocketAddress (sa : SocketAddress) : m Unit := do
  if sa.family = prxAddressFamilyUnspec then
    c.encTypeBegin 1
    c.encodeInt32 "family" sa.family
    c.encTypeEnd
  else if sa.family = prxAddressFamilyInet ∨ sa.family = prxAddressFamilyInet6 then
    ioEncodePrxSocketAddressInet c sa
  else if sa.family = prxAddressFamilyProxy then
    ioEncodePrxSocketAddressProxy c sa
  else if sa.family = prxAddressFamilyUnix then
    ioEncodePrxSocketAddressUnix c sa
  else
    throw (.err .arg)

def ioEncodePrxMulticastOption (mo : MulticastOption) : m Unit := do
  c.encTypeBegin 3
  c.encodeInt32 "family" mo.family
  c.encodeInt32 "itf_index" mo.itfIndex
  if mo.family = prxAddressFamilyInet then
    c.encBin "addr" mo.in4.toList
  else if mo.family = prxAddressFamilyInet6 then
    c.encBin "addr" mo.in6.toList
  else
    throw (.err .invalidFormat)
  c.encTypeEnd

/-- A missing name is written as the empty string. -/
def ioEncodePrxAddrinfo (ai : AddrInfo Bytes) : m Unit := do
  c.encTypeBegin 2
  c.encObject "address" false (ioEncodePrxSocketAddress c ai.address)
  c.encString "name" (ai.name.getD [0])
  c.encTypeEnd

def ioEncodePrxIfaddrinfo (ifa : IfAddrInfo) : m Unit := do
  c.encTypeBegin 6
  c.encObject "address" false (ioEncodePrxSocketAddress c ifa.address)
  c.encodeUint8 "prefix" ifa.prefixLen
  c.encodeUint8 "flags" ifa.flags
  c.encString "name" ifa.name.toList
  c.encodeInt32 "index" ifa.index
  c.encObject "broadcast_addr" false (ioEncodePrxSocketAddress c ifa.broadcastAddr)
  c.encTypeEnd
def ioEncodePrxFileInfo (fi : FileInfo) : m Unit := do
  c.encTypeBegin 6
  c.encUint "inode_number" fi.inodeNumber
  c.encUint "device_id" fi.deviceId
  c.encodeInt32 "type" fi.type
  c.encUint "total_size" fi.totalSize
  c.encUint "last_atime" fi.lastAtime
  c.encUint "last_mtime" fi.lastMtime
  c.encTypeEnd

def isMulticast (type : Int32) : Prop :=
  type = prxSoIpMulticastJoin ∨ type = prxSoIpMulticastLeave
def isObjectType (type : Int32) : Prop :=
  isMulticast type ∨ prxPropertyTypeFileInfo ≤ type
def isRecordType (type : Int32) : Prop :=
  prxRecordTypeDefault ≤ type ∧ type < prxRecordMax
def isSocketOption (type : Int32) : Prop :=
  prxSoUnknown < type ∧ type < .ofNat prxSoMax
instance (type : Int32) : Decidable (isMulticast type) :=
  inferInstanceAs (Decidable (_ ∨ _))
instance (type : Int32) : Decidable (isObjectType type) :=
  inferInstanceAs (Decidable (_ ∨ _))
instance (type : Int32) : Decidable (isRecordType type) :=
  inferInstanceAs (Decidable (_ ∧ _))
instance (type : Int32) : Decidable (isSocketOption type) :=
  inferInstanceAs (Decidable (_ ∧ _))

lemma isRecordType.not_isObjectType {type} (h : isRecordType type) : ¬isObjectType type := by
  simp only [isRecordType,isObjectType,isMulticast,le_iff_toInt_le,lt_iff_toInt_lt,← toInt_inj] at h ⊢
  have : prxRecordTypeDefault.toInt = 100 := rfl
  have : prxRecordMax.toInt = 103 := rfl
  have : prxSoIpMulticastJoin.toInt = 31 := rfl
  have : prxSoIpMulticastLeave.toInt = 32 := rfl
  have : prxPropertyTypeFileInfo.toInt = 200 := rfl
  omega
lemma isSocketOption.not_isRecordType {type} (h : isSocketOption type) : ¬isRecordType type := by
  simp only [isRecordType,isSocketOption,le_iff_toInt_le,lt_iff_toInt_lt] at h ⊢
  have : prxRecordTypeDefault.toInt = 100 := rfl
  have : (ofNat prxSoMax).toInt = 34 := rfl
  omega
lemma isSocketOption.lt_fileInfo {type} (h : isSocketOption type) : ¬prxPropertyTypeFileInfo ≤ type := by
  simp only [isSocketOption,le_iff_toInt_le,lt_iff_toInt_lt] at h ⊢
  have : prxPropertyTypeFileInfo.toInt = 200 := rfl
  have : (ofNat prxSoMax).toInt = 34 := rfl
  omega
def ioEncodePrxPropertyObject (prop : Property Bytes) : m Unit := do
  if isMulticast prop.type then
    ioEncodePrxMulticastOption c prop.mcast
  else if prop.type = prxPropertyTypeAddrinfo then
    ioEncodePrxAddrinfo c prop.addrInfo
  else if prop.type = prxPropertyTypeIfaddrinfo then
    ioEncodePrxIfaddrinfo c prop.itfInfo
  else if prop.type = prxPropertyTypeFileInfo then
    ioEncodePrxFileInfo c prop.fileInfo
  else
    throw (.err .writing)
def ioEncodePrxProperty (prop : Property Bytes) : m Unit := do
  c.encTypeBegin 2
  c.encodeInt32 "type" prop.type
  if isObjectType prop.type then
    c.encObject "property" false (ioEncodePrxPropertyObject c prop)
  else if isRecordType prop.type then
    c.encBin "property" (prop.bin.getD [])
  else if isSocketOption prop.type then
    c.encUint "property" prop.value
  else
    throw (.err .writing)
  c.encTypeEnd
def writtenOptions {π : Type} (sp : SocketProperties π) : List (Property π) :=
  sp.options.toList.filter fun option => isSocketOption option.type
def ioEncodeOptions : List (Property Bytes) → m Unit
  | [] => pure ()
  | option :: options => do
    c.encObject none false (ioEncodePrxProperty c option)
    ioEncodeOptions options
def ioEncodePrxSocketProperties (sp : SocketProperties Bytes) : m Unit := do
  c.encTypeBegin 7
  c.encodeInt32 "family" sp.family
  c.encodeInt32 "sock_type" sp.sockType
  c.encodeInt32 "proto_type" sp.protoType
  c.encodeUint32 "flags" sp.flags
  c.encUint "timeout" sp.timeout
  c.encObject "address" false (ioEncodePrxSocketAddress c sp.address)
  c.encArray "options" (writtenOptions sp).length (ioEncodeOptions c (writtenOptions sp))
  c.encTypeEnd

variable {π : Type} (c : Decoder m π)

def refOfString (palPton : Bytes → Except PrxError SocketAddress) (str : Bytes) (ref : IoRef) : m IoRef :=
  match cstr str with
  | none => throw .undefined
  | some string =>
    match ioRefFromString palPton string ref with
    | .ok ref => pure ref
    | .error e => throw (.err e)

def ioDecodeRef (ref : IoRef) : m IoRef :=
  match c.codecId with
  | .json palPton => do
    c.decTypeBegin
    let str ← c.decodeSTRINGHANDLE "id"
    let ref ← refOfString palPton str ref
    c.decTypeEnd
    pure ref
  | .mpack => do
    c.decTypeBegin
    let u8 ← c.decodeBinFixed "id" ref.u8
    c.decTypeEnd
    pure { ref with u8 }

variable {c} in
lemma ioDecodeRef_mpack (h : c.codecId = .mpack) (ref : IoRef) : ioDecodeRef c ref = (do
      c.decTypeBegin
      let u8 ← c.decodeBinFixed "id" ref.u8
      c.decTypeEnd
      pure { ref with u8 }) := by
  rw [ioDecodeRef,h]

def ioDecodePrxSocketAddressInet (sa : SocketAddress) : m SocketAddress := do
  let port ← c.decodeUint16 "port"
  if sa.family = prxAddressFamilyInet then
    let in4 ← c.decodeBinFixed "addr" sa.ip.in4
    c.decTypeEnd
    pure { sa with ip := { sa.ip with port,in4,flow := 0,padding := 0 } }
  else
    let flow ← c.decodeUint32 "flow"
    let in6 ← c.decodeBinFixed "addr" sa.ip.in6
    let scopeId ← c.decodeUint32 "scope_id"
    c.decTypeEnd
    pure { sa with ip := { sa.ip with port,flow,in6,scopeId,padding := 0 } }
def ioDecodePrxSocketAddressProxy (sa : SocketAddress) : m SocketAddress := do
  let port ← c.decodeUint16 "port"
  let flags ← c.decodeUint16 "flags"
  let itfIndex ← c.decodeInt32 "itf_index"
  let host ← c.decodeStringFixed "host" sa.proxy.host
  c.decTypeEnd
  pure { sa with proxy := { port,flags,itfIndex,host } }
def ioDecodePrxSocketAddressUnix (sa : SocketAddress) : m SocketAddress := do
  let path ← c.decodeStringFixed "path" sa.ux.path
  c.decTypeEnd
  pure { sa with ux := { path } }

def ioDecodePrxSocketAddress (sa : SocketAddress) : m SocketAddress := do
  c.decTypeBegin
  let family ← c.decodeInt32 "family"
  let sa := { sa with family }
  if family = prxAddressFamilyUnspec then
    c.decTypeEnd
    pure sa
  else if family = prxAddressFamilyInet ∨ family = prxAddressFamilyInet6 then
    ioDecodePrxSocketAddressInet c sa
  else if family = prxAddressFamilyProxy then
    ioDecodePrxSocketAddressProxy c sa
  else if family = prxAddressFamilyUnix then
    ioDecodePrxSocketAddressUnix c sa
  else
    throw (.err .invalidFormat)

/-- The scope of an IPv6 address is not on the wire: it is set from the interface. -/
def ioDecodePrxMulticastOption (mo : MulticastOption) : m MulticastOption := do
  c.decTypeBegin
  let family ← c.decodeInt32 "family"
  let itfIndex ← c.decodeInt32 "itf_index"
  if family = prxAddressFamilyInet then
    let in4 ← c.decodeBinFixed "addr" mo.in4
    c.encTypeEnd
    pure { mo with family,itfIndex,in4 }
  else if family = prxAddressFamilyInet6 then
    let in6 ← c.decodeBinFixed "addr" mo.in6
    c.encTypeEnd
    pure { mo with family,itfIndex,in6,scopeId := itfIndex.toUInt32 }
  else
    throw (.err .invalidFormat)

def ioDecodePrxAddrinfo (ai : AddrInfo π) : m (AddrInfo π) := do
  c.decTypeBegin
  let address ← c.decodeMember "address" ai.address (ioDecodePrxSocketAddress c)
  let name ← c.decodeStringDefault "name"
  c.decTypeEnd
  pure { address,name,reserved := 0 }
def ioDecodePrxIfaddrinfo (ifa : IfAddrInfo) : m IfAddrInfo := do
  c.decTypeBegin
  let address ← c.decodeMember "address" ifa.address (ioDecodePrxSocketAddress c)
  let prefixLen ← c.decodeUint8 "prefix"
  let flags ← c.decodeUint8 "flags"
  let name ← c.decodeStringFixed "name" ifa.name
  let index ← c.decodeInt32 "index"
  let broadcastAddr ← c.decodeMember "broadcast_addr" ifa.broadcastAddr (ioDecodePrxSocketAddress c)
  c.decTypeEnd
  pure { address,prefixLen,flags,name,index,broadcastAddr,reserved := 0 }
def ioDecodePrxFileInfo : m FileInfo := do
  c.decTypeBegin
  let inodeNumber ← c.decUint "inode_number"
  let deviceId ← c.decUint "device_id"
  let type ← c.decodeInt32 "type"
  let totalSize ← c.decUint "total_size"
  let lastAtime ← c.decUint "last_atime"
  let lastMtime ← c.decUint "last_mtime"
  c.decTypeEnd
  pure { inodeNumber,deviceId,type,totalSize,lastAtime,lastMtime }

def ioDecodePrxPropertyObject (prop : Property π) : m (Property π) := do
  if isMulticast prop.type then
    let mcast ← ioDecodePrxMulticastOption c prop.mcast
    pure { prop with mcast }
  else if prop.type = prxPropertyTypeAddrinfo then
    let addrInfo ← ioDecodePrxAddrinfo c prop.addrInfo
    pure { prop with addrInfo }
  else if prop.type = prxPropertyTypeIfaddrinfo then
    let itfInfo ← ioDecodePrxIfaddrinfo c prop.itfInfo
    pure { prop with itfInfo }
  else if prop.type = prxPropertyTypeFileInfo then
    let fileInfo ← ioDecodePrxFileInfo c
    pure { prop with fileInfo }
  else
    throw (.err .invalidFormat)

def ioDecodePrxProperty (prop : Property π) : m (Property π) := do
  c.decTypeBegin
  let type ← c.decodeInt32 "type"
  let prop := { prop with type }
  let prop ←
    if isObjectType type then
      c.decObject "property" fun isNull =>
        if isNull then throw (.err .invalidFormat) else ioDecodePrxPropertyObject c prop
    else if isRecordType type then do
      let bin ← c.decodeBinDefault "property"
      pure { prop with bin }
    else if isSocketOption type then do
      let value ← c.decUint "property"
      pure { prop with value }
    else
      throw (.err .invalidFormat)
  c.decTypeEnd
  pure prop

def storeOption (options : Vector (Property π) prxSoMax) (option : Property π) :
    Vector (Property π) prxSoMax :=
  if isSocketOption option.type then options.setIfInBounds option.type.toInt.toNat option else options

/-- One local variable receives all options in turn; only its type is reset in between. -/
def ioDecodeOptions : ℕ → Property π → Vector (Property π) prxSoMax → m (Vector (Property π) prxSoMax)
  | 0, _, options => pure options
  | n + 1, option, options => do
    let option ← c.decObject none fun _ => ioDecodePrxProperty c { option with type := 0 }
    ioDecodeOptions n option (storeOption options option)

/-- `stale` is what the local variable for options holds before it is first written. -/
def ioDecodePrxSocketProperties (stale : Property π) (sp : SocketProperties π) : m (SocketProperties π) := do
  c.decTypeBegin
  let family ← c.decodeInt32 "family"
  let sockType ← c.decodeInt32 "sock_type"
  let protoType ← c.decodeInt32 "proto_type"
  let flags ← c.decodeUint32 "flags"
  let timeout ← c.decUint "timeout"
  let address ← c.decodeMember "address" sp.address (ioDecodePrxSocketAddress c)
  let options ← c.decArray "options" fun size => ioDecodeOptions c size stale (.replicate prxSoMax .zero)
  c.decTypeEnd
  pure { family,sockType,protoType,flags,timeout,address,options }

end EdgeProxy.Codec
