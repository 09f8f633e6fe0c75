import EdgeProxy.Codec.Types

/-! # The objects of the client

The classes of the C# model that are sent in messages, with the properties on the wire. `none` is the null
reference. A `string` is a sequence of Unicode scalar values. An enumeration that is read without a check keeps its
integer type.
-/
namespace EdgeProxy.Client

open Codec (Bytes)

structure Reference where
  storage : Vector UInt8 16

def familyUnspecified : Int32 := 0
def familyUnix : Int32 := 1
def familyInterNetwork : Int32 := 2
def familyInterNetworkV6 : Int32 := 23
def familyProxy : Int32 := 28165
def familyCollection : Int32 := 28166
def familyBound : Int32 := 28167

/-- The classes derived from `SocketAddress`. The last two have no format on the wire. -/
inductive SocketAddress where
  | null
  | inet4 (address : Option Bytes) (port : UInt16)
  | inet6 (address : Option Bytes) (port : UInt16) (flow scopeId : UInt32)
  | proxy (host : Option String) (port flags : UInt16) (interfaceIndex : Int32)
  | unix (path : Option String)
  | collection
  | bound

def SocketAddress.family : SocketAddress → Int32
  | null => familyUnspecified
  | inet4 .. => familyInterNetwork
  | inet6 .. => familyInterNetworkV6
  | proxy .. => familyProxy
  | unix _ => familyUnix
  | collection => familyCollection
  | bound => familyBound

inductive MulticastOption where
  | inet4 (interfaceIndex : Int32) (address : Option Bytes)
  | inet6 (interfaceIndex : Int32) (address : Option Bytes)

def MulticastOption.family : MulticastOption → Int32
  | inet4 .. => familyInterNetwork
  | inet6 .. => familyInterNetworkV6
def scopeId (interfaceIndex : Int32) : UInt32 :=
  if 0 < interfaceIndex then interfaceIndex.toUInt32 else 0

structure FileInfo where
  nodeId : Int64
  deviceId : Int64
  type : Int32
  size : Int64
  lastAccessedAsUnixTime : Int64
  lastModifiedAsUnixTime : Int64

structure AddressInfo where
  socketAddress : Option SocketAddress
  canonicalName : Option String

structure InterfaceInfo where
  address : Option SocketAddress
  subnetPrefix : UInt8
  flags : UInt8
  name : Option String
  index : Int32
  broadcast : Option SocketAddress

def socketOptionIpMulticastJoin : UInt32 := 31
def socketOptionIpMulticastLeave : UInt32 := 32
def socketOptionMax : UInt32 := 34
def dnsRecordTypeSimple : UInt32 := 100
def dnsRecordMax : UInt32 := 103
def propertyTypeFileInfo : UInt32 := 200
def propertyTypeAddressInfo : UInt32 := 201
def propertyTypeInterfaceInfo : UInt32 := 202

/-- The value of a `Property<T>`, by its type argument; `base` is a `PropertyBase` that is no `Property<T>`. -/
inductive PropertyValue where
  | base
  | number (value : UInt64)
  | bytes (value : Option Bytes)
  | multicast (value : Option MulticastOption)
  | fileInfo (value : Option FileInfo)
  | addressInfo (value : Option AddressInfo)
  | interfaceInfo (value : Option InterfaceInfo)

structure Property where
  type : UInt32
  value : PropertyValue

def PropertyValue.mixes : PropertyValue → ℕ
  | base => 0
  | bytes value => (value.getD []).length
  | number _ | multicast _ | fileInfo _ | addressInfo _ | interfaceInfo _ => 1

/-- `Poco.MixToHash` takes in the first hash code only: every further one just multiplies by the prime. -/
def Property.hashCode (p : Property) : UInt32 :=
  (2166136261 ^^^ p.type) * 16777619 ^ (1 + p.value.mixes)

/-- The set compares hash codes and then calls `PropertyBase.IsEqual`, which compares types. -/
def Property.sameElement (p q : Property) : Bool :=
  p.hashCode = q.hashCode ∧ p.type = q.type

def addProperty (set : List Property) (p : Property) : List Property :=
  if set.any p.sameElement then set else set ++ [p]

/-- `options` is the set in the order in which it is enumerated. -/
structure SocketInfo where
  family : Int32
  type : Int32
  protocol : Int32
  flags : UInt32
  timeout : UInt64
  address : Option SocketAddress
  options : Option (List (Option Property))

inductive Content where
  | data (sequenceNumber : UInt64) (source : Option SocketAddress) (payload control : Option Bytes)
  | closeRequest
  | closeResponse (timeOpenInMilliseconds bytesSent bytesReceived : UInt64) (errorCode : Int32)
  | pingRequest (socketAddress : Option SocketAddress)
  | pingResponse (socketAddress : Option SocketAddress) (physicalAddress : Option Bytes) (timeMs : UInt32)
  | pollRequest (sequenceNumber timeout : UInt64)
  | pollResponse
  | linkRequest (version : UInt8) (properties : Option SocketInfo)
  | linkResponse (linkId : Option Reference) (localAddress peerAddress : Option SocketAddress)
  | openRequest (streamId : Option Reference) (type : Int32) (connectionString : Option String) (isPolled : Bool)
      (maxReceiveBuffer : UInt32)
  | openResponse
  | setOptRequest (optionValue : Option Property)
  | setOptResponse
  | getOptRequest (option : Int32)
  | getOptResponse (optionValue : Option Property)

structure Message where
  version : UInt32
  source : Option Reference
  proxy : Option Reference
  target : Option Reference
  error : Int32
  isResponse : Bool
  typeId : UInt32
  content : Option Content

def contentPing : UInt32 := 10
def contentLink : UInt32 := 12
def contentSetOpt : UInt32 := 13
def contentGetOpt : UInt32 := 14
def contentOpen : UInt32 := 20
def contentClose : UInt32 := 21
def contentData : UInt32 := 30
def contentPoll : UInt32 := 31
def contentCustom : UInt32 := 0

/-- `MessageContent.GetId`, which has no case for poll responses. -/
def Content.getId : Content → UInt32
  | data .. => contentData
  | pingRequest _ | pingResponse .. => contentPing
  | pollRequest .. => contentPoll
  | linkRequest .. | linkResponse .. => contentLink
  | setOptRequest _ | setOptResponse => contentSetOpt
  | getOptRequest _ | getOptResponse _ => contentGetOpt
  | openRequest .. | openResponse => contentOpen
  | closeRequest | closeResponse .. => contentClose
  | pollResponse => contentCustom

def Content.isResponse : Content → Bool
  | closeResponse .. | pingResponse .. | pollResponse | linkResponse .. | openResponse | setOptResponse
  | getOptResponse _ => true
  | data .. | closeRequest | pingRequest _ | pollRequest .. | linkRequest .. | openRequest .. | setOptRequest _
  | getOptRequest _ => false

/-- The constructor of a message in a build with this version; `fresh` are new references for those that are null. -/
def Message.create (version : UInt32) (fresh : Fin 3 → Reference) (source target proxy : Option Reference)
    (content : Content) : Message where
  version
  source := some (source.getD (fresh 0))
  proxy := some (proxy.getD (fresh 1))
  target := some (target.getD (fresh 2))
  error := 0
  isResponse := content.isResponse
  typeId := content.getId
  content := some content

end EdgeProxy.Client
