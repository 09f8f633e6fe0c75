import Mathlib.Data.Vector.Defs

/-! # Proxy types and protocol messages

The C records of `prx_types.h`, `io_ref.h` and `io_proto.h`. A union is the product of its members: every function
selects the member by a type field. Enumerations that are read without a range check keep their integer type. Members
that point to dynamic memory are of the type `π`.
-/
namespace EdgeProxy.Codec

abbrev Bytes := List UInt8

def maxHostLength : ℕ := 1025
def maxInterfaceLength : ℕ := 128
def maxUnixPathLength : ℕ := 108

def prxAddressFamilyUnspec : Int32 := 0
def prxAddressFamilyUnix : Int32 := 1
def prxAddressFamilyInet : Int32 := 2
def prxAddressFamilyInet6 : Int32 := 23
def prxAddressFamilyProxy : Int32 := 28165

structure IoRef where
  u8 : Vector UInt8 16
deriving DecidableEq, Inhabited

structure SocketAddressInet where
  port : UInt16
  padding : UInt16
  flow : UInt32
  in4 : Vector UInt8 4
  in6 : Vector UInt8 16
  scopeId : UInt32
deriving DecidableEq, Inhabited

structure SocketAddressProxy where
  port : UInt16
  flags : UInt16
  itfIndex : Int32
  host : Vector UInt8 maxHostLength
deriving DecidableEq, Inhabited

structure SocketAddressUnix where
  path : Vector UInt8 maxUnixPathLength
deriving DecidableEq, Inhabited

structure SocketAddress where
  family : Int32
  ip : SocketAddressInet
  ux : SocketAddressUnix
  proxy : SocketAddressProxy
deriving DecidableEq, Inhabited

structure MulticastOption where
  family : Int32
  itfIndex : Int32
  in4 : Vector UInt8 4
  in6 : Vector UInt8 16
  scopeId : UInt32
deriving DecidableEq, Inhabited

structure FileInfo where
  inodeNumber : UInt64
  deviceId : UInt64
  type : Int32
  totalSize : UInt64
  lastAtime : UInt64
  lastMtime : UInt64
deriving DecidableEq, Inhabited

structure AddrInfo (π : Type) where
  address : SocketAddress
  reserved : Int32
  name : Option π
deriving DecidableEq

structure IfAddrInfo where
  address : SocketAddress
  prefixLen : UInt8
  flags : UInt8
  reserved : Int16
  name : Vector UInt8 maxInterfaceLength
  index : Int32
  broadcastAddr : SocketAddress
deriving DecidableEq, Inhabited

def prxSoUnknown : Int32 := 0
def prxSoIpMulticastJoin : Int32 := 31
def prxSoIpMulticastLeave : Int32 := 32
def prxSoMax : ℕ := 34
def prxRecordTypeDefault : Int32 := 100
def prxRecordMax : Int32 := 103
def prxPropertyTypeFileInfo : Int32 := 200
def prxPropertyTypeAddrinfo : Int32 := 201
def prxPropertyTypeIfaddrinfo : Int32 := 202

structure Property (π : Type) where
  type : Int32
  value : UInt64
  mcast : MulticastOption
  bin : Option π
  fileInfo : FileInfo
  addrInfo : AddrInfo π
  itfInfo : IfAddrInfo
deriving DecidableEq

def Property.zero {π : Type} : Property π where
  type := 0
  value := 0
  mcast := default
  bin := none
  fileInfo := default
  addrInfo := ⟨default,0,none⟩
  itfInfo := default

/-- `options` has one slot per socket option, `prxSoMax` in all. -/
structure SocketProperties (π : Type) where
  family : Int32
  sockType : Int32
  protoType : Int32
  flags : UInt32
  timeout : UInt64
  address : SocketAddress
  options : Vector (Property π) prxSoMax

inductive MessageType where
  | ping
  | link
  | setopt
  | getopt
  | open
  | close
  | data
  | poll
deriving DecidableEq

def MessageType.code : MessageType → UInt32
  | .ping => 10
  | .link => 12
  | .setopt => 13
  | .getopt => 14
  | .open => 20
  | .close => 21
  | .data => 30
  | .poll => 31

def messageType (code : UInt32) : Option MessageType :=
  [.ping,.link,.setopt,.getopt,.open,.close,.data,.poll].find? fun t => t.code = code
lemma code_of_messageType {code t} (h : messageType code = some t) : t.code = code := by
  simpa using List.find?_some h

structure PingRequest where
  address : SocketAddress

structure PingResponse where
  address : SocketAddress
  physicalAddress : Vector UInt8 8
  timeMs : UInt32

structure LinkRequest (π : Type) where
  version : UInt8
  props : SocketProperties π

structure LinkResponse where
  linkId : IoRef
  localAddress : SocketAddress
  peerAddress : SocketAddress

structure SetoptRequest (π : Type) where
  soVal : Property π

structure GetoptRequest where
  soOpt : Int32

structure GetoptResponse (π : Type) where
  soVal : Property π

structure OpenRequest (π : Type) where
  streamId : IoRef
  type : Int32
  connectionString : Option π
  polled : Bool
  maxSend : UInt32
  maxRecv : UInt32

structure PollMessage where
  sequenceNumber : UInt64
  timeout : UInt64

structure DataMessage (π : Type) where
  sequenceNumber : UInt64
  sourceAddress : SocketAddress
  controlBuffer : Option π
  buffer : Option π

structure CloseResponse where
  timeOpen : UInt64
  bytesSent : UInt64
  bytesReceived : UInt64
  errorCode : Int32

structure Content (π : Type) where
  pingRequest : PingRequest
  pingResponse : PingResponse
  linkRequest : LinkRequest π
  linkResponse : LinkResponse
  setoptRequest : SetoptRequest π
  getoptRequest : GetoptRequest
  getoptResponse : GetoptResponse π
  openRequest : OpenRequest π
  pollMessage : PollMessage
  dataMessage : DataMessage π
  closeResponse : CloseResponse

structure IoMessage (π : Type) where
  sourceId : IoRef
  proxyId : IoRef
  targetId : IoRef
  errorCode : Int32
  isResponse : Bool
  type : UInt32
  content : Content π

def Content.zero {π : Type} : Content π where
  pingRequest := ⟨default⟩
  pingResponse := ⟨default,default,0⟩
  linkRequest := ⟨0,⟨0,0,0,0,0,default,.replicate _ .zero⟩⟩
  linkResponse := ⟨default,default,default⟩
  setoptRequest := ⟨.zero⟩
  getoptRequest := ⟨0⟩
  getoptResponse := ⟨.zero⟩
  openRequest := ⟨default,0,none,false,0,0⟩
  pollMessage := ⟨0,0⟩
  dataMessage := ⟨0,default,none,none⟩
  closeResponse := ⟨0,0,0,0⟩
def IoMessage.zero {π : Type} : IoMessage π where
  sourceId := default
  proxyId := default
  targetId := default
  errorCode := 0
  isResponse := false
  type := 0
  content := .zero

end EdgeProxy.Codec
