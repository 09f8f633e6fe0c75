import EdgeProxy.Client.Writer

/-! # The serializers of the client

The custom serializers of `MsgPack.cs`, and the `ReflectionSerializer` at the other classes, which reads and writes the
properties of a class in the order of their `DataMember` attributes.
-/
namespace EdgeProxy.Client

open Lib.MessagePack

def writeObject {α : Type} (fields : ℕ) (obj : Option α) (properties : α → Write Unit) : Write Unit :=
  match obj with
  | none => writeNil
  | some obj => do
    writeObjectHeader fields
    properties obj
def writeReference (obj : Option Reference) : Write Unit :=
  writeObject 1 obj fun r => writeBytes (some r.storage.toList)

def writeSocketAddress : Option SocketAddress → Write Unit
  | none => writeNil
  | some addr =>
    match addr with
    | .null => do
      writeObjectHeader 1
      writeInt addr.family
    | .unix path => do
      writeObjectHeader 2
      writeInt addr.family
      writeString path
    | .inet4 address port => do
      writeObjectHeader 3
      writeInt addr.family
      writeUShort port
      writeBytes address
    | .inet6 address port flow scopeId => do
      writeObjectHeader 5
      writeInt addr.family
      writeUShort port
      writeUInt flow
      writeBytes address
      writeUInt scopeId
    | .proxy host port flags interfaceIndex => do
      writeObjectHeader 5
      writeInt addr.family
      writeUShort port
      writeUShort flags
      writeInt interfaceIndex
      writeString host
    | .collection | .bound => throw .notSupported

def writeMulticastOption (obj : Option MulticastOption) : Write Unit :=
  writeObject 3 obj fun option => do
    writeInt option.family
    match option with
    | .inet4 interfaceIndex address | .inet6 interfaceIndex address => do
      writeInt interfaceIndex
      writeBytes address
def writeFileInfo (obj : Option FileInfo) : Write Unit :=
  writeObject 6 obj fun info => do
    writeLong info.nodeId
    writeLong info.deviceId
    writeInt info.type
    writeLong info.size
    writeLong info.lastAccessedAsUnixTime
    writeLong info.lastModifiedAsUnixTime
def writeAddressInfo (obj : Option AddressInfo) : Write Unit :=
  writeObject 2 obj fun info => do
    writeSocketAddress info.socketAddress
    writeString info.canonicalName
def writeInterfaceInfo (obj : Option InterfaceInfo) : Write Unit :=
  writeObject 6 obj fun info => do
    writeSocketAddress info.address
    writeByte info.subnetPrefix
    writeByte info.flags
    writeString info.name
    writeInt info.index
    writeSocketAddress info.broadcast

def writePropertyValue (type : UInt32) (value : PropertyValue) : Write Unit :=
  if type = socketOptionIpMulticastJoin ∨ type = socketOptionIpMulticastLeave then
    match value with
    | .multicast value => writeMulticastOption value
    | _ => throw .invalidCast
  else if type = propertyTypeFileInfo then
    match value with
    | .fileInfo value => writeFileInfo value
    | _ => throw .invalidCast
  else if type = propertyTypeAddressInfo then
    match value with
    | .addressInfo value => writeAddressInfo value
    | _ => throw .invalidCast
  else if type = propertyTypeInterfaceInfo then
    match value with
    | .interfaceInfo value => writeInterfaceInfo value
    | _ => throw .invalidCast
  else if dnsRecordTypeSimple ≤ type ∧ type < dnsRecordMax then
    match value with
    | .bytes value => writeBytes value
    | _ => throw .invalidCast
  else if type < socketOptionMax then
    match value with
    | .number value => writeULong value
    | _ => throw .invalidCast
  else
    throw .format

def writeProperty (obj : Option Property) : Write Unit :=
  writeObject 2 obj fun property => do
    writeUInt property.type
    writePropertyValue property.type property.value
def writeProperties : List (Option Property) → Write Unit
  | [] => pure ()
  | property :: properties => do
    writeProperty property
    writeProperties properties
def writeSet : Option (List (Option Property)) → Write Unit
  | none => throw .nullReference
  | some properties => do
    writeArrayHeader properties.length
    writeProperties properties
def writeSocketInfo (obj : Option SocketInfo) : Write Unit :=
  writeObject 7 obj fun info => do
    writeInt info.family
    writeInt info.type
    writeInt info.protocol
    writeUInt info.flags
    writeULong info.timeout
    writeSocketAddress info.address
    writeSet info.options

def writeContent : Content → Write Unit
  | .data sequenceNumber source payload control => do
    writeObjectHeader 4
    writeULong sequenceNumber
    writeSocketAddress source
    writeBytes payload
    writeBytes control
  | .pollRequest sequenceNumber timeout => do
    writeObjectHeader 2
    writeULong sequenceNumber
    writeULong timeout
  | .pingRequest socketAddress => do
    writeObjectHeader 1
    writeSocketAddress socketAddress
  | .pingResponse socketAddress physicalAddress timeMs => do
    writeObjectHeader 3
    writeSocketAddress socketAddress
    writeBytes physicalAddress
    writeUInt timeMs
  | .linkRequest version properties => do
    writeObjectHeader 2
    writeByte version
    writeSocketInfo properties
  | .linkResponse linkId localAddress peerAddress => do
    writeObjectHeader 3
    writeReference linkId
    writeSocketAddress localAddress
    writeSocketAddress peerAddress
  | .setOptRequest optionValue => do
    writeObjectHeader 1
    writeProperty optionValue
  | .getOptRequest option => do
    writeObjectHeader 1
    writeInt option
  | .getOptResponse optionValue => do
    writeObjectHeader 1
    writeProperty optionValue
  | .openRequest streamId type connectionString isPolled maxReceiveBuffer => do
    writeObjectHeader 5
    writeReference streamId
    writeInt type
    writeString connectionString
    writeBool isPolled
    writeUInt maxReceiveBuffer
  | .closeResponse timeOpenInMilliseconds bytesSent bytesReceived errorCode => do
    writeObjectHeader 4
    writeULong timeOpenInMilliseconds
    writeULong bytesSent
    writeULong bytesReceived
    writeInt errorCode
  | .closeRequest | .pollResponse | .openResponse | .setOptResponse => writeNil

def writeMessage (message : Message) : Write Unit := do
  writeObjectHeader 8
  writeUInt message.version
  writeReference message.source
  writeReference message.proxy
  writeReference message.target
  writeInt message.error
  writeBool message.isResponse
  writeUInt message.typeId
  match message.content with
  | none => throw .format
  | some content => writeContent content

variable (enc : Encoding)

def toVector (n : ℕ) (d : Bytes) : Option (Vector UInt8 n) :=
  if h : d.length = n then some ⟨d.toArray,by simpa using h⟩ else none
def readMembers (count : Int32) : Read Int32 := do
  let members ← readObjectHeader
  if count < members then throw .format else pure members
def readMember {α : Type} (members index : Int32) (read : Read α) : Read α :=
  if members - index = 0 then throw .format else read
def rejectIf (c : Prop) [Decidable c] : Read Unit :=
  if c then throw .format else pure ()
def readEnum : Read Int32 := do
  return (← readInt64).toInt32

def readReference : Read Reference := do
  let members ← readMembers 1
  let address ← readMember members 0 readBin
  match toVector 16 address with
  | some storage => pure ⟨storage⟩
  | none => throw .argument

def readSocketAddress : Read SocketAddress := do
  let members ← readObjectHeader
  rejectIf (members < 1)
  let family ← readInt32
  if family = familyUnspecified then
    pure .null
  else if family = familyUnix then
    rejectIf (members < 2)
    let path ← readString enc
    pure (.unix path)
  else if family ≠ familyProxy ∧ family ≠ familyInterNetwork ∧ family ≠ familyInterNetworkV6 then
    throw .format
  else
    rejectIf (members < 3)
    let port ← readUInt16
    if family = familyInterNetwork then
      let address ← readBin
      rejectIf (address.length ≠ 4)
      pure (.inet4 address port)
    else if family = familyInterNetworkV6 then
      rejectIf (members < 5)
      let flow ← readUInt32
      let address ← readBin
      rejectIf (address.length ≠ 16)
      let scopeId ← readUInt32
      pure (.inet6 address port flow scopeId)
    else
      rejectIf (members < 5)
      let flags ← readUInt16
      let interfaceIndex ← readInt32
      let host ← readString enc
      pure (.proxy host port flags interfaceIndex)

def readMulticastOption : Read MulticastOption := do
  let members ← readObjectHeader
  rejectIf (members < 3)
  let family ← readInt32
  if family ≠ familyInterNetwork ∧ family ≠ familyInterNetworkV6 then
    throw .format
  else
    let interfaceIndex ← readInt32
    let address ← readBin
    if family = familyInterNetwork then
      rejectIf (address.length ≠ 4)
      pure (.inet4 interfaceIndex address)
    else
      rejectIf (address.length ≠ 16)
      pure (.inet6 interfaceIndex address)

def readFileInfo : Read FileInfo := do
  let members ← readMembers 6
  let nodeId ← readMember members 0 readInt64
  let deviceId ← readMember members 1 readInt64
  let type ← readMember members 2 readInt32
  let size ← readMember members 3 readInt64
  let lastAccessedAsUnixTime ← readMember members 4 readInt64
  let lastModifiedAsUnixTime ← readMember members 5 readInt64
  pure { nodeId,deviceId,type,size,lastAccessedAsUnixTime,lastModifiedAsUnixTime }
def readAddressInfo : Read AddressInfo := do
  let members ← readMembers 2
  let socketAddress ← readMember members 0 (readSocketAddress enc)
  let canonicalName ← readMember members 1 (readString enc)
  pure { socketAddress,canonicalName }
def readInterfaceInfo : Read InterfaceInfo := do
  let members ← readMembers 6
  let address ← readMember members 0 (readSocketAddress enc)
  let subnetPrefix ← readMember members 1 readUInt8
  let flags ← readMember members 2 readUInt8
  let name ← readMember members 3 (readString enc)
  let index ← readMember members 4 readInt32
  let broadcast ← readMember members 5 (readSocketAddress enc)
  pure { address,subnetPrefix,flags,name,index,broadcast }

def readPropertyValue (type : UInt32) : Read PropertyValue := do
  if type = socketOptionIpMulticastJoin ∨ type = socketOptionIpMulticastLeave then
    return .multicast (← readMulticastOption)
  else if type = propertyTypeFileInfo then
    return .fileInfo (← readFileInfo)
  else if type = propertyTypeAddressInfo then
    return .addressInfo (← readAddressInfo enc)
  else if type = propertyTypeInterfaceInfo then
    return .interfaceInfo (← readInterfaceInfo enc)
  else if dnsRecordTypeSimple ≤ type ∧ type < dnsRecordMax then
    return .bytes (← readBin)
  else if type < socketOptionMax then
    return .number (← readUInt64)
  else
    throw .format

def readProperty : Read Property := do
  let members ← readObjectHeader
  rejectIf (members ≠ 2)
  let type ← readUInt32
  let value ← readPropertyValue enc type
  pure { type,value }
def readProperties : ℕ → List Property → Read (List Property)
  | 0, set => pure set
  | n + 1, set => do
    let property ← readProperty enc
    readProperties n (addProperty set property)
def readSet : Read (List Property) := do
  let len ← readArrayLength
  readProperties enc len.toInt.toNat []
def readSocketInfo : Read SocketInfo := do
  let members ← readMembers 7
  let family ← readMember members 0 readEnum
  let type ← readMember members 1 readEnum
  let protocol ← readMember members 2 readEnum
  let flags ← readMember members 3 readUInt32
  let timeout ← readMember members 4 readUInt64
  let address ← readMember members 5 (readSocketAddress enc)
  let options ← readMember members 6 (readSet enc)
  pure { family,type,protocol,flags,timeout,address,options := options.map some }
def readDataMessage : Read Content := do
  let members ← readMembers 4
  let sequenceNumber ← readMember members 0 readUInt64
  let source ← readMember members 1 (readSocketAddress enc)
  let payload ← readMember members 2 readBin
  let control ← readMember members 3 readBin
  pure (.data sequenceNumber source payload control)
def readPollRequest : Read Content := do
  let members ← readMembers 2
  let sequenceNumber ← readMember members 0 readUInt64
  let timeout ← readMember members 1 readUInt64
  pure (.pollRequest sequenceNumber timeout)
def readPingRequest : Read Content := do
  let members ← readMembers 1
  let socketAddress ← readMember members 0 (readSocketAddress enc)
  pure (.pingRequest socketAddress)
def readPingResponse : Read Content := do
  let members ← readMembers 3
  let socketAddress ← readMember members 0 (readSocketAddress enc)
  let physicalAddress ← readMember members 1 readBin
  let timeMs ← readMember members 2 readUInt32
  pure (.pingResponse socketAddress physicalAddress timeMs)
def readLinkRequest : Read Content := do
  let members ← readMembers 2
  let version ← readMember members 0 readUInt8
  let properties ← readMember members 1 (readSocketInfo enc)
  pure (.linkRequest version properties)
def readLinkResponse : Read Content := do
  let members ← readMembers 3
  let linkId ← readMember members 0 readReference
  let localAddress ← readMember members 1 (readSocketAddress enc)
  let peerAddress ← readMember members 2 (readSocketAddress enc)
  pure (.linkResponse linkId localAddress peerAddress)
def readSetOptRequest : Read Content := do
  let members ← readMembers 1
  let optionValue ← readMember members 0 (readProperty enc)
  pure (.setOptRequest optionValue)
def readGetOptRequest : Read Content := do
  let members ← readMembers 1
  let option ← readMember members 0 readEnum
  pure (.getOptRequest option)
def readGetOptResponse : Read Content := do
  let members ← readMembers 1
  let optionValue ← readMember members 0 (readProperty enc)
  pure (.getOptResponse optionValue)
def readOpenRequest : Read Content := do
  let members ← readMembers 5
  let streamId ← readMember members 0 readReference
  let type ← readMember members 1 readInt32
  let connectionString ← readMember members 2 (readString enc)
  let isPolled ← readMember members 3 readBool
  let maxReceiveBuffer ← readMember members 4 readUInt32
  pure (.openRequest streamId type connectionString isPolled maxReceiveBuffer)
def readCloseResponse : Read Content := do
  let members ← readMembers 4
  let timeOpenInMilliseconds ← readMember members 0 readUInt64
  let bytesSent ← readMember members 1 readUInt64
  let bytesReceived ← readMember members 2 readUInt64
  let errorCode ← readMember members 3 readInt32
  pure (.closeResponse timeOpenInMilliseconds bytesSent bytesReceived errorCode)

/-- The content of a response; the header of one without content is read and dropped. -/
def readResponse (typeId : UInt32) : Read (Option Content) := do
  if typeId = contentData then readDataMessage enc
  else if typeId = contentPing then readPingResponse enc
  else if typeId = contentLink then readLinkResponse enc
  else if typeId = contentGetOpt then readGetOptResponse enc
  else if typeId = contentClose then readCloseResponse
  else
    readHeader
    pure (if typeId = contentOpen then some .openResponse
      else if typeId = contentSetOpt then some .setOptResponse
      else if typeId = contentPoll then some .pollResponse
      else none)

def readRequest (typeId : UInt32) : Read (Option Content) := do
  if typeId = contentData then readDataMessage enc
  else if typeId = contentPoll then readPollRequest
  else if typeId = contentPing then readPingRequest enc
  else if typeId = contentLink then readLinkRequest enc
  else if typeId = contentSetOpt then readSetOptRequest enc
  else if typeId = contentGetOpt then readGetOptRequest
  else if typeId = contentOpen then readOpenRequest enc
  else
    readHeader
    pure (if typeId = contentClose then some .closeRequest else none)
def readContents (isResponse : Bool) (typeId : UInt32) : Read (Option Content) :=
  if isResponse then readResponse enc typeId else readRequest enc typeId

/-- What follows the header of a message. The version is read as a number of 16 bits. -/
def readMessageFields (version : UInt32) : Read Message := do
  let received ← readUInt16
  rejectIf (version ≠ received.toUInt32)
  let source ← readReference
  let proxy ← readReference
  let target ← readReference
  let error ← readInt32
  let isResponse ← readBool
  let typeId ← readUInt32
  let content ← readContents enc isResponse typeId
  pure { version,source,proxy,target,error,isResponse,typeId,content }

/-- `MessageSerializer.ReadAsync` in a build with this version, which drops the number of members. -/
def readMessage (version : UInt32) : Read Message := do
  let _ ← readObjectHeader
  readMessageFields enc version

end EdgeProxy.Client
