import EdgeProxy.Codec.TypesCodec

/-! # Encoder and decoder of protocol messages

The functions of `io_proto.c` that write a message and read it back, and the calls by which the
transports use them.
-/
namespace EdgeProxy.Codec

open Base

variable {m : Type → Type} [Monad m] [MonadExceptOf Stop m]

def moduleVerNum : UInt32 := 0x00020100

variable (c : Encoder m)

def ioEncodePingRequest (request : PingRequest) : m Unit := do
  c.encTypeBegin 1
  c.encObject "address" false (ioEncodePrxSocketAddress c request.address)
  c.encTypeEnd
def ioEncodePingResponse (response : PingResponse) : m Unit := do
  c.encTypeBegin 3
  c.encObject "address" false (ioEncodePrxSocketAddress c response.address)
  c.encBin "physical_address" response.physicalAddress.toList
  c.encodeUint32 "time_ms" response.timeMs
  c.encTypeEnd
def ioEncodeLinkRequest (request : LinkRequest Bytes) : m Unit := do
  c.encTypeBegin 2
  c.encodeUint8 "version" request.version
  c.encObject "props" false (ioEncodePrxSocketProperties c request.props)
  c.encTypeEnd
def ioEncodeLinkResponse (response : LinkResponse) : m Unit := do
  c.encTypeBegin 3
  c.encObject "link_id" false (ioEncodeRef c response.linkId)
  c.encObject "local_address" false (ioEncodePrxSocketAddress c response.localAddress)
  c.encObject "peer_address" false (ioEncodePrxSocketAddress c response.peerAddress)
  c.encTypeEnd
def ioEncodeSetoptRequest (request : SetoptRequest Bytes) : m Unit := do
  c.encTypeBegin 1
  c.encObject "so_val" false (ioEncodePrxProperty c request.soVal)
  c.encTypeEnd
def ioEncodeGetoptRequest (request : GetoptRequest) : m Unit := do
  c.encTypeBegin 1
  c.encodeInt32 "so_opt" request.soOpt
  c.encTypeEnd
def ioEncodeGetoptResponse (response : GetoptResponse Bytes) : m Unit := do
  c.encTypeBegin 1
  c.encObject "so_val" false (ioEncodePrxProperty c response.soVal)
  c.encTypeEnd
def ioEncodeOpenRequest (request : OpenRequest Bytes) : m Unit := do
  c.encTypeBegin 5
  c.encObject "stream_id" false (ioEncodeRef c request.streamId)
  c.encodeInt32 "type" request.type
  c.encString "connection-string" request.connectionString
  c.encBool "polled" request.polled
  c.encodeUint32 "max_recv" request.maxRecv
  c.encTypeEnd
def ioEncodePollMessage (message : PollMessage) : m Unit := do
  c.encTypeBegin 2
  c.encUint "sequence_number" message.sequenceNumber
  c.encUint "timeout" message.timeout
  c.encTypeEnd

/-- The lengths of both buffers are cast to 32 bits before they are passed on; the codec casts them
again. -/
def ioEncodeDataMessage (message : DataMessage Bytes) : m Unit := do
  c.encTypeBegin 4
  c.encUint "sequence_number" message.sequenceNumber
  c.encObject "source_address" false (ioEncodePrxSocketAddress c message.sourceAddress)
  c.encBin "buffer" (castLength (message.buffer.getD []))
  c.encBin "control_buffer" (castLength (message.controlBuffer.getD []))
  c.encTypeEnd

def ioEncodeCloseResponse (response : CloseResponse) : m Unit := do
  c.encTypeBegin 4
  c.encUint "time_open" response.timeOpen
  c.encUint "bytes_received" response.bytesReceived
  c.encUint "bytes_sent" response.bytesSent
  c.encodeInt32 "error_code" response.errorCode
  c.encTypeEnd

def ioEncodeContent (content : m Unit) : m Unit :=
  c.encObject "content" false content
def ioEncodeNull : m Unit :=
  c.encObject "content" true (pure ())

def ioEncodeMessageContent (msg : IoMessage Bytes) : m Unit :=
  match messageType msg.type, msg.isResponse with
  | some .data, _ => ioEncodeContent c (ioEncodeDataMessage c msg.content.dataMessage)
  | some .close, true => ioEncodeContent c (ioEncodeCloseResponse c msg.content.closeResponse)
  | some .close, false => ioEncodeNull c
  | some .ping, true => ioEncodeContent c (ioEncodePingResponse c msg.content.pingResponse)
  | some .ping, false => ioEncodeContent c (ioEncodePingRequest c msg.content.pingRequest)
  | some .poll, true => ioEncodeNull c
  | some .poll, false => ioEncodeContent c (ioEncodePollMessage c msg.content.pollMessage)
  | some .link, true => ioEncodeContent c (ioEncodeLinkResponse c msg.content.linkResponse)
  | some .link, false => ioEncodeContent c (ioEncodeLinkRequest c msg.content.linkRequest)
  | some .open, true => ioEncodeNull c
  | some .open, false => ioEncodeContent c (ioEncodeOpenRequest c msg.content.openRequest)
  | some .setopt, true => ioEncodeNull c
  | some .setopt, false => ioEncodeContent c (ioEncodeSetoptRequest c msg.content.setoptRequest)
  | some .getopt, true => ioEncodeContent c (ioEncodeGetoptResponse c msg.content.getoptResponse)
  | some .getopt, false => ioEncodeContent c (ioEncodeGetoptRequest c msg.content.getoptRequest)
  | none, _ => throw (.err .notSupported)

def ioEncodeMessageOf (verNum : UInt32) (msg : IoMessage Bytes) : m Unit := do
  c.encTypeBegin 8
  c.encodeUint32 "version" verNum
  c.encObject "source_id" false (ioEncodeRef c msg.sourceId)
  c.encObject "proxy_id" false (ioEncodeRef c msg.proxyId)
  c.encObject "target_id" false (ioEncodeRef c msg.targetId)
  c.encodeInt32 "error_code" msg.errorCode
  c.encBool "is_response" msg.isResponse
  c.encodeUint32 "type" msg.type
  ioEncodeMessageContent c msg
  c.encTypeEnd

def ioEncodeMessage (msg : IoMessage Bytes) : m Unit :=
  ioEncodeMessageOf c moduleVerNum msg
def encodeMessageObjectOf (verNum : UInt32) (msg : IoMessage Bytes) : m Unit :=
  c.encObject none false (ioEncodeMessageOf c verNum msg)
def encodeMessageObject (msg : IoMessage Bytes) : m Unit :=
  c.encObject none false (ioEncodeMessage c msg)

variable {π : Type} (c : Decoder m π)

def ioDecodePingRequest (request : PingRequest) : m PingRequest := do
  c.decTypeBegin
  let address ← c.decodeMember "address" request.address (ioDecodePrxSocketAddress c)
  c.decTypeEnd
  pure { address }
def ioDecodePingResponse (response : PingResponse) : m PingResponse := do
  c.decTypeBegin
  let address ← c.decodeMember "address" response.address (ioDecodePrxSocketAddress c)
  let physicalAddress ← c.decodeBinFixed "physical_address" response.physicalAddress
  let timeMs ← c.decodeUint32 "time_ms"
  c.decTypeEnd
  pure { address,physicalAddress,timeMs }
def ioDecodeLinkRequest (stale : Property π) (request : LinkRequest π) : m (LinkRequest π) := do
  c.decTypeBegin
  let version ← c.decodeUint8 "version"
  let props ← c.decodeMember "props" request.props (ioDecodePrxSocketProperties c stale)
  c.decTypeEnd
  pure { version,props }
def ioDecodeLinkResponse (response : LinkResponse) : m LinkResponse := do
  c.decTypeBegin
  let linkId ← c.decodeMember "link_id" response.linkId (ioDecodeRef c)
  let localAddress ← c.decodeMember "local_address" response.localAddress (ioDecodePrxSocketAddress c)
  let peerAddress ← c.decodeMember "peer_address" response.peerAddress (ioDecodePrxSocketAddress c)
  c.decTypeEnd
  pure { linkId,localAddress,peerAddress }
def ioDecodeSetoptRequest (request : SetoptRequest π) : m (SetoptRequest π) := do
  c.decTypeBegin
  let soVal ← c.decodeMember "so_val" request.soVal (ioDecodePrxProperty c)
  c.decTypeEnd
  pure { soVal }
def ioDecodeGetoptRequest : m GetoptRequest := do
  c.decTypeBegin
  let soOpt ← c.decodeInt32 "so_opt"
  c.decTypeEnd
  pure { soOpt }
def ioDecodeGetoptResponse (response : GetoptResponse π) : m (GetoptResponse π) := do
  c.decTypeBegin
  let soVal ← c.decodeMember "so_val" response.soVal (ioDecodePrxProperty c)
  c.decTypeEnd
  pure { soVal }

/-- `max_send` is not on the wire. -/
def ioDecodeOpenRequest (request : OpenRequest π) : m (OpenRequest π) := do
  c.decTypeBegin
  let streamId ← c.decodeMember "stream_id" request.streamId (ioDecodeRef c)
  let type ← c.decodeInt32 "type"
  let connectionString ← c.decodeStringDefault "connection-string"
  let polled ← c.decBool "polled"
  let maxRecv ← c.decodeUint32 "max_recv"
  c.decTypeEnd
  pure { request with streamId,type,connectionString,polled,maxRecv }

def ioDecodePollMessage : m PollMessage := do
  c.decTypeBegin
  let sequenceNumber ← c.decUint "sequence_number"
  let timeout ← c.decUint "timeout"
  c.decTypeEnd
  pure { sequenceNumber,timeout }
def ioDecodeDataMessage (message : DataMessage π) : m (DataMessage π) := do
  c.decTypeBegin
  let sequenceNumber ← c.decUint "sequence_number"
  let sourceAddress ← c.decodeMember "source_address" message.sourceAddress (ioDecodePrxSocketAddress c)
  let buffer ← c.decodeBinDefault "buffer"
  let controlBuffer ← c.decodeBinDefault "control_buffer"
  c.decTypeEnd
  pure { sequenceNumber,sourceAddress,buffer,controlBuffer }
def ioDecodeCloseResponse : m CloseResponse := do
  c.decTypeBegin
  let timeOpen ← c.decUint "time_open"
  let bytesReceived ← c.decUint "bytes_received"
  let bytesSent ← c.decUint "bytes_sent"
  let errorCode ← c.decodeInt32 "error_code"
  c.decTypeEnd
  pure { timeOpen,bytesReceived,bytesSent,errorCode }

def ioDecodeContent {α : Type} (content : m α) : m α :=
  c.decObject "content" fun isNull => if isNull then throw (.err .invalidFormat) else content
def ioDecodeNull : m Unit :=
  c.decObject "content" fun isNull => if isNull then pure () else throw (.err .invalidFormat)

def ioDecodeMessageContent (stale : Property π) (msg : IoMessage π) : m (Content π) :=
  let old := msg.content
  match messageType msg.type, msg.isResponse with
  | some .data, _ => do
    let dataMessage ← ioDecodeContent c (ioDecodeDataMessage c old.dataMessage)
    pure { old with dataMessage }
  | some .close, true => do
    let closeResponse ← ioDecodeContent c (ioDecodeCloseResponse c)
    pure { old with closeResponse }
  | some .close, false => do
    ioDecodeNull c
    pure old
  | some .ping, true => do
    let pingResponse ← ioDecodeContent c (ioDecodePingResponse c old.pingResponse)
    pure { old with pingResponse }
  | some .ping, false => do
    let pingRequest ← ioDecodeContent c (ioDecodePingRequest c old.pingRequest)
    pure { old with pingRequest }
  | some .poll, true => do
    ioDecodeNull c
    pure old
  | some .poll, false => do
    let pollMessage ← ioDecodeContent c (ioDecodePollMessage c)
    pure { old with pollMessage }
  | some .link, true => do
    let linkResponse ← ioDecodeContent c (ioDecodeLinkResponse c old.linkResponse)
    pure { old with linkResponse }
  | some .link, false => do
    let linkRequest ← ioDecodeContent c (ioDecodeLinkRequest c stale old.linkRequest)
    pure { old with linkRequest }
  | some .open, true => do
    ioDecodeNull c
    pure old
  | some .open, false => do
    let openRequest ← ioDecodeContent c (ioDecodeOpenRequest c old.openRequest)
    pure { old with openRequest }
  | some .setopt, true => do
    ioDecodeNull c
    pure old
  | some .setopt, false => do
    let setoptRequest ← ioDecodeContent c (ioDecodeSetoptRequest c old.setoptRequest)
    pure { old with setoptRequest }
  | some .getopt, true => do
    let getoptResponse ← ioDecodeContent c (ioDecodeGetoptResponse c old.getoptResponse)
    pure { old with getoptResponse }
  | some .getopt, false => do
    let getoptRequest ← ioDecodeContent c (ioDecodeGetoptRequest c)
    pure { old with getoptRequest }
  | none, _ => throw (.err .notSupported)

def ioDecodeMessageOf (verNum : UInt32) (stale : Property π) (msg : IoMessage π) : m (IoMessage π) := do
  c.decTypeBegin
  let version ← c.decodeUint32 "version"
  if version &&& 0xffff0000 ≠ verNum &&& 0xffff0000 then throw (.err .invalidFormat)
  let sourceId ← c.decodeMember "source_id" msg.sourceId (ioDecodeRef c)
  let proxyId ← c.decodeMember "proxy_id" msg.proxyId (ioDecodeRef c)
  let targetId ← c.decodeMember "target_id" msg.targetId (ioDecodeRef c)
  let errorCode ← c.decodeInt32 "error_code"
  let isResponse ← c.decBool "is_response"
  let type ← c.decodeUint32 "type"
  let msg := { msg with sourceId,proxyId,targetId,errorCode,isResponse,type }
  let content ← ioDecodeMessageContent c stale msg
  c.decTypeEnd
  pure { msg with content }

def ioDecodeMessage (stale : Property π) (msg : IoMessage π) : m (IoMessage π) :=
  ioDecodeMessageOf c moduleVerNum stale msg

/-- How the transports read a message: as the one object of the stream, which must not be null. -/
def decodeMessageObjectOf (verNum : UInt32) (stale : Property π) (msg : IoMessage π) : m (IoMessage π) :=
  c.decObject none fun isNull =>
    if isNull then throw (.err .invalidFormat) else ioDecodeMessageOf c verNum stale msg

def decodeMessageObject (stale : Property π) (msg : IoMessage π) : m (IoMessage π) :=
  c.decObject none fun isNull =>
    if isNull then throw (.err .invalidFormat) else ioDecodeMessage c stale msg

end EdgeProxy.Codec
