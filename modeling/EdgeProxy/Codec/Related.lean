import EdgeProxy.Codec.Proto
import EdgeProxy.Lib.Stream

/-! # Decoders over related codecs

A relation between programs that the reading halves of two codecs respect holds between every decoder run with the one
and the same decoder run with the other, into the same memory.
-/
namespace EdgeProxy.Codec

open Base Lib

variable {m m' : Type → Type} [Monad m] [MonadExceptOf Stop m] [Monad m'] [MonadExceptOf Stop m'] {π : Type}

structure Decoder.Related (R : ProgramRelation Stop m m') (c : Decoder m π) (c' : Decoder m' π) : Prop where
  codecId : c.codecId = .mpack ∧ c'.codecId = .mpack
  decInt : ∀ name, R.holds (c.decInt name) (c'.decInt name)
  decUint : ∀ name, R.holds (c.decUint name) (c'.decUint name)
  decBool : ∀ name, R.holds (c.decBool name) (c'.decBool name)
  stringFixed : ∀ {n : ℕ} name (old : Vector UInt8 n),
    R.holds (c.decodeStringFixed name old) (c'.decodeStringFixed name old)
  stringDefault : ∀ name, R.holds (c.decodeStringDefault name) (c'.decodeStringDefault name)
  binFixed : ∀ {n : ℕ} name (old : Vector UInt8 n), R.holds (c.decodeBinFixed name old) (c'.decodeBinFixed name old)
  binDefault : ∀ name, R.holds (c.decodeBinDefault name) (c'.decodeBinDefault name)
  decObject : ∀ {α : Type} name {body : Bool → m α} {body' : Bool → m' α},
    (∀ isNull, R.holds (body isNull) (body' isNull)) → R.holds (c.decObject name body) (c'.decObject name body')
  decTypeBegin : R.holds c.decTypeBegin c'.decTypeBegin
  decTypeEnd : R.holds c.decTypeEnd c'.decTypeEnd
  encTypeEnd : R.holds c.encTypeEnd c'.encTypeEnd
  decArray : ∀ {α : Type} name {body : ℕ → m α} {body' : ℕ → m' α},
    (∀ size, R.holds (body size) (body' size)) → R.holds (c.decArray name body) (c'.decArray name body')

namespace Decoder.Related

variable {R : ProgramRelation Stop m m'} {c : Decoder m π} {c' : Decoder m' π} (h : c.Related R c')
include h

lemma decodeUint32 (name : Option String) : R.holds (c.decodeUint32 name) (c'.decodeUint32 name) := by
  refine R.bind (h.decUint name) fun v => ?_
  split
  · exact R.pure _
  · exact R.throw _
lemma decodeUint16 (name : Option String) : R.holds (c.decodeUint16 name) (c'.decodeUint16 name) := by
  refine R.bind (h.decUint name) fun v => ?_
  split
  · exact R.pure _
  · exact R.throw _
lemma decodeUint8 (name : Option String) : R.holds (c.decodeUint8 name) (c'.decodeUint8 name) := by
  refine R.bind (h.decUint name) fun v => ?_
  split
  · exact R.pure _
  · exact R.throw _
lemma decodeInt32 (name : Option String) : R.holds (c.decodeInt32 name) (c'.decodeInt32 name) := by
  refine R.bind (h.decInt name) fun v => ?_
  split
  · exact R.pure _
  · exact R.throw _
lemma member {α : Type} (name : Option String) (old : α) {body body'} (hbody : ∀ old, R.holds (body old) (body' old)) :
    R.holds (c.decodeMember name old body) (c'.decodeMember name old body') := by
  refine h.decObject name fun isNull => ?_
  split
  · exact R.pure _
  · exact hbody old

lemma ending {α : Type} (a : α) : R.holds (c.decTypeEnd >>= fun _ => pure a) (c'.decTypeEnd >>= fun _ => pure a) :=
  R.bind h.decTypeEnd fun _ => R.pure a
lemma ioDecodeRef (ref : IoRef) : R.holds (ioDecodeRef c ref) (ioDecodeRef c' ref) := by
  rw [ioDecodeRef_mpack h.codecId.1,ioDecodeRef_mpack h.codecId.2]
  exact R.bind h.decTypeBegin fun _ => R.bind (h.binFixed _ _) fun _ => h.ending _

lemma ioDecodePrxSocketAddressInet (sa : SocketAddress) :
    R.holds (ioDecodePrxSocketAddressInet c sa) (ioDecodePrxSocketAddressInet c' sa) := by
  refine R.bind (h.decodeUint16 _) fun port => ?_
  split
  · exact R.bind (h.binFixed _ _) fun _ => h.ending _
  · exact R.bind (h.decodeUint32 _) fun _ => R.bind (h.binFixed _ _) fun _ => R.bind (h.decodeUint32 _) fun _ =>
      h.ending _
lemma ioDecodePrxSocketAddressProxy (sa : SocketAddress) :
    R.holds (ioDecodePrxSocketAddressProxy c sa) (ioDecodePrxSocketAddressProxy c' sa) :=
  R.bind (h.decodeUint16 _) fun _ => R.bind (h.decodeUint16 _) fun _ => R.bind (h.decodeInt32 _) fun _ =>
    R.bind (h.stringFixed _ _) fun _ => h.ending _
lemma ioDecodePrxSocketAddressUnix (sa : SocketAddress) :
    R.holds (ioDecodePrxSocketAddressUnix c sa) (ioDecodePrxSocketAddressUnix c' sa) :=
  R.bind (h.stringFixed _ _) fun _ => h.ending _
lemma ioDecodePrxSocketAddress (sa : SocketAddress) :
    R.holds (ioDecodePrxSocketAddress c sa) (ioDecodePrxSocketAddress c' sa) := by
  refine R.bind h.decTypeBegin fun _ => R.bind (h.decodeInt32 _) fun family => ?_
  split_ifs
  · exact h.ending _
  · exact h.ioDecodePrxSocketAddressInet _
  · exact h.ioDecodePrxSocketAddressProxy _
  · exact h.ioDecodePrxSocketAddressUnix _
  · exact R.throw _
lemma ioDecodePrxMulticastOption (mo : MulticastOption) :
    R.holds (ioDecodePrxMulticastOption c mo) (ioDecodePrxMulticastOption c' mo) := by
  refine R.bind h.decTypeBegin fun _ => R.bind (h.decodeInt32 _) fun family => R.bind (h.decodeInt32 _) fun index => ?_
  split_ifs
  · exact R.bind (h.binFixed _ _) fun _ => R.bind h.encTypeEnd fun _ => R.pure _
  · exact R.bind (h.binFixed _ _) fun _ => R.bind h.encTypeEnd fun _ => R.pure _
  · exact R.throw _
lemma address (name : Option String) (sa : SocketAddress) :
    R.holds (c.decodeMember name sa (Codec.ioDecodePrxSocketAddress c))
      (c'.decodeMember name sa (Codec.ioDecodePrxSocketAddress c')) :=
  h.member name sa h.ioDecodePrxSocketAddress

lemma ref (name : Option String) (old : IoRef) :
    R.holds (c.decodeMember name old (Codec.ioDecodeRef c)) (c'.decodeMember name old (Codec.ioDecodeRef c')) :=
  h.member name old h.ioDecodeRef
lemma ioDecodePrxAddrinfo (ai : AddrInfo π) :
    R.holds (Codec.ioDecodePrxAddrinfo c ai) (Codec.ioDecodePrxAddrinfo c' ai) :=
  R.bind h.decTypeBegin fun _ => R.bind (h.address _ _) fun _ => R.bind (h.stringDefault _) fun _ => h.ending _

lemma ioDecodePrxIfaddrinfo (ifa : IfAddrInfo) :
    R.holds (Codec.ioDecodePrxIfaddrinfo c ifa) (Codec.ioDecodePrxIfaddrinfo c' ifa) :=
  R.bind h.decTypeBegin fun _ => R.bind (h.address _ _) fun _ => R.bind (h.decodeUint8 _) fun _ =>
    R.bind (h.decodeUint8 _) fun _ => R.bind (h.stringFixed _ _) fun _ => R.bind (h.decodeInt32 _) fun _ =>
      R.bind (h.address _ _) fun _ => h.ending _
lemma ioDecodePrxFileInfo : R.holds (ioDecodePrxFileInfo c) (ioDecodePrxFileInfo c') :=
  R.bind h.decTypeBegin fun _ => R.bind (h.decUint _) fun _ => R.bind (h.decUint _) fun _ =>
    R.bind (h.decodeInt32 _) fun _ => R.bind (h.decUint _) fun _ => R.bind (h.decUint _) fun _ =>
      R.bind (h.decUint _) fun _ => h.ending _
lemma ioDecodePrxPropertyObject (prop : Property π) :
    R.holds (Codec.ioDecodePrxPropertyObject c prop) (Codec.ioDecodePrxPropertyObject c' prop) := by
  unfold Codec.ioDecodePrxPropertyObject
  split_ifs
  · exact R.bind (h.ioDecodePrxMulticastOption _) fun _ => R.pure _
  · exact R.bind (h.ioDecodePrxAddrinfo _) fun _ => R.pure _
  · exact R.bind (h.ioDecodePrxIfaddrinfo _) fun _ => R.pure _
  · exact R.bind h.ioDecodePrxFileInfo fun _ => R.pure _
  · exact R.throw _
lemma ioDecodePrxProperty (prop : Property π) : R.holds (ioDecodePrxProperty c prop) (ioDecodePrxProperty c' prop) := by
  refine R.bind h.decTypeBegin fun _ => R.bind (h.decodeInt32 _) fun type => ?_
  split_ifs
  · refine R.bind (h.decObject _ fun isNull => ?_) h.ending
    split
    · exact R.throw _
    · exact h.ioDecodePrxPropertyObject _
  · exact R.bind (h.binDefault _) fun _ => R.bind (R.pure _) h.ending
  · exact R.bind (h.decUint _) fun _ => R.bind (R.pure _) h.ending
  · exact R.bind (R.throw _) fun _ => h.ending _
lemma ioDecodeOptions (size : ℕ) (option : Property π) (options : Vector (Property π) prxSoMax) :
    R.holds (ioDecodeOptions c size option options) (ioDecodeOptions c' size option options) := by
  induction size generalizing option options with
  | zero => exact R.pure _
  | succ size ih => exact R.bind (h.decObject _ fun _ => h.ioDecodePrxProperty _) fun option => ih option _
lemma ioDecodePrxSocketProperties (stale : Property π) (sp : SocketProperties π) :
    R.holds (Codec.ioDecodePrxSocketProperties c stale sp) (Codec.ioDecodePrxSocketProperties c' stale sp) :=
  R.bind h.decTypeBegin fun _ => R.bind (h.decodeInt32 _) fun _ => R.bind (h.decodeInt32 _) fun _ =>
    R.bind (h.decodeInt32 _) fun _ => R.bind (h.decodeUint32 _) fun _ => R.bind (h.decUint _) fun _ =>
      R.bind (h.address _ _) fun _ => R.bind (h.decArray _ fun size => h.ioDecodeOptions size _ _) fun _ => h.ending _
lemma ioDecodePingRequest (request : PingRequest) :
    R.holds (Codec.ioDecodePingRequest c request) (Codec.ioDecodePingRequest c' request) :=
  R.bind h.decTypeBegin fun _ => R.bind (h.address _ _) fun _ => h.ending _
lemma ioDecodePingResponse (response : PingResponse) :
    R.holds (Codec.ioDecodePingResponse c response) (Codec.ioDecodePingResponse c' response) :=
  R.bind h.decTypeBegin fun _ => R.bind (h.address _ _) fun _ => R.bind (h.binFixed _ _) fun _ =>
    R.bind (h.decodeUint32 _) fun _ => h.ending _
lemma ioDecodeLinkRequest (stale : Property π) (request : LinkRequest π) :
    R.holds (ioDecodeLinkRequest c stale request) (ioDecodeLinkRequest c' stale request) :=
  R.bind h.decTypeBegin fun _ => R.bind (h.decodeUint8 _) fun _ =>
    R.bind (h.member _ _ (h.ioDecodePrxSocketProperties stale)) fun _ => h.ending _
lemma ioDecodeLinkResponse (response : LinkResponse) :
    R.holds (Codec.ioDecodeLinkResponse c response) (Codec.ioDecodeLinkResponse c' response) :=
  R.bind h.decTypeBegin fun _ => R.bind (h.ref _ _) fun _ => R.bind (h.address _ _) fun _ =>
    R.bind (h.address _ _) fun _ => h.ending _

lemma ioDecodeSetoptRequest (request : SetoptRequest π) :
    R.holds (ioDecodeSetoptRequest c request) (ioDecodeSetoptRequest c' request) :=
  R.bind h.decTypeBegin fun _ => R.bind (h.member _ _ h.ioDecodePrxProperty) fun _ => h.ending _
lemma ioDecodeGetoptRequest : R.holds (ioDecodeGetoptRequest c) (ioDecodeGetoptRequest c') :=
  R.bind h.decTypeBegin fun _ => R.bind (h.decodeInt32 _) fun _ => h.ending _
lemma ioDecodeGetoptResponse (response : GetoptResponse π) :
    R.holds (ioDecodeGetoptResponse c response) (ioDecodeGetoptResponse c' response) :=
  R.bind h.decTypeBegin fun _ => R.bind (h.member _ _ h.ioDecodePrxProperty) fun _ => h.ending _

lemma ioDecodeOpenRequest (request : OpenRequest π) :
    R.holds (Codec.ioDecodeOpenRequest c request) (Codec.ioDecodeOpenRequest c' request) :=
  R.bind h.decTypeBegin fun _ => R.bind (h.ref _ _) fun _ => R.bind (h.decodeInt32 _) fun _ =>
    R.bind (h.stringDefault _) fun _ => R.bind (h.decBool _) fun _ => R.bind (h.decodeUint32 _) fun _ => h.ending _
lemma ioDecodePollMessage : R.holds (ioDecodePollMessage c) (ioDecodePollMessage c') :=
  R.bind h.decTypeBegin fun _ => R.bind (h.decUint _) fun _ => R.bind (h.decUint _) fun _ => h.ending _
lemma ioDecodeDataMessage (message : DataMessage π) :
    R.holds (Codec.ioDecodeDataMessage c message) (Codec.ioDecodeDataMessage c' message) :=
  R.bind h.decTypeBegin fun _ => R.bind (h.decUint _) fun _ => R.bind (h.address _ _) fun _ =>
    R.bind (h.binDefault _) fun _ => R.bind (h.binDefault _) fun _ => h.ending _
lemma ioDecodeCloseResponse : R.holds (ioDecodeCloseResponse c) (ioDecodeCloseResponse c') :=
  R.bind h.decTypeBegin fun _ => R.bind (h.decUint _) fun _ => R.bind (h.decUint _) fun _ =>
    R.bind (h.decUint _) fun _ => R.bind (h.decodeInt32 _) fun _ => h.ending _
lemma content {α β : Type} {body body'} (hbody : R.holds body body') (f : α → β) :
    R.holds (ioDecodeContent c body >>= fun a => pure (f a)) (ioDecodeContent c' body' >>= fun a => pure (f a)) := by
  refine R.bind (h.decObject _ fun isNull => ?_) fun _ => R.pure _
  split
  · exact R.throw _
  · exact hbody
lemma noContent {β : Type} (b : β) :
    R.holds (ioDecodeNull c >>= fun _ => pure b) (ioDecodeNull c' >>= fun _ => pure b) := by
  refine R.bind (h.decObject _ fun isNull => ?_) fun _ => R.pure _
  split
  · exact R.pure _
  · exact R.throw _

lemma ioDecodeMessageContent (stale : Property π) (msg : IoMessage π) :
    R.holds (Codec.ioDecodeMessageContent c stale msg) (Codec.ioDecodeMessageContent c' stale msg) := by
  unfold Codec.ioDecodeMessageContent
  split
  · exact h.content (h.ioDecodeDataMessage _) _
  · exact h.content h.ioDecodeCloseResponse _
  · exact h.noContent _
  · exact h.content (h.ioDecodePingResponse _) _
  · exact h.content (h.ioDecodePingRequest _) _
  · exact h.noContent _
  · exact h.content h.ioDecodePollMessage _
  · exact h.content (h.ioDecodeLinkResponse _) _
  · exact h.content (h.ioDecodeLinkRequest _ _) _
  · exact h.noContent _
  · exact h.content (h.ioDecodeOpenRequest _) _
  · exact h.noContent _
  · exact h.content (h.ioDecodeSetoptRequest _) _
  · exact h.content (h.ioDecodeGetoptResponse _) _
  · exact h.content h.ioDecodeGetoptRequest _
  · exact R.throw _

lemma ioDecodeMessage (stale : Property π) (msg : IoMessage π) :
    R.holds (Codec.ioDecodeMessage c stale msg) (Codec.ioDecodeMessage c' stale msg) := by
  refine R.bind h.decTypeBegin fun _ => R.bind (h.decodeUint32 _) fun version => ?_
  have hmembers := R.bind (h.ref "source_id" msg.sourceId) fun sourceId => R.bind (h.ref "proxy_id" msg.proxyId)
    fun proxyId => R.bind (h.ref "target_id" msg.targetId) fun targetId => R.bind (h.decodeInt32 "error_code")
    fun errorCode => R.bind (h.decBool "is_response") fun isResponse => R.bind (h.decodeUint32 "type") fun type =>
    R.bind (h.ioDecodeMessageContent stale { msg with sourceId,proxyId,targetId,errorCode,isResponse,type })
    fun content => h.ending { msg with sourceId,proxyId,targetId,errorCode,isResponse,type,content }
  split_ifs
  · exact R.bind (R.throw _) fun _ => hmembers
  · exact hmembers
lemma decodeMessageObject (stale : Property π) (msg : IoMessage π) :
    R.holds (decodeMessageObject c stale msg) (decodeMessageObject c' stale msg) := by
  refine h.decObject none fun isNull => ?_
  split
  · exact R.throw _
  · exact h.ioDecodeMessage stale msg

end Decoder.Related

end EdgeProxy.Codec
