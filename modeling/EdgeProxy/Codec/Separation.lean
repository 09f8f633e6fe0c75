import EdgeProxy.Codec.Json
import EdgeProxy.Codec.Raw

/-! # Reading, then filling

For every codec whose operations let reading be separated from storing, a decoder is its reader followed by the filling
of the memory it was given. Both codecs are such.
-/
namespace EdgeProxy.Codec

open Base Lib.MessagePack Functor RawAddress

variable {m : Type → Type} {π α β γ : Type} [Monad m]

lemma bind_eq_map [LawfulMonad m] {x : m α} {f : α → m γ} {g : α → m β} {k : β → γ} (h : ∀ a, f a = k <$> g a) :
    x >>= f = k <$> (x >>= g) := by
  rw [map_bind]
  exact bind_congr h

variable [MonadExceptOf Stop m]

lemma bind_eq_required [LawfulMonad m] {x : m α} {f : α → m γ} {g : α → m (Option β)} {k : β → γ}
    (h : ∀ a, f a = k <$> required (g a)) : x >>= f = k <$> required (x >>= g) := by
  rw [required,bind_assoc]
  exact bind_eq_map h

section

/-- Storing can be separated from reading: where content goes makes no difference to what is read, and content that is
put over the previous one can be put there later. -/
structure Decoder.Splits (c : Decoder m π) : Prop where
  binFixed : ∀ {n : ℕ} name (old : Vector UInt8 n), c.decodeBinFixed name old = overlay old <$> readBin c n name
  stringFixed : ∀ {n : ℕ} name (old : Vector UInt8 n),
    c.decodeStringFixed name old = (fun d => overlay old d.1) <$> readText c n name
  stringDefault : ∀ name, c.decodeStringDefault name = some <$> required (c.decodeStringDefault name)
  decObject : ∀ {α β : Type} name (f : α → β) (body : Bool → m α),
    (c.decObject name fun isNull => f <$> body isNull) = f <$> c.decObject name body
  decArray : ∀ {α β : Type} name (f : α → β) (body : ℕ → m α),
    (c.decArray name fun size => f <$> body size) = f <$> c.decArray name body
  throw_bind : ∀ {α β : Type} (e : Stop) (f : α → m β), (throw e : m α) >>= f = throw e

variable [LawfulMonad m] {c : Decoder m π} (h : c.Splits)
include h

lemma map_throw_eq {α β : Type} (e : Stop) (f : α → β) : f <$> (throw e : m α) = throw e := by
  rw [map_eq_pure_bind,h.throw_bind]
lemma object_eq {α β : Type} {name : Option String} {e : Stop} {f : α → β} {x y} (hx : x = f <$> y) :
    (c.decObject name fun isNull => if isNull then throw e else x) =
      f <$> c.decObject name fun isNull => if isNull then throw e else y := by
  rw [← h.decObject,hx]
  congr 1
  funext isNull
  cases isNull with
  | false => rfl
  | true => exact (map_throw_eq h _ _).symm
lemma decodeMember_eq {α β : Type} (name : Option String) (old : β) {decode read}
    (apply : α → β → β) (hdecode : ∀ old, decode old = (fun raw => apply raw old) <$> read) :
    c.decodeMember name old decode = (fun raw => applyMember apply raw old) <$> readMember c name read := by
  unfold Decoder.decodeMember readMember
  rw [← h.decObject]
  congr 1
  funext isNull
  cases isNull with
  | false => simp [hdecode,applyMember]
  | true => simp [applyMember]
lemma refOfString_eq (palPton : Bytes → Except PrxError SocketAddress) (str : Bytes) (ref : IoRef) :
    refOfString palPton str ref = (fun d => applyRef d ref) <$> (refBytes palPton str : m Bytes) := by
  unfold refOfString refBytes
  cases cstr str with
  | none => exact (map_throw_eq h _ _).symm
  | some string =>
    dsimp only [ioRefFromString]
    split_ifs
    · exact (map_throw_eq h _ _).symm
    all_goals
      cases stringToUuid _ <;> cases palPton _ <;>
        simp [map_throw_eq h,applyRef,overlay_toList,Except.map]
lemma ioDecodeRef_eq (ref : IoRef) : ioDecodeRef c ref = (fun d => applyRef d ref) <$> readRef c := by
  unfold ioDecodeRef readRef
  cases c.codecId <;> simp [refOfString_eq h,h.binFixed,applyRef]
lemma ioDecodePrxSocketAddressInet_eq (sa : SocketAddress)
    (hfamily : sa.family = prxAddressFamilyInet ∨ sa.family = prxAddressFamilyInet6) :
    ioDecodePrxSocketAddressInet c sa = (fun raw => raw.apply sa) <$> readAddressInet c sa.family := by
  unfold readAddressInet
  refine bind_eq_map fun port => ?_
  by_cases hinet : sa.family = prxAddressFamilyInet
  · rw [if_pos hinet,if_pos hinet]
    simp [h.binFixed,apply,hinet]
  · rw [if_neg hinet,if_neg hinet]
    simp [h.binFixed,apply,hfamily.resolve_left hinet]
lemma ioDecodePrxSocketAddressProxy_eq (sa : SocketAddress) (hfamily : sa.family = prxAddressFamilyProxy) :
    ioDecodePrxSocketAddressProxy c sa = (fun raw => raw.apply sa) <$> readAddressProxy c := by
  simp [ioDecodePrxSocketAddressProxy,readAddressProxy,h.stringFixed,apply,← hfamily]
lemma ioDecodePrxSocketAddressUnix_eq (sa : SocketAddress) (hfamily : sa.family = prxAddressFamilyUnix) :
    ioDecodePrxSocketAddressUnix c sa = (fun raw => raw.apply sa) <$> readAddressUnix c := by
  simp [ioDecodePrxSocketAddressUnix,readAddressUnix,h.stringFixed,apply,← hfamily]

lemma ioDecodePrxSocketAddress_eq (sa : SocketAddress) :
    ioDecodePrxSocketAddress c sa = (fun raw => raw.apply sa) <$> readAddress c := by
  unfold readAddress
  refine bind_eq_map fun _ => bind_eq_map fun family => ?_
  split_ifs with hunspec hinet hproxy hunix
  · simp [apply,hunspec]
  · rw [ioDecodePrxSocketAddressInet_eq h _ hinet]
    simp [apply_family]
  · rw [ioDecodePrxSocketAddressProxy_eq h _ hproxy]
    simp [apply_family]
  · rw [ioDecodePrxSocketAddressUnix_eq h _ hunix]
    simp [apply_family]
  · rw [map_throw_eq h]

lemma ioDecodePrxMulticastOption_eq (mo : MulticastOption) :
    ioDecodePrxMulticastOption c mo = (fun raw => raw.apply mo) <$> readMulticast c := by
  unfold readMulticast
  refine bind_eq_map fun _ => bind_eq_map fun family => bind_eq_map fun itfIndex => ?_
  split_ifs with hinet hinet6
  · simp [h.binFixed,RawMulticast.apply,hinet]
  · simp [h.binFixed,RawMulticast.apply,hinet6]
  · rw [map_throw_eq h]
lemma ioDecodePrxAddrinfo_eq (prop : Property π) (hprop : prop.type = prxPropertyTypeAddrinfo) :
    (ioDecodePrxAddrinfo c prop.addrInfo >>= fun addrInfo => pure { prop with addrInfo }) =
      (fun raw => raw.apply prop) <$> readAddrinfo c := by
  unfold ioDecodePrxAddrinfo
  rw [h.stringDefault]
  simp [readAddrinfo,decodeMember_eq h _ _ apply (ioDecodePrxSocketAddress_eq h),RawProperty.apply,← hprop]
lemma ioDecodePrxIfaddrinfo_eq (prop : Property π) (hprop : prop.type = prxPropertyTypeIfaddrinfo) :
    (ioDecodePrxIfaddrinfo c prop.itfInfo >>= fun itfInfo => pure { prop with itfInfo }) =
      (fun raw => raw.apply prop) <$> readIfaddrinfo c := by
  unfold ioDecodePrxIfaddrinfo readIfaddrinfo
  simp [decodeMember_eq h _ _ apply (ioDecodePrxSocketAddress_eq h),h.stringFixed,RawProperty.apply,← hprop]
lemma ioDecodePrxPropertyObject_eq (prop : Property π) :
    ioDecodePrxPropertyObject c prop = (fun raw => raw.apply prop) <$> readPropertyObject c prop.type := by
  unfold ioDecodePrxPropertyObject readPropertyObject
  split_ifs with hmulticast haddr hif hfile
  · simp [ioDecodePrxMulticastOption_eq h,RawProperty.apply]
  · exact ioDecodePrxAddrinfo_eq h prop haddr
  · exact ioDecodePrxIfaddrinfo_eq h prop hif
  · simp [RawProperty.apply,← hfile]
  · rw [map_throw_eq h]

lemma ioDecodePrxProperty_eq (prop : Property π) :
    ioDecodePrxProperty c prop = (fun raw => raw.apply prop) <$> readProperty c := by
  unfold readProperty
  refine bind_eq_map fun _ => bind_eq_map fun type => ?_
  dsimp only
  split_ifs
  · rw [object_eq h (ioDecodePrxPropertyObject_eq h { prop with type })]
    simp [RawProperty.apply_type]
  · simp [RawProperty.apply]
  · simp [RawProperty.apply]
  · rw [h.throw_bind,h.throw_bind,map_throw_eq h]

lemma ioDecodeOptions_eq (size : ℕ) (option : Property π) (options : Vector (Property π) prxSoMax) :
    ioDecodeOptions c size option options = (fun raws => applyOptions raws option options) <$> readOptions c size := by
  induction size generalizing option options with
  | zero => simp [ioDecodeOptions,readOptions,applyOptions]
  | succ size ih =>
    simp only [ioDecodeOptions,readOptions,ioDecodePrxProperty_eq h,RawProperty.apply_type,h.decObject,bind_map_left,
      ih,map_bind]
    simp only [map_eq_pure_bind,pure_bind,applyOptions]
lemma ioDecodePrxSocketProperties_eq (stale : Property π) (sp : SocketProperties π) :
    ioDecodePrxSocketProperties c stale sp = (fun raw => raw.apply stale sp) <$> readProps c := by
  simp [ioDecodePrxSocketProperties,readProps,ioDecodeOptions_eq h,h.decArray,
    decodeMember_eq h _ _ apply (ioDecodePrxSocketAddress_eq h),RawProps.apply]
lemma ioDecodeDataMessage_eq (message : DataMessage π) :
    ioDecodeDataMessage c message = (fun raw => raw.apply message) <$> readDataMessage c := by
  simp [ioDecodeDataMessage,readDataMessage,decodeMember_eq h _ _ apply (ioDecodePrxSocketAddress_eq h),
    RawDataMessage.apply]
lemma ioDecodePingRequest_eq (request : PingRequest) :
    ioDecodePingRequest c request = (fun raw => applyPingRequest raw request) <$> readPingRequest c := by
  simp [ioDecodePingRequest,readPingRequest,decodeMember_eq h _ _ apply (ioDecodePrxSocketAddress_eq h),
    applyPingRequest]
lemma ioDecodePingResponse_eq (response : PingResponse) :
    ioDecodePingResponse c response = (fun raw => raw.apply response) <$> readPingResponse c := by
  simp [ioDecodePingResponse,readPingResponse,h.binFixed,decodeMember_eq h _ _ apply (ioDecodePrxSocketAddress_eq h),
    RawPingResponse.apply]
lemma ioDecodeLinkRequest_eq (stale : Property π) (request : LinkRequest π) :
    ioDecodeLinkRequest c stale request = (fun raw => raw.apply stale request) <$> readLinkRequest c := by
  simp [ioDecodeLinkRequest,readLinkRequest,
    decodeMember_eq h _ _ (RawProps.apply stale) (ioDecodePrxSocketProperties_eq h stale),RawLinkRequest.apply]
lemma ioDecodeLinkResponse_eq (response : LinkResponse) :
    ioDecodeLinkResponse c response = (fun raw => raw.apply response) <$> readLinkResponse c := by
  simp [ioDecodeLinkResponse,readLinkResponse,decodeMember_eq h _ _ applyRef (ioDecodeRef_eq h),
    decodeMember_eq h _ _ apply (ioDecodePrxSocketAddress_eq h),RawLinkResponse.apply]
lemma ioDecodeOpenRequest_eq (request : OpenRequest π) :
    ioDecodeOpenRequest c request = (fun raw => raw.apply request) <$> readOpenRequest c := by
  unfold ioDecodeOpenRequest
  rw [h.stringDefault]
  simp [readOpenRequest,decodeMember_eq h _ _ applyRef (ioDecodeRef_eq h),RawOpenRequest.apply]
lemma ioDecodeSetoptRequest_eq (request : SetoptRequest π) :
    ioDecodeSetoptRequest c request = (fun raw => applySetoptRequest raw request) <$> readSoVal c := by
  simp [ioDecodeSetoptRequest,readSoVal,decodeMember_eq h _ _ RawProperty.apply (ioDecodePrxProperty_eq h),
    applySetoptRequest]
lemma ioDecodeGetoptResponse_eq (response : GetoptResponse π) :
    ioDecodeGetoptResponse c response = (fun raw => applyGetoptResponse raw response) <$> readSoVal c := by
  simp [ioDecodeGetoptResponse,readSoVal,decodeMember_eq h _ _ RawProperty.apply (ioDecodePrxProperty_eq h),
    applyGetoptResponse]
lemma ioDecodeContent_map {α β : Type} (f : α → β) (content : m α) :
    ioDecodeContent c (f <$> content) = f <$> ioDecodeContent c content :=
  object_eq h rfl

lemma ioDecodeMessageContent_eq (stale : Property π) (msg : IoMessage π) : ioDecodeMessageContent c stale msg =
      (fun raw => raw.apply stale msg.content) <$> readContent c msg.type msg.isResponse := by
  unfold ioDecodeMessageContent readContent
  cases messageType msg.type with
  | none => exact (map_throw_eq h _ _).symm
  | some type =>
    cases type <;> cases msg.isResponse
    all_goals simp only [← map_eq_pure_bind,map_map,RawContent.apply]
    case data.false | data.true => simp only [ioDecodeDataMessage_eq h,ioDecodeContent_map h,map_map]
    case ping.true => simp only [ioDecodePingResponse_eq h,ioDecodeContent_map h,map_map]
    case ping.false => simp only [ioDecodePingRequest_eq h,ioDecodeContent_map h,map_map]
    case link.true => simp only [ioDecodeLinkResponse_eq h,ioDecodeContent_map h,map_map]
    case link.false => simp only [ioDecodeLinkRequest_eq h,ioDecodeContent_map h,map_map]
    case open.false => simp only [ioDecodeOpenRequest_eq h,ioDecodeContent_map h,map_map]
    case setopt.false => simp only [ioDecodeSetoptRequest_eq h,ioDecodeContent_map h,map_map]
    case getopt.true => simp only [ioDecodeGetoptResponse_eq h,ioDecodeContent_map h,map_map]

lemma ioDecodeMessage_eq (stale : Property π) (msg : IoMessage π) :
    ioDecodeMessage c stale msg = (fun raw => raw.apply stale msg) <$> readMessage c := by
  unfold readMessage
  refine bind_eq_map fun _ => bind_eq_map fun version => ?_
  split_ifs
  · rw [h.throw_bind,h.throw_bind,map_throw_eq h]
  · simp [decodeMember_eq h _ _ applyRef (ioDecodeRef_eq h),ioDecodeMessageContent_eq h,RawMessage.apply]
lemma decodeMessageObject_eq (stale : Property π) (msg : IoMessage π) :
    decodeMessageObject c stale msg = (fun raw => raw.apply stale msg) <$> readMessageObject c :=
  object_eq h (ioDecodeMessage_eq h stale msg)

end

variable (lib : Library) {n : ℕ} {ω : Type} {x : StateT ω (Except Stop) Bytes} {size : ℕ}

lemma overlay_nil (old : Vector UInt8 n) : overlay old [] = old := by
  simp [overlay]
lemma store_fixed (old : Vector UInt8 n) :
    (do let store ← (fixedValidator old).alloc size; let d ← x; store d) =
      overlay old <$> (do let store ← (collect n).alloc size; let d ← x; store d) := by
  unfold fixedValidator collect
  dsimp only
  split_ifs
  · simp only [pure_bind]
    refine bind_eq_map fun d => ?_
    split_ifs <;> rfl
  · rfl
lemma store_text (old : Vector UInt8 n) :
    (do let store ← (fixedValidator old).alloc size; let d ← x; store (d ++ [0])) = (fun d => overlay old d.1) <$>
      required (do let store ← (collectText n).alloc size; let d ← x; store (d ++ [0])) := by
  unfold fixedValidator collectText
  dsimp only
  split_ifs
  · simp only [pure_bind]
    refine bind_eq_required fun d => ?_
    by_cases hlen : (d ++ [0]).length ≤ n
    · rw [if_pos hlen,dif_pos ⟨by simp,hlen⟩]
      rfl
    · rw [if_neg hlen,dif_neg fun h => hlen h.2]
      rfl
  · rfl

lemma mpackReadBin_eq (name : Option String) (old : Vector UInt8 n) :
    mpackReadBin lib name (fixedValidator old) = overlay old <$> mpackReadBin lib name (collect n) := by
  refine bind_eq_map fun _ => bind_eq_map fun len => ?_
  split_ifs
  · simp [fixedValidator,collect,overlay_nil]
  · exact store_fixed old
lemma mpackReadString_eq (name : Option String) (old : Vector UInt8 n) : mpackReadString lib name (fixedValidator old) =
      (fun d => overlay old d.1) <$> required (mpackReadString lib name (collectText n)) :=
  bind_eq_required fun _ => bind_eq_required fun _ => store_text old
lemma mpackReadStringDefault_eq (place : ℕ → Option ℕ) (name : Option String) :
    mpackReadString lib name (ioMessageAllocator place) =
      some <$> required (mpackReadString lib name (ioMessageAllocator place)) := by
  refine bind_eq_required fun _ => bind_eq_required fun len => ?_
  simp only [ioMessageAllocator,bind_assoc]
  refine bind_eq_required fun p => ?_
  cases p <;> simp only [pure_bind] <;> exact bind_eq_required fun _ => rfl
lemma map_nested (index : ℕ) (f : α → β) (body : Dec α) : nested index (f <$> body) = f <$> nested index body := by
  simp [nested]
lemma mpackReadObject_map (name : Option String) (f : α → β) (body : Bool → Dec α) :
    (mpackReadObject lib name fun isNull => f <$> body isNull) = f <$> mpackReadObject lib name body := by
  unfold mpackReadObject
  refine bind_eq_map fun _ => bind_eq_map fun head => ?_
  split
  · exact map_nested 0 f (body true)
  · rw [← map_nested]
    simp
  · rfl
lemma mpackReadArray_map (name : Option String) (f : α → β) (body : ℕ → Dec α) :
    (mpackReadArray lib name fun size => f <$> body size) = f <$> mpackReadArray lib name body := by
  simp [mpackReadArray,map_nested]
lemma mpackDecoder_splits (place : ℕ → Option ℕ) : (mpackDecoder lib place).Splits where
  binFixed := mpackReadBin_eq lib
  stringFixed := mpackReadString_eq lib
  stringDefault := mpackReadStringDefault_eq lib place
  decObject := mpackReadObject_map lib
  decArray := mpackReadArray_map lib
  throw_bind _ _ := rfl

variable {τ : Type} (json : JsonLibrary τ)

lemma jsonReadBin_eq (name : Option String) (old : Vector UInt8 n) :
    jsonReadBin json name (fixedValidator old) = overlay old <$> jsonReadBin json name (collect n) := by
  refine bind_eq_map fun value => ?_
  split
  · split_ifs
    · simp [fixedValidator,collect,overlay_nil]
    · split
      · rfl
      · exact store_fixed (x := pure _) old
  · rfl
lemma jsonReadString_eq (name : Option String) (old : Vector UInt8 n) : jsonReadString name (fixedValidator old) =
      (fun d => overlay old d.1) <$> required (jsonReadString name (collectText n)) := by
  refine bind_eq_required fun value => ?_
  split
  · exact store_text (x := pure _) old
  · rfl
lemma jsonReadStringDefault_eq (place : ℕ → Option ℕ) (name : Option String) :
    jsonReadString name (jsonMessageAllocator place) =
      some <$> required (jsonReadString name (jsonMessageAllocator place)) := by
  refine bind_eq_required fun value => ?_
  split
  · funext ctx
    simp only [required,jsonMessageAllocator,ioMessageAllocator,onMemory,StateT.run,bind,StateT.bind,map,StateT.map]
    rcases ioMessageAllocateBuffer place _ _ with _ | ⟨_ | _,_⟩ <;> rfl
  · rfl
lemma map_jsonNested (value : Lib.Json) (f : α → β) (body : JsonDec α) :
    jsonNested value (f <$> body) = f <$> jsonNested value body := by
  simp [jsonNested]
lemma jsonReadObject_map (name : Option String) (f : α → β) (body : Bool → JsonDec α) :
    (jsonReadObject name fun isNull => f <$> body isNull) = f <$> jsonReadObject name body := by
  unfold jsonReadObject
  refine bind_eq_map fun value => ?_
  split <;> first | rfl | exact map_jsonNested _ f _
lemma jsonReadArray_map (name : Option String) (f : α → β) (body : ℕ → JsonDec α) :
    (jsonReadArray name fun size => f <$> body size) = f <$> jsonReadArray name body := by
  unfold jsonReadArray
  refine bind_eq_map fun value => ?_
  split
  · exact map_jsonNested _ f _
  · rfl
lemma jsonDecoder_splits (palPton : Bytes → Except PrxError SocketAddress) (place : ℕ → Option ℕ) :
    (jsonDecoder json palPton place).Splits where
  binFixed := jsonReadBin_eq json
  stringFixed := jsonReadString_eq
  stringDefault := jsonReadStringDefault_eq place
  decObject := jsonReadObject_map
  decArray := jsonReadArray_map
  throw_bind _ _ := rfl

end EdgeProxy.Codec
