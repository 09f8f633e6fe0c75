import EdgeProxy.Client.Serializer
import EdgeProxy.Codec.DecodeMessage

/-! # What a message of the client means

The values that the objects of the client stand for, in the terms of the native protocol. A message has no meaning when
the native protocol has no such value.
-/
namespace EdgeProxy.Client

open Lib.MessagePack Option Property
open Codec (prxSoMax)

def denoteString (P : Bytes → Prop) [DecidablePred P] (s : Option String) : Option { t : Bytes // P t } := do
  let s ← s
  if h : P (utf8 s) then some ⟨utf8 s,h⟩ else none
def denoteText (s : Option String) : Option Codec.Text :=
  denoteString (fun t => 0 ∉ t) s
def denoteFixedText (n : ℕ) (s : Option String) : Option (Codec.FixedText n) :=
  denoteString (fun t => 0 ∉ t ∧ t.length < n) s
def denoteArray (n : ℕ) (d : Option Bytes) : Option (Vector UInt8 n) :=
  d.bind (toVector n)
def denoteReference : Option Reference → Codec.IoRef
  | none => default
  | some r => ⟨r.storage⟩

def denoteAddress : Option SocketAddress → Option Codec.Address
  | none | some .null => some .unspec
  | some (.inet4 address port) => (denoteArray 4 address).map (.inet port)
  | some (.inet6 address port flow scopeId) =>
    (denoteArray 16 address).map fun addr => .inet6 port flow addr scopeId
  | some (.proxy host port flags interfaceIndex) => (denoteFixedText _ host).map (.proxy port flags interfaceIndex)
  | some (.unix path) => (denoteFixedText _ path).map .unix
  | some .collection | some .bound => none
def denoteMulticast : MulticastOption → Option Codec.Multicast
  | .inet4 interfaceIndex address => (denoteArray 4 address).map (.inet interfaceIndex)
  | .inet6 interfaceIndex address =>
    (denoteArray 16 address).map fun addr => .inet6 interfaceIndex addr (scopeId interfaceIndex)

def FileInfo.IsNatural (info : FileInfo) : Prop :=
  0 ≤ info.nodeId ∧ 0 ≤ info.deviceId ∧ 0 ≤ info.size ∧ 0 ≤ info.lastAccessedAsUnixTime ∧
    0 ≤ info.lastModifiedAsUnixTime
instance (info : FileInfo) : Decidable info.IsNatural :=
  inferInstanceAs (Decidable (_ ∧ _))

def denoteFileInfo (info : FileInfo) : Option Codec.FileInfo :=
  if info.IsNatural then some
    { inodeNumber := info.nodeId.toUInt64
      deviceId := info.deviceId.toUInt64
      type := info.type
      totalSize := info.size.toUInt64
      lastAtime := info.lastAccessedAsUnixTime.toUInt64
      lastMtime := info.lastModifiedAsUnixTime.toUInt64 }
  else none
def denoteInterfaceInfo (info : InterfaceInfo) : Option Codec.Interface := do
  let address ← denoteAddress info.address
  let name ← denoteFixedText _ info.name
  let broadcastAddr ← denoteAddress info.broadcast
  pure ⟨address,info.subnetPrefix,info.flags,name,info.index,broadcastAddr⟩
def denoteAddressInfo (info : AddressInfo) : Option Codec.Value := do
  let address ← denoteAddress info.socketAddress
  let name ← denoteText info.canonicalName
  pure (.addrInfo address name)

def Property.denote (p : Property) : Option Codec.Value :=
  match p.value with
  | .number value => if h : Codec.IsPlainOption p.type.toInt32 then some (.option ⟨_,h⟩ value) else none
  | .bytes value => if h : Codec.isRecordType p.type.toInt32 then value.map (.record ⟨_,h⟩) else none
  | .multicast value =>
    if h : Codec.isMulticast p.type.toInt32 then (value.bind denoteMulticast).map (.multicast ⟨_,h⟩) else none
  | .fileInfo value =>
    if p.type = propertyTypeFileInfo then (value.bind denoteFileInfo).map .fileInfo else none
  | .addressInfo value =>
    if p.type = propertyTypeAddressInfo then value.bind denoteAddressInfo else none
  | .interfaceInfo value =>
    if p.type = propertyTypeInterfaceInfo then (value.bind denoteInterfaceInfo).map .ifAddrInfo else none
  | .base => none

def slotted (values : List Codec.Value) : Codec.Options :=
  fun i => values.find? fun v => v.type = .ofNat i.1
def denoteProperties : List (Option Property) → Option (List Codec.Value)
  | [] => some []
  | p :: ps => do
    let value ← p.bind Property.denote
    let values ← denoteProperties ps
    pure (value :: values)
def denoteOptions (options : Option (List (Option Property))) : Option Codec.Options := do
  let values ← options.bind denoteProperties
  if (∀ v ∈ values, Codec.isSocketOption v.type) ∧ (values.map Codec.Value.type).Nodup then some (slotted values)
  else none
def denoteSocketInfo (info : SocketInfo) : Option Codec.Props := do
  let address ← denoteAddress info.address
  let options ← denoteOptions info.options
  pure ⟨info.family,info.type,info.protocol,info.flags,info.timeout,address,options⟩

def Content.denote (isResponse : Bool) : Content → Option Codec.Body
  | data sequenceNumber source payload control => do
    let source ← denoteAddress source
    let buffer ← payload
    let controlBuffer ← control
    pure (.data isResponse sequenceNumber source buffer controlBuffer)
  | closeRequest => some .closeRequest
  | closeResponse timeOpenInMilliseconds bytesSent bytesReceived errorCode =>
    some (.closeResponse timeOpenInMilliseconds bytesReceived bytesSent errorCode)
  | pingRequest socketAddress => (denoteAddress socketAddress).map .pingRequest
  | pingResponse socketAddress physicalAddress timeMs => do
    let address ← denoteAddress socketAddress
    let physicalAddress ← denoteArray 8 physicalAddress
    pure (.pingResponse address physicalAddress timeMs)
  | pollRequest sequenceNumber timeout => some (.pollRequest sequenceNumber timeout)
  | pollResponse => some .pollResponse
  | linkRequest version properties => (properties.bind denoteSocketInfo).map (.linkRequest version)
  | linkResponse linkId localAddress peerAddress => do
    let localAddress ← denoteAddress localAddress
    let peerAddress ← denoteAddress peerAddress
    pure (.linkResponse (denoteReference linkId) localAddress peerAddress)
  | openRequest streamId type connectionString isPolled maxReceiveBuffer =>
    (denoteText connectionString).map fun connectionString =>
      .openRequest (denoteReference streamId) type connectionString isPolled maxReceiveBuffer
  | openResponse => some .openResponse
  | setOptRequest optionValue => (optionValue.bind Property.denote).map .setoptRequest
  | setOptResponse => some .setoptResponse
  | getOptRequest option => some (.getoptRequest option)
  | getOptResponse optionValue => (optionValue.bind Property.denote).map .getoptResponse

/-- The type of the message is the one of its body, or the one that the constructor gives it. -/
def Message.denote (m : Message) : Option Codec.Message := do
  let content ← m.content
  let body ← content.denote m.isResponse
  if body.isResponse = m.isResponse ∧ (m.typeId = body.type.code ∨ m.typeId = content.getId) then
    some ⟨denoteReference m.source,denoteReference m.proxy,denoteReference m.target,m.error,body⟩
  else none

variable {s : String} {v : Codec.Value}

lemma denoteString_some_iff {P} [DecidablePred P] {t : { t : Bytes // P t }} :
    denoteString P (some s) = some t ↔ utf8 s = t.1 := by
  rw [denoteString,bind_eq_bind,bind_some]
  constructor
  · intro h
    split_ifs at h
    exact congrArg Subtype.val (Option.some.inj h)
  · intro h
    rw [dif_pos (by rw [h]; exact t.2)]
    exact congrArg some (Subtype.ext h)

section

variable {t : Int32}

lemma Property.denote_bytes (h : Codec.isRecordType t) (value : Option Bytes) :
    (⟨t.toUInt32,.bytes value⟩ : Property).denote = value.map (.record ⟨t,h⟩) :=
  dif_pos h
lemma Property.denote_multicast (h : Codec.isMulticast t) (value : Option MulticastOption) :
    (⟨t.toUInt32,.multicast value⟩ : Property).denote = (value.bind denoteMulticast).map (.multicast ⟨t,h⟩) :=
  dif_pos h
lemma Property.denote_fileInfo (value : Option FileInfo) :
    (⟨propertyTypeFileInfo,.fileInfo value⟩ : Property).denote = (value.bind denoteFileInfo).map .fileInfo :=
  rfl

lemma Property.denote_interfaceInfo (value : Option InterfaceInfo) :
    (⟨propertyTypeInterfaceInfo,.interfaceInfo value⟩ : Property).denote =
      (value.bind denoteInterfaceInfo).map .ifAddrInfo :=
  rfl

end

def Property.Means (p : Property) : Codec.Value → Prop
  | .option type value => p = ⟨type.1.toUInt32,.number value⟩
  | .multicast type value => ∃ o, denoteMulticast o = some value ∧ p = ⟨type.1.toUInt32,.multicast (some o)⟩
  | .record type value => p = ⟨type.1.toUInt32,.bytes (some value)⟩
  | .fileInfo value => ∃ info, denoteFileInfo info = some value ∧ p = ⟨propertyTypeFileInfo,.fileInfo (some info)⟩
  | .addrInfo address name => ∃ info, denoteAddress info.socketAddress = some address ∧
      denoteText info.canonicalName = some name ∧ p = ⟨propertyTypeAddressInfo,.addressInfo (some info)⟩
  | .ifAddrInfo value => ∃ info, denoteInterfaceInfo info = some value ∧
      p = ⟨propertyTypeInterfaceInfo,.interfaceInfo (some info)⟩

lemma Property.means_of_denote {p : Property} (h : p.denote = some v) : p.Means v := by
  obtain ⟨type,value⟩ := p
  have htype : type = type.toInt32.toUInt32 := (UInt32.toUInt32_toInt32 type).symm
  cases value with dsimp only [denote] at h
  | base => cases h
  | number =>
    split_ifs at h
    cases h
    exact congrArg (mk · _) htype
  | bytes =>
    split_ifs at h
    obtain ⟨d,rfl,rfl⟩ := map_eq_some_iff.1 h
    exact congrArg (mk · _) htype
  | multicast =>
    split_ifs at h
    obtain ⟨o,ho,rfl⟩ := map_eq_some_iff.1 h
    obtain ⟨option,rfl,ho⟩ := bind_eq_some_iff.1 ho
    exact ⟨option,ho,congrArg (mk · _) htype⟩
  | fileInfo value | interfaceInfo value =>
    split_ifs at h with htype
    obtain ⟨v,hv,rfl⟩ := map_eq_some_iff.1 h
    obtain ⟨info,rfl,hv⟩ := bind_eq_some_iff.1 hv
    exact ⟨info,hv,congrArg (mk · _) htype⟩
  | addressInfo =>
    split_ifs at h with htype
    obtain ⟨info,rfl,hinfo⟩ := bind_eq_some_iff.1 h
    obtain ⟨address,haddress,hinfo⟩ := bind_eq_some_iff.1 hinfo
    obtain ⟨name,hname,⟨⟩⟩ := bind_eq_some_iff.1 hinfo
    exact ⟨info,haddress,hname,congrArg (mk · _) htype⟩

lemma Property.Means.type_eq {p : Property} (h : p.Means v) : p.type = v.type.toUInt32 := by
  cases v with
  | option | record =>
    rw [h]
    rfl
  | addrInfo =>
    obtain ⟨_,_,_,rfl⟩ := h
    rfl
  | _ =>
    obtain ⟨_,_,rfl⟩ := h
    rfl

lemma denoteProperties_eq_some_iff {ps values} :
    denoteProperties ps = some values ↔ ps.map (fun p => p.bind denote) = values.map some := by
  induction ps generalizing values with
  | nil => cases values <;> simp [denoteProperties]
  | cons p ps ih =>
    rw [denoteProperties,bind_eq_bind,bind_eq_some_iff]
    constructor
    · rintro ⟨v,hv,h⟩
      obtain ⟨values',hvalues,⟨⟩⟩ := bind_eq_some_iff.1 h
      rw [List.map_cons,List.map_cons,hv,ih.1 hvalues]
    · intro h
      cases values with
      | nil => cases h
      | cons v values =>
        obtain ⟨hv,hvalues⟩ := List.cons.inj h
        exact ⟨v,hv,bind_eq_some_iff.2 ⟨values,ih.2 hvalues,rfl⟩⟩

lemma slotted_eq_some_iff {values} (hn : (values.map Codec.Value.type).Nodup)
    {i} : slotted values i = some v ↔ v ∈ values ∧ v.type = .ofNat i.1 := by
  constructor
  · intro h
    exact ⟨List.mem_of_find?_eq_some h,by simpa using List.find?_some h⟩
  · rintro ⟨hv,htype⟩
    cases hw : slotted values i with
    | none => exact absurd (decide_eq_true htype) (List.find?_eq_none.1 hw v hv)
    | some w =>
      have hwtype : w.type = .ofNat i.1 := by simpa using List.find?_some hw
      rw [List.inj_on_of_nodup_map hn (List.mem_of_find?_eq_some hw) hv (hwtype.trans htype.symm)]
lemma ownSlots_of_denoteOptions {options o} (h : denoteOptions options = some o) : o.OwnSlots := by
  obtain ⟨values,-,h⟩ := bind_eq_some_iff.1 h
  split_ifs at h
  cases h
  exact fun i v hv => by simpa using List.find?_some hv

lemma Message.denote_eq_some_iff {m : Message} {v} : m.denote = some v ↔
    ∃ content, m.content = some content ∧ content.denote m.isResponse = some v.body ∧
      v.body.isResponse = m.isResponse ∧ (m.typeId = v.body.type.code ∨ m.typeId = content.getId) ∧
      denoteReference m.source = v.sourceId ∧ denoteReference m.proxy = v.proxyId ∧
      denoteReference m.target = v.targetId ∧ m.error = v.errorCode := by
  rw [Message.denote,bind_eq_bind,bind_eq_some_iff]
  apply exists_congr
  intro content
  rw [and_congr_right_iff]
  intro _
  rw [bind_eq_bind,bind_eq_some_iff]
  constructor
  · rintro ⟨body,hbody,h⟩
    split_ifs at h with htagged
    cases h
    exact ⟨hbody,htagged.1,htagged.2,rfl,rfl,rfl,rfl⟩
  · rintro ⟨hbody,hresponse,htype,hsource,hproxy,htarget,herror⟩
    refine ⟨v.body,hbody,?_⟩
    rw [if_pos ⟨hresponse,htype⟩,hsource,hproxy,htarget,herror]

end EdgeProxy.Client
