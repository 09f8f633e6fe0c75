import EdgeProxy.Client.Reading
import EdgeProxy.Codec.DecodeMessage

/-! # What becomes of a native message in the client

The message that the client makes of the bytes of a native one.
-/
namespace EdgeProxy.Client

open Lib Lib.MessagePack Takes Int32
open List hiding Vector
open Codec (obj bin str int32 uint32 uint16 uint8 castLength prxSoMax)

variable (enc : Encoding)

def referenceOf (r : Codec.IoRef) : Reference :=
  ⟨r.u8⟩
def addressOf : Codec.Address → SocketAddress
  | .unspec => .null
  | .inet port addr => .inet4 (some addr.toList) port
  | .inet6 port flow addr scopeId => .inet6 (some addr.toList) port flow scopeId
  | .proxy port flags itfIndex host => .proxy (some (enc.getString host.1)) port flags (asInt32 itfIndex)
  | .unix path => .unix (some (enc.getString path.1))
def multicastOf : Codec.Multicast → MulticastOption
  | .inet itfIndex addr => .inet4 (asInt32 itfIndex) (some addr.toList)
  | .inet6 itfIndex addr _ => .inet6 (asInt32 itfIndex) (some addr.toList)
def fileInfoOf (fi : Codec.FileInfo) : FileInfo where
  nodeId := fi.inodeNumber.toInt64
  deviceId := fi.deviceId.toInt64
  type := asInt32 fi.type
  size := fi.totalSize.toInt64
  lastAccessedAsUnixTime := fi.lastAtime.toInt64
  lastModifiedAsUnixTime := fi.lastMtime.toInt64
def interfaceInfoOf (i : Codec.Interface) : InterfaceInfo where
  address := some (addressOf enc i.address)
  subnetPrefix := i.prefixLen
  flags := i.flags
  name := some (enc.getString i.name.1)
  index := asInt32 i.index
  broadcast := some (addressOf enc i.broadcastAddr)
def propertyOf : Codec.Value → Property
  | .option type value => ⟨type.1.toUInt32,.number value⟩
  | .multicast type value => ⟨type.1.toUInt32,.multicast (some (multicastOf value))⟩
  | .record type value => ⟨type.1.toUInt32,.bytes (some (castLength value))⟩
  | .fileInfo value => ⟨propertyTypeFileInfo,.fileInfo (some (fileInfoOf value))⟩
  | .addrInfo address name => ⟨propertyTypeAddressInfo,.addressInfo (some
      { socketAddress := some (addressOf enc address),canonicalName := some (enc.getString (castLength name.1)) })⟩
  | .ifAddrInfo value => ⟨propertyTypeInterfaceInfo,.interfaceInfo (some (interfaceInfoOf enc value))⟩

/-- The content of the property is shorter than 2 GiB when it arrives. -/
def ShortValue : Codec.Value → Prop
  | .record _ value => (castLength value).length < 2 ^ 31
  | .addrInfo _ name => (castLength name.1).length < 2 ^ 31
  | _ => True

def socketInfoOf (p : Codec.Props) : SocketInfo where
  family := asEnum p.family
  type := asEnum p.sockType
  protocol := asEnum p.protoType
  flags := p.flags
  timeout := p.timeout
  address := some (addressOf enc p.address)
  options := some (((List.finRange prxSoMax).filterMap p.options).map fun v => some (propertyOf enc v))

/-- In a close response, what the proxy received is taken for what it sent. -/
def contentOf : Codec.Body → Content
  | .data _ sequenceNumber source buffer controlBuffer => .data sequenceNumber (some (addressOf enc source))
      (some (castLength buffer)) (some (castLength controlBuffer))
  | .closeRequest => .closeRequest
  | .closeResponse timeOpen bytesReceived bytesSent errorCode =>
    .closeResponse timeOpen bytesReceived bytesSent (asInt32 errorCode)
  | .pingRequest address => .pingRequest (some (addressOf enc address))
  | .pingResponse address physicalAddress timeMs => .pingResponse (some (addressOf enc address))
      (some physicalAddress.toList) timeMs
  | .pollRequest sequenceNumber timeout => .pollRequest sequenceNumber timeout
  | .pollResponse => .pollResponse
  | .linkRequest version props => .linkRequest version (some (socketInfoOf enc props))
  | .linkResponse linkId localAddress peerAddress => .linkResponse (some (referenceOf linkId))
      (some (addressOf enc localAddress)) (some (addressOf enc peerAddress))
  | .openRequest streamId type connectionString polled maxRecv => .openRequest (some (referenceOf streamId))
      (asInt32 type) (some (enc.getString (castLength connectionString.1))) polled maxRecv
  | .openResponse => .openResponse
  | .setoptRequest value => .setOptRequest (some (propertyOf enc value))
  | .setoptResponse => .setOptResponse
  | .getoptRequest soOpt => .getOptRequest (asEnum soOpt)
  | .getoptResponse value => .getOptResponse (some (propertyOf enc value))

def ShortBody : Codec.Body → Prop
  | .data _ _ _ buffer controlBuffer =>
    (castLength buffer).length < 2 ^ 31 ∧ (castLength controlBuffer).length < 2 ^ 31
  | .openRequest _ _ connectionString _ _ => (castLength connectionString.1).length < 2 ^ 31
  | .setoptRequest value | .getoptResponse value => ShortValue value
  | _ => True
def messageOf (version : UInt32) (msg : Codec.Message) : Message where
  version
  source := some (referenceOf msg.sourceId)
  proxy := some (referenceOf msg.proxyId)
  target := some (referenceOf msg.targetId)
  error := asInt32 msg.errorCode
  isResponse := msg.body.isResponse
  typeId := msg.body.type.code
  content := some (contentOf enc msg.body)

variable {α β : Type} {m : Read α} {f : α → Read β} {i : Item} {js : List Item} {a : α} {b : β} {members index : Int32}
  {p q : Prop}

section

variable (hleft : decide (members - index = 0) = false)
include hleft

lemma readMember_eq : readMember members index m = m :=
  if_neg (of_decide_eq_false hleft)
lemma Takes.member (h : Takes m [i] a) (h' : Takes (f a) js b) :
    Takes (readMember members index m >>= f) (i :: js) b := by
  rw [readMember_eq hleft]
  exact h.item h'
lemma Takes.member_if (h : Takes m [i] a) (h' : TakesIf p (f a) js b) :
    TakesIf p (readMember members index m >>= f) (i :: js) b := by
  rw [readMember_eq hleft]
  exact h.item_if h'
lemma TakesIf.member (h : TakesIf p m [i] a) (h' : TakesIf q (f a) js b) :
    TakesIf (p ∧ q) (readMember members index m >>= f) (i :: js) b := by
  rw [readMember_eq hleft]
  exact h.item fun _ => h'
lemma TakesIf.member_takes (h : TakesIf p m [i] a) (h' : Takes (f a) js b) :
    TakesIf p (readMember members index m >>= f) (i :: js) b := by
  rw [readMember_eq hleft]
  exact h.bind h'

end

lemma Takes.check {c : Prop} [Decidable c] {f} (hc : decide c = false) (h : Takes (f ()) js b) :
    Takes (rejectIf c >>= f) js b := by
  rw [rejectIf,if_neg (of_decide_eq_false hc)]
  exact h
lemma TakesIf.check {c : Prop} [Decidable c] {f} (h : TakesIf p (f ()) js b) :
    TakesIf (¬c ∧ p) (rejectIf c >>= f) js b := by
  by_cases hc : c
  · rw [rejectIf,if_pos hc]
    exact ⟨fun hp => absurd hc hp.1,fun _ => rejects_throw .format⟩
  · rw [rejectIf,if_neg hc]
    exact h.congr (and_iff_right hc).symm
lemma takes_array8 {n} (v : Vector UInt8 n) (hn : decide (n < 2 ^ 31)) : Takes readBin [bin v.toList] v.toList := by
  have hn := of_decide_eq_true hn
  have hcast : castLength v.toList = v.toList := Codec.castLength_of_lt (by rw [Vector.length_toList]; omega)
  have htakes := (takesIf_bin (d := v.toList)).1 (by rw [hcast,Vector.length_toList]; exact hn)
  rwa [hcast] at htakes
lemma takes_fixedText {n} (t : Codec.FixedText n) (hn : decide (n ≤ 2 ^ 31)) :
    Takes (readString enc) [str t.1] (enc.getString t.1) := by
  have hn := of_decide_eq_true hn
  have hlt := t.2.2
  have hcast : castLength t.1 = t.1 := Codec.castLength_of_lt (by omega)
  have htakes := (takesIf_str enc).1 (by rw [hcast]; omega)
  rwa [hcast] at htakes
lemma toVector_toList {n} (v : Vector UInt8 n) : toVector n v.toList = some v := by
  rw [toVector,dif_pos (Vector.length_toList)]
  rfl
lemma takes_reference (r : Codec.IoRef) : Takes readReference [r.wire] (referenceOf r) := by
  refine takes_members rfl rfl ((takes_array8 r.u8 rfl).member rfl ?_)
  rw [toVector_toList]
  exact takes_pure _

lemma takes_address (a : Codec.Address) : Takes (readSocketAddress enc) [a.wire] (addressOf enc a) := by
  cases a with
  | unspec =>
    refine takes_object rfl rfl (.check rfl ?_)
    refine (takes_int32 _).item ?_
    exact takes_pure _
  | inet port addr =>
    refine takes_object (k := 3) rfl rfl (.check rfl ?_)
    refine (takes_int32 _).item ?_
    refine .check rfl ((takes_uint16 port).item ?_)
    exact (takes_array8 addr rfl).item (.check (by simp) (takes_pure _))
  | inet6 port flow addr scopeId =>
    refine takes_object (k := 5) rfl rfl (.check rfl ?_)
    refine (takes_int32 _).item ?_
    refine .check rfl ((takes_uint16 port).item ?_)
    refine .check rfl ((takes_uint32 flow).item ?_)
    exact (takes_array8 addr rfl).item (.check (by simp) ((takes_uint32 scopeId).item (takes_pure _)))
  | proxy port flags itfIndex host =>
    refine takes_object (k := 5) rfl rfl (.check rfl ?_)
    refine (takes_int32 _).item ?_
    refine .check rfl ((takes_uint16 port).item ?_)
    rw [if_neg (by decide)]
    refine .check rfl ((takes_uint16 flags).item ((takes_int32 itfIndex).item ?_))
    exact (takes_fixedText enc host rfl).item (takes_pure _)
  | unix path =>
    refine takes_object (k := 2) rfl rfl (.check rfl ?_)
    refine (takes_int32 _).item ?_
    exact .check rfl ((takes_fixedText enc path rfl).item (takes_pure _))

lemma takes_multicast (v : Codec.Multicast) : Takes readMulticastOption [v.wire] (multicastOf v) := by
  cases v with
  | inet itfIndex addr | inet6 itfIndex addr =>
    refine takes_object (k := 3) rfl rfl (.check rfl ((takes_int32 _).item ?_))
    rw [if_neg (by decide)]
    refine (takes_int32 itfIndex).item ((takes_array8 addr rfl).item ?_)
    exact .check (by simp) (takes_pure _)
lemma takes_fileInfo (v : Codec.FileInfo) : Takes readFileInfo [v.wire] (fileInfoOf v) := by
  refine takes_members rfl rfl ?_
  refine (takes_int64 v.inodeNumber).member rfl ?_
  refine (takes_int64 v.deviceId).member rfl ?_
  refine (takes_int32 v.type).member rfl ?_
  refine (takes_int64 v.totalSize).member rfl ?_
  refine (takes_int64 v.lastAtime).member rfl ?_
  refine (takes_int64 v.lastMtime).member rfl ?_
  exact takes_pure _
lemma takesIf_addressInfo (address : Codec.Address) (name : Bytes) :
    TakesIf ((castLength name).length < 2 ^ 31) (readAddressInfo enc) [obj [address.wire,str name]]
      ⟨some (addressOf enc address),some (enc.getString (castLength name))⟩ := by
  refine takesIf_members rfl rfl ?_
  refine (takes_address enc address).member_if rfl ?_
  exact (takesIf_str enc).member_takes rfl (takes_pure _)
lemma takes_interfaceInfo (v : Codec.Interface) : Takes (readInterfaceInfo enc) [v.wire] (interfaceInfoOf enc v) := by
  refine takes_members rfl rfl ?_
  refine (takes_address enc v.address).member rfl ?_
  refine (takes_uint8 v.prefixLen).member rfl ?_
  refine (takes_uint8 v.flags).member rfl ?_
  refine (takes_fixedText enc v.name rfl).member rfl ?_
  refine (takes_int32 v.index).member rfl ?_
  refine (takes_address enc v.broadcastAddr).member rfl ?_
  exact takes_pure _

variable {t : Int32}

lemma toNat_propertyType (h : 0 ≤ t.toInt) : t.toUInt32.toNat = t.toInt.toNat := by
  have hbits : t.toUInt32.toNat = _ := toNat_bits t.toBitVec
  change _ = if 0 ≤ t.toInt then t.toInt.toNat else (t.toInt + 2 ^ 32).toNat at hbits
  rwa [if_pos h] at hbits
lemma propertyType_option (h : Codec.IsPlainOption t) : 0 < t.toInt ∧ t.toInt < 34 ∧ t.toInt ≠ 31 ∧ t.toInt ≠ 32 := by
  obtain ⟨⟨hlo,hhi⟩,hm⟩ := h
  have hlo' := lt_iff_toInt_lt.1 hlo
  have hhi' := lt_iff_toInt_lt.1 hhi
  have : Codec.prxSoUnknown.toInt = 0 := rfl
  have : (ofNat prxSoMax).toInt = 34 := rfl
  refine ⟨by omega,by omega,fun h => hm (.inl (toInt_inj.1 h)),fun h => hm (.inr (toInt_inj.1 h))⟩
lemma propertyType_record (h : Codec.isRecordType t) : 100 ≤ t.toInt ∧ t.toInt < 103 :=
  ⟨le_iff_toInt_le.1 h.1,lt_iff_toInt_lt.1 h.2⟩
lemma cases_option (h : Codec.IsPlainOption t) :
    ¬(t.toUInt32 = socketOptionIpMulticastJoin ∨ t.toUInt32 = socketOptionIpMulticastLeave) ∧
    t.toUInt32 ≠ propertyTypeFileInfo ∧ t.toUInt32 ≠ propertyTypeAddressInfo ∧ t.toUInt32 ≠ propertyTypeInterfaceInfo ∧
    ¬(dnsRecordTypeSimple ≤ t.toUInt32 ∧ t.toUInt32 < dnsRecordMax) ∧ t.toUInt32 < socketOptionMax := by
  obtain ⟨hlo,hhi,h31,h32⟩ := propertyType_option h
  have hnat := toNat_propertyType (t := t) (by omega)
  simp only [ne_eq,← UInt32.toNat_inj,UInt32.lt_iff_toNat_lt,UInt32.le_iff_toNat_le]
  change ¬(_ = 31 ∨ _ = 32) ∧ ¬_ = 200 ∧ ¬_ = 201 ∧ ¬_ = 202 ∧ ¬(100 ≤ _ ∧ _ < 103) ∧ _ < 34
  omega
lemma cases_record (h : Codec.isRecordType t) :
    ¬(t.toUInt32 = socketOptionIpMulticastJoin ∨ t.toUInt32 = socketOptionIpMulticastLeave) ∧
    t.toUInt32 ≠ propertyTypeFileInfo ∧ t.toUInt32 ≠ propertyTypeAddressInfo ∧ t.toUInt32 ≠ propertyTypeInterfaceInfo ∧
    dnsRecordTypeSimple ≤ t.toUInt32 ∧ t.toUInt32 < dnsRecordMax := by
  obtain ⟨hlo,hhi⟩ := propertyType_record h
  have hnat := toNat_propertyType (t := t) (by omega)
  simp only [ne_eq,← UInt32.toNat_inj,UInt32.lt_iff_toNat_lt,UInt32.le_iff_toNat_le]
  change ¬(_ = 31 ∨ _ = 32) ∧ ¬_ = 200 ∧ ¬_ = 201 ∧ ¬_ = 202 ∧ 100 ≤ _ ∧ _ < 103
  omega
lemma readPropertyValue_option (h : Codec.IsPlainOption t) :
    readPropertyValue enc t.toUInt32 = (do return .number (← readUInt64)) := by
  obtain ⟨hmulticast,hfile,haddress,hinterface,hrecord,hoption⟩ := cases_option h
  rw [readPropertyValue,if_neg hmulticast,if_neg hfile,if_neg haddress,if_neg hinterface,if_neg hrecord,if_pos hoption]
lemma readPropertyValue_record (h : Codec.isRecordType t) :
    readPropertyValue enc t.toUInt32 = (do return .bytes (← readBin)) := by
  obtain ⟨hmulticast,hfile,haddress,hinterface,hrecord⟩ := cases_record h
  rw [readPropertyValue,if_neg hmulticast,if_neg hfile,if_neg haddress,if_neg hinterface,if_pos hrecord]
lemma takesIf_typedProperty {type i} {p : Prop} {value} (htype : 0 ≤ type.toInt)
    (h : TakesIf p (readPropertyValue enc type.toUInt32) [i] value) :
    TakesIf p (readProperty enc) [obj [int32 type,i]] ⟨type.toUInt32,value⟩ := by
  refine takesIf_object (k := 2) rfl rfl ((TakesIf.check ?_).congr (and_iff_right (by decide)))
  exact (takes_propertyType htype).item_if (h.bind (takes_pure _))

lemma takesIf_property (v : Codec.Value) : TakesIf (ShortValue v) (readProperty enc) [v.wire] (propertyOf enc v) := by
  cases v with
  | option type value =>
    have htype := propertyType_option type.2
    apply takesIf_typedProperty enc (by omega)
    rw [readPropertyValue_option enc type.2]
    exact (takes_uint64 value).map.takesIf
  | multicast type value =>
    obtain ⟨type,rfl | rfl⟩ := type <;> exact takesIf_typedProperty enc (by decide) (takes_multicast value).map.takesIf
  | record type value =>
    have htype := propertyType_record type.2
    apply takesIf_typedProperty enc (by omega)
    rw [readPropertyValue_record enc type.2]
    exact takesIf_bin.bind (takes_pure _)
  | fileInfo value => exact takesIf_typedProperty enc (by decide) (takes_fileInfo value).map.takesIf
  | addrInfo address name =>
    exact takesIf_typedProperty enc (by decide) ((takesIf_addressInfo enc address name.1).bind (takes_pure _))
  | ifAddrInfo value => exact takesIf_typedProperty enc (by decide) (takes_interfaceInfo enc value).map.takesIf

lemma propertyOf_type (v : Codec.Value) : (propertyOf enc v).type = v.type.toUInt32 := by
  cases v <;> rfl
lemma addProperty_of_ne {set p} (h : ∀ q ∈ set, p.type ≠ q.type) : addProperty set p = set ++ [p] := by
  rw [addProperty,if_neg]
  intro hany
  obtain ⟨q,hq,hsame⟩ := any_eq_true.1 hany
  exact h q hq (of_decide_eq_true hsame).2
lemma slot_injective {i j : Fin prxSoMax} (h : ofNat i.1 = .ofNat j.1) : i = j := by
  have hint := congrArg toInt h
  rw [Codec.toInt_slot,Codec.toInt_slot] at hint
  omega

variable {o : Codec.Options}

lemma type_injective (ho : o.OwnSlots) {i j : Fin prxSoMax} {v w}
    (hv : o i = some v) (hw : o j = some w) (h : (propertyOf enc v).type = (propertyOf enc w).type) : i = j := by
  rw [propertyOf_type,propertyOf_type,ho i v hv,ho j w hw] at h
  apply slot_injective
  simpa using congrArg UInt32.toInt32 h
lemma shortValue_of_slot {v} {i : Fin prxSoMax} (h : v.type = .ofNat i.1) : ShortValue v := by
  have hv := v.isSocketOption_of_slot h
  cases v with
  | record type => exact absurd type.2 hv.not_isRecordType
  | addrInfo => exact absurd (show Codec.isSocketOption Codec.prxPropertyTypeAddrinfo from hv) (by decide)
  | _ => trivial

/-- Every option is read and none is dropped as a duplicate. -/
theorem takes_properties (ho : o.OwnSlots) {slots} (hn : slots.Nodup) (set : List Property)
    (hset : ∀ q ∈ set, ∀ i ∈ slots, ∀ v, o i = some v → (propertyOf enc v).type ≠ q.type) :
    Takes (readProperties enc (o.wire slots).length set) (o.wire slots)
      (set ++ (slots.filterMap o).map (propertyOf enc)) := by
  induction slots generalizing set with
  | nil =>
    rw [filterMap_nil,map_nil,append_nil]
    exact takes_pure set
  | cons j slots ih =>
    obtain ⟨hj,hn⟩ := nodup_cons.1 hn
    have htail : ∀ q ∈ set, ∀ i ∈ slots, ∀ v, o i = some v → (propertyOf enc v).type ≠ q.type :=
      fun q hq i hi => hset q hq i (mem_cons_of_mem _ hi)
    rw [Codec.Options.wire_cons]
    cases hv : o j with
    | none =>
      rw [filterMap_cons_none hv]
      exact ih hn set htail
    | some v =>
      rw [filterMap_cons_some hv,map_cons,append_cons set]
      refine ((takesIf_property enc v).1 (shortValue_of_slot (ho j v hv))).item ?_
      rw [addProperty_of_ne fun q hq => hset q hq j mem_cons_self v hv]
      apply ih hn
      intro q hq i hi w hw
      rcases mem_append.1 hq with hq | hq
      · exact htail q hq i hi w hw
      · rw [mem_singleton.1 hq]
        intro htype
        rw [type_injective enc ho hw hv htype] at hi
        exact hj hi

lemma takes_set (ho : o.OwnSlots) : Takes (readSet enc) [.arr (o.wire (List.finRange prxSoMax))]
      (((List.finRange prxSoMax).filterMap o).map (propertyOf enc)) := by
  have hlen : (o.wire (List.finRange prxSoMax)).length ≤ 34 := by
    rw [Codec.Options.wire,length_map]
    exact (length_filterMap_le _ _).trans_eq length_finRange
  refine takes_array (by omega) ?_
  rw [toInt_ofNat_of_lt (by omega)]
  exact takes_properties enc ho (nodup_finRange _) [] (by simp)
lemma takes_socketInfo {p} (ho : p.options.OwnSlots) : Takes (readSocketInfo enc) [p.wire] (socketInfoOf enc p) := by
  refine takes_members rfl rfl ?_
  refine (takes_enum p.family).member rfl ?_
  refine (takes_enum p.sockType).member rfl ?_
  refine (takes_enum p.protoType).member rfl ?_
  refine (takes_uint32 p.flags).member rfl ?_
  refine (takes_uint64 p.timeout).member rfl ?_
  refine (takes_address enc p.address).member rfl ?_
  refine (takes_set enc ho).member rfl ?_
  rw [map_map]
  exact takes_pure _
lemma takesIf_dataMessage (isResponse : Bool) (sequenceNumber : UInt64) (source : Codec.Address)
    (buffer controlBuffer : Bytes) :
    TakesIf ((castLength buffer).length < 2 ^ 31 ∧ (castLength controlBuffer).length < 2 ^ 31) (readDataMessage enc)
      [(Codec.Body.data isResponse sequenceNumber source buffer controlBuffer).wire]
      (contentOf enc (.data isResponse sequenceNumber source buffer controlBuffer)) := by
  refine takesIf_members rfl rfl ?_
  refine (takes_uint64 sequenceNumber).member_if rfl ?_
  refine (takes_address enc source).member_if rfl ?_
  refine takesIf_bin.member rfl ?_
  exact takesIf_bin.member_takes rfl (takes_pure _)

lemma takesIf_content {b} (ho : b.OwnSlots) :
    TakesIf (ShortBody b) (readContents enc b.isResponse b.type.code) [b.wire] (some (contentOf enc b)) := by
  cases b with
  | data isResponse sequenceNumber source buffer controlBuffer =>
    have h := takesIf_dataMessage enc isResponse sequenceNumber source buffer controlBuffer
    cases isResponse <;> exact h.bind (takes_pure _)
  | closeResponse timeOpen bytesReceived bytesSent errorCode =>
    refine (map (m := readCloseResponse) (takes_members rfl rfl ?_)).takesIf
    refine (takes_uint64 timeOpen).member rfl ?_
    refine (takes_uint64 bytesReceived).member rfl ?_
    refine (takes_uint64 bytesSent).member rfl ?_
    refine (takes_int32 errorCode).member rfl ?_
    exact takes_pure _
  | pingRequest address =>
    refine (map (m := readPingRequest enc) (takes_members rfl rfl ?_)).takesIf
    exact (takes_address enc address).member rfl (takes_pure _)
  | pingResponse address physicalAddress timeMs =>
    refine (map (m := readPingResponse enc) (takes_members rfl rfl ?_)).takesIf
    refine (takes_address enc address).member rfl ?_
    refine (takes_array8 physicalAddress rfl).member rfl ?_
    exact (takes_uint32 timeMs).member rfl (takes_pure _)
  | pollRequest sequenceNumber timeout =>
    refine (map (m := readPollRequest) (takes_members rfl rfl ?_)).takesIf
    refine (takes_uint64 sequenceNumber).member rfl ?_
    exact (takes_uint64 timeout).member rfl (takes_pure _)
  | linkRequest version =>
    refine (map (m := readLinkRequest enc) (takes_members rfl rfl ?_)).takesIf
    refine (takes_uint8 version).member rfl ?_
    exact (takes_socketInfo enc ho).member rfl (takes_pure _)
  | linkResponse linkId localAddress peerAddress =>
    refine (map (m := readLinkResponse enc) (takes_members rfl rfl ?_)).takesIf
    refine (takes_reference linkId).member rfl ?_
    refine (takes_address enc localAddress).member rfl ?_
    exact (takes_address enc peerAddress).member rfl (takes_pure _)
  | openRequest streamId type connectionString polled maxRecv =>
    refine TakesIf.bind (takesIf_members rfl rfl ?_) (takes_pure _)
    refine (takes_reference streamId).member_if rfl ?_
    refine (takes_int32 type).member_if rfl ?_
    refine (takesIf_str enc).member_takes rfl ?_
    refine (takes_bool polled).member rfl ?_
    exact (takes_uint32 maxRecv).member rfl (takes_pure _)
  | setoptRequest value | getoptResponse value =>
    refine TakesIf.bind (takesIf_members rfl rfl ?_) (takes_pure _)
    exact (takesIf_property enc value).member_takes rfl (takes_pure _)
  | getoptRequest soOpt =>
    refine (map (m := readGetOptRequest) (takes_members rfl rfl ?_)).takesIf
    exact (takes_enum soOpt).member rfl (takes_pure _)
  | _ => exact takes_nil.map.takesIf

variable {verNum version : UInt32} {msg : Codec.Message}

lemma toUInt32_toUInt16 {v : UInt32} (h : v.toNat < 2 ^ 16) : v.toUInt16.toUInt32 = v := by
  apply UInt32.toNat_inj.1
  rw [UInt16.toNat_toUInt32,UInt32.toNat_toUInt16,Nat.mod_eq_of_lt h]
def messageItems (verNum : UInt32) (msg : Codec.Message) : List Item :=
  [uint32 verNum,msg.sourceId.wire,msg.proxyId.wire,msg.targetId.wire,int32 msg.errorCode,
    .bool msg.body.isResponse,uint32 msg.body.type.code,msg.body.wire]

lemma length_messageItems (verNum : UInt32) (msg : Codec.Message) : (messageItems verNum msg).length + 1 < 2 ^ 31 := by
  rw [show (messageItems verNum msg).length = 8 from rfl]
  decide

lemma takesIf_messageFields (ho : msg.body.OwnSlots) :
    TakesIf (verNum.toNat < 2 ^ 16 ∧ version = verNum ∧ ShortBody msg.body) (readMessageFields enc version)
      (messageItems verNum msg) (messageOf enc version msg) := by
  refine (takesIf_uint32As16 verNum).item fun hwidth => ?_
  rw [toUInt32_toUInt16 hwidth]
  refine (TakesIf.check ?_).congr (and_congr_left' not_not)
  refine (takes_reference msg.sourceId).item_if ?_
  refine (takes_reference msg.proxyId).item_if ?_
  refine (takes_reference msg.targetId).item_if ?_
  refine (takes_int32 msg.errorCode).item_if ?_
  refine (takes_bool msg.body.isResponse).item_if ?_
  refine (takes_uint32 msg.body.type.code).item_if ?_
  exact (takesIf_content enc ho).bind (takes_pure _)

lemma consumes_message (h : verNum.toNat < 2 ^ 16 ∧ version = verNum ∧ ShortBody msg.body) (ho : msg.body.OwnSlots)
    (st : ReaderState) :
    ∃ st', Consumes (readMessage enc version) ((msg.wireOf verNum).ser format) st (messageOf enc version msg) st' := by
  obtain ⟨st',-,hst'⟩ := consumes_object (f := fun _ => readMessageFields enc version)
    (length_messageItems verNum msg) ((takesIf_messageFields enc ho).1 h) st
  exact ⟨st',hst'⟩

end EdgeProxy.Client
