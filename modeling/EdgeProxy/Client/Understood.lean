import EdgeProxy.Client.Denote
import EdgeProxy.Client.Received

/-! # Which native messages the client understands

The message that the client reads means what was sent exactly when its readers give back every number, string and
buffer in it.
-/
namespace EdgeProxy.Client

open Lib.MessagePack Content
open List hiding Vector
open Codec (castLength prxSoMax)

/-- A number of 16 bits that is not one of the negative numbers of one byte of which a bit is lost. -/
def ReadableInt32 (v : Int32) : Prop :=
  -2 ^ 15 ≤ v.toInt ∧ v.toInt < 2 ^ 15 ∧ ¬(-32 ≤ v.toInt ∧ v.toInt < -16)

instance (v : Int32) : Decidable (ReadableInt32 v) :=
  inferInstanceAs (Decidable (_ ∧ _))
def ReadableEnum (v : Int32) : Prop :=
  ¬(-32 ≤ v.toInt ∧ v.toInt < -16)
def IsUtf8 (t : Bytes) : Prop :=
  ∃ s, utf8 s = t

def UnderstoodAddress : Codec.Address → Prop
  | .proxy _ _ itfIndex host => ReadableInt32 itfIndex ∧ IsUtf8 host.1
  | .unix path => IsUtf8 path.1
  | .unspec | .inet .. | .inet6 .. => True

def UnderstoodMulticast : Codec.Multicast → Prop
  | .inet itfIndex _ => ReadableInt32 itfIndex
  | .inet6 itfIndex _ scope => ReadableInt32 itfIndex ∧ scope = scopeId itfIndex
def UnderstoodFileInfo (v : Codec.FileInfo) : Prop :=
  ReadableInt32 v.type ∧ v.inodeNumber.toNat < 2 ^ 63 ∧ v.deviceId.toNat < 2 ^ 63 ∧ v.totalSize.toNat < 2 ^ 63 ∧
    v.lastAtime.toNat < 2 ^ 63 ∧ v.lastMtime.toNat < 2 ^ 63
def UnderstoodInterface (v : Codec.Interface) : Prop :=
  UnderstoodAddress v.address ∧ IsUtf8 v.name.1 ∧ ReadableInt32 v.index ∧ UnderstoodAddress v.broadcastAddr
def UnderstoodText (t : Codec.Text) : Prop :=
  IsUtf8 t.1 ∧ t.1.length < 2 ^ 31

def UnderstoodValue : Codec.Value → Prop
  | .option .. => True
  | .multicast _ value => UnderstoodMulticast value
  | .record _ value => value.length < 2 ^ 31
  | .fileInfo value => UnderstoodFileInfo value
  | .addrInfo address name => UnderstoodAddress address ∧ UnderstoodText name
  | .ifAddrInfo value => UnderstoodInterface value
def UnderstoodProps (p : Codec.Props) : Prop :=
  ReadableEnum p.family ∧ ReadableEnum p.sockType ∧ ReadableEnum p.protoType ∧ UnderstoodAddress p.address ∧
    p.options.OwnSlots ∧ ∀ i v, p.options i = some v → UnderstoodValue v

/-- The client has no other place for the two counts of a close response than each other's. -/
def UnderstoodBody : Codec.Body → Prop
  | .data _ _ source buffer controlBuffer =>
    UnderstoodAddress source ∧ buffer.length < 2 ^ 31 ∧ controlBuffer.length < 2 ^ 31
  | .closeResponse _ bytesReceived bytesSent errorCode => bytesReceived = bytesSent ∧ ReadableInt32 errorCode
  | .pingRequest address | .pingResponse address _ _ => UnderstoodAddress address
  | .linkRequest _ props => UnderstoodProps props
  | .linkResponse _ localAddress peerAddress => UnderstoodAddress localAddress ∧ UnderstoodAddress peerAddress
  | .openRequest _ type connectionString _ _ => ReadableInt32 type ∧ UnderstoodText connectionString
  | .setoptRequest value | .getoptResponse value => UnderstoodValue value
  | .getoptRequest soOpt => ReadableEnum soOpt
  | .closeRequest | .pollRequest .. | .pollResponse | .openResponse | .setoptResponse => True

def Understood (msg : Codec.Message) : Prop :=
  ReadableInt32 msg.errorCode ∧ UnderstoodBody msg.body
lemma toInt_asInt32 (v : Int32) : (asInt32 v).toInt = (seen v.toInt).bmod (2 ^ 16) := by
  have hlo : -2 ^ 15 ≤ (seen v.toInt).bmod (2 ^ 16) := Int.le_bmod (by decide)
  have hhi : (seen v.toInt).bmod (2 ^ 16) < 2 ^ 15 := Int.bmod_lt (by decide)
  rw [asInt32,Int32.toInt_ofInt]
  exact bmod_of_small (w := 32) (by decide) (by omega) (by omega)
lemma asInt32_eq_iff {v} : asInt32 v = v ↔ ReadableInt32 v := by
  have hlo : -2 ^ 15 ≤ (seen v.toInt).bmod (2 ^ 16) := Int.le_bmod (by decide)
  have hhi : (seen v.toInt).bmod (2 ^ 16) < 2 ^ 15 := Int.bmod_lt (by decide)
  rw [← Int32.toInt_inj,toInt_asInt32]
  constructor
  · intro h
    rw [h] at hlo hhi
    refine ⟨hlo,hhi,fun hbyte => ?_⟩
    rw [seen,bmod_of_small (by decide) (by omega) (by omega)] at h
    omega
  · rintro ⟨hlo,hhi,hbyte⟩
    rw [seen,if_neg hbyte,bmod_of_small (by decide) hlo hhi]
lemma asEnum_eq_iff {v} : asEnum v = v ↔ ReadableEnum v := by
  obtain ⟨hlo,hhi⟩ := seen_range
  have htoInt : (asEnum v).toInt = seen v.toInt := by
    rw [asEnum,Int32.toInt_ofInt]
    exact bmod_of_small (w := 32) (by decide) hlo hhi
  rw [← Int32.toInt_inj,htoInt,seen]
  split_ifs with h
  · exact ⟨fun heq => by omega,fun hnot => absurd h hnot⟩
  · exact ⟨fun _ => h,fun _ => rfl⟩

variable (enc : Encoding)

lemma utf8_getString_iff {t} : utf8 (enc.getString t) = t ↔ IsUtf8 t := by
  constructor
  · exact fun h => ⟨_,h⟩
  · rintro ⟨s,rfl⟩
    rw [enc.getString_utf8]

open Codec

lemma denoteText_eq_iff {t} (h : (castLength t.1).length < 2 ^ 31) :
    denoteText (some (enc.getString (castLength t.1))) = some t ↔ UnderstoodText t := by
  refine denoteString_some_iff.trans ?_
  constructor
  · intro ht
    have hlen := enc.length_getString (castLength t.1)
    rw [ht] at hlen
    rw [length_castLength] at h hlen
    exact ⟨⟨_,ht⟩,by omega⟩
  · rintro ⟨hutf8,hlen⟩
    rw [castLength_of_lt (by omega)]
    exact (utf8_getString_iff enc).2 hutf8

lemma denoteFixedText_eq_iff {n t} : denoteFixedText n (some (enc.getString t.1)) = some t ↔ IsUtf8 t.1 :=
  denoteString_some_iff.trans (utf8_getString_iff enc)
lemma denoteArray_toList {n} (v : Vector UInt8 n) : denoteArray n (some v.toList) = some v :=
  toVector_toList v

lemma denoteAddress_eq_iff (a : Address) : denoteAddress (some (addressOf enc a)) = some a ↔ UnderstoodAddress a := by
  cases a with
  | unspec => exact iff_of_true rfl trivial
  | inet _ addr | inet6 _ _ addr => exact iff_of_true (congrArg (Option.map _) (denoteArray_toList addr)) trivial
  | proxy =>
    rw [addressOf,denoteAddress,UnderstoodAddress,← asInt32_eq_iff,← denoteFixedText_eq_iff enc]
    simp [and_comm]
  | unix =>
    rw [addressOf,denoteAddress,UnderstoodAddress,← denoteFixedText_eq_iff enc]
    simp

lemma denoteMulticast_eq_iff (v : Multicast) : denoteMulticast (multicastOf v) = some v ↔ UnderstoodMulticast v := by
  cases v with
  | inet =>
    rw [multicastOf,denoteMulticast,denoteArray_toList,UnderstoodMulticast,← asInt32_eq_iff]
    simp
  | inet6 =>
    rw [multicastOf,denoteMulticast,denoteArray_toList,UnderstoodMulticast,← asInt32_eq_iff]
    simp only [Option.map_some,Option.some.injEq,Multicast.inet6.injEq,true_and]
    constructor
    · rintro ⟨hindex,hscope⟩
      exact ⟨hindex,by rw [← hscope,hindex]⟩
    · rintro ⟨hindex,hscope⟩
      exact ⟨hindex,by rw [hscope,hindex]⟩

lemma toInt64_nonneg_iff {v : UInt64} : 0 ≤ v.toInt64 ↔ v.toNat < 2 ^ 63 := by
  have hlt := v.toNat_lt
  rw [Int64.le_iff_toInt_le,Int64.toInt_zero,toInt_toInt64]
  split_ifs <;> omega
lemma denoteFileInfo_eq_iff (v : Codec.FileInfo) : denoteFileInfo (fileInfoOf v) = some v ↔ UnderstoodFileInfo v := by
  have hnatural : (fileInfoOf v).IsNatural ↔ v.inodeNumber.toNat < 2 ^ 63 ∧ v.deviceId.toNat < 2 ^ 63 ∧
      v.totalSize.toNat < 2 ^ 63 ∧ v.lastAtime.toNat < 2 ^ 63 ∧ v.lastMtime.toNat < 2 ^ 63 := by
    simp [FileInfo.IsNatural,fileInfoOf,toInt64_nonneg_iff]
  rw [denoteFileInfo,UnderstoodFileInfo,← hnatural,← asInt32_eq_iff]
  by_cases h : (fileInfoOf v).IsNatural
  · rw [if_pos h,and_iff_left h,Option.some.injEq]
    simp only [fileInfoOf,UInt64.toUInt64_toInt64]
    exact ⟨fun he => congrArg Codec.FileInfo.type he,fun he => by rw [he]⟩
  · exact iff_of_false (by rw [if_neg h]; exact nofun) fun hv => h hv.2
lemma denoteInterfaceInfo_eq_iff (v : Interface) :
    denoteInterfaceInfo (interfaceInfoOf enc v) = some v ↔ UnderstoodInterface v := by
  simp only [denoteInterfaceInfo,interfaceInfoOf,UnderstoodInterface,← denoteAddress_eq_iff enc,
    ← denoteFixedText_eq_iff enc,← asInt32_eq_iff,Option.bind_eq_bind,Option.bind_eq_some_iff]
  constructor
  · rintro ⟨address,haddress,name,hname,broadcastAddr,hbroadcast,he⟩
    obtain ⟨rfl,-,-,rfl,hindex,rfl⟩ := Interface.mk.inj (Option.some.inj he)
    exact ⟨haddress,hname,hindex,hbroadcast⟩
  · rintro ⟨haddress,hname,hindex,hbroadcast⟩
    exact ⟨_,haddress,_,hname,_,hbroadcast,by rw [hindex]; rfl⟩
lemma denoteAddressInfo_eq_iff (address : Address) {name} (h : (castLength name.1).length < 2 ^ 31) :
    denoteAddressInfo ⟨some (addressOf enc address),some (enc.getString (castLength name.1))⟩ =
      some (.addrInfo address name) ↔ UnderstoodAddress address ∧ UnderstoodText name := by
  rw [← denoteAddress_eq_iff enc,← denoteText_eq_iff enc h,denoteAddressInfo]
  simp only [Option.bind_eq_bind,Option.bind_eq_some_iff]
  constructor
  · rintro ⟨address',haddress,name',hname,he⟩
    obtain ⟨rfl,rfl⟩ := Value.addrInfo.inj (Option.some.inj he)
    exact ⟨haddress,hname⟩
  · rintro ⟨haddress,hname⟩
    exact ⟨_,haddress,_,hname,rfl⟩

lemma denote_propertyOf_iff {v} (h : ShortValue v) : (propertyOf enc v).denote = some v ↔ UnderstoodValue v := by
  cases v with
  | option type => exact iff_of_true (dif_pos type.2) trivial
  | multicast type =>
    rw [propertyOf,Property.denote_multicast type.2,UnderstoodValue,← denoteMulticast_eq_iff]
    simp
  | record type =>
    rw [propertyOf,Property.denote_bytes type.2,Option.map_some,Option.some.injEq,Value.record.injEq,
      and_iff_right rfl,castLength_eq_iff,UnderstoodValue]
    rw [ShortValue,length_castLength] at h
    omega
  | fileInfo =>
    rw [propertyOf,Property.denote_fileInfo,UnderstoodValue,← denoteFileInfo_eq_iff]
    simp
  | addrInfo address => exact denoteAddressInfo_eq_iff enc address h
  | ifAddrInfo =>
    rw [propertyOf,Property.denote_interfaceInfo,UnderstoodValue,← denoteInterfaceInfo_eq_iff enc]
    simp

section

variable {o : Codec.Options} (ho : o.OwnSlots)
include ho

lemma nodup_types : (((List.finRange prxSoMax).filterMap o).map Value.type).Nodup := by
  rw [map_filterMap]
  refine (nodup_finRange prxSoMax).filterMap ?_
  intro i j t hi hj
  obtain ⟨v,hv,rfl⟩ := Option.map_eq_some_iff.1 hi
  obtain ⟨w,hw,htype⟩ := Option.map_eq_some_iff.1 hj
  rw [ho i v hv,ho j w hw] at htype
  exact slot_injective htype.symm
lemma slotted_filterMap : slotted ((List.finRange prxSoMax).filterMap o) = o := by
  funext i
  ext v
  rw [slotted_eq_some_iff (nodup_types ho),mem_filterMap]
  constructor
  · rintro ⟨⟨j,-,hv⟩,htype⟩
    obtain rfl := slot_injective ((ho j v hv).symm.trans htype)
    exact hv
  · exact fun hv => ⟨⟨i,mem_finRange i,hv⟩,ho i v hv⟩

lemma denoteOptions_eq_iff :
    denoteOptions (some (((List.finRange prxSoMax).filterMap o).map fun v => some (propertyOf enc v))) = some o ↔
      ∀ i v, o i = some v → UnderstoodValue v := by
  have hshort : ∀ i v, o i = some v → ShortValue v := fun i v hv => shortValue_of_slot (ho i v hv)
  rw [denoteOptions,Option.bind_eq_bind,Option.bind_eq_some_iff]
  constructor
  · rintro ⟨values,hvalues,hslotted⟩ i v hv
    split_ifs at hslotted with hset
    obtain rfl := Option.some.inj hslotted
    have hmap := denoteProperties_eq_some_iff.1 hvalues
    rw [map_map] at hmap
    have hmem : (propertyOf enc v).denote ∈ values.map some := by
      rw [← hmap]
      exact mem_map.2 ⟨v,mem_filterMap.2 ⟨i,mem_finRange i,hv⟩,rfl⟩
    obtain ⟨w,hw,hdenote⟩ := mem_map.1 hmem
    -- both stand in the slot of their type
    have htype : w.type = v.type := by
      have htype := (Property.means_of_denote hdenote.symm).type_eq
      rw [propertyOf_type] at htype
      exact congrArg UInt32.toInt32 htype.symm
    have hw' := (slotted_eq_some_iff hset.2).2 ⟨hw,htype.trans (ho i v hv)⟩
    obtain rfl := Option.some.inj (hw'.symm.trans hv)
    exact (denote_propertyOf_iff enc (hshort i w hv)).1 hdenote.symm
  · intro h
    refine ⟨(List.finRange prxSoMax).filterMap o,denoteProperties_eq_some_iff.2 ?_,?_⟩
    · rw [map_map]
      apply map_congr_left
      intro v hv
      obtain ⟨i,-,hv⟩ := mem_filterMap.1 hv
      exact (denote_propertyOf_iff enc (hshort i v hv)).2 (h i v hv)
    · have hoption : ∀ v ∈ (List.finRange prxSoMax).filterMap o, isSocketOption v.type := by
        intro v hv
        obtain ⟨i,-,hv⟩ := mem_filterMap.1 hv
        exact v.isSocketOption_of_slot (ho i v hv)
      rw [if_pos ⟨hoption,nodup_types ho⟩,slotted_filterMap ho]

end

lemma denoteSocketInfo_eq_iff {p} (ho : p.options.OwnSlots) :
    denoteSocketInfo (socketInfoOf enc p) = some p ↔ UnderstoodProps p := by
  rw [UnderstoodProps,and_iff_right ho,← denoteOptions_eq_iff enc ho,← denoteAddress_eq_iff enc,← asEnum_eq_iff,
    ← asEnum_eq_iff,← asEnum_eq_iff,denoteSocketInfo]
  simp only [Option.bind_eq_bind,Option.bind_eq_some_iff]
  constructor
  · rintro ⟨address,haddress,options,hoptions,he⟩
    obtain ⟨hfamily,htype,hproto,-,-,rfl,rfl⟩ := Props.mk.inj (Option.some.inj he)
    exact ⟨hfamily,htype,hproto,haddress,hoptions⟩
  · rintro ⟨hfamily,htype,hproto,haddress,hoptions⟩
    refine ⟨_,haddress,_,hoptions,?_⟩
    simp only [socketInfoOf,hfamily,htype,hproto]
    rfl

lemma denote_contentOf_iff {b} (h : ShortBody b) (ho : b.OwnSlots) :
    (contentOf enc b).denote b.isResponse = some b ↔ UnderstoodBody b := by
  cases b with
  | data =>
    obtain ⟨hbuffer,hcontrol⟩ := h
    rw [length_castLength] at hbuffer hcontrol
    rw [UnderstoodBody,← denoteAddress_eq_iff enc,contentOf,denote]
    simp only [Option.bind_eq_bind,Option.bind_some,Option.bind_eq_some_iff]
    constructor
    · rintro ⟨source',hsource,he⟩
      obtain ⟨-,-,rfl,hb,hc⟩ := Body.data.inj (Option.some.inj he)
      rw [castLength_eq_iff] at hb hc
      exact ⟨hsource,by omega,by omega⟩
    · rintro ⟨hsource,hb,hc⟩
      rw [castLength_of_lt (by omega),castLength_of_lt (by omega)]
      exact ⟨_,hsource,rfl⟩
  | closeResponse =>
    rw [UnderstoodBody,← asInt32_eq_iff,contentOf,denote]
    simp only [Option.some.injEq,Body.closeResponse.injEq,true_and]
    constructor
    · exact fun ⟨hreceived,_,herror⟩ => ⟨hreceived.symm,herror⟩
    · exact fun ⟨hreceived,herror⟩ => ⟨hreceived.symm,hreceived,herror⟩
  | pingRequest =>
    rw [UnderstoodBody,← denoteAddress_eq_iff enc,contentOf,denote]
    simp
  | pingResponse =>
    rw [UnderstoodBody,← denoteAddress_eq_iff enc,contentOf,denote,denoteArray_toList]
    simp [Option.bind_eq_some_iff]
  | linkRequest =>
    rw [UnderstoodBody,← denoteSocketInfo_eq_iff enc ho,contentOf,denote]
    simp
  | linkResponse =>
    rw [UnderstoodBody,← denoteAddress_eq_iff enc,← denoteAddress_eq_iff enc,contentOf,denote]
    simp only [Option.bind_eq_bind,Option.bind_eq_some_iff]
    constructor
    · rintro ⟨localAddress',hlocal,peerAddress',hpeer,he⟩
      obtain ⟨-,rfl,rfl⟩ := Body.linkResponse.inj (Option.some.inj he)
      exact ⟨hlocal,hpeer⟩
    · rintro ⟨hlocal,hpeer⟩
      exact ⟨_,hlocal,_,hpeer,rfl⟩
  | openRequest =>
    rw [UnderstoodBody,← denoteText_eq_iff enc h,← asInt32_eq_iff,contentOf,denote,Option.map_eq_some_iff]
    constructor
    · rintro ⟨connectionString',htext,he⟩
      obtain ⟨-,htype,rfl,-,-⟩ := Body.openRequest.inj he
      exact ⟨htype,htext⟩
    · rintro ⟨htype,htext⟩
      exact ⟨_,htext,by rw [htype]; rfl⟩
  | setoptRequest | getoptResponse =>
    rw [UnderstoodBody,← denote_propertyOf_iff enc h,contentOf,denote]
    simp
  | getoptRequest =>
    rw [UnderstoodBody,← asEnum_eq_iff,contentOf,denote]
    simp
  | _ => exact iff_of_true rfl trivial

lemma denote_messageOf_iff (version : UInt32) {msg} (h : ShortBody msg.body)
    (ho : msg.body.OwnSlots) : (messageOf enc version msg).denote = some msg ↔ Understood msg := by
  rw [Understood,← denote_contentOf_iff enc h ho,← asInt32_eq_iff,Message.denote_eq_some_iff]
  constructor
  · rintro ⟨content,hcontent,hbody,-,-,-,-,-,herror⟩
    cases hcontent
    exact ⟨herror,hbody⟩
  · rintro ⟨herror,hbody⟩
    exact ⟨_,rfl,hbody,rfl,.inl rfl,rfl,rfl,rfl,herror⟩

end EdgeProxy.Client
